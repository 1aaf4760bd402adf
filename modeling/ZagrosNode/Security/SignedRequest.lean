import ZagrosNode.Security.Replay

/-!
# ZagrosNode — the authentication gate

`signed_request` guards every command endpoint: four headers, the signing key
of the identity store, an HMAC over the canonical request, and the nonce
cache. Inside its `try` block every `ValueError` becomes a 401; what happens
before that block, and every other exception inside it, escapes as it is.

A request is *authentic* when it carries a signature that is valid under the
current signing key, with a timestamp and a nonce the cache admits.

The order of the checks is the order of the source, because it decides what an answer
says and what is recorded: headers, key, node id, timestamp, signature, nonce. The
nonce comes last, so a request without a valid signature never touches the cache.

Header values are texts of the Latin-1 range, which is what the server decodes header
bytes to; that is why a signature outside ASCII can come in at all, and why
`compare_digest` can raise on it. A `TypeError` is none of the exceptions that become
a 401.

`Authentic` is stated without the checks: there is a key, the signature is the HMAC
of the canonical request under it, the timestamp is within the window of the clock,
and the nonce is admissible. That a request passes exactly if it is authentic is the
way to both results; what the failing checks leave alone is one lemma for the `try`
block and one for what is before it.

Main results:

* `unauthentic_records_nothing` — a request that is not authentic leaves the
  identity and `replay.json` alone and adds nothing to the cache in memory.
* `rejects_401_iff` — it is answered with exactly a 401 unless the signing key
  cannot be unsealed, or its signature header, reached with the right node id
  and a timestamp that parses, holds characters outside ASCII.
* `nonAscii_signature_escapes` — such a header raises `TypeError`.
-/

namespace ZagrosNode.Security

open ZagrosNode.Lib NodeIdentityStore

-- ---------------------------------------------------------------------------
-- Requests
-- ---------------------------------------------------------------------------

/-- A header value: the HTTP layer decodes header bytes as Latin-1. -/
structure HeaderValue where
  text   : String
  latin1 : text.toList.all (fun c => decide (c.toNat < 256)) = true

structure Request where
  node      : Option HeaderValue
  timestamp : Option HeaderValue
  nonce     : Option HeaderValue
  signature : Option HeaderValue
  method    : String
  path      : String
  body      : Bytes

/-- The four header texts, none of them empty. -/
structure Credentials where
  node      : String
  timestamp : String
  nonce     : String
  signature : String
  deriving DecidableEq

/-- A header as `all(...)` tests it: absent and empty count the same. -/
def headerText (h : Option HeaderValue) : Option String :=
  match h with
  | none   => none
  | some v => if v.text = "" then none else some v.text

def Request.credentials? (req : Request) : Option Credentials :=
  match headerText req.node, headerText req.timestamp, headerText req.nonce,
    headerText req.signature with
  | some node, some timestamp, some nonce, some signature =>
    some ⟨node, timestamp, nonce, signature⟩
  | _, _, _, _ => none

-- ---------------------------------------------------------------------------
-- Signatures
-- ---------------------------------------------------------------------------

def bodyHash (sha : Sha256) (body : Bytes) : String := sha.hexdigest body

def canonicalRequest (sha : Sha256) (method path timestamp nonce : String) (body : Bytes) :
    Bytes :=
  utf8 ("\n".intercalate [method.toUpper, path, timestamp, nonce, bodyHash sha body])

def signature (sha : Sha256) (key : Key32) (method path timestamp nonce : String)
    (body : Bytes) : String :=
  sha.hmacHexdigest key (canonicalRequest sha method path timestamp nonce body)

def invalidSignature : Failure := .security "invalid request signature"

def verifySignature (sha : Sha256) (key : Key32) (provided method path timestamp nonce : String)
    (body : Bytes) : Except Failure Unit :=
  match compareDigest (signature sha key method path timestamp nonce body) provided with
  | .error e   => .error (.py e)
  | .ok false  => .error invalidSignature
  | .ok true   => .ok ()

-- ---------------------------------------------------------------------------
-- The gate
-- ---------------------------------------------------------------------------

/-- What `signed_request` reads and writes. -/
structure Gate where
  store  : NodeIdentityStore
  dir    : DataDir
  replay : Replay

def missingHeaders : Failure := .http 401 "missing signature headers"

def notRegistered : Failure := .http 401 "node is not registered for this signer"

/-- `except (ValueError, NodeSecurityError) as exc` -/
def to401 (e : Failure) : Failure := if e.isValueError then .http 401 e.text else e

/-- The `try` block: timestamp, signature, nonce. -/
def checkSigned (sha : Sha256) (key : Key32) (c : Credentials) (req : Request) (r : Replay)
    (now : Int) (writeOk : Bool) : Except Failure Unit × Replay :=
  match intOfStr c.timestamp with
  | .error e      => (.error (.py e), r)
  | .ok timestamp =>
    match verifySignature sha key c.signature req.method req.path c.timestamp c.nonce req.body with
    | .error e => (.error e, r)
    | .ok ()   => r.accept c.nonce timestamp now writeOk

def signedRequest (sha : Sha256) (cipher : SecretsCipher) (g : Gate) (req : Request)
    (now : Int) (writeOk : Bool) : Except Failure String × Gate :=
  match req.credentials? with
  | none   => (.error missingHeaders, g)
  | some c =>
    match signingKey cipher g.store g.dir with
    | .error e       => (.error e, g)
    | .ok none       => (.error notRegistered, g)
    | .ok (some key) =>
      match NodeIdentityStore.read g.dir with
      | .error e  => (.error e, g)
      | .ok state =>
        if c.node ≠ state.nodeId then (.error notRegistered, g)
        else
          match checkSigned sha key c req g.replay now writeOk with
          | (.error e, replay) => (.error (to401 e), { g with replay := replay })
          | (.ok (), replay)   => (.ok c.node, { g with replay := replay })

/-- The request carries a valid signature for the current signing key, with a
timestamp inside the window and a nonce the cache does not hold. -/
def Authentic (sha : Sha256) (cipher : SecretsCipher) (g : Gate) (req : Request) (now : Int) :
    Prop :=
  ∃ c key timestamp, req.credentials? = some c ∧
    signingKey cipher g.store g.dir = .ok (some key) ∧ intOfStr c.timestamp = .ok timestamp ∧
    c.signature = signature sha key req.method req.path c.timestamp c.nonce req.body ∧
    g.replay.Fresh c.nonce timestamp now

/-- The signing key can be read, and the signature header is ASCII unless an
earlier check already refuses the request. -/
def RefusedEarlyOrAscii (cipher : SecretsCipher) (g : Gate) (req : Request) : Prop :=
  ∀ c, req.credentials? = some c →
    ∃ key?, signingKey cipher g.store g.dir = .ok key? ∧
      (key? = none ∨
        (∃ state, g.dir.identity = some state ∧ c.node ≠ state.nodeId) ∨
        (∃ e, intOfStr c.timestamp = .error e) ∨
        isAscii c.signature = true)

/-- Answered with a 401, the identity untouched, no nonce recorded in memory or
in the file. -/
structure CleanRejection (g : Gate) (result : Except Failure String × Gate) : Prop where
  status : ∃ detail, result.1 = .error (.http 401 detail)
  dir    : result.2.dir = g.dir
  file   : result.2.replay.file = g.replay.file
  seen   : ∀ nonce ts, result.2.replay.guard.seen.get? nonce = some ts →
             g.replay.guard.seen.get? nonce = some ts

-- ---------------------------------------------------------------------------
-- Failures of the parts
-- ---------------------------------------------------------------------------

variable {sha : Sha256} {cipher : SecretsCipher}

theorem signature_isHex (sha : Sha256) (key : Key32) (method path timestamp nonce : String)
    (body : Bytes) :
    IsHexDigest (signature sha key method path timestamp nonce body) :=
  sha.hmac_isHex _ _

/-- A failing `signing_key` raises the security error or finds no identity
file; it never raises an HTTP answer. -/
theorem signingKey_error_not_http {store : NodeIdentityStore} {d : DataDir} {e : Failure}
    (h : signingKey cipher store d = .error e) (status : Nat) (detail : String) :
    e ≠ .http status detail := by
  rintro rfl
  cases hId : d.identity with
  | none => simp [signingKey, NodeIdentityStore.read, hId, missingIdentity] at h
  | some state =>
    cases hEnc : state.signingKeyEnc with
    | none => simp [signingKey, NodeIdentityStore.read, hId, hEnc] at h
    | some value =>
      simp only [signingKey, NodeIdentityStore.read, hId, hEnc] at h
      split at h
      · cases h
      · split at h
        · cases h
        · split at h <;> cases h

theorem signingKey_some_identity {store : NodeIdentityStore} {d : DataDir} {key : Key32}
    (h : signingKey cipher store d = .ok (some key)) : ∃ state, d.identity = some state := by
  cases hId : d.identity with
  | none => simp [signingKey, NodeIdentityStore.read, hId] at h
  | some state => exact ⟨state, rfl⟩

/-- The three outcomes of the signature check. -/
theorem verifySignature_cases (sha : Sha256) (key : Key32)
    (provided method path timestamp nonce : String) (body : Bytes) :
    (isAscii provided = false ∧ ∃ text,
        verifySignature sha key provided method path timestamp nonce body =
          .error (.py ⟨.type, text⟩)) ∨
      (isAscii provided = true ∧
        provided ≠ signature sha key method path timestamp nonce body ∧
        verifySignature sha key provided method path timestamp nonce body =
          .error invalidSignature) ∨
      (isAscii provided = true ∧
        provided = signature sha key method path timestamp nonce body ∧
        verifySignature sha key provided method path timestamp nonce body = .ok ()) := by
  -- `compare_digest` takes texts of ASCII only, and the expected one is hexadecimal
  have hAscii := hexDigest_ascii
    (signature_isHex sha key method path timestamp nonce body)
  cases hProvided : isAscii provided with
  | false =>
    exact Or.inl ⟨rfl, _, by simp [verifySignature, compareDigest, hProvided]; rfl⟩
  | true =>
    by_cases hEq : provided = signature sha key method path timestamp nonce body
    · refine Or.inr (Or.inr ⟨rfl, hEq, ?_⟩)
      simp [verifySignature, compareDigest, hAscii, hEq]
    · refine Or.inr (Or.inl ⟨rfl, hEq, ?_⟩)
      have hBeq : (signature sha key method path timestamp nonce body == provided) = false :=
        beq_eq_false_iff_ne.mpr (Ne.symm hEq)
      simp [verifySignature, compareDigest, hAscii, hProvided, hBeq]

-- ---------------------------------------------------------------------------
-- The `try` block on a request that is not authentic
-- ---------------------------------------------------------------------------

/-- Nothing but pruning happens to the cache, and the block fails: with a value
error, or, reached with a signature header outside ASCII, with a type error. -/
theorem checkSigned_unauthentic (sha : Sha256) (key : Key32) (c : Credentials) (req : Request)
    (r : Replay) (now : Int) (writeOk : Bool)
    (h : ∀ timestamp, intOfStr c.timestamp = .ok timestamp →
      c.signature = signature sha key req.method req.path c.timestamp c.nonce req.body →
      ¬ r.Fresh c.nonce timestamp now) :
    ∃ e seen, checkSigned sha key c req r now writeOk =
        (.error e, { r with guard := { r.guard with seen := seen } }) ∧
      (seen = r.guard.seen ∨ seen = ReplayGuard.prune r.guard.window now r.guard.seen) ∧
      (e.isValueError = true ↔
        (∃ e', intOfStr c.timestamp = .error e') ∨ isAscii c.signature = true) ∧
      ∀ status detail, e ≠ .http status detail := by
  cases hInt : intOfStr c.timestamp with
  -- no number: a value error before anything else
  | error e =>
    refine ⟨.py e, r.guard.seen, by simp [checkSigned, hInt], Or.inl rfl, ?_, by simp⟩
    exact ⟨fun _ => Or.inl ⟨e, rfl⟩, fun _ => intOfStr_error hInt⟩
  | ok timestamp =>
    rcases verifySignature_cases sha key c.signature req.method req.path c.timestamp
      c.nonce req.body with ⟨hAscii, text, hEq⟩ | ⟨hAscii, -, hEq⟩ | ⟨hAscii, hValid, hEq⟩
    · refine ⟨.py ⟨.type, text⟩, r.guard.seen, by simp [checkSigned, hInt, hEq],
        Or.inl rfl, ?_, by simp⟩
      simp [hAscii, Failure.isValueError, PyErr.isValueError]
    · refine ⟨invalidSignature, r.guard.seen, by simp [checkSigned, hInt, hEq],
        Or.inl rfl, ?_, by simp [invalidSignature]⟩
      simp [hAscii, Failure.isValueError, invalidSignature]
    · rcases accept_cases r c.nonce timestamp now writeOk with
        ⟨hFresh, -⟩ | ⟨hFresh, -⟩ | ⟨-, text, seen, hSeen, hAccept⟩
      -- a valid signature and a fresh pair would be authentic
      · exact absurd hFresh (h timestamp hInt hValid)
      · exact absurd hFresh (h timestamp hInt hValid)
      · refine ⟨.security text, seen, by simp [checkSigned, hInt, hEq, hAccept], hSeen, ?_,
          by simp⟩
        simp [hAscii, Failure.isValueError]

theorem get?_of_pruned {window now : Int} {seen seen' : Dict String Int}
    (h : seen' = seen ∨ seen' = ReplayGuard.prune window now seen) {nonce : String} {ts : Int}
    (hGet : seen'.get? nonce = some ts) : seen.get? nonce = some ts := by
  rcases h with rfl | rfl
  · exact hGet
  · exact (get?_prune.mp hGet).1

/-- **What a request that is not authentic does.** It fails; the identity and
the file stay as they are, and the cache in memory is at most pruned. It is
answered with a 401 exactly under `RefusedEarlyOrAscii`. -/
theorem signedRequest_unauthentic {g : Gate} {req : Request} {now : Int} (writeOk : Bool)
    (h : ¬ Authentic sha cipher g req now) :
    ∃ e seen, signedRequest sha cipher g req now writeOk =
        (.error e, { g with replay := { g.replay with
          guard := { g.replay.guard with seen := seen } } }) ∧
      (seen = g.replay.guard.seen ∨
        seen = ReplayGuard.prune g.replay.guard.window now g.replay.guard.seen) ∧
      ((∃ detail, e = .http 401 detail) ↔ RefusedEarlyOrAscii cipher g req) := by
  cases hCred : req.credentials? with
  | none =>
    -- no credentials: answered before the identity is read
    refine ⟨missingHeaders, g.replay.guard.seen, by simp [signedRequest, hCred], Or.inl rfl, ?_⟩
    refine ⟨fun _ c hc => ?_, fun _ => ⟨_, rfl⟩⟩
    rw [hCred] at hc
    cases hc
  | some c =>
    have hRefused : RefusedEarlyOrAscii cipher g req ↔
        ∃ key?, signingKey cipher g.store g.dir = .ok key? ∧
          (key? = none ∨ (∃ state, g.dir.identity = some state ∧ c.node ≠ state.nodeId) ∨
            (∃ e, intOfStr c.timestamp = .error e) ∨ isAscii c.signature = true) := by
      simp [RefusedEarlyOrAscii, hCred]
    rw [hRefused]
    -- the key cannot be had, or there is none, or it is another node's
    cases hKey : signingKey cipher g.store g.dir with
    | error e =>
      refine ⟨e, g.replay.guard.seen, by simp [signedRequest, hCred, hKey], Or.inl rfl, ?_⟩
      constructor
      · rintro ⟨detail, rfl⟩
        exact absurd rfl (signingKey_error_not_http hKey 401 detail)
      · rintro ⟨key?, hOk, -⟩
        cases hOk
    | ok key? =>
      cases key? with
      | none =>
        refine ⟨notRegistered, g.replay.guard.seen, by simp [signedRequest, hCred, hKey],
          Or.inl rfl, ?_⟩
        exact ⟨fun _ => ⟨none, rfl, Or.inl rfl⟩, fun _ => ⟨_, rfl⟩⟩
      | some key =>
        obtain ⟨state, hId⟩ := signingKey_some_identity hKey
        by_cases hNode : c.node = state.nodeId
        · -- past the early checks: the outcome is that of the `try` block
          obtain ⟨e, seen, hCheck, hSeen, hValue, hHttp⟩ :=
            checkSigned_unauthentic sha key c req g.replay now writeOk
              (fun timestamp hInt hSig hFresh =>
                h ⟨c, key, timestamp, hCred, hKey, hInt, hSig, hFresh⟩)
          refine ⟨to401 e, seen, by
            simp [signedRequest, hCred, hKey, NodeIdentityStore.read, hId, hNode, hCheck],
            hSeen, ?_⟩
          -- in the `try` block only value errors become a 401
          have h401 : (∃ detail, to401 e = .http 401 detail) ↔ e.isValueError = true := by
            unfold to401
            split
            · next hv => exact ⟨fun _ => hv, fun _ => ⟨_, rfl⟩⟩
            · next hv =>
              refine ⟨?_, fun hv' => absurd hv' hv⟩
              rintro ⟨detail, hEq⟩
              exact absurd hEq (hHttp 401 detail)
          rw [h401, hValue]
          constructor
          · intro hOr
            exact ⟨some key, rfl, Or.inr (Or.inr hOr)⟩
          · rintro ⟨key?, hOk, hNone | ⟨state', hId', hNe⟩ | hOr⟩
            · rw [hNone] at hOk
              cases hOk
            · rw [hId] at hId'
              obtain rfl := Option.some.inj hId'
              exact absurd hNode hNe
            · exact hOr
        · refine ⟨notRegistered, g.replay.guard.seen, by
            simp [signedRequest, hCred, hKey, NodeIdentityStore.read, hId, hNode],
            Or.inl rfl, ?_⟩
          exact ⟨fun _ => ⟨some key, rfl, Or.inr (Or.inl ⟨state, hId, hNode⟩)⟩,
            fun _ => ⟨_, rfl⟩⟩

/-- **A forged request burns nothing.** Whatever it is answered with, a request
that is not authentic leaves the identity and `replay.json` as they were and
records no nonce in memory. -/
theorem unauthentic_records_nothing {g : Gate} {req : Request} {now : Int} (writeOk : Bool)
    (h : ¬ Authentic sha cipher g req now) :
    (signedRequest sha cipher g req now writeOk).2.dir = g.dir ∧
      (signedRequest sha cipher g req now writeOk).2.replay.file = g.replay.file ∧
      ∀ nonce ts, (signedRequest sha cipher g req now writeOk).2.replay.guard.seen.get? nonce =
        some ts → g.replay.guard.seen.get? nonce = some ts := by
  obtain ⟨e, seen, hEq, hSeen, -⟩ := signedRequest_unauthentic writeOk h
  rw [hEq]
  exact ⟨rfl, rfl, fun nonce ts hGet => get?_of_pruned hSeen hGet⟩

/--
**The gate answers 401.** A request that is not authentic is answered with
exactly HTTP 401, recording no nonce and leaving the identity alone, **if and
only if** some credential is missing or empty, or the signing key can be read
and the node is unpaired, the node id differs, the timestamp does not parse,
or the signature header is ASCII.
-/
theorem rejects_401_iff (sha : Sha256) (cipher : SecretsCipher) (g : Gate) (req : Request)
    (now : Int) (writeOk : Bool) (h : ¬ Authentic sha cipher g req now) :
    CleanRejection g (signedRequest sha cipher g req now writeOk) ↔
      RefusedEarlyOrAscii cipher g req := by
  obtain ⟨hDir, hFile, hSeen⟩ := unauthentic_records_nothing writeOk h
  obtain ⟨e, seen, hEq, -, hStatus⟩ := signedRequest_unauthentic writeOk h
  rw [← hStatus]
  constructor
  · rintro ⟨⟨detail, hDetail⟩, -, -, -⟩
    rw [hEq] at hDetail
    exact ⟨detail, Except.error.inj hDetail⟩
  · rintro ⟨detail, rfl⟩
    exact ⟨⟨detail, by rw [hEq]⟩, hDir, hFile, hSeen⟩

-- ---------------------------------------------------------------------------
-- A signature header outside ASCII
-- ---------------------------------------------------------------------------

/-- No valid signature holds a character outside ASCII. -/
theorem not_authentic_of_nonAscii {g : Gate} {req : Request} {now : Int} {c : Credentials}
    (hCred : req.credentials? = some c) (hAscii : isAscii c.signature = false) :
    ¬ Authentic sha cipher g req now := by
  rintro ⟨c', key, timestamp, hCred', -, -, hSig, -⟩
  rw [hCred] at hCred'
  obtain rfl := Option.some.inj hCred'
  rw [hSig, hexDigest_ascii (signature_isHex sha _ _ _ _ _ _)] at hAscii
  cases hAscii

/-- SHA-256 and HMAC-SHA256 where a heartbeat request at 1700000000 with an
empty body evaluates them. -/
def heartbeatSha : Sha256 where
  hexdigest _       := "e3b0c44298fc1c149afbf4c8996fb92427ae41e4649b934ca495991b7852b855"
  hmacHexdigest _ _ := "dff46148ad903c26951d2c398c3f16ed5f339b2480977616bcf241d2cc80ba7a"
  isHex _           := by unfold IsHexDigest; decide
  hmac_isHex _ _    := by unfold IsHexDigest; decide

def heartbeatKey : Key32 := repeatedKey 7

/-- A paired node with an empty nonce cache. -/
def pairedGate : Gate where
  store  := ⟨heartbeatKey⟩
  dir    :=
    { identityKey := some heartbeatKey.val
      identity := some
        { nodeId := "n0de", registrationTokenHash := "",
          signingKeyEnc := some (plainCipher.encrypt heartbeatKey [] heartbeatKey.val
            (signingAad "n0de")),
          registeredPanel := some "panel-01", registeredAt := some 1699999999 }
      audit := [] }
  replay := ⟨⟨ReplayGuard.defaultWindow, Dict.empty⟩, none⟩

/-- A heartbeat at 1700000000 with the given signature header. -/
def heartbeat (signature : HeaderValue) : Request where
  node      := some ⟨"n0de", by decide⟩
  timestamp := some ⟨"1700000000", by decide⟩
  nonce     := some ⟨"0123456789abcdef0123456789abcdef", by decide⟩
  signature := some signature
  method    := "GET"
  path      := "/v1/heartbeat"
  body      := []

def validSignature : HeaderValue :=
  ⟨"dff46148ad903c26951d2c398c3f16ed5f339b2480977616bcf241d2cc80ba7a", by decide⟩

def nonAsciiSignature : HeaderValue := ⟨"é", by decide⟩

theorem nonAsciiHeartbeat_not_authentic :
    ¬ Authentic heartbeatSha plainCipher pairedGate (heartbeat nonAsciiSignature) 1700000000 :=
  not_authentic_of_nonAscii
    (c := ⟨"n0de", "1700000000", "0123456789abcdef0123456789abcdef", "é"⟩)
    (by decide) (by decide +kernel)

/-- The comparison of digests raises `TypeError`, which no handler turns into
a 401. -/
theorem nonAscii_signature_escapes :
    ¬ Authentic heartbeatSha plainCipher pairedGate (heartbeat nonAsciiSignature) 1700000000 ∧
      ¬ CleanRejection pairedGate (signedRequest heartbeatSha plainCipher pairedGate
        (heartbeat nonAsciiSignature) 1700000000 true) := by
  refine ⟨nonAsciiHeartbeat_not_authentic, ?_⟩
  rintro ⟨⟨detail, hStatus⟩, -, -, -⟩
  have hType : (signedRequest heartbeatSha plainCipher pairedGate
      (heartbeat nonAsciiSignature) 1700000000 true).1 =
        .error (.py ⟨.type, "comparing strings with non-ASCII characters is not supported"⟩) := by
    decide
  rw [hType] at hStatus
  cases hStatus

/-- The condition at that heartbeat: it fails, and so does the clean rejection. -/
theorem nonAsciiHeartbeat_iff :
    ¬ Authentic heartbeatSha plainCipher pairedGate (heartbeat nonAsciiSignature) 1700000000 ∧
      (CleanRejection pairedGate (signedRequest heartbeatSha plainCipher pairedGate
          (heartbeat nonAsciiSignature) 1700000000 true) ↔
        RefusedEarlyOrAscii plainCipher pairedGate (heartbeat nonAsciiSignature)) :=
  ⟨nonAsciiHeartbeat_not_authentic,
    rejects_401_iff heartbeatSha plainCipher pairedGate (heartbeat nonAsciiSignature)
      1700000000 true nonAsciiHeartbeat_not_authentic⟩

end ZagrosNode.Security
