import ZagrosNode.Lib.Py

/-!
# ZagrosNode — signer identity and registration

`NodeIdentityStore` keeps the node's identity in `identity.json` under the
data directory, next to the local key that seals the signing key and the
audit log. The bootstrap token is stored as a SHA-256 hash only; `register`
burns the hash and hands out a signing key, `revoke` forgets the pairing, and
`reset_registration` forgets it and arms a new hash. Constructing the store
also writes: it mints a missing identity, and it replaces the stored hash by
a differing hash from the environment.

The hash functions and the sealing of the signing key are parameters:
`Sha256` carries the shape of a hex digest, `SecretsCipher` that unsealing
undoes sealing.

Every function of the store is a transition over `DataDir`, the files it reads and
writes, and returns the files beside its result, so that what an exception leaves
is part of the model. The writes of this module do not fail; what a failing one
leaves is the subject of a module of its own, which is tied to this one by a
theorem.

Two things that are easy to lose are kept:

* **Constructing writes.** `init` is called by the agent at its start and by the
  `info` command, with the hash of the environment, and `seedIdentity` is where a
  burned hash is armed again.
* **Comparing raises.** `hmac.compare_digest` takes texts only if both are ASCII, and
  raises `TypeError` otherwise. `compareDigest` returns an `Except` for that.

Time, random bytes and node ids are arguments of the calls that draw them.

Main results:

* `register_ok_iff` — `register` accepts a token exactly when its digest is
  the stored hash.
* `signingKey_register` — after an accepted registration the store unseals
  the key it handed out.
-/

namespace ZagrosNode.Security

open ZagrosNode.Lib

abbrev Bytes := List UInt8

/-- A 32-byte key. -/
abbrev Key32 := { k : Bytes // k.length = 32 }

/-- The key that repeats one byte, for runs on fixed inputs. -/
def repeatedKey (b : UInt8) : Key32 := ⟨List.replicate 32 b, List.length_replicate⟩

/-- `s.encode("utf-8")` -/
def utf8 (s : String) : Bytes := s.toUTF8.toList

-- ---------------------------------------------------------------------------
-- Failures
-- ---------------------------------------------------------------------------

/-- What leaves a function of the agent as an exception. -/
inductive Failure
  | security (text : String)
  | http (status : Nat) (detail : String)
  | py (e : PyErr)
  deriving DecidableEq, Repr

/-- `isinstance(e, ValueError)`; `NodeSecurityError` is a subclass. -/
def Failure.isValueError : Failure → Bool
  | .security _ => true
  | .http _ _   => false
  | .py e       => e.isValueError

/-- `str(e)` -/
def Failure.text : Failure → String
  | .security text => text
  | .http _ detail => detail
  | .py e          => e.text

-- ---------------------------------------------------------------------------
-- Parameters
-- ---------------------------------------------------------------------------

def hexDigits : List Char := "0123456789abcdef".toList

/-- A SHA-256 hex digest: 64 lower-case hex digits. -/
def IsHexDigest (s : String) : Prop :=
  s.length = 64 ∧ s.toList.all (fun c => hexDigits.contains c) = true

/-- SHA-256 and HMAC-SHA256, as hex digests. -/
structure Sha256 where
  hexdigest     : Bytes → String
  hmacHexdigest : (key message : Bytes) → String
  isHex         : ∀ b, IsHexDigest (hexdigest b)
  hmac_isHex    : ∀ key message, IsHexDigest (hmacHexdigest key message)

/-- Sealing of key bytes under the local key, bound to associated data: the
cipher over the base64 text of the key. A sealed blob is never empty. -/
structure SecretsCipher where
  encrypt : (localKey : Key32) → (nonce : Bytes) → (key : Bytes) → (aad : String) → String
  decrypt : (localKey : Key32) → (blob aad : String) → Except PyErr Bytes
  encrypt_ne_empty : ∀ k nonce key aad, encrypt k nonce key aad ≠ ""
  decrypt_encrypt  : ∀ k nonce key aad, decrypt k (encrypt k nonce key aad) aad = .ok key

theorem byteChar_toNat (b : UInt8) : UInt8.ofNat (Char.ofNat b.toNat).toNat = b := by
  have hLt : b.toNat < 256 := b.toNat_lt
  have hValid : b.toNat.isValidChar := Or.inl (by omega)
  have hChar : (Char.ofNat b.toNat).toNat = b.toNat := by
    rw [Char.ofNat, dif_pos hValid]
    rfl
  rw [hChar]
  simp

/-- The blob format without the encryption, for runs on fixed inputs. -/
def plainCipher : SecretsCipher where
  encrypt _ _ key _ := "v1:" ++ String.ofList (key.map fun b => Char.ofNat b.toNat)
  decrypt _ blob _  := .ok ((blob.toList.drop 3).map fun c => UInt8.ofNat c.toNat)
  encrypt_ne_empty _ _ key _ := by
    intro h
    have hLen := congrArg String.toList h
    simp at hLen
  decrypt_encrypt _ _ key _ := by
    simp only [String.toList_append, String.toList_ofList]
    rw [show ("v1:" : String).toList = ['v', '1', ':'] from rfl]
    simp [List.map_map, Function.comp_def, byteChar_toNat]

theorem hexDigest_ne_empty {s : String} (h : IsHexDigest s) : s ≠ "" := by
  rintro rfl
  exact absurd h.1 (by decide)

theorem hexDigest_ascii {s : String} (h : IsHexDigest s) : isAscii s = true := by
  have hAll : hexDigits.all (fun d => decide (d.toNat < 128)) = true := by decide
  rw [List.all_eq_true] at hAll
  rw [isAscii, List.all_eq_true]
  intro c hc
  have hHex : hexDigits.contains c = true := List.all_eq_true.mp h.2 c hc
  exact hAll c (List.contains_iff_mem.mp hHex)

/-- `hmac.compare_digest(a, b)` on two `str`: text outside ASCII is a
`TypeError`. -/
def compareDigest (a b : String) : Except PyErr Bool :=
  if isAscii a && isAscii b then .ok (a == b)
  else .error ⟨.type, "comparing strings with non-ASCII characters is not supported"⟩

-- ---------------------------------------------------------------------------
-- The data directory
-- ---------------------------------------------------------------------------

/-- `identity.json` -/
structure Identity where
  nodeId                : String
  registrationTokenHash : String
  signingKeyEnc         : Option String
  registeredPanel       : Option String
  registeredAt          : Option Int
  deriving DecidableEq, Repr

/-- One line of `audit.jsonl`. -/
structure AuditRow where
  ts     : Int
  action : String
  detail : List (String × String)
  deriving DecidableEq, Repr

/-- The files of the data directory that the store reads and writes. -/
structure DataDir where
  identityKey : Option Bytes
  identity    : Option Identity
  audit       : List AuditRow
  deriving DecidableEq, Repr

def DataDir.empty : DataDir := ⟨none, none, []⟩

/-- Random material a construction of the store may need. -/
structure Fresh where
  localKey : Key32
  nodeId   : String

/-- A constructed store: the local key its cipher was built with. -/
structure NodeIdentityStore where
  localKey : Key32

namespace NodeIdentityStore

/-- Mint a missing identity, or replace the stored hash by a differing hash
given by the environment. -/
def seedIdentity (fresh : Fresh) (registrationHash : Option String)
    (identity : Option Identity) : Identity :=
  match identity with
  | none =>
    { nodeId := fresh.nodeId, registrationTokenHash := registrationHash.getD "",
      signingKeyEnc := none, registeredPanel := none, registeredAt := none }
  | some state =>
    match registrationHash with
    | none      => state
    | some hash =>
      if hash ≠ "" ∧ state.registrationTokenHash ≠ hash then
        { state with registrationTokenHash := hash }
      else state

/-- `NodeIdentityStore(root, registration_hash)` -/
def init (fresh : Fresh) (registrationHash : Option String) (d : DataDir) :
    Except Failure NodeIdentityStore × DataDir :=
  let localKey := d.identityKey.getD fresh.localKey
  let d := { d with identityKey := some localKey }
  if h : localKey.length = 32 then
    (.ok ⟨⟨localKey, h⟩⟩,
      { d with identity := some (seedIdentity fresh registrationHash d.identity) })
  else
    (.error (.security "identity.key must contain exactly 32 bytes"), d)

def missingIdentity : Failure := .py ⟨.notFound, "identity.json"⟩

/-- `_read` -/
def read (d : DataDir) : Except Failure Identity :=
  match d.identity with
  | some state => .ok state
  | none       => .error missingIdentity

def signingAad (nodeId : String) : String := "node-signing:" ++ nodeId

/-- `_seal_signing_key` -/
def sealSigningKey (cipher : SecretsCipher) (self : NodeIdentityStore) (nonce : Bytes)
    (key : Key32) (nodeId : String) : String :=
  cipher.encrypt self.localKey nonce key (signingAad nodeId)

/-- `signing_key` -/
def signingKey (cipher : SecretsCipher) (self : NodeIdentityStore) (d : DataDir) :
    Except Failure (Option Key32) :=
  match read d with
  | .error e  => .error e
  | .ok state =>
    match state.signingKeyEnc with
    | none       => .ok none
    | some value =>
      if value = "" then .ok none
      else
        match cipher.decrypt self.localKey value (signingAad state.nodeId) with
        | .error _ => .error (.security "node signing key cannot be unsealed")
        | .ok key  =>
          if h : key.length = 32 then .ok (some ⟨key, h⟩)
          else .error (.security "node signing key has invalid length")

def invalidToken : Failure := .security "invalid or already-consumed registration token"

/-- `_write` of a new identity followed by `audit`. -/
def commit (d : DataDir) (state : Identity) (row : AuditRow) : DataDir :=
  { d with identity := some state, audit := d.audit ++ [row] }

/-- The arguments and the randomness of one `register` call. -/
structure RegisterCall where
  token   : String
  panelId : String
  key     : Key32
  nonce   : Bytes
  now     : Int

/-- The identity after a registration: the hash is burned, the key sealed. -/
def paired (cipher : SecretsCipher) (self : NodeIdentityStore) (call : RegisterCall)
    (state : Identity) : Identity :=
  { state with
    registrationTokenHash := ""
    signingKeyEnc := some (sealSigningKey cipher self call.nonce call.key state.nodeId)
    registeredPanel := some call.panelId
    registeredAt := some call.now }

/-- `register` -/
def register (sha : Sha256) (cipher : SecretsCipher) (self : NodeIdentityStore)
    (call : RegisterCall) (d : DataDir) : Except Failure Key32 × DataDir :=
  match read d with
  | .error e  => (.error e, d)
  | .ok state =>
    let expected := state.registrationTokenHash
    let actual := sha.hexdigest (utf8 call.token)
    if expected = "" then (.error invalidToken, d)
    else
      match compareDigest expected actual with
      | .error e   => (.error (.py e), d)
      | .ok false  => (.error invalidToken, d)
      | .ok true   =>
        (.ok call.key,
          commit d (paired cipher self call state)
            ⟨call.now, "node.register", [("panel_id", call.panelId)]⟩)

/-- The part `revoke` and `reset_registration` share: forget the pairing. -/
def unpair (state : Identity) : Identity :=
  { state with signingKeyEnc := none, registeredPanel := none, registeredAt := none }

/-- `revoke` -/
def revoke (now : Int) (d : DataDir) : Except Failure Unit × DataDir :=
  match read d with
  | .error e  => (.error e, d)
  | .ok state => (.ok (), commit d (unpair state) ⟨now, "node.revoke", []⟩)

/-- `reset_registration` -/
def resetRegistration (registrationHash : String) (now : Int) (d : DataDir) :
    Except Failure Unit × DataDir :=
  match read d with
  | .error e  => (.error e, d)
  | .ok state =>
    (.ok (),
      commit d { unpair state with registrationTokenHash := registrationHash }
        ⟨now, "node.reset_registration", []⟩)

-- ---------------------------------------------------------------------------
-- Reading the operations back
-- ---------------------------------------------------------------------------

theorem compareDigest_ok_true {a b : String} :
    compareDigest a b = .ok true ↔ isAscii a = true ∧ isAscii b = true ∧ a = b := by
  unfold compareDigest
  by_cases h : (isAscii a && isAscii b) = true
  · rw [if_pos h]
    rw [Bool.and_eq_true] at h
    simp [h]
  · rw [if_neg h]
    rw [Bool.and_eq_true] at h
    constructor
    · intro hEq
      cases hEq
    · rintro ⟨ha, hb, -⟩
      exact absurd ⟨ha, hb⟩ h

/-- What `register` can do: hand out the key and pair, exactly when the stored
hash is the digest of the presented token, or refuse and touch nothing. -/
theorem register_cases (sha : Sha256) (cipher : SecretsCipher) (self : NodeIdentityStore)
    (call : RegisterCall) (d : DataDir) :
    (∃ state, d.identity = some state ∧
        state.registrationTokenHash = sha.hexdigest (utf8 call.token) ∧
        register sha cipher self call d =
          (.ok call.key, commit d (paired cipher self call state)
            ⟨call.now, "node.register", [("panel_id", call.panelId)]⟩)) ∨
      ((∀ state, d.identity = some state →
          state.registrationTokenHash ≠ sha.hexdigest (utf8 call.token)) ∧
        ∃ e, register sha cipher self call d = (.error e, d)) := by
  cases hId : d.identity with
  -- no identity file: the read raises
  | none =>
    refine Or.inr ⟨?_, missingIdentity, by simp [register, read, hId]⟩
    intro state hState
    cases hState
  | some state =>
    have hHex := sha.isHex (utf8 call.token)
    by_cases hHash : state.registrationTokenHash = sha.hexdigest (utf8 call.token)
    -- the digest of a token is not empty, and both sides of the comparison are ASCII
    · have hNe : state.registrationTokenHash ≠ "" := hHash ▸ hexDigest_ne_empty hHex
      have hCmp : compareDigest state.registrationTokenHash
          (sha.hexdigest (utf8 call.token)) = .ok true :=
        compareDigest_ok_true.mpr
          ⟨hHash ▸ hexDigest_ascii hHex, hexDigest_ascii hHex, hHash⟩
      exact Or.inl ⟨state, rfl, hHash, by simp [register, read, hId, hNe, hCmp]⟩
    -- another hash: refused at the first check, or by the comparison, or with its exception
    · refine Or.inr ⟨?_, ?_⟩
      · intro state' hState
        obtain rfl := Option.some.inj hState
        exact hHash
      · simp only [register, read, hId]
        by_cases hNe : state.registrationTokenHash = ""
        · exact ⟨invalidToken, by rw [if_pos hNe]⟩
        · rw [if_neg hNe]
          cases hCmp : compareDigest state.registrationTokenHash
              (sha.hexdigest (utf8 call.token)) with
          | error e => exact ⟨.py e, rfl⟩
          | ok equal =>
            cases equal with
            | false => exact ⟨invalidToken, rfl⟩
            | true => exact absurd (compareDigest_ok_true.mp hCmp).2.2 hHash

/--
**Acceptance.** `register` hands out a key exactly when the stored hash is the
digest of the presented token. A hash that was emptied accepts no token, since
no digest is empty.
-/
theorem register_ok_iff {sha : Sha256} {cipher : SecretsCipher} {self : NodeIdentityStore}
    {call : RegisterCall} {d : DataDir} :
    (∃ key, (register sha cipher self call d).1 = .ok key) ↔
      ∃ state, d.identity = some state ∧
        state.registrationTokenHash = sha.hexdigest (utf8 call.token) := by
  rcases register_cases sha cipher self call d with ⟨state, hId, hHash, hEq⟩ | ⟨hNo, e, hEq⟩
  · rw [hEq]
    exact ⟨fun _ => ⟨state, hId, hHash⟩, fun _ => ⟨call.key, rfl⟩⟩
  · rw [hEq]
    constructor
    · rintro ⟨key, hOk⟩
      cases hOk
    · rintro ⟨state, hId, hHash⟩
      exact absurd hHash (hNo state hId)

/-- After an accepted registration the store unseals the key it handed out. -/
theorem signingKey_register {sha : Sha256} {cipher : SecretsCipher} {self : NodeIdentityStore}
    {call : RegisterCall} {d : DataDir} {key : Key32}
    (h : (register sha cipher self call d).1 = .ok key) :
    signingKey cipher self (register sha cipher self call d).2 = .ok (some key) := by
  rcases register_cases sha cipher self call d with ⟨state, -, -, hEq⟩ | ⟨-, e, hEq⟩
  · rw [hEq] at h ⊢
    obtain rfl := Except.ok.inj h
    have hNe := cipher.encrypt_ne_empty self.localKey call.nonce call.key
      (signingAad state.nodeId)
    simp [signingKey, read, commit, paired, sealSigningKey, hNe, cipher.decrypt_encrypt,
      call.key.property]
  · rw [hEq] at h
    cases h

end NodeIdentityStore

end ZagrosNode.Security
