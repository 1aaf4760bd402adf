import ZagrosNode.Lib.Py
import ZagrosNode.Lib.Text
import ZagrosNode.Lib.Volume

/-!
# ZagrosNode — the certificate of the node

`ensure` returns the certificate of the node, generating a key and a
self-signed certificate if one of the two files is missing. Each file is moved
into place as a whole, the key first. A start that ends between the two moves
leaves a new key, and beside it whatever certificate there was before.

`cryptography` is a structure of the functions that are used of it, for a type of keys
and one of certificates; its laws are that a certificate is signed for the key it was
signed with, and that what is written as PEM is read back. `ipaddress` decides which
names become addresses, and a name outside ASCII that is none raises.

`generate` returns what it does to files as a list of effects on a volume with four
places: the two files and the parts they are written to. A start that ends early has
done a first part of the list, so `interrupted` is over every number of effects, and
the whole question is which of the prefixes are harmful. `Between` is the one kind
that is: the key has been moved and the certificate has not. If there was no
certificate either, the next start generates both again, which is why the condition
`LeavesHalf` also asks for one.

A start looks only at whether both files are there. So a pair that is once broken is
never repaired, and one that is sound is returned by every start (`Steady`).

Main results:

* `generate_stopped` — the two files wherever `generate` stopped.
* `ensure_of_both` — with both files there, nothing is written and every start
  gets the same certificate.
* `pair_consistent_iff` — when the start after an interrupted one has a
  matching pair.
* `sound_run` — a pair stays a matching one over any number of starts, none of
  which leaves a certificate beside another key.
* `half_replaced` — a start that does.
-/

namespace ZagrosNode.Security.Tls

open ZagrosNode.Lib Volume

-- ---------------------------------------------------------------------------
-- Certificates
-- ---------------------------------------------------------------------------

/-- An entry of the subject alternative names. -/
inductive San
  | dns (name : List Char)
  | ip (address : List Char)
  deriving DecidableEq

def San.value : San → List Char
  | .dns name   => name
  | .ip address => address

/-- What is signed into a certificate besides its key. -/
structure Request where
  sans   : List San
  serial : Nat
  /-- in seconds -/
  now    : Int

/-- What the code uses of `cryptography` and of `ipaddress`, for private keys
`κ` and certificates `χ`. -/
structure Library (κ χ : Type) where
  /-- `str(ipaddress.ip_address(value))`, if the value is an address -/
  ipAddress     : List Char → Option (List Char)
  /-- the certificate that is built and signed with a key -/
  selfSign      : κ → Request → χ
  /-- `key.public_key().public_numbers()` -/
  publicNumbers : κ → Nat
  /-- `cert.public_key().public_numbers()` -/
  certNumbers   : χ → Nat
  keyPem        : κ → List Char
  certPem       : χ → List Char
  loadKey       : List Char → Except PyErr κ
  loadCert      : List Char → Except PyErr χ
  /-- `cert.fingerprint(hashes.SHA256()).hex()` -/
  fingerprint   : χ → String
  /-- `cert.not_valid_after_utc.isoformat()` -/
  notAfter      : χ → String
  /-- `_describe_sans` -/
  describeSans  : χ → List (List Char)
  certNumbers_selfSign : ∀ key request, certNumbers (selfSign key request) = publicNumbers key
  loadKey_keyPem       : ∀ key, loadKey (keyPem key) = .ok key
  loadCert_certPem     : ∀ cert, loadCert (certPem cert) = .ok cert

/-- `NodeCertificate` -/
structure NodeCertificate where
  certPath    : String
  keyPath     : String
  fingerprint : String
  notAfter    : String
  sans        : List (List Char)
  deriving DecidableEq

/-- The fields of the configuration that are read. -/
structure NodeConfig where
  tlsCert : String
  tlsKey  : String
  name    : List Char
  address : List Char

/-- What a start of the agent draws and finds. -/
structure Start (κ : Type) where
  key      : κ
  serial   : Nat
  now      : Int
  /-- `detect_primary_ip()` -/
  detected : Option (List Char)

-- ---------------------------------------------------------------------------
-- Names
-- ---------------------------------------------------------------------------

variable {κ χ : Type} (lib : Library κ χ)

/-- One turn of the loop of `_san_entries`, for a name that is not empty:
`x509.DNSName` takes ASCII only. -/
def sanEntry (value : List Char) : Except PyErr San :=
  match lib.ipAddress value with
  | some address => .ok (.ip address)
  | none         =>
    if value.all fun c => decide (c.toNat < 128) then .ok (.dns value)
    else .error ⟨.value, "DNSName values should be passed as an A-label string."⟩

/-- `_san_entries` -/
def sanEntries (names : List (List Char)) : Except PyErr (List San) :=
  ((names.map strip).filter fun value => !value.isEmpty).mapM (sanEntry lib)

def guaranteedNames : List (List Char) :=
  ["localhost".toList, "127.0.0.1".toList, "::1".toList]

/-- The names a panel reaches the node by come first. -/
def addGuaranteed (sans : List San) : List (List Char) → Except PyErr (List San)
  | []           => .ok sans
  | name :: rest => do
    let entry ← sanEntry lib name
    addGuaranteed (if sans.contains entry then sans else entry :: sans) rest

/-- The names `ensure` hands to `generate`. -/
def startNames (config : NodeConfig) (start : Start κ) : List (List Char) :=
  (if config.name.isEmpty then [] else [config.name]) ++
    ((splitSep ',' config.address).map strip).filter (fun part => !part.isEmpty) ++
    start.detected.toList

/-- The names of a new certificate. -/
def sansOf (config : NodeConfig) (start : Start κ) : Except PyErr (List San) := do
  let sans ← sanEntries lib (startNames config start)
  addGuaranteed lib sans guaranteedNames

-- ---------------------------------------------------------------------------
-- Files
-- ---------------------------------------------------------------------------

/-- The two files and the parts they are written to. -/
inductive TlsFile
  | key | keyPart | cert | certPart
  deriving DecidableEq, Repr

abbrev TlsDir := Volume TlsFile Char

def keyEffects (start : Start κ) : List (Effect TlsFile Char) :=
  store .keyPart .key (lib.keyPem start.key) 0o600

/-- The certificate a start generates. -/
def newCert (start : Start κ) (sans : List San) : χ :=
  lib.selfSign start.key ⟨sans, start.serial, start.now⟩

def certEffects (start : Start κ) (sans : List San) : List (Effect TlsFile Char) :=
  store .certPart .cert (lib.certPem (newCert lib start sans)) 0o644

/-- `generate`: what it returns, and what it does to files. Its directory is
taken to be there. -/
def generate (config : NodeConfig) (start : Start κ) :
    Except PyErr NodeCertificate × List (Effect TlsFile Char) :=
  match sansOf lib config start with
  | .error e => (.error e, [])
  | .ok sans =>
    let cert := newCert lib start sans
    (.ok ⟨config.tlsCert, config.tlsKey, lib.fingerprint cert, lib.notAfter cert,
        sans.map San.value⟩,
      keyEffects lib start ++ certEffects lib start sans)

/-- What `ensure` reads from the certificate file. -/
def readCertificate (config : NodeConfig) (pem : List Char) : Except PyErr NodeCertificate := do
  let cert ← lib.loadCert pem
  .ok ⟨config.tlsCert, config.tlsKey, lib.fingerprint cert, lib.notAfter cert,
    lib.describeSans cert⟩

/-- `ensure` -/
def ensure (config : NodeConfig) (start : Start κ) (dir : TlsDir) :
    Except PyErr NodeCertificate × List (Effect TlsFile Char) :=
  match dir .cert, dir .key with
  | some certFile, some _ => (readCertificate lib config certFile.content, [])
  | _, _                  => generate lib config start

/-- The files after a start. -/
def started (config : NodeConfig) (start : Start κ) (dir : TlsDir) : TlsDir :=
  runAll dir (ensure lib config start dir).2

/-- The files after a start that ended with `n` of its effects done. -/
def interrupted (config : NodeConfig) (start : Start κ) (n : Nat) (dir : TlsDir) : TlsDir :=
  stopped dir (ensure lib config start dir).2 n

-- ---------------------------------------------------------------------------
-- Where `generate` stops
-- ---------------------------------------------------------------------------

variable {lib} {config : NodeConfig} {start : Start κ} {dir : TlsDir}

/-- The key file of a start. -/
def keyFile (lib : Library κ χ) (start : Start κ) : Regular Char :=
  ⟨lib.keyPem start.key, 0o600⟩

/-- The certificate file of a start. -/
def certFile (lib : Library κ χ) (start : Start κ) (sans : List San) : Regular Char :=
  ⟨lib.certPem (newCert lib start sans), 0o644⟩

/-- The start stops between the two moves. -/
def Between (lib : Library κ χ) (start : Start κ) (sans : List San) (n : Nat) : Prop :=
  (keyEffects lib start).length ≤ n ∧
    n < (keyEffects lib start).length + (certEffects lib start sans).length

/-- The two files wherever `generate` stopped: both as before, or the new key
beside the certificate that was there before, or both new. -/
theorem generate_stopped (sans : List San) (n : Nat) :
    let after := stopped dir (keyEffects lib start ++ certEffects lib start sans) n
    (n < (keyEffects lib start).length ∧ after .key = dir .key ∧ after .cert = dir .cert) ∨
      (Between lib start sans n ∧ after .key = some (keyFile lib start) ∧
        after .cert = dir .cert) ∨
      ((keyEffects lib start).length + (certEffects lib start sans).length ≤ n ∧
        after .key = some (keyFile lib start) ∧ after .cert = some (certFile lib start sans)) := by
  -- the key is in place before the certificate is begun
  have hKeyDone : ∀ file, runAll dir (keyEffects lib start) file =
      if file = .key then some (keyFile lib start) else if file = .keyPart then none else dir file :=
    runAll_store (by decide)
  dsimp only
  rw [stopped_append]
  by_cases hKey : n < (keyEffects lib start).length
  · rw [if_pos hKey]
    exact Or.inl ⟨hKey, stopped_store hKey (by decide), stopped_store hKey (by decide)⟩
  · rw [if_neg hKey]
    -- stopped while the certificate is written, or after it
    by_cases hCert : n < (keyEffects lib start).length + (certEffects lib start sans).length
    · have hRest : n - (keyEffects lib start).length < (certEffects lib start sans).length := by
        omega
      refine Or.inr (Or.inl ⟨⟨by omega, hCert⟩, ?_, ?_⟩)
      · rw [certEffects, stopped_store hRest (by decide), hKeyDone]
        rfl
      · rw [certEffects, stopped_store hRest (by decide), hKeyDone]
        rfl
    · refine Or.inr (Or.inr ⟨by omega, ?_, ?_⟩)
      · rw [stopped_of_length_le (by omega), certEffects, runAll_store (by decide), hKeyDone]
        rfl
      · rw [stopped_of_length_le (by omega), certEffects, runAll_store (by decide)]
        rfl

/-- The two files are new once `generate` is through. -/
theorem generate_runAll (sans : List San) :
    let after := runAll dir (keyEffects lib start ++ certEffects lib start sans)
    after .key = some (keyFile lib start) ∧ after .cert = some (certFile lib start sans) := by
  have hKeyDone := @runAll_store _ _ _ dir .key .keyPart (lib.keyPem start.key) 0o600 (by decide)
  dsimp only
  rw [runAll_append, certEffects, runAll_store (by decide), runAll_store (by decide)]
  exact ⟨hKeyDone .key, rfl⟩

-- ---------------------------------------------------------------------------
-- What `ensure` returns
-- ---------------------------------------------------------------------------

/-- The certificate and the key are those of the two files, and belong
together. -/
structure Pair (lib : Library κ χ) (dir : TlsDir) (returned : NodeCertificate) (cert : χ) (key : κ) :
    Prop where
  certThere   : ∃ file, dir .cert = some file ∧ lib.loadCert file.content = .ok cert
  keyThere    : ∃ file, dir .key = some file ∧ lib.loadKey file.content = .ok key
  fingerprint : returned.fingerprint = lib.fingerprint cert
  matching    : lib.certNumbers cert = lib.publicNumbers key

/-- Of two files that are both there, the key is that of the certificate, if
that is one. -/
def Sound (lib : Library κ χ) (dir : TlsDir) : Prop :=
  ∀ file keyFile cert, dir .cert = some file → dir .key = some keyFile →
    lib.loadCert file.content = .ok cert →
      ∃ key, lib.loadKey keyFile.content = .ok key ∧ lib.certNumbers cert = lib.publicNumbers key

/-- With both files there, `ensure` reads and writes nothing. -/
theorem ensure_of_both {file key : Regular Char} (hCert : dir .cert = some file)
    (hKey : dir .key = some key) (start : Start κ) :
    ensure lib config start dir = (readCertificate lib config file.content, []) := by
  unfold ensure
  rw [hCert, hKey]

theorem ensure_of_missing (h : dir .cert = none ∨ dir .key = none) (start : Start κ) :
    ensure lib config start dir = generate lib config start := by
  unfold ensure
  rcases h with hCert | hKey
  · rw [hCert]
  · rw [hKey]
    cases dir .cert <;> rfl

theorem readCertificate_ok_iff {pem : List Char} {returned : NodeCertificate} :
    readCertificate lib config pem = .ok returned ↔
      ∃ cert, lib.loadCert pem = .ok cert ∧ returned = ⟨config.tlsCert, config.tlsKey,
        lib.fingerprint cert, lib.notAfter cert, lib.describeSans cert⟩ := by
  unfold readCertificate
  cases lib.loadCert pem with
  | error e => exact iff_of_false (fun h => by cases h) fun ⟨_, h, _⟩ => by cases h
  | ok cert =>
    constructor
    · intro h
      exact ⟨cert, rfl, (Except.ok.inj h).symm⟩
    · rintro ⟨cert', hCert, rfl⟩
      obtain rfl := Except.ok.inj hCert
      rfl

/-- What `generate` does, if it returns. -/
theorem generate_ok {returned : NodeCertificate}
    (h : (generate lib config start).1 = .ok returned) :
    ∃ sans, sansOf lib config start = .ok sans ∧
      returned.fingerprint = lib.fingerprint (newCert lib start sans) ∧
      (generate lib config start).2 = keyEffects lib start ++ certEffects lib start sans := by
  unfold generate at h ⊢
  cases hSans : sansOf lib config start with
  | error e =>
    rw [hSans] at h
    cases h
  | ok sans =>
    rw [hSans] at h
    obtain rfl := Except.ok.inj h
    exact ⟨sans, rfl, rfl, rfl⟩

/-- A new pair is a pair. -/
theorem pair_generated {returned : NodeCertificate}
    (h : (generate lib config start).1 = .ok returned) :
    ∃ sans, Pair lib (runAll dir (generate lib config start).2) returned
      (newCert lib start sans) start.key := by
  obtain ⟨sans, -, hFingerprint, hEffects⟩ := generate_ok h
  obtain ⟨hKey, hCert⟩ := @generate_runAll _ _ lib start dir sans
  rw [hEffects]
  exact ⟨sans, ⟨_, hCert, lib.loadCert_certPem _⟩, ⟨_, hKey, lib.loadKey_keyPem _⟩, hFingerprint,
    lib.certNumbers_selfSign _ _⟩

/-- Whatever a start draws, if it returns then with a matching pair. -/
def Matches (lib : Library κ χ) (config : NodeConfig) (dir : TlsDir) : Prop :=
  ∀ (start : Start κ) returned, (ensure lib config start dir).1 = .ok returned →
    ∃ cert key, Pair lib (started lib config start dir) returned cert key

/-- Sound files are those every start returns a matching pair from. -/
theorem matches_iff_sound (start : Start κ) : Matches lib config dir ↔ Sound lib dir := by
  constructor
  · intro h file keyFile cert hCert hKey hLoad
    -- both files are there, so a start reads them and writes nothing
    have hEnsure := @ensure_of_both _ _ lib config dir _ _ hCert hKey start
    have hReturned : (ensure lib config start dir).1 = .ok ⟨config.tlsCert, config.tlsKey,
        lib.fingerprint cert, lib.notAfter cert, lib.describeSans cert⟩ := by
      rw [hEnsure]
      exact readCertificate_ok_iff.mpr ⟨cert, hLoad, rfl⟩
    obtain ⟨cert', key, hPair⟩ := h start _ hReturned
    have hSame : started lib config start dir = dir := by
      unfold started
      rw [hEnsure]
      rfl
    rw [hSame] at hPair
    obtain ⟨file', hFile', hLoad'⟩ := hPair.certThere
    obtain ⟨keyFile', hKeyFile', hLoadKey⟩ := hPair.keyThere
    obtain rfl := Option.some.inj (hCert.symm.trans hFile')
    obtain rfl := Option.some.inj (hKey.symm.trans hKeyFile')
    obtain rfl := Except.ok.inj (hLoad.symm.trans hLoad')
    exact ⟨key, hLoadKey, hPair.matching⟩
  -- a start returns what it has generated, or what it has found
  · intro h next returned hReturned
    unfold started
    cases hCert : dir .cert with
    | none =>
      rw [ensure_of_missing (Or.inl hCert)] at hReturned ⊢
      obtain ⟨sans, hPair⟩ := pair_generated hReturned
      exact ⟨_, _, hPair⟩
    | some file =>
      cases hKey : dir .key with
      | none =>
        rw [ensure_of_missing (Or.inr hKey)] at hReturned ⊢
        obtain ⟨sans, hPair⟩ := pair_generated hReturned
        exact ⟨_, _, hPair⟩
      | some keyFile =>
        rw [ensure_of_both hCert hKey] at hReturned ⊢
        obtain ⟨cert, hLoad, rfl⟩ := readCertificate_ok_iff.mp hReturned
        obtain ⟨key, hLoadKey, hMatching⟩ := h file keyFile cert hCert hKey hLoad
        exact ⟨cert, key, ⟨file, hCert, hLoad⟩, ⟨keyFile, hKey, hLoadKey⟩, rfl, hMatching⟩

-- ---------------------------------------------------------------------------
-- Starts that end early
-- ---------------------------------------------------------------------------

/-- There was a certificate without a key, and the start ended with another
key moved beside it. -/
def LeavesHalf (lib : Library κ χ) (config : NodeConfig) (start : Start κ) (n : Nat)
    (dir : TlsDir) : Prop :=
  ∃ sans file cert, sansOf lib config start = .ok sans ∧ Between lib start sans n ∧
    dir .key = none ∧ dir .cert = some file ∧ lib.loadCert file.content = .ok cert ∧
    lib.certNumbers cert ≠ lib.publicNumbers start.key

/-- The key and the certificate are both there only if both were. -/
theorem sound_of_missing (h : dir .cert = none ∨ dir .key = none) : Sound lib dir := by
  intro file keyFile cert hCert hKey
  rcases h with hNone | hNone
  · rw [hNone] at hCert
    cases hCert
  · rw [hNone] at hKey
    cases hKey

theorem sound_congr {other : TlsDir} (hKey : dir .key = other .key)
    (hCert : dir .cert = other .cert) : Sound lib dir ↔ Sound lib other := by
  unfold Sound
  rw [hKey, hCert]

theorem stopped_nil (n : Nat) : stopped dir [] n = dir := by
  rw [stopped, List.take_nil]
  rfl

/-- With both files there a start changes nothing. -/
theorem interrupted_of_both {file key : Regular Char} (hCert : dir .cert = some file)
    (hKey : dir .key = some key) (start : Start κ) (n : Nat) :
    interrupted lib config start n dir = dir := by
  unfold interrupted
  rw [ensure_of_both hCert hKey]
  exact stopped_nil n

/-- The certificate of a start belongs to its key. -/
theorem sound_generated {sans : List San} (hKey : dir .key = some (keyFile lib start))
    (hCert : dir .cert = some (certFile lib start sans)) : Sound lib dir := by
  intro file keyFile' cert hFile hKeyFile hLoad
  obtain rfl := Option.some.inj (hCert.symm.trans hFile)
  obtain rfl := Option.some.inj (hKey.symm.trans hKeyFile)
  obtain rfl := Except.ok.inj ((lib.loadCert_certPem _).symm.trans hLoad)
  exact ⟨start.key, lib.loadKey_keyPem _, lib.certNumbers_selfSign _ _⟩

/-- A new key beside the certificate that was there before. -/
theorem sound_beside_iff {before : TlsDir} (hKey : dir .key = some (keyFile lib start))
    (hCert : dir .cert = before .cert) :
    Sound lib dir ↔ ∀ file cert, before .cert = some file → lib.loadCert file.content = .ok cert →
      lib.certNumbers cert = lib.publicNumbers start.key := by
  constructor
  · intro h file cert hFile hLoad
    obtain ⟨key, hLoadKey, hMatching⟩ := h file _ cert (hCert.trans hFile) hKey hLoad
    obtain rfl := Except.ok.inj ((lib.loadKey_keyPem start.key).symm.trans hLoadKey)
    exact hMatching
  · intro h file keyFile' cert hFile hKeyFile hLoad
    obtain rfl := Option.some.inj (hKey.symm.trans hKeyFile)
    exact ⟨start.key, lib.loadKey_keyPem _, h file cert (hCert.symm.trans hFile) hLoad⟩

/-- A start that generates, and ends with `n` of its effects done. -/
theorem sound_generate_iff (hMissing : dir .cert = none ∨ dir .key = none) {sans : List San}
    (hSans : sansOf lib config start = .ok sans) (n : Nat) :
    Sound lib (stopped dir (keyEffects lib start ++ certEffects lib start sans) n) ↔
      ¬ LeavesHalf lib config start n dir := by
  have hNotHalf : ¬ Between lib start sans n → ¬ LeavesHalf lib config start n dir := by
    rintro hBetween ⟨sans', -, -, hSans', hHalf, -⟩
    obtain rfl := Except.ok.inj (hSans.symm.trans hSans')
    exact hBetween hHalf
  rcases @generate_stopped _ _ lib start dir sans n with
    ⟨hEarly, hKey, hCert⟩ | ⟨hBetween, hKey, hCert⟩ | ⟨hLate, hKey, hCert⟩
  · refine iff_of_true ?_ (hNotHalf fun hBetween => ?_)
    · rw [sound_congr hKey hCert]
      exact sound_of_missing hMissing
    · unfold Between at hBetween
      omega
  · rw [sound_beside_iff hKey hCert]
    constructor
    · rintro h ⟨-, file, cert, -, -, -, hFile, hLoad, hOther⟩
      exact hOther (h file cert hFile hLoad)
    · intro h file cert hFile hLoad
      have hNoKey : dir .key = none := hMissing.resolve_left (by simp [hFile])
      by_contra hOther
      exact h ⟨sans, file, cert, hSans, hBetween, hNoKey, hFile, hLoad, hOther⟩
  · refine iff_of_true (sound_generated hKey hCert) (hNotHalf fun hBetween => ?_)
    unfold Between at hBetween
    omega

/--
**One start.** Sound files stay sound wherever a start ends, unless it leaves a
certificate beside another key. The key is moved into place before the
certificate is, so this is the one moment at which the two need not belong
together.
-/
theorem sound_interrupted_iff (h : Sound lib dir) (n : Nat) :
    Sound lib (interrupted lib config start n dir) ↔ ¬ LeavesHalf lib config start n dir := by
  by_cases hMissing : dir .cert = none ∨ dir .key = none
  · unfold interrupted
    rw [ensure_of_missing hMissing, generate]
    cases hSans : sansOf lib config start with
    | error e =>
      dsimp only
      rw [stopped_nil]
      refine iff_of_true h ?_
      rintro ⟨sans, -, -, hOk, -⟩
      rw [hSans] at hOk
      cases hOk
    | ok sans => exact sound_generate_iff hMissing hSans n
  · rw [not_or] at hMissing
    obtain ⟨file, hCert⟩ := Option.ne_none_iff_exists'.mp hMissing.1
    obtain ⟨key, hKey⟩ := Option.ne_none_iff_exists'.mp hMissing.2
    rw [interrupted_of_both hCert hKey]
    refine iff_of_true h ?_
    rintro ⟨-, -, -, -, -, hNone, -⟩
    exact hMissing.2 hNone

-- ---------------------------------------------------------------------------
-- Any number of starts
-- ---------------------------------------------------------------------------

/-- The files after starts that ended with so many effects done. -/
def afterStarts (lib : Library κ χ) (config : NodeConfig) (dir : TlsDir) :
    List (Start κ × Nat) → TlsDir
  | []                 => dir
  | (start, n) :: rest => afterStarts lib config (interrupted lib config start n dir) rest

/-- None of the starts leaves a certificate beside another key. -/
def NoneLeavesHalf (lib : Library κ χ) (config : NodeConfig) (dir : TlsDir) :
    List (Start κ × Nat) → Prop
  | []                 => True
  | (start, n) :: rest => ¬ LeavesHalf lib config start n dir ∧
      NoneLeavesHalf lib config (interrupted lib config start n dir) rest

/--
**Any number of starts.** Sound files stay sound, wherever each of them ended,
by induction on the starts: each meets the files that the one before it has
left.
-/
theorem sound_run (h : Sound lib dir) (starts : List (Start κ × Nat))
    (hStarts : NoneLeavesHalf lib config dir starts) :
    Sound lib (afterStarts lib config dir starts) := by
  induction starts generalizing dir with
  | nil => exact h
  | cons first rest ih => exact ih ((sound_interrupted_iff h first.2).mpr hStarts.1) hStarts.2

-- ---------------------------------------------------------------------------
-- The pair of the next start
-- ---------------------------------------------------------------------------

/-- With both files there every start gets the same and writes nothing, and a
start that returned is followed by starts that return its fingerprint. -/
structure Steady (lib : Library κ χ) (config : NodeConfig) : Prop where
  silent  : ∀ dir file key (start : Start κ), dir .cert = some file → dir .key = some key →
    ensure lib config start dir = (readCertificate lib config file.content, [])
  repeats : ∀ dir (start next : Start κ) returned,
    (ensure lib config start dir).1 = .ok returned →
      ∃ again, ensure lib config next (started lib config start dir) = (.ok again, []) ∧
        again.fingerprint = returned.fingerprint

theorem steady (lib : Library κ χ) (config : NodeConfig) : Steady lib config := by
  refine ⟨fun dir file key start hCert hKey => ensure_of_both hCert hKey start, ?_⟩
  intro dir start next returned hReturned
  have hPair : ∃ file key cert, started lib config start dir .cert = some file ∧
      started lib config start dir .key = some key ∧ lib.loadCert file.content = .ok cert ∧
      returned.fingerprint = lib.fingerprint cert := by
    unfold started
    by_cases hMissing : dir .cert = none ∨ dir .key = none
    · rw [ensure_of_missing hMissing] at hReturned ⊢
      obtain ⟨sans, ⟨file, hFile, hLoad⟩, ⟨key, hKey, -⟩, hFingerprint, -⟩ :=
        @pair_generated _ _ lib config start dir _ hReturned
      exact ⟨file, key, _, hFile, hKey, hLoad, hFingerprint⟩
    · rw [not_or] at hMissing
      obtain ⟨file, hCert⟩ := Option.ne_none_iff_exists'.mp hMissing.1
      obtain ⟨key, hKey⟩ := Option.ne_none_iff_exists'.mp hMissing.2
      rw [ensure_of_both hCert hKey] at hReturned ⊢
      obtain ⟨cert, hLoad, rfl⟩ := readCertificate_ok_iff.mp hReturned
      exact ⟨file, key, cert, hCert, hKey, hLoad, rfl⟩
  obtain ⟨file, key, cert, hCert, hKey, hLoad, hFingerprint⟩ := hPair
  refine ⟨⟨config.tlsCert, config.tlsKey, lib.fingerprint cert, lib.notAfter cert,
    lib.describeSans cert⟩, ?_, hFingerprint.symm⟩
  rw [ensure_of_both hCert hKey, readCertificate_ok_iff.mpr ⟨cert, hLoad, rfl⟩]

/--
**The pair.** For every presence of the two files at first, a pair that is
there being a matching one, and every number of file effects after which a
start ends: whatever the next start returns is a matching pair, and with both
files there nothing is written and the fingerprint stays, **if and only if** it
is not so that a certificate was there without its key and the start ended
after a key that is not the certificate's was moved into place and before the
new certificate was.
-/
theorem pair_consistent_iff (lib : Library κ χ) (config : NodeConfig) (start : Start κ)
    (dir : TlsDir) (n : Nat) (hPair : Sound lib dir) :
    (Matches lib config (interrupted lib config start n dir) ∧ Steady lib config) ↔
      ¬ LeavesHalf lib config start n dir := by
  rw [matches_iff_sound start, sound_interrupted_iff hPair n]
  exact and_iff_left (steady lib config)

-- ---------------------------------------------------------------------------
-- A certificate without its key
-- ---------------------------------------------------------------------------

/-- What reads a file that repeats one letter: how often it does. -/
def countOf (letter : Char) (pem : List Char) : Except PyErr Nat :=
  if pem = List.replicate pem.length letter then .ok pem.length
  else .error ⟨.value, "Unable to load PEM file."⟩

theorem countOf_replicate (letter : Char) (n : Nat) :
    countOf letter (List.replicate n letter) = .ok n := by
  simp [countOf]

/-- The two addresses among the names every certificate holds. -/
def loopbackAddresses : List (List Char) :=
  [['1', '2', '7', '.', '0', '.', '0', '.', '1'], [':', ':', '1']]

/-- Keys are numbers, and a certificate is the number of its key. The addresses
are those the examples below have. -/
def numbers : Library Nat Nat where
  ipAddress     := fun value => if value ∈ loopbackAddresses then some value else none
  selfSign      := fun key _ => key
  publicNumbers := id
  certNumbers   := id
  keyPem        := fun key => List.replicate key 'k'
  certPem       := fun cert => List.replicate cert 'c'
  loadKey       := countOf 'k'
  loadCert      := countOf 'c'
  fingerprint   := fun _ => ""
  notAfter      := fun _ => ""
  describeSans  := fun _ => []
  certNumbers_selfSign := fun _ _ => rfl
  loadKey_keyPem       := countOf_replicate 'k'
  loadCert_certPem     := countOf_replicate 'c'

def sampleConfig : NodeConfig := ⟨"tls/node.crt", "tls/node.key", [], []⟩

def sampleStart : Start Nat := ⟨2, 1, 0, none⟩

/-- A certificate is there, and its key is not. -/
def certOnly : TlsDir
  | .cert => some ⟨['c'], 0o644⟩
  | _     => none

/-- A start with no files ends after the key was moved into place. -/
theorem pair_from_nothing :
    Matches numbers sampleConfig (interrupted numbers sampleConfig sampleStart 5 fun _ => none) ∧
      Steady numbers sampleConfig := by
  refine (pair_consistent_iff numbers sampleConfig sampleStart (fun _ => none) 5
    (sound_of_missing (Or.inl rfl))).mpr ?_
  rintro ⟨sans, file, cert, -, -, -, hFile, -⟩
  cases hFile

/-- A start with a certificate alone ends after the key was moved into place,
and the next one returns that certificate beside another key. -/
theorem half_replaced :
    Sound numbers certOnly ∧
      ¬ Matches numbers sampleConfig (interrupted numbers sampleConfig sampleStart 5 certOnly) := by
  refine ⟨sound_of_missing (Or.inr rfl), fun hMatches => ?_⟩
  obtain ⟨key, hKey, hMatching⟩ := (matches_iff_sound sampleStart).mp hMatches ⟨['c'], 0o644⟩
    ⟨['k', 'k'], 0o600⟩ 1 (by decide) (by decide) rfl
  obtain rfl : 2 = key := Except.ok.inj hKey
  exact absurd hMatching (by decide)

end ZagrosNode.Security.Tls
