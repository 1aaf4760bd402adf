import ZagrosNode.Lib.Base64
import ZagrosNode.Lib.Py

/-!
# ZagrosNode — sealing settings

`SecretsCipher` turns a JSON object into text that only the holder of the data
key can turn back, and only together with the associated data it was sealed
with. The authenticated encryption and the JSON codec are taken with the laws
the cipher builds on: what was sealed opens under the same data, under other
data it does not open, and an object that has a text is read back from it.

A blob is a prefix, the nonce and the sealed text in base64, and unsealing has an
error of its own for every part that can be wrong: the prefix, the encoding, the
authentication, the JSON, and a value that is no object. They are all value errors,
and their texts reach the log.

`Aead` states what authenticated encryption promises for the one nonce and the one
associated data at hand. That other data does not open a text is the law that keeps a
record from being read as that of another core; a law about secrecy is not needed
and not stated. `Aead.tagged` is an instance that keeps the laws and hides nothing,
for runs on fixed inputs.

`JsonText` is the codec at the objects of the store. An object may have no text: one
with half a surrogate pair in a string cannot be encoded as UTF-8, and sealing it
raises.

Main results:

* `decrypt_encrypt` — a sealed object is read back.
* `decrypt_other` — under other associated data it is not.
-/

namespace ZagrosNode.State

open ZagrosNode.Lib

/-- A data key; `SecretsCipher` accepts no other length. -/
abbrev Key : Type := { bytes : List UInt8 // bytes.length = 32 }

/-- What `os.urandom(12)` returns. -/
abbrev Nonce : Type := { bytes : List UInt8 // bytes.length = 12 }

/-- Authenticated encryption with associated data. -/
structure Aead where
  encrypt : Key → List UInt8 → List UInt8 → List UInt8 → List UInt8
  decrypt : Key → List UInt8 → List UInt8 → List UInt8 → Option (List UInt8)
  decrypt_encrypt : ∀ key nonce text aad,
    decrypt key nonce (encrypt key nonce text aad) aad = some text
  /-- associated data is authenticated -/
  decrypt_other : ∀ key nonce text aad aad', aad ≠ aad' →
    decrypt key nonce (encrypt key nonce text aad) aad' = none

/-- The associated data, in a form no other data begins with. -/
def Aead.tag : List UInt8 → List UInt8
  | []        => [0]
  | b :: rest => 1 :: b :: tag rest

theorem Aead.tag_unique {a b text : List UInt8} (h : Aead.tag a <+: Aead.tag b ++ text) : a = b := by
  induction a generalizing b with
  | nil =>
    cases b with
    | nil => rfl
    | cons x rest => simp [Aead.tag] at h
  | cons y others ih =>
    cases b with
    | nil => simp [Aead.tag] at h
    | cons x rest =>
      simp only [Aead.tag, List.cons_append, List.cons_prefix_cons, true_and] at h
      rw [h.1, ih h.2]

/-- The laws without the secrecy: the text behind its associated data. -/
def Aead.tagged : Aead where
  encrypt _ _ text aad := tag aad ++ text
  decrypt _ _ ct aad := if (tag aad).isPrefixOf ct then some (ct.drop (tag aad).length) else none
  decrypt_encrypt := by
    intro _ _ text aad
    rw [if_pos (List.isPrefixOf_iff_prefix.mpr (List.prefix_append _ text)), List.drop_left]
  decrypt_other := by
    intro _ _ text aad aad' hNe
    refine if_neg fun hPrefix => hNe ?_
    exact (tag_unique (List.isPrefixOf_iff_prefix.mp hPrefix)).symm

/-- The JSON codec at the objects `V`. Text that is UTF-8 is JSON for all but
objects with lone surrogates in their strings, whose text cannot be encoded. -/
structure JsonText (V : Type) where
  /-- `{}` -/
  empty : V
  /-- `json.dumps(v, …).encode("utf-8")` -/
  dumps : V → Except PyErr (List UInt8)
  /-- `json.loads(text)`, `none` for a value that is no object -/
  loads : List UInt8 → Except PyErr (Option V)
  loads_dumps : ∀ {v text}, dumps v = .ok text → loads text = .ok (some v)
  dumps_empty : ∃ text, dumps empty = .ok text

variable {V : Type} (aead : Aead) (json : JsonText V)

-- ---------------------------------------------------------------------------
-- The cipher
-- ---------------------------------------------------------------------------

/-- `_PREFIX` -/
def blobPrefix : List Char := ['v', '1', ':']

/-- `encrypt_json` -/
def encryptJson (key : Key) (nonce : Nonce) (value : V) (aad : List UInt8) :
    Except PyErr String :=
  match json.dumps value with
  | .error e => .error e
  | .ok text =>
    let ct := aead.encrypt key nonce.val text aad
    .ok (String.ofList (blobPrefix ++ Base64.encode (nonce.val ++ ct)))

def unknownFormat : PyErr := ⟨.value, "unknown credentials format (missing v1 prefix)"⟩

def badBase64 : PyErr := ⟨.value, "Incorrect padding"⟩

def failedAuthentication : PyErr :=
  ⟨.value, "credentials failed authentication (wrong key or tampered/swapped row)"⟩

def notJson : PyErr := ⟨.value, "credentials payload is not JSON"⟩

def notAnObject : PyErr := ⟨.value, "credentials payload must be a JSON object"⟩

/-- `decrypt_json` -/
def decryptJson (key : Key) (blob : String) (aad : List UInt8) : Except PyErr V :=
  if blobPrefix.isPrefixOf blob.toList then
    match Base64.decode (blob.toList.drop blobPrefix.length) with
    | none     => .error badBase64
    | some raw =>
      match aead.decrypt key (raw.take 12) (raw.drop 12) aad with
      | none           => .error failedAuthentication
      | some plaintext =>
        match json.loads plaintext with
        | .error e         => .error (if e.kind = .unicode then e else notJson)
        | .ok none         => .error notAnObject
        | .ok (some value) => .ok value
  else .error unknownFormat

-- ---------------------------------------------------------------------------
-- Reading back
-- ---------------------------------------------------------------------------

/-- Opening a blob of the cipher opens the ciphertext under its own nonce. -/
theorem decryptJson_blob {key : Key} {nonce : Nonce} {ct aad : List UInt8} :
    decryptJson aead json key
        (String.ofList (blobPrefix ++ Base64.encode (nonce.val ++ ct))) aad =
      match aead.decrypt key nonce.val ct aad with
      | none           => .error failedAuthentication
      | some plaintext =>
        match json.loads plaintext with
        | .error e         => .error (if e.kind = .unicode then e else notJson)
        | .ok none         => .error notAnObject
        | .ok (some value) => .ok value := by
  have hPrefix : blobPrefix.isPrefixOf (blobPrefix ++ Base64.encode (nonce.val ++ ct)) = true := by
    rw [List.isPrefixOf_iff_prefix]
    exact List.prefix_append blobPrefix _
  have hNonce : (nonce.val ++ ct).take 12 = nonce.val := List.take_left' nonce.property
  have hCt : (nonce.val ++ ct).drop 12 = ct := List.drop_left' nonce.property
  unfold decryptJson
  rw [String.toList_ofList, if_pos hPrefix, List.drop_left, Base64.decode_encode]
  simp only [hNonce, hCt]

theorem decrypt_encrypt {key : Key} {nonce : Nonce} {value : V} {aad : List UInt8} {blob : String}
    (h : encryptJson aead json key nonce value aad = .ok blob) :
    decryptJson aead json key blob aad = .ok value := by
  unfold encryptJson at h
  cases hText : json.dumps value with
  | error e =>
    rw [hText] at h
    cases h
  | ok text =>
    rw [hText] at h
    obtain rfl := Except.ok.inj h
    rw [decryptJson_blob, aead.decrypt_encrypt]
    simp only [json.loads_dumps hText]

theorem decrypt_other {key : Key} {nonce : Nonce} {value : V} {aad aad' : List UInt8}
    {blob : String} (h : encryptJson aead json key nonce value aad = .ok blob) (hAad : aad ≠ aad') :
    decryptJson aead json key blob aad' = .error failedAuthentication := by
  unfold encryptJson at h
  cases hText : json.dumps value with
  | error e =>
    rw [hText] at h
    cases h
  | ok text =>
    rw [hText] at h
    obtain rfl := Except.ok.inj h
    rw [decryptJson_blob, aead.decrypt_other key nonce.val text aad aad' hAad]

/-- A blob is never empty text, which the store would take for a missing one. -/
theorem encryptJson_ne_empty {key : Key} {nonce : Nonce} {value : V} {aad : List UInt8}
    {blob : String} (h : encryptJson aead json key nonce value aad = .ok blob) : blob ≠ "" := by
  rintro rfl
  unfold encryptJson at h
  cases hText : json.dumps value with
  | error e =>
    rw [hText] at h
    cases h
  | ok text =>
    rw [hText] at h
    have hChars := congrArg String.toList (Except.ok.inj h)
    rw [String.toList_ofList] at hChars
    cases hChars

/-- Sealing fails only where the object has no text. -/
theorem encryptJson_error_iff {key : Key} {nonce : Nonce} {value : V} {aad : List UInt8}
    {e : PyErr} : encryptJson aead json key nonce value aad = .error e ↔
      json.dumps value = .error e := by
  unfold encryptJson
  cases hText : json.dumps value with
  | error e' => simp
  | ok text => simp

end ZagrosNode.State
