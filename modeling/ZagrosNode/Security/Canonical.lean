import ZagrosNode.Lib.Text
import ZagrosNode.Security.SignedRequest

/-!
# ZagrosNode — the canonical request

What is signed is one text: method, path, timestamp, nonce and body hash with a
line feed between them. The path is the only one of the five that may hold a line
feed itself, so the method ends at the first one and the last three fields are
found from the end.

`str.upper` is a parameter, of which the encoding needs no more than that it makes
no line feeds. HMAC-SHA256 maps all messages to 64 digits and so cannot be free of
collisions; what is assumed is that the two messages at hand are not one.

The encoding is read from both ends. Up to the first line feed it is the method,
since an upper-cased method has none; the last three line feeds are those in front
of the timestamp, the nonce and the hash, since the headers a request carries hold
none either and a hash is made of hex digits. What is between is the path, line feeds
and all. `intercalate_fields_inj` is that argument for any three lists of fields.

Headers come to the node from a server that ends a header at the line break, so the
condition `Framed` is one on the three texts and says nothing of the path, which is
decoded from percent escapes and may hold whatever the sender wants.

The second half is about signatures: two requests that one signature is accepted for
have the same HMAC, and so far as the two encodings are no collision, the same
encoding. The body enters by its hash, with the same proviso for SHA-256.

Main results:

* `canonicalBytes_inj` — equal encodings are encodings of equal fields.
* `canonical_unambiguous` — and a signature that is accepted for two requests is
  accepted for one and the same.
-/

namespace ZagrosNode.Security

open ZagrosNode.Lib

/-- What of a request is signed. -/
structure Signed where
  method    : String
  path      : String
  timestamp : String
  nonce     : String
  body      : Bytes

def LineFree (s : String) : Prop := '\n' ∉ s.toList

/-- Only the path may hold a line feed. -/
structure Signed.Framed (r : Signed) : Prop where
  method    : LineFree r.method
  timestamp : LineFree r.timestamp
  nonce     : LineFree r.nonce

/-- `str.upper` -/
structure Upper where
  upper    : String → String
  lineFree : ∀ {s}, LineFree s → LineFree (upper s)

/-- The two are no collision of the hash. -/
def NoCollision (hash : Bytes → String) (a b : Bytes) : Prop := hash a = hash b → a = b

variable (u : Upper) (sha : Sha256)

/-- `canonical_request` -/
def canonicalBytes (r : Signed) : Bytes :=
  utf8 ("\n".intercalate [u.upper r.method, r.path, r.timestamp, r.nonce, bodyHash sha r.body])

/-- `verify_signature` -/
def verify (key : Key32) (provided : String) (r : Signed) : Except Failure Unit :=
  match compareDigest (sha.hmacHexdigest key (canonicalBytes u sha r)) provided with
  | .error e   => .error (.py e)
  | .ok false  => .error invalidSignature
  | .ok true   => .ok ()

/-- The two agree in everything that is signed. -/
structure Agree (r r' : Signed) : Prop where
  method    : u.upper r.method = u.upper r'.method
  path      : r.path = r'.path
  timestamp : r.timestamp = r'.timestamp
  nonce     : r.nonce = r'.nonce
  bodyHash  : bodyHash sha r.body = bodyHash sha r'.body

variable {u sha} {r r' : Signed}

-- ---------------------------------------------------------------------------
-- The upper case of an HTTP method
-- ---------------------------------------------------------------------------

theorem eq_lineFeed_of_toUpper {c : Char} (h : c.toUpper = '\n') : c = '\n' := by
  have hAscii : ∀ n < 123, (Char.ofNat n).toUpper = '\n' → Char.ofNat n = '\n' := by decide
  by_cases hLow : c.toNat < 123
  · rw [← Char.ofNat_toNat c] at h ⊢
    exact hAscii _ hLow h
  · have hSame : c.toUpper = c := by
      unfold Char.toUpper
      refine dif_neg fun hLower => hLow ?_
      have hHigh : c.toNat ≤ 122 := hLower.2
      omega
    rwa [hSame] at h

theorem toUpper_lineFree {s : String} (h : LineFree s) : LineFree s.toUpper := by
  intro hMem
  rw [String.toUpper, String.toList_map] at hMem
  obtain ⟨c, hc, hUpper⟩ := List.mem_map.mp hMem
  exact h (eq_lineFeed_of_toUpper hUpper ▸ hc)

/-- The methods of HTTP are ASCII. -/
def asciiUpper : Upper := ⟨String.toUpper, toUpper_lineFree⟩

theorem verify_asciiUpper (key : Key32) (provided : String) (r : Signed) :
    verify asciiUpper sha key provided r =
      verifySignature sha key provided r.method r.path r.timestamp r.nonce r.body := rfl

-- ---------------------------------------------------------------------------
-- The encoding
-- ---------------------------------------------------------------------------

theorem toList_loop (b : ByteArray) (i : Nat) (r : List UInt8) :
    ByteArray.toList.loop b i r = r.reverse ++ b.data.toList.drop i := by
  fun_induction ByteArray.toList.loop b i r with
  | case1 i r h ih =>
    have hi : i < b.data.toList.length := h
    have hGet : b.get! i = b.data.toList[i] := by
      show b.data[i]! = b.data[i]
      exact getElem!_pos b.data i h
    rw [ih, List.drop_eq_getElem_cons hi, List.reverse_cons, List.append_assoc, hGet]
    rfl
  | case2 i r h =>
    have hi : b.data.toList.length ≤ i := Nat.le_of_not_lt h
    rw [List.drop_eq_nil_of_le hi, List.append_nil]

theorem utf8_inj {s s' : String} (h : utf8 s = utf8 s') : s = s' := by
  have hList : ∀ b : ByteArray, b.toList = b.data.toList := fun b => toList_loop b 0 []
  unfold utf8 at h
  rw [hList, hList] at h
  exact String.toByteArray_inj.mp (ByteArray.ext (Array.ext' h))

/-- A hash is made of hex digits. -/
theorem bodyHash_lineFree (body : Bytes) : LineFree (bodyHash sha body) := by
  intro hMem
  have hHex := List.all_eq_true.mp (sha.isHex body).2 _ hMem
  revert hHex
  decide

/--
**The encoding.** Equal encodings are encodings of equal fields. The five
fields are joined with newlines and the first four have none, so the encoding
can be taken apart in one way only.
-/
theorem canonicalBytes_inj (h : r.Framed) (h' : r'.Framed) :
    canonicalBytes u sha r = canonicalBytes u sha r' ↔ Agree u sha r r' := by
  constructor
  · intro hEq
    have hText := congrArg String.toList (utf8_inj hEq)
    rw [String.toList_intercalate, String.toList_intercalate] at hText
    have hBefore : ∀ {r : Signed}, r.Framed → ∀ p ∈ [(u.upper r.method).toList], '\n' ∉ p := by
      intro r h p hp
      rw [List.mem_singleton.mp hp]
      exact u.lineFree h.method
    have hAfter : ∀ {r : Signed}, r.Framed →
        ∀ p ∈ [r.timestamp.toList, r.nonce.toList, (bodyHash sha r.body).toList], '\n' ∉ p := by
      intro r h p hp
      simp only [List.mem_cons, List.not_mem_nil, or_false] at hp
      rcases hp with rfl | rfl | rfl
      · exact h.timestamp
      · exact h.nonce
      · exact bodyHash_lineFree r.body
    obtain ⟨hMethod, hPath, hRest⟩ := intercalate_fields_inj (hBefore h) (hBefore h')
      (hAfter h) (hAfter h') rfl rfl hText
    simp only [List.cons.injEq, and_true, String.toList_inj] at hMethod hPath hRest
    exact ⟨hMethod, hPath, hRest.1, hRest.2.1, hRest.2.2⟩
  · rintro ⟨hMethod, hPath, hTimestamp, hNonce, hHash⟩
    unfold canonicalBytes
    rw [hMethod, hPath, hTimestamp, hNonce, hHash]

-- ---------------------------------------------------------------------------
-- Signatures
-- ---------------------------------------------------------------------------

theorem verify_ok {key : Key32} {provided : String} (h : verify u sha key provided r = .ok ()) :
    sha.hmacHexdigest key (canonicalBytes u sha r) = provided := by
  unfold verify at h
  split at h
  · cases h
  · cases h
  · next hCompare => exact (NodeIdentityStore.compareDigest_ok_true.mp hCompare).2.2

/--
**Unambiguous signatures.** Two requests with the same encoding agree in their
upper-cased methods, paths, timestamps, nonces and body hashes. A signature that is
accepted for both is one request's: short of a collision of HMAC-SHA256 they agree
in these, and short of one of SHA-256 in their bodies.
-/
theorem canonical_unambiguous (u : Upper) (sha : Sha256) (r r' : Signed) (h : r.Framed)
    (h' : r'.Framed) :
    (canonicalBytes u sha r = canonicalBytes u sha r' ↔ Agree u sha r r') ∧
      ∀ (key : Key32) (provided : String),
        NoCollision (sha.hmacHexdigest key) (canonicalBytes u sha r) (canonicalBytes u sha r') →
          verify u sha key provided r = .ok () → verify u sha key provided r' = .ok () →
            Agree u sha r r' ∧ (NoCollision sha.hexdigest r.body r'.body → r.body = r'.body) := by
  refine ⟨canonicalBytes_inj h h', fun key provided hFree hOk hOk' => ?_⟩
  have hHmac := (verify_ok hOk).trans (verify_ok hOk').symm
  have hAgree := (canonicalBytes_inj h h').mp (hFree hHmac)
  exact ⟨hAgree, fun hBodies => hBodies hAgree.bodyHash⟩

/-- A heartbeat whose method is spelled in either case. -/
def signedHeartbeat (method : String) : Signed :=
  ⟨method, "/v1/heartbeat\n", "1700000000", "0123456789abcdef0123456789abcdef", []⟩

/-- The signature of that heartbeat under the node's key. -/
def lineFeedSignature : String :=
  "fcf262d0fa73d01b94d0d7ca5f1f0d04bb705fc0c0083a5faed186dd825a248f"

/-- SHA-256 of an empty body, and HMAC-SHA256 of the one encoding of that
heartbeat. -/
def lineFeedSha : Sha256 where
  hexdigest         := heartbeatSha.hexdigest
  hmacHexdigest _ _ := lineFeedSignature
  isHex             := heartbeatSha.isHex
  hmac_isHex _ _    := by unfold IsHexDigest; decide

theorem heartbeat_framed {method : String} (h : LineFree method) :
    (signedHeartbeat method).Framed :=
  ⟨h, show '\n' ∉ "1700000000".toList by decide,
    show '\n' ∉ "0123456789abcdef0123456789abcdef".toList by decide⟩

/-- The two spellings have one encoding and so one signature, and agree in what is
signed. -/
theorem heartbeat_unambiguous :
    Agree asciiUpper lineFeedSha (signedHeartbeat "get") (signedHeartbeat "GET") := by
  have hUpper : "get".toUpper.toList = "GET".toUpper.toList := by
    rw [String.toUpper, String.toUpper, String.toList_map, String.toList_map]
    decide
  have hSame : Agree asciiUpper lineFeedSha (signedHeartbeat "get") (signedHeartbeat "GET") :=
    ⟨String.toList_inj.mp hUpper, rfl, rfl, rfl, rfl⟩
  have hFramed := heartbeat_framed (show LineFree "get" by unfold LineFree; decide)
  have hFramed' := heartbeat_framed (show LineFree "GET" by unfold LineFree; decide)
  have hBytes := (canonicalBytes_inj hFramed hFramed').mpr hSame
  exact ((canonical_unambiguous asciiUpper lineFeedSha _ _ hFramed hFramed').2 heartbeatKey
    lineFeedSignature (fun _ => hBytes) (by decide) (by decide)).1

end ZagrosNode.Security
