import ZagrosNode.Lib.Object
import ZagrosNode.Lib.Op
import ZagrosNode.Requests.Authorize

/-!
# ZagrosNode — TLS material of an Xray document

A pushed Xray document may refer to PEM pairs that come along with it. The
uploads are checked by name and size first; then the certificate directory is
resolved, has to be at or below the core root, and is made with the directories
above it that are missing. After that each reference in a certificate entry is
checked, the pair is written to the certificate directory, and the entry then
names the two files. Checking and writing take turns, entry by entry; uploads
nobody refers to are found last.

The document is walked with nested loops that change it in place. They are
modelled as the nested bodies they are, over the work a call does to files, and
then shown to be one loop over the certificate entries of the document.

`Work` is what a call has done to files, as a list of operations, and the computation of
the loops runs over it and may end with an exception at any entry. So what was done
before an exception is known, which is what the two modules about rejected and about
accepted documents need.

* **References.** A field of an entry that begins with `zagros-material://` refers to
  an upload. An entry has two, and they must refer to the two files of one pair; one
  that uses none is left alone.
* **Checks.** The name of an upload has a pattern, its text and all texts together a
  size, the pair is to be a certificate and its key. Each has its own message, with the
  tag of the inbound and the place in the list.
* **Directories.** `certDir` resolves the setting, checks it and makes the directory
  with its parents. Where a file stands in the way that raises (`notMade`), and nothing
  before the loops has touched a file then.

`Does` and `Gives` are the two invariants of a nested body, for what it does to files
and for what it makes of the value. Each level of the nesting has a lemma for both, and
the theorems are read off the outermost.

Main results:

* `materialize_effect` — the nested loops do what one loop over the entries of
  the document does, in their order.
* `materialize_result` — a document that comes back has its entries rewritten
  and nothing else.
-/

namespace ZagrosNode.Requests

open ZagrosNode.Lib Op

/-- A JSON object. -/
abbrev JsonObject := List (String × Json)

-- ---------------------------------------------------------------------------
-- Certificates
-- ---------------------------------------------------------------------------

/-- What the code asks a parsed certificate. -/
structure X509 where
  /-- `public_key().public_numbers()`, which not every kind of key has -/
  publicNumbers : Except PyErr Nat
  /-- `not_valid_after_utc`, in microseconds -/
  notValidAfter : Int

/-- What the code uses of `cryptography`, and of `str` and `repr`. -/
structure Library where
  str             : Json → String
  /-- `repr` of a text -/
  repr            : String → String
  loadCertificate : String → Except PyErr X509
  /-- `load_pem_private_key(raw, password=None).public_key().public_numbers()`:
  whether the text is a key, and the numbers of the key it is. -/
  loadPrivateKey  : String → Except PyErr (Except PyErr Nat)

def certificateError (context text : String) : PyErr := ⟨.value, context ++ ": " ++ text⟩

/-- `except ValueError as exc: raise CertificateError(f"… ({exc})")` -/
def wrapped {α : Type} (context text : String) : Except PyErr α → Except PyErr α
  | .ok a    => .ok a
  | .error e =>
    if e.isValueError then .error (certificateError context (text ++ " (" ++ e.text ++ ")"))
    else .error e

/-- A day in microseconds. -/
def day : Int := 86400000000

/-- `validate_pem_pair` -/
def validatePemPair (lib : Library) (now : Int) (certPem keyPem context : String) :
    Except PyErr X509 := do
  let cert ← wrapped context "certificate is not a valid PEM" (lib.loadCertificate certPem)
  let key ← wrapped context "private key is not a valid unencrypted PEM"
    (lib.loadPrivateKey keyPem)
  let certNumbers ← cert.publicNumbers
  let keyNumbers ← key
  if certNumbers ≠ keyNumbers then
    .error (certificateError context "certificate and private key do NOT match")
  else if (cert.notValidAfter - now) / day ≤ 0 then
    .error (certificateError context "certificate is EXPIRED")
  else .ok cert

-- ---------------------------------------------------------------------------
-- Files
-- ---------------------------------------------------------------------------

structure File where
  text : String
  mode : Nat
  deriving DecidableEq, Repr

/-- The regular files, by their places. -/
abbrev Files := List Name → Option File

/-- What the code does to files. -/
inductive FileOp
  /-- `path.write_text(text, encoding="utf-8")` -/
  | write (place : List Name) (text : String)
  | chmod (place : List Name) (mode : Nat)
  /-- `os.replace` -/
  | replace (source target : List Name)
  deriving DecidableEq, Repr

def FileOp.run (files : Files) : FileOp → Files
  | .write place text      =>
    Function.update files place (some ⟨text, (files place).elim 0o644 File.mode⟩)
  | .chmod place mode      =>
    Function.update files place ((files place).map fun file => { file with mode := mode })
  | .replace source target =>
    Function.update (Function.update files source none) target (files source)

def runOps (files : Files) (ops : List FileOp) : Files := ops.foldl FileOp.run files

/-- `str(path)` of a place. -/
def placeText (place : List Name) : String :=
  String.ofList ('/' :: List.intercalate ['/'] place)

-- ---------------------------------------------------------------------------
-- Names and references
-- ---------------------------------------------------------------------------

def materialPrefix : String := "zagros-material://"

def isAsciiAlnum (c : Char) : Bool :=
  decide ((0x30 ≤ c.toNat ∧ c.toNat ≤ 0x39) ∨ (0x41 ≤ c.toNat ∧ c.toNat ≤ 0x5a) ∨
    (0x61 ≤ c.toNat ∧ c.toNat ≤ 0x7a))

/-- `[A-Za-z0-9][A-Za-z0-9_.-]{0,95}`, of the whole name. -/
def isMaterialName : List Char → Bool
  | []      => false
  | c :: cs => isAsciiAlnum c && decide (cs.length ≤ 95) &&
      cs.all fun c => isAsciiAlnum c || c == '_' || c == '.' || c == '-'

/-- `str(pair.get(key) or "")` -/
def refText (lib : Library) (pair : JsonObject) (key : String) : String :=
  match (Json.getD pair key).or (.str "") with
  | .str s => s
  | v      => lib.str v

def isReference (ref : String) : Bool := materialPrefix.toList.isPrefixOf ref.toList

/-- `ref[len(_NODE_MATERIAL_PREFIX):]` -/
def referenceName (ref : String) : List Char := ref.toList.drop materialPrefix.length

/-- One pair of uploads: the name the two files share, and their texts. -/
structure Upload where
  stem    : List Char
  certPem : String
  keyPem  : String
  deriving DecidableEq, Repr

def Upload.certName (u : Upload) : List Char := u.stem ++ ['.', 'c', 'r', 't']

def Upload.keyName (u : Upload) : List Char := u.stem ++ ['.', 'k', 'e', 'y']

/-- `cert_name[:-4]`, where the two names make a pair. -/
def pairStem (certName keyName : List Char) : Option (List Char) :=
  if isMaterialName certName && isMaterialName keyName &&
      ['.', 'c', 'r', 't'].isSuffixOf certName && ['.', 'k', 'e', 'y'].isSuffixOf keyName &&
      certName.dropLast.dropLast.dropLast.dropLast ==
        keyName.dropLast.dropLast.dropLast.dropLast then
    some certName.dropLast.dropLast.dropLast.dropLast
  else none

-- ---------------------------------------------------------------------------
-- One entry
-- ---------------------------------------------------------------------------

/-- What a call is about. -/
structure Call where
  lib      : Library
  now      : Int
  /-- the uploads -/
  material : Dict String String

variable (call : Call)

def missing (name : List Char) : PyErr :=
  ⟨.value, "missing Xray TLS material '" ++ String.ofList name ++ "'"⟩

/-- The context of the messages about an inbound. -/
def inboundContext (tag : Json) : String :=
  "Xray TLS inbound '" ++ (match tag.or (.str "?") with
    | .str s => s
    | v      => call.lib.str v) ++ "'"

/-- The checks of one certificate entry: no upload where it uses no reference,
and otherwise the pair it refers to. -/
def planOf (tag : Json) (pair : JsonObject) : Except PyErr (Option Upload) := do
  let certRef := refText call.lib pair "certificateFile"
  let keyRef := refText call.lib pair "keyFile"
  if !isReference certRef && !isReference keyRef then .ok none
  else if !isReference certRef || !isReference keyRef then
    .error ⟨.value, "Xray TLS material references must be a complete pair"⟩
  else
    match pairStem (referenceName certRef) (referenceName keyRef) with
    | none      => .error ⟨.value, "invalid paired Xray TLS material references"⟩
    | some stem =>
      match call.material.get? (String.ofList (referenceName certRef)),
        call.material.get? (String.ofList (referenceName keyRef)) with
      | none, _                  => .error (missing (referenceName certRef))
      | some _, none             => .error (missing (referenceName keyRef))
      | some certPem, some keyPem => do
        let _ ← validatePemPair call.lib call.now certPem keyPem (inboundContext call tag)
        .ok (some ⟨stem, certPem, keyPem⟩)

/-- `path.with_name(path.name + ".part")` -/
def partOf (dir : List Name) (name : List Char) : List Name :=
  dir ++ [name ++ ['.', 'p', 'a', 'r', 't']]

/-- One file: written beside its place, given its mode, moved there. -/
def store (dir : List Name) (name : List Char) (text : String) (mode : Nat) : List FileOp :=
  [.write (partOf dir name) text, .chmod (partOf dir name) mode,
    .replace (partOf dir name) (dir ++ [name])]

def Upload.ops (dir : List Name) (u : Upload) : List FileOp :=
  store dir u.certName u.certPem 0o644 ++ store dir u.keyName u.keyPem 0o600

/-- The entry names the two files. -/
def Upload.named (dir : List Name) (u : Upload) (pair : JsonObject) : JsonObject :=
  assocSet "keyFile" (.str (placeText (dir ++ [u.keyName])))
    (assocSet "certificateFile" (.str (placeText (dir ++ [u.certName]))) pair)

/-- What a call has done so far. -/
structure Work where
  consumed : List String
  ops      : List FileOp

/-- What a checked entry makes the call do. -/
def perform (dir : List Name) : Except PyErr (Option Upload) → Op Work PyErr Unit
  | .error e      => raise e
  | .ok none      => pure ()
  | .ok (some u)  => modify fun w =>
      ⟨w.consumed ++ [String.ofList u.certName, String.ofList u.keyName], w.ops ++ u.ops dir⟩

/-- The entry as the call leaves it. -/
def renamed (dir : List Name) (tag : Json) (pair : JsonObject) : JsonObject :=
  match planOf call tag pair with
  | .ok (some u) => u.named dir pair
  | _            => pair

/-- The body of the inner loop, for an entry that is an object. -/
def materializePair (dir : List Name) (tag : Json) (pair : JsonObject) :
    Op Work PyErr JsonObject := do
  perform dir (planOf call tag pair)
  pure (renamed call dir tag pair)

-- ---------------------------------------------------------------------------
-- The nested loops
-- ---------------------------------------------------------------------------

def notADict : PyErr := ⟨.attribute, "object has no attribute 'get'"⟩

/-- `entries.get(key) or {}`, which `body` may change in place. -/
def inField (key : String) (body : Json → Op Work PyErr Json) (entries : JsonObject) :
    Op Work PyErr JsonObject :=
  if (Json.getD entries key).truthy then do
    let v ← body (Json.getD entries key)
    pure (assocSet key v entries)
  else pure entries

/-- The value has a `get`. -/
def inDict (body : JsonObject → Op Work PyErr JsonObject) : Json → Op Work PyErr Json
  | .dict entries => do
    let entries ← body entries
    pure (.dict entries)
  | _             => raise notADict

/-- Objects are changed in place, other values passed over. -/
def ifDict (body : JsonObject → Op Work PyErr JsonObject) : Json → Op Work PyErr Json
  | .dict entries => do
    let entries ← body entries
    pure (.dict entries)
  | v             => pure v

/-- `certificates`: a value that is no list is passed over. -/
def inCertificates (dir : List Name) (tag : Json) : Json → Op Work PyErr Json
  | .list pairs => do
    let pairs ← mapList (ifDict (materializePair call dir tag)) pairs
    pure (.list pairs)
  | v           => pure v

def materializeInbound (dir : List Name) (inbound : JsonObject) : Op Work PyErr JsonObject :=
  inField "streamSettings" (inDict (inField "tlsSettings" (inDict (inField "certificates"
    (inCertificates call dir (Json.getD inbound "tag")))))) inbound

/-- `prepared.get("inbounds") or []`; the keys of an object and the characters
of a text are no inbounds. -/
def inInbounds (dir : List Name) : Json → Op Work PyErr Json
  | .list inbounds  => do
    let inbounds ← mapList (ifDict (materializeInbound call dir)) inbounds
    pure (.list inbounds)
  | .dict entries   => pure (.dict entries)
  | .str s          => pure (.str s)
  | _               => raise ⟨.type, "object is not iterable"⟩

-- ---------------------------------------------------------------------------
-- The whole call
-- ---------------------------------------------------------------------------

def fileLimit : Nat := 32

def itemBytes : Nat := 128 * 1024

def totalBytes : Nat := 2 * 1024 * 1024

/-- The checks of the uploads, in their order; the size of all of them. -/
def checkMaterial : List (String × String) → Except PyErr Nat
  | []                    => .ok 0
  | (name, value) :: rest =>
    if isMaterialName name.toList then
      if value.utf8ByteSize ≤ itemBytes then do
        let total ← checkMaterial rest
        .ok (value.utf8ByteSize + total)
      else .error ⟨.value, "Xray TLS material '" ++ name ++ "' is too large"⟩
    else .error ⟨.value, "invalid Xray TLS material name: " ++ call.lib.repr name⟩

/-- `Path(text).resolve()` -/
def resolvePath (site : Site) (text : List Char) : Except PyErr (List Name) :=
  match site.fs.resolve text with
  | some place => .ok place
  | none       =>
    if text.contains '\x00' then .error ⟨.value, "embedded null byte"⟩
    else .error ⟨.os, "Symlink loop"⟩

theorem resolvePath_ok {site : Site} {text : List Char} {place : List Name}
    (h : site.fs.resolve text = some place) : resolvePath site text = .ok place := by
  unfold resolvePath
  rw [h]

/-- `driver.settings.get("cert_dir") or f"{CORE_ROOT}/cores/xray/certs"` -/
def certDirText (site : Site) (settings : JsonObject) : List Char :=
  match (Json.getD settings "cert_dir").or
      (.str (String.ofList (site.coreRoot ++ "/cores/xray/certs".toList))) with
  | .str s => s.toList
  | v      => (call.lib.str v).toList

/-- What `mkdir` raises where no directory can be made: `FileExistsError`,
`NotADirectoryError`, or what the system refused with. -/
def notMade (dir : List Name) : PyErr := ⟨.os, placeText dir⟩

/-- The certificate directory: resolved, checked against the core root, and
made where it is missing. Making it puts directories there and no file. -/
def certDir (site : Site) (settings : JsonObject) : Except PyErr (List Name) := do
  let dir ← resolvePath site (certDirText call site settings)
  let root ← resolvePath site site.coreRoot
  if Fs.inside root dir then
    -- `cert_dir.mkdir(parents=True, exist_ok=True, mode=0o700)`, caught by nothing
    if site.fs.makeDirs dir then .ok dir else .error (notMade dir)
  else .error ⟨.value, "the Xray certificate directory escapes the node core root"⟩

/-- The certificate directory is at this place, the core root or below it. -/
def CertDirAt (site : Site) (settings : JsonObject) (dir : List Name) : Prop :=
  ∃ root, site.fs.resolve site.coreRoot = some root ∧
    site.fs.resolve (certDirText call site settings) = some dir ∧ root <+: dir

variable {call} in
theorem CertDirAt.unique {site : Site} {settings : JsonObject} {dir dir' : List Name}
    (h : CertDirAt call site settings dir) (h' : CertDirAt call site settings dir') :
    dir = dir' := by
  obtain ⟨-, -, hDir, -⟩ := h
  obtain ⟨-, -, hDir', -⟩ := h'
  exact Option.some.inj (hDir.symm.trans hDir')

/-- Everything before the loops: the uploads, and the certificate directory. -/
def prepare (site : Site) (settings : JsonObject) : Except PyErr (List Name) :=
  if fileLimit < call.material.entries.length then
    .error ⟨.value, "too many Xray TLS material files"⟩
  else do
    let total ← checkMaterial call call.material.entries
    if totalBytes < total then .error ⟨.value, "Xray TLS material exceeds 2 MiB"⟩
    else certDir call site settings

/-- `sorted(set(material) - consumed)`; the names passed the check of names, so
the order of their characters is that of the texts. -/
def unusedNames (consumed : List String) : List String :=
  (call.material.keys.filter fun name => !consumed.contains name).mergeSort fun a b => decide (a ≤ b)

/-- `f"unused Xray TLS material: {unused}"` -/
def unusedText (unused : List String) : String :=
  "unused Xray TLS material: [" ++ ", ".intercalate (unused.map call.lib.repr) ++ "]"

/-- The loops and the check for unused uploads. -/
def materializeIn (dir : List Name) (document : JsonObject) : Op Work PyErr JsonObject := do
  let prepared ← inField "inbounds" (inInbounds call dir) document
  let work ← get
  if call.material.keys.all fun name => work.consumed.contains name then pure prepared
  else raise ⟨.value, unusedText call (unusedNames call work.consumed)⟩

/-- `_materialize_xray_tls`: what it returns or raises, and what it does to
files. -/
def materializeXrayTls (site : Site) (settings document : JsonObject) :
    Except PyErr JsonObject × List FileOp :=
  match prepare call site settings with
  | .error e => (.error e, [])
  | .ok dir  =>
    let (result, work) := (materializeIn call dir document).run ⟨[], []⟩
    (result, work.ops)

-- ---------------------------------------------------------------------------
-- The entries of a document
-- ---------------------------------------------------------------------------

/-- The items below a key of an object. -/
def itemsIn {α : Type} (key : String) (items : Json → List α) (entries : JsonObject) : List α :=
  items (Json.getD entries key)

def ofDict {α : Type} (items : JsonObject → List α) : Json → List α
  | .dict entries => items entries
  | _             => []

def ofList {α : Type} (items : Json → List α) : Json → List α
  | .list xs => xs.flatMap items
  | _        => []

/-- The certificate entries of one inbound: the objects in the list
`certificates` of its `tlsSettings`. -/
def inboundEntries (inbound : JsonObject) : List JsonObject :=
  itemsIn "streamSettings" (ofDict (itemsIn "tlsSettings" (ofDict (itemsIn "certificates"
    (ofList (ofDict fun pair => [pair])))))) inbound

/-- The certificate entries of a document, each with the tag of its inbound. -/
def certificateEntries (document : JsonObject) : List (Json × JsonObject) :=
  itemsIn "inbounds" (ofList (ofDict fun inbound =>
    (inboundEntries inbound).map fun pair => (Json.getD inbound "tag", pair))) document

/-- The value below a key is changed, if there is one. -/
def mapIn (key : String) (g : Json → Json) (entries : JsonObject) : JsonObject :=
  match Json.get? entries key with
  | some v => assocSet key (g v) entries
  | none   => entries

def onDict (g : JsonObject → JsonObject) : Json → Json
  | .dict entries => .dict (g entries)
  | v             => v

def onList (g : Json → Json) : Json → Json
  | .list xs => .list (xs.map g)
  | v        => v

/-- The certificate entries of an inbound are changed, and nothing else. -/
def mapInbound (f : JsonObject → JsonObject) (inbound : JsonObject) : JsonObject :=
  mapIn "streamSettings" (onDict (mapIn "tlsSettings" (onDict (mapIn "certificates"
    (onList (onDict f)))))) inbound

/-- The certificate entries of a document are changed, and nothing else. -/
def mapEntries (f : Json → JsonObject → JsonObject) (document : JsonObject) : JsonObject :=
  mapIn "inbounds" (onList (onDict fun inbound =>
    mapInbound (f (Json.getD inbound "tag")) inbound)) document

-- ---------------------------------------------------------------------------
-- Objects
-- ---------------------------------------------------------------------------

/-- A change that leaves falsy values alone can ask first. -/
theorem mapIn_of_falsy {key : String} {g : Json → Json} {entries : JsonObject}
    (hg : ∀ v, v.truthy = false → g v = v) (h : (Json.getD entries key).truthy = false) :
    mapIn key g entries = entries := by
  unfold mapIn
  cases hGet : Json.get? entries key with
  | none => rfl
  | some v =>
    rw [Json.getD_eq, hGet] at h
    show assocSet key (g v) entries = entries
    rw [hg v h, Json.assocSet_self hGet]

theorem mapIn_of_truthy {key : String} {g : Json → Json} {entries : JsonObject}
    (h : (Json.getD entries key).truthy = true) :
    mapIn key g entries = assocSet key (g (Json.getD entries key)) entries := by
  unfold mapIn
  rw [Json.getD_eq] at h ⊢
  cases hGet : Json.get? entries key with
  | none =>
    rw [hGet] at h
    cases h
  | some v => rfl

theorem onDict_of_falsy {g : JsonObject → JsonObject} (hg : g [] = []) (v : Json)
    (h : v.truthy = false) : onDict g v = v := by
  cases v with
  | dict entries =>
    have hEmpty : entries = [] := by simpa [Json.truthy] using h
    rw [hEmpty, onDict, hg]
  | null | bool | num | float | str | list => rfl

theorem onList_of_falsy (g : Json → Json) (v : Json) (h : v.truthy = false) : onList g v = v := by
  cases v with
  | list xs =>
    have hEmpty : xs = [] := by simpa [Json.truthy] using h
    rw [hEmpty]
    rfl
  | null | bool | num | float | str | dict => rfl

theorem mapIn_nil (key : String) (g : Json → Json) : mapIn key g [] = [] := rfl

theorem ofDict_of_falsy {α : Type} {items : JsonObject → List α} (hItems : items [] = []) (v : Json)
    (h : v.truthy = false) : ofDict items v = [] := by
  cases v with
  | dict entries =>
    have hEmpty : entries = [] := by simpa [Json.truthy] using h
    rw [hEmpty, ofDict, hItems]
  | null | bool | num | float | str | list => rfl

theorem ofList_of_falsy {α : Type} (items : Json → List α) (v : Json) (h : v.truthy = false) :
    ofList items v = [] := by
  cases v with
  | list xs =>
    have hEmpty : xs = [] := by simpa [Json.truthy] using h
    rw [hEmpty]
    rfl
  | null | bool | num | float | str | dict => rfl

-- ---------------------------------------------------------------------------
-- What the loops do
-- ---------------------------------------------------------------------------

/-- What is checked of one certificate entry. -/
abbrev Plan := Except PyErr (Option Upload)

def plansIn (key : String) (plans : Json → List Plan) (entries : JsonObject) : List Plan :=
  if (Json.getD entries key).truthy then plans (Json.getD entries key) else []

def plansDict (plans : JsonObject → List Plan) : Json → List Plan
  | .dict entries => plans entries
  | _             => [.error notADict]

def plansInbound (inbound : JsonObject) : List Plan :=
  plansIn "streamSettings" (plansDict (plansIn "tlsSettings" (plansDict (plansIn "certificates"
    (ofList (ofDict fun pair => [planOf call (Json.getD inbound "tag") pair])))))) inbound

def plansInbounds : Json → List Plan
  | .list inbounds => inbounds.flatMap (ofDict (plansInbound call))
  | .dict _        => []
  | .str _         => []
  | _              => [.error ⟨.type, "object is not iterable"⟩]

/-- The checks of a document in the order the loops come to them; a part of
another shape than the loops expect counts as a failed one. -/
def plans (document : JsonObject) : List Plan :=
  plansIn "inbounds" (plansInbounds call) document

variable {call} {dir : List Name}

/-- `body` does what the plans of a value say. -/
def Does {α β : Type} (dir : List Name) (body : α → Op Work PyErr β) (plans : α → List Plan) :
    Prop :=
  ∀ a, effect (body a) = forEach (perform dir) (plans a)

theorem does_inField {key : String} {body : Json → Op Work PyErr Json} {plans : Json → List Plan}
    (h : Does dir body plans) : Does dir (inField key body) (plansIn key plans) := by
  intro entries
  unfold inField plansIn
  by_cases hTruthy : (Json.getD entries key).truthy = true
  · rw [if_pos hTruthy, if_pos hTruthy, effect_bind_pure]
    exact h _
  · rw [if_neg hTruthy, if_neg hTruthy]
    rfl

theorem does_inDict {body : JsonObject → Op Work PyErr JsonObject}
    {plans : JsonObject → List Plan} (h : Does dir body plans) :
    Does dir (inDict body) (plansDict plans) := by
  intro v
  cases v with
  | dict entries =>
    rw [inDict, effect_bind_pure]
    exact h entries
  | null | bool | num | float | str | list => rfl

theorem does_ifDict {body : JsonObject → Op Work PyErr JsonObject} {plans : JsonObject → List Plan}
    (h : Does dir body plans) : Does dir (ifDict body) (ofDict plans) := by
  intro v
  cases v with
  | dict entries =>
    rw [ifDict, effect_bind_pure]
    exact h entries
  | null | bool | num | float | str | list => rfl

theorem does_mapList {body : Json → Op Work PyErr Json} {plans : Json → List Plan}
    (h : Does dir body plans) : Does dir (mapList body) fun xs => xs.flatMap plans := by
  intro xs
  rw [effect_mapList, forEach_flatMap]
  congr 1
  funext x
  exact h x

theorem does_materializePair (tag : Json) :
    Does dir (materializePair call dir tag) fun pair => [planOf call tag pair] := by
  intro pair
  rw [materializePair, effect_bind_pure]
  rfl

theorem does_inCertificates (tag : Json) :
    Does dir (inCertificates call dir tag) (ofList (ofDict fun pair => [planOf call tag pair])) := by
  intro v
  cases v with
  | list pairs =>
    rw [inCertificates, effect_bind_pure]
    exact does_mapList (does_ifDict (does_materializePair tag)) pairs
  | null | bool | num | float | str | dict => rfl

theorem does_materializeInbound :
    Does dir (materializeInbound call dir) (plansInbound call) := by
  intro inbound
  exact does_inField (does_inDict (does_inField (does_inDict (does_inField
    (does_inCertificates (Json.getD inbound "tag")))))) inbound

theorem does_inInbounds : Does dir (inInbounds call dir) (plansInbounds call) := by
  intro v
  cases v with
  | list inbounds =>
    rw [inInbounds, effect_bind_pure]
    exact does_mapList (does_ifDict does_materializeInbound) inbounds
  | null | bool | num | float | str | dict => rfl

/-- The nested loops do what one loop over the entries does. -/
theorem materialize_effect (document : JsonObject) :
    effect (inField "inbounds" (inInbounds call dir) document) =
      forEach (perform dir) (plans call document) :=
  does_inField does_inInbounds document

-- ---------------------------------------------------------------------------
-- What the loops return
-- ---------------------------------------------------------------------------

/-- What `body` returns, if it does, is the changed value. -/
def Gives {α : Type} (body : α → Op Work PyErr α) (g : α → α) : Prop :=
  ∀ a w, Returns (body a) w fun b _ => b = g a

theorem gives_inField {key : String} {body : Json → Op Work PyErr Json} {g : Json → Json}
    (h : Gives body g) (hFalsy : ∀ v, v.truthy = false → g v = v) :
    Gives (inField key body) (mapIn key g) := by
  intro entries w
  unfold inField
  by_cases hTruthy : (Json.getD entries key).truthy = true
  · rw [if_pos hTruthy, mapIn_of_truthy hTruthy]
    exact Returns.bind ((h _ w).mono fun v _ hv => Returns.pure (by rw [hv]))
  · rw [if_neg hTruthy, mapIn_of_falsy hFalsy (Bool.not_eq_true _ ▸ hTruthy)]
    exact Returns.pure rfl

theorem gives_inDict {body : JsonObject → Op Work PyErr JsonObject} {g : JsonObject → JsonObject}
    (h : Gives body g) : Gives (inDict body) (onDict g) := by
  intro v w
  cases v with
  | dict entries => exact Returns.bind ((h entries w).mono fun e _ he => Returns.pure (by rw [he]; rfl))
  | null | bool | num | float | str | list => exact Returns.raise _ _

theorem gives_ifDict {body : JsonObject → Op Work PyErr JsonObject} {g : JsonObject → JsonObject}
    (h : Gives body g) : Gives (ifDict body) (onDict g) := by
  intro v w
  cases v with
  | dict entries => exact Returns.bind ((h entries w).mono fun e _ he => Returns.pure (by rw [he]; rfl))
  | null | bool | num | float | str | list => exact Returns.pure rfl

theorem gives_mapList {body : Json → Op Work PyErr Json} {g : Json → Json} (h : Gives body g) :
    Gives (mapList body) (List.map g) := by
  intro xs w
  exact Returns.mapList fun x _ w' => h x w'

theorem gives_materializePair (tag : Json) :
    Gives (materializePair call dir tag) (renamed call dir tag) := by
  intro pair w
  exact Returns.bind fun _ _ _ => Returns.pure rfl

theorem gives_inCertificates (tag : Json) :
    Gives (inCertificates call dir tag) (onList (onDict (renamed call dir tag))) := by
  intro v w
  cases v with
  | list pairs =>
    refine Returns.bind ((gives_mapList (gives_ifDict (gives_materializePair tag)) pairs w).mono ?_)
    exact fun ps _ hps => Returns.pure (by rw [hps]; rfl)
  | null | bool | num | float | str | dict => exact Returns.pure rfl

theorem gives_materializeInbound :
    Gives (materializeInbound call dir)
      fun inbound => mapInbound (renamed call dir (Json.getD inbound "tag")) inbound := by
  intro inbound
  have hCertificates : Gives
      (inField "certificates" (inCertificates call dir (Json.getD inbound "tag")))
      (mapIn "certificates" (onList (onDict (renamed call dir (Json.getD inbound "tag"))))) :=
    gives_inField (gives_inCertificates _) (onList_of_falsy _)
  exact gives_inField (gives_inDict (gives_inField (gives_inDict hCertificates)
    (onDict_of_falsy (mapIn_nil _ _)))) (onDict_of_falsy (mapIn_nil _ _)) inbound

theorem gives_inInbounds :
    Gives (inInbounds call dir) (onList (onDict fun inbound =>
      mapInbound (renamed call dir (Json.getD inbound "tag")) inbound)) := by
  intro v w
  cases v with
  | list inbounds =>
    refine Returns.bind ((gives_mapList (gives_ifDict gives_materializeInbound) inbounds w).mono ?_)
    exact fun is _ his => Returns.pure (by rw [his]; rfl)
  | str | dict => exact Returns.pure rfl
  | null | bool | num | float => exact Returns.raise _ _

/-- A document that comes back has its entries rewritten and nothing else. -/
theorem materialize_result (document : JsonObject) (w : Work) :
    Returns (inField "inbounds" (inInbounds call dir) document) w
      fun prepared _ => prepared = mapEntries (renamed call dir) document :=
  gives_inField gives_inInbounds (onList_of_falsy _) document w

end ZagrosNode.Requests
