import ZagrosNode.Lib.Outcome
import ZagrosNode.Requests.Rejected

/-!
# ZagrosNode — documents with good TLS material

What a call of `_materialize_xray_tls` that returns has done: each certificate
entry that used a reference names two files in the certificate directory, the
two hold the pair it referred to, every upload is one of them, and the rest of
the document is as it was. The directory is the one the setting `cert_dir`
denotes, the files are its children, and no other place is touched: each file
is written under a name of its own beside its place and moved there, so nothing
of it is left.

A pair may be referred to by several entries and is then stored several times;
what is stored under one name is the same each time, and no name is that of
another's part (`Consistent`).

`Materialized` is the whole statement as a structure, a field for each thing the call
promises about the document or the disk. The directory is tied to the setting by
`CertDirAt`: resolved as the code does it, and the core root or below it.

The disk is followed with two facts about lists of stored files. All of them end up in
place if no two of one name differ (`runOps_stores`), and none of their parts is left
(`runOps_parts`). Names of uploads end in `.crt` and `.key`, those of parts in `.part`,
so that no stored file is another one's part.

The document is followed with `certificateEntries_mapEntries`: the entries of a changed
document are the changed entries, in the same order and with the same tags.

Main results:

* `planOf_ok_iff` — what the checks of an entry let through.
* `runOps_stores`, `runOps_parts` — a list of stored files ends up with all of
  them in place and none of their parts.
* `certificateEntries_mapEntries` — the entries of a rewritten document.
* `materialized` — the whole call.
-/

namespace ZagrosNode.Requests

open ZagrosNode.Lib Op

-- ---------------------------------------------------------------------------
-- Stored files
-- ---------------------------------------------------------------------------

/-- A file the call stores: its name, its text and its mode. -/
structure Stored where
  name : List Char
  text : String
  mode : Nat

def Upload.stored (u : Upload) : List Stored :=
  [⟨u.certName, u.certPem, 0o644⟩, ⟨u.keyName, u.keyPem, 0o600⟩]

def Stored.ops (dir : List Name) (s : Stored) : List FileOp := store dir s.name s.text s.mode

theorem ops_eq_stored (dir : List Name) (u : Upload) :
    u.ops dir = u.stored.flatMap (Stored.ops dir) := by
  simp [Upload.ops, Upload.stored, Stored.ops]

variable {dir : List Name}

theorem runOps_append (files : Files) (ops others : List FileOp) :
    runOps files (ops ++ others) = runOps (runOps files ops) others :=
  List.foldl_append

variable (dir) in
/-- A name is not the name of its part. -/
theorem part_ne (name : List Char) : partOf dir name ≠ dir ++ [name] := by
  intro h
  simp [partOf] at h

/-- Storing a file puts it in place and leaves no part behind. -/
theorem runOps_store (files : Files) (s : Stored) (place : List Name) :
    runOps files (s.ops dir) place =
      if place = dir ++ [s.name] then some ⟨s.text, s.mode⟩
      else if place = partOf dir s.name then none else files place := by
  have hPart := part_ne dir s.name
  by_cases hPlace : place = dir ++ [s.name]
  · subst hPlace
    simp [runOps, Stored.ops, store, FileOp.run]
  · rw [if_neg hPlace]
    by_cases hOther : place = partOf dir s.name
    · subst hOther
      simp [runOps, Stored.ops, store, FileOp.run, hPart]
    · simp [runOps, Stored.ops, store, FileOp.run, hPlace, hOther]

/-- A place that is none of the stored files and none of their parts. -/
theorem runOps_of_not_stored {l : List Stored} (files : Files) {place : List Name}
    (h : ∀ s ∈ l, place ≠ dir ++ [s.name] ∧ place ≠ partOf dir s.name) :
    runOps files (l.flatMap (Stored.ops dir)) place = files place := by
  induction l generalizing files with
  | nil => rfl
  | cons s rest ih =>
    obtain ⟨hName, hPart⟩ := h s List.mem_cons_self
    rw [List.flatMap_cons, runOps_append, ih _ fun t ht => h t (List.mem_cons_of_mem s ht),
      runOps_store, if_neg hName, if_neg hPart]

/-- Files that are stored under one name are the same, and no name is that of
a part. -/
structure Consistent (l : List Stored) : Prop where
  same  : ∀ s ∈ l, ∀ t ∈ l, s.name = t.name → s = t
  parts : ∀ s ∈ l, ∀ t ∈ l, s.name ≠ t.name ++ ['.', 'p', 'a', 'r', 't']

theorem Consistent.tail {s : Stored} {rest : List Stored} (h : Consistent (s :: rest)) :
    Consistent rest :=
  ⟨fun a ha b hb => h.same a (List.mem_cons_of_mem s ha) b (List.mem_cons_of_mem s hb),
    fun a ha b hb => h.parts a (List.mem_cons_of_mem s ha) b (List.mem_cons_of_mem s hb)⟩

/-- All stored files end up in place. -/
theorem runOps_stores {l : List Stored} (hConsistent : Consistent l) (files : Files) {s : Stored}
    (hs : s ∈ l) :
    runOps files (l.flatMap (Stored.ops dir)) (dir ++ [s.name]) = some ⟨s.text, s.mode⟩ := by
  induction l generalizing files with
  | nil => cases hs
  | cons t rest ih =>
    rw [List.flatMap_cons, runOps_append]
    by_cases hLater : ∃ r ∈ rest, r.name = s.name
    · obtain ⟨r, hr, hName⟩ := hLater
      have hEq : r = s := hConsistent.same r (List.mem_cons_of_mem t hr) s hs hName
      exact ih hConsistent.tail _ (hEq ▸ hr)
    · -- the last one under its name is the first of the list
      have hFirst : s = t := by
        rcases List.mem_cons.mp hs with hEq | hRest
        · exact hEq
        · exact absurd ⟨s, hRest, rfl⟩ hLater
      rw [runOps_of_not_stored, runOps_store, if_pos (by rw [hFirst]), hFirst]
      intro r hr
      have hName : s.name ≠ r.name := fun h => hLater ⟨r, hr, h.symm⟩
      have hPart := hConsistent.parts s hs r (List.mem_cons_of_mem t hr)
      exact ⟨by simpa using hName, by simpa [partOf] using hPart⟩

/-- No part is left of what was stored. -/
theorem runOps_parts {l : List Stored} (hConsistent : Consistent l) (files : Files) {s : Stored}
    (hs : s ∈ l) : runOps files (l.flatMap (Stored.ops dir)) (partOf dir s.name) = none := by
  induction l generalizing files with
  | nil => cases hs
  | cons t rest ih =>
    rw [List.flatMap_cons, runOps_append]
    by_cases hLater : ∃ r ∈ rest, r.name = s.name
    · obtain ⟨r, hr, hName⟩ := hLater
      have hEq : r = s := hConsistent.same r (List.mem_cons_of_mem t hr) s hs hName
      exact ih hConsistent.tail _ (hEq ▸ hr)
    · -- the last one under its name is the first of the list, and moves its part away
      have hFirst : s = t := by
        rcases List.mem_cons.mp hs with hEq | hRest
        · exact hEq
        · exact absurd ⟨s, hRest, rfl⟩ hLater
      rw [runOps_of_not_stored, runOps_store, hFirst, if_neg (part_ne dir t.name), if_pos rfl]
      intro r hr
      have hName : s.name ≠ r.name := fun h => hLater ⟨r, hr, h.symm⟩
      have hPart := hConsistent.parts r (List.mem_cons_of_mem t hr) s hs
      exact ⟨by simpa [partOf] using Ne.symm hPart, by simpa [partOf] using hName⟩

/-- The places an operation is about. -/
def FileOp.places : FileOp → List (List Name)
  | .write place _         => [place]
  | .chmod place _         => [place]
  | .replace source target => [source, target]

/-- Storing files is about their places and those of their parts alone. -/
theorem places_stores {l : List Stored} {op : FileOp} (hOp : op ∈ l.flatMap (Stored.ops dir))
    {place : List Name} (hPlace : place ∈ op.places) :
    ∃ s ∈ l, place = dir ++ [s.name] ∨ place = partOf dir s.name := by
  obtain ⟨s, hs, hStore⟩ := List.mem_flatMap.mp hOp
  simp only [Stored.ops, store, List.mem_cons, List.not_mem_nil, or_false] at hStore
  refine ⟨s, hs, ?_⟩
  rcases hStore with rfl | rfl | rfl
  · exact Or.inr (List.mem_singleton.mp hPlace)
  · exact Or.inr (List.mem_singleton.mp hPlace)
  · rcases List.mem_cons.mp hPlace with h | h
    · exact Or.inr h
    · exact Or.inl (List.mem_singleton.mp h)

/-- What is moved into place. -/
theorem replace_mem_iff {l : List Stored} {target : List Name} :
    (∃ source, FileOp.replace source target ∈ l.flatMap (Stored.ops dir)) ↔
      ∃ s ∈ l, target = dir ++ [s.name] := by
  constructor
  · rintro ⟨source, h⟩
    obtain ⟨s, hs, hOp⟩ := List.mem_flatMap.mp h
    refine ⟨s, hs, ?_⟩
    simp only [Stored.ops, store, List.mem_cons, reduceCtorEq, FileOp.replace.injEq,
      List.not_mem_nil, or_false, false_or] at hOp
    exact hOp.2
  · rintro ⟨s, hs, rfl⟩
    exact ⟨partOf dir s.name, List.mem_flatMap.mpr ⟨s, hs, by simp [Stored.ops, store]⟩⟩

-- ---------------------------------------------------------------------------
-- One entry
-- ---------------------------------------------------------------------------

/-- The entry uses a reference. -/
def UsesReference (lib : Library) (pair : JsonObject) : Prop :=
  isReference (refText lib pair "certificateFile") = true ∨
    isReference (refText lib pair "keyFile") = true

/-- The entry refers to this upload, which is one of the uploaded pairs and
was found good. -/
structure RefersTo (call : Call) (tag : Json) (pair : JsonObject) (u : Upload) : Prop where
  certRef   : (refText call.lib pair "certificateFile").toList =
    materialPrefix.toList ++ u.certName
  keyRef    : (refText call.lib pair "keyFile").toList = materialPrefix.toList ++ u.keyName
  certName  : isMaterialName u.certName = true
  keyName   : isMaterialName u.keyName = true
  certPem   : call.material.get? (String.ofList u.certName) = some u.certPem
  keyPem    : call.material.get? (String.ofList u.keyName) = some u.keyPem
  validated : ∃ cert, validatePemPair call.lib call.now u.certPem u.keyPem
    (inboundContext call tag) = .ok cert

/-- What a suffix of four leaves of a name. -/
theorem dropLast_of_suffix {name : List Char} {a b c d : Char}
    (h : [a, b, c, d].isSuffixOf name = true) :
    name.dropLast.dropLast.dropLast.dropLast ++ [a, b, c, d] = name := by
  obtain ⟨stem, rfl⟩ := List.isSuffixOf_iff_suffix.mp h
  have hDrop : (stem ++ [a, b, c, d]).dropLast.dropLast.dropLast.dropLast = stem := by
    rw [show stem ++ [a, b, c, d] = ((((stem ++ [a]) ++ [b]) ++ [c]) ++ [d]) by simp]
    simp only [List.dropLast_concat]
  rw [hDrop]

theorem pairStem_eq_some {certName keyName stem : List Char}
    (h : pairStem certName keyName = some stem) :
    isMaterialName certName = true ∧ isMaterialName keyName = true ∧
      certName = stem ++ ['.', 'c', 'r', 't'] ∧ keyName = stem ++ ['.', 'k', 'e', 'y'] := by
  unfold pairStem at h
  split at h
  · rename_i hChecks
    simp only [Bool.and_eq_true, beq_iff_eq] at hChecks
    obtain ⟨⟨⟨⟨hCert, hKey⟩, hCrt⟩, hKeySuffix⟩, hStem⟩ := hChecks
    obtain rfl := Option.some.inj h
    exact ⟨hCert, hKey, (dropLast_of_suffix hCrt).symm,
      by rw [hStem]; exact (dropLast_of_suffix hKeySuffix).symm⟩
  · cases h

/-- A reference is the marker and the name. -/
theorem reference_eq {ref : String} (h : isReference ref = true) :
    ref.toList = materialPrefix.toList ++ referenceName ref := by
  obtain ⟨name, hName⟩ := List.isPrefixOf_iff_prefix.mp h
  unfold referenceName
  rw [← hName, show materialPrefix.length = materialPrefix.toList.length from rfl,
    List.drop_left]

/-- What the checks of an entry let through: an entry without a reference, or
one that refers to an uploaded pair found good. -/
theorem planOf_ok {call : Call} {tag : Json} {pair : JsonObject} {used : Option Upload}
    (h : planOf call tag pair = .ok used) :
    (used = none ∧ ¬ UsesReference call.lib pair) ∨
      ∃ u, used = some u ∧ UsesReference call.lib pair ∧ RefersTo call tag pair u := by
  unfold planOf at h
  simp only at h
  split at h
  -- neither of the two fields is a reference
  · rename_i hNeither
    simp only [Bool.and_eq_true, Bool.not_eq_true'] at hNeither
    refine Or.inl ⟨(Except.ok.inj h).symm, ?_⟩
    rintro (hCert | hKey)
    · rw [hNeither.1] at hCert
      cases hCert
    · rw [hNeither.2] at hKey
      cases hKey
  · split at h
    · cases h
    · rename_i hBoth
      simp only [Bool.or_eq_true, Bool.not_eq_true', not_or, Bool.not_eq_false] at hBoth
      obtain ⟨hCert, hKey⟩ := hBoth
      -- both are: their names must make a pair
      cases hStem : pairStem (referenceName (refText call.lib pair "certificateFile"))
          (referenceName (refText call.lib pair "keyFile")) with
      | none =>
        rw [hStem] at h
        cases h
      | some stem =>
        rw [hStem] at h
        simp only at h
        obtain ⟨hCertName, hKeyName, hCrt, hKeySuffix⟩ := pairStem_eq_some hStem
        split at h
        · cases h
        · cases h
        -- both uploads are there, and are checked together
        · rename_i certPem keyPem hCertPem hKeyPem
          cases hValid : validatePemPair call.lib call.now certPem keyPem
              (inboundContext call tag) with
          | error e =>
            rw [hValid] at h
            cases h
          | ok cert =>
            rw [hValid] at h
            refine Or.inr ⟨⟨stem, certPem, keyPem⟩, (Except.ok.inj h).symm, Or.inl hCert, ?_⟩
            constructor
            · rw [reference_eq hCert, hCrt]
              rfl
            · rw [reference_eq hKey, hKeySuffix]
              rfl
            · rw [hCrt] at hCertName
              exact hCertName
            · rw [hKeySuffix] at hKeyName
              exact hKeyName
            · rw [hCrt] at hCertPem
              exact hCertPem
            · rw [hKeySuffix] at hKeyPem
              exact hKeyPem
            · exact ⟨cert, hValid⟩

/-- The name of a place in the file system is no reference. -/
theorem not_isReference_placeText (place : List Name) : isReference (placeText place) = false := by
  unfold isReference placeText
  rw [String.toList_ofList]
  rfl

/-- An entry that names two files uses no reference. -/
theorem not_usesReference_named (lib : Library) (u : Upload) (pair : JsonObject) :
    ¬ UsesReference lib (u.named dir pair) := by
  have hText : ∀ place, placeText place ≠ "" := by
    intro place h
    have hList := congrArg String.toList h
    rw [placeText, String.toList_ofList] at hList
    cases hList
  have hCert : refText lib (u.named dir pair) "certificateFile" =
      placeText (dir ++ [u.certName]) := by
    unfold refText Upload.named
    rw [Json.getD_eq, Json.get?_assocSet, if_neg (by decide), Json.get?_assocSet, if_pos rfl]
    simp [Json.or, Json.truthy, hText]
  have hKey : refText lib (u.named dir pair) "keyFile" = placeText (dir ++ [u.keyName]) := by
    unfold refText Upload.named
    rw [Json.getD_eq, Json.get?_assocSet, if_pos rfl]
    simp [Json.or, Json.truthy, hText]
  unfold UsesReference
  rw [hCert, hKey, not_isReference_placeText, not_isReference_placeText]
  simp

-- ---------------------------------------------------------------------------
-- The entries of a rewritten document
-- ---------------------------------------------------------------------------

theorem itemsIn_mapIn {α : Type} {key : String} {items : Json → List α} {g : Json → Json}
    (hNull : items .null = []) (entries : JsonObject) :
    itemsIn key items (mapIn key g entries) =
      match Json.get? entries key with
      | some v => items (g v)
      | none   => [] := by
  unfold itemsIn mapIn
  cases hGet : Json.get? entries key with
  | none => rw [Json.getD_eq, hGet]; exact hNull
  | some v =>
    simp only
    rw [Json.getD_eq, Json.get?_assocSet, if_pos rfl]
    rfl

/-- Items of a changed value are the changed items. -/
def Follows {α : Type} (items : Json → List α) (g : Json → Json) (f : α → α) : Prop :=
  ∀ v, items (g v) = (items v).map f

theorem follows_itemsIn {α : Type} {key : String} {items : Json → List α} {g : Json → Json}
    {f : α → α} (hNull : items .null = []) (h : Follows items g f) (entries : JsonObject) :
    itemsIn key items (mapIn key g entries) = (itemsIn key items entries).map f := by
  rw [itemsIn_mapIn hNull, itemsIn, Json.getD_eq]
  cases Json.get? entries key with
  | none => rw [show items ((none : Option Json).getD .null) = [] from hNull]; rfl
  | some v => exact h v

theorem follows_onDict {α : Type} {items : JsonObject → List α} {g : JsonObject → JsonObject}
    {f : α → α} (h : ∀ entries, items (g entries) = (items entries).map f) :
    Follows (ofDict items) (onDict g) f := by
  intro v
  cases v with
  | dict entries => exact h entries
  | null | bool | num | float | str | list => rfl

theorem follows_onList {α : Type} {items : Json → List α} {g : Json → Json} {f : α → α}
    (h : Follows items g f) : Follows (ofList items) (onList g) f := by
  intro v
  cases v with
  | list xs =>
    show (xs.map g).flatMap items = (xs.flatMap items).map f
    rw [List.flatMap_map, List.map_flatMap]
    exact List.flatMap_congr fun x _ => h x
  | null | bool | num | float | str | dict => rfl

theorem inboundEntries_mapInbound (f : JsonObject → JsonObject) (inbound : JsonObject) :
    inboundEntries (mapInbound f inbound) = (inboundEntries inbound).map f := by
  have hPair : Follows (ofDict fun pair => [pair]) (onDict f) f := follows_onDict fun _ => rfl
  exact follows_itemsIn rfl (follows_onDict (follows_itemsIn rfl (follows_onDict
    (follows_itemsIn rfl (follows_onList hPair))))) inbound

/-- The tag of an inbound is not changed. -/
theorem tag_mapInbound (f : JsonObject → JsonObject) (inbound : JsonObject) :
    Json.getD (mapInbound f inbound) "tag" = Json.getD inbound "tag" := by
  unfold mapInbound mapIn
  cases Json.get? inbound "streamSettings" with
  | none => rfl
  | some v =>
    simp only
    rw [Json.getD_eq, Json.get?_assocSet, if_neg (by decide), Json.getD_eq]

/-- The entries of a rewritten document are the rewritten entries. -/
theorem certificateEntries_mapEntries (f : Json → JsonObject → JsonObject)
    (document : JsonObject) :
    certificateEntries (mapEntries f document) =
      (certificateEntries document).map fun e => (e.1, f e.1 e.2) := by
  refine follows_itemsIn rfl (follows_onList (follows_onDict fun inbound => ?_)) document
  rw [tag_mapInbound, inboundEntries_mapInbound, List.map_map, List.map_map]
  rfl

-- ---------------------------------------------------------------------------
-- The plans of a document
-- ---------------------------------------------------------------------------

/-- No plan is a failed check. -/
def AllPass (ps : List Plan) : Prop := ∀ p ∈ ps, ∃ used, p = .ok used

/-- Where all checks pass, the plans of a value are those of its entries. -/
def Covers {α β : Type} (plan : β → Plan) (ps : α → List Plan) (items : α → List β) : Prop :=
  ∀ a, AllPass (ps a) → ps a = (items a).map plan

theorem covers_in {β : Type} {plan : β → Plan} {key : String} {ps : Json → List Plan}
    {items : Json → List β} (hFalsy : ∀ v, v.truthy = false → items v = [])
    (h : Covers plan ps items) : Covers plan (plansIn key ps) (itemsIn key items) := by
  intro entries hPass
  unfold plansIn at hPass ⊢
  unfold itemsIn
  by_cases hTruthy : (Json.getD entries key).truthy = true
  · rw [if_pos hTruthy] at hPass ⊢
    exact h _ hPass
  · rw [if_neg hTruthy, hFalsy _ (Bool.not_eq_true _ ▸ hTruthy)]
    rfl

theorem covers_dict {β : Type} {plan : β → Plan} {ps : JsonObject → List Plan}
    {items : JsonObject → List β} (h : Covers plan ps items) :
    Covers plan (plansDict ps) (ofDict items) := by
  intro v hPass
  cases v with
  | dict entries => exact h entries hPass
  | null | bool | num | float | str | list =>
    obtain ⟨used, hUsed⟩ := hPass (.error notADict) (by simp [plansDict])
    cases hUsed

theorem covers_ofDict {β : Type} {plan : β → Plan} {ps : JsonObject → List Plan}
    {items : JsonObject → List β} (h : Covers plan ps items) :
    Covers plan (ofDict ps) (ofDict items) := by
  intro v hPass
  cases v with
  | dict entries => exact h entries hPass
  | null | bool | num | float | str | list => rfl

theorem covers_flatMap {β : Type} {plan : β → Plan} {ps : Json → List Plan}
    {items : Json → List β} (h : Covers plan ps items) (xs : List Json)
    (hPass : AllPass (xs.flatMap ps)) : xs.flatMap ps = (xs.flatMap items).map plan := by
  rw [List.map_flatMap]
  refine List.flatMap_congr fun x hx => h x fun p hp => ?_
  exact hPass p (List.mem_flatMap.mpr ⟨x, hx, hp⟩)

theorem covers_list {β : Type} {plan : β → Plan} {ps : Json → List Plan} {items : Json → List β}
    (h : Covers plan ps items) : Covers plan (ofList ps) (ofList items) := by
  intro v hPass
  cases v with
  | list xs => exact covers_flatMap h xs hPass
  | null | bool | num | float | str | dict => rfl

variable {call : Call}

theorem covers_inbound (inbound : JsonObject) (hPass : AllPass (plansInbound call inbound)) :
    plansInbound call inbound =
      (inboundEntries inbound).map (planOf call (Json.getD inbound "tag")) := by
  have hPair : Covers (planOf call (Json.getD inbound "tag"))
      (fun pair => [planOf call (Json.getD inbound "tag") pair]) fun pair => [pair] :=
    fun _ _ => rfl
  exact covers_in (ofDict_of_falsy rfl) (covers_dict (covers_in (ofDict_of_falsy rfl)
    (covers_dict (covers_in (ofList_of_falsy _) (covers_list (covers_ofDict hPair)))))) inbound
    hPass

/-- Where all checks pass, each entry of the document was checked. -/
theorem plans_eq (document : JsonObject) (hPass : AllPass (plans call document)) :
    plans call document = (certificateEntries document).map fun e => planOf call e.1 e.2 := by
  have hInbound : Covers (fun e : Json × JsonObject => planOf call e.1 e.2) (plansInbound call)
      fun inbound => (inboundEntries inbound).map fun pair => (Json.getD inbound "tag", pair) := by
    intro inbound hPass
    rw [covers_inbound inbound hPass, List.map_map]
    rfl
  have hInbounds : Covers (fun e : Json × JsonObject => planOf call e.1 e.2) (plansInbounds call)
      (ofList (ofDict fun inbound =>
        (inboundEntries inbound).map fun pair => (Json.getD inbound "tag", pair))) := by
    intro v hPass
    cases v with
    | list inbounds => exact covers_flatMap (covers_ofDict hInbound) inbounds hPass
    | str | dict => rfl
    | null | bool | num | float =>
      obtain ⟨used, hUsed⟩ := hPass (.error _) (List.mem_singleton.mpr rfl)
      cases hUsed
  exact covers_in (ofList_of_falsy _) hInbounds document hPass

-- ---------------------------------------------------------------------------
-- A run of the loops that ends
-- ---------------------------------------------------------------------------

/-- The pairs a document refers to, one for each entry that refers to one. -/
def uploads (ps : List Plan) : List Upload :=
  ps.filterMap fun
    | .ok used => used
    | .error _ => none

def Upload.names (u : Upload) : List String :=
  [String.ofList u.certName, String.ofList u.keyName]

/-- What the loops have done when they end. -/
theorem loop_ok {ps : List Plan} {w w' : Work}
    (h : (forEach (perform dir) ps).run w = (.ok (), w')) :
    AllPass ps ∧ w'.consumed = w.consumed ++ (uploads ps).flatMap Upload.names ∧
      w'.ops = w.ops ++ (uploads ps).flatMap (Upload.ops dir) := by
  induction ps generalizing w with
  | nil =>
    obtain rfl : w = w' := congrArg Prod.snd h
    exact ⟨(fun p hp => by cases hp), by simp [uploads], by simp [uploads]⟩
  | cons p rest ih =>
    cases p with
    | error e => cases h
    | ok used =>
      have hHead : AllPass rest → AllPass (.ok used :: rest) := fun hRest p hp => by
        rcases List.mem_cons.mp hp with rfl | hLater
        · exact ⟨used, rfl⟩
        · exact hRest p hLater
      cases used with
      | none =>
        obtain ⟨hPass, hConsumed, hOps⟩ := ih h
        exact ⟨hHead hPass, hConsumed, hOps⟩
      | some u =>
        obtain ⟨hPass, hConsumed, hOps⟩ := ih h
        refine ⟨hHead hPass, ?_, ?_⟩
        · rw [hConsumed]
          simp [uploads, Upload.names]
        · rw [hOps]
          simp [uploads]

/-- Where all checks pass, the loops end. -/
theorem loop_of_pass {ps : List Plan} (hPass : AllPass ps) (w : Work) :
    (forEach (perform dir) ps).run w =
      (.ok (), ⟨w.consumed ++ (uploads ps).flatMap Upload.names,
        w.ops ++ (uploads ps).flatMap (Upload.ops dir)⟩) := by
  induction ps generalizing w with
  | nil => simp [forEach, uploads]
  | cons p rest ih =>
    obtain ⟨used, rfl⟩ := hPass p List.mem_cons_self
    have hRest := ih fun q hq => hPass q (List.mem_cons_of_mem _ hq)
    cases used with
    | none => exact hRest w
    | some u =>
      have hFirst : (perform dir (.ok (some u))).run w =
          (.ok (), ⟨w.consumed ++ u.names, w.ops ++ u.ops dir⟩) := rfl
      rw [forEach, Op.run_bind_ok hFirst, hRest]
      simp [uploads]

theorem mem_uploads {ps : List Plan} {u : Upload} : u ∈ uploads ps ↔ .ok (some u) ∈ ps := by
  unfold uploads
  rw [List.mem_filterMap]
  constructor
  · rintro ⟨p, hp, hUsed⟩
    cases p with
    | error e => cases hUsed
    | ok used =>
      simp only at hUsed
      exact hUsed ▸ hp
  · exact fun h => ⟨_, h, rfl⟩

/-- The two files of an upload. -/
theorem mem_stored {u : Upload} {s : Stored} :
    s ∈ u.stored ↔ s = ⟨u.certName, u.certPem, 0o644⟩ ∨ s = ⟨u.keyName, u.keyPem, 0o600⟩ := by
  simp [Upload.stored]

theorem certName_ne_keyName (u v : Upload) : u.certName ≠ v.keyName := by
  intro h
  have hReverse := congrArg List.reverse h
  simp [Upload.certName, Upload.keyName] at hReverse

theorem certName_ne_part (u : Upload) (name : List Char) :
    u.certName ≠ name ++ ['.', 'p', 'a', 'r', 't'] := by
  intro h
  have hReverse := congrArg List.reverse h
  simp [Upload.certName] at hReverse

theorem keyName_ne_part (u : Upload) (name : List Char) :
    u.keyName ≠ name ++ ['.', 'p', 'a', 'r', 't'] := by
  intro h
  have hReverse := congrArg List.reverse h
  simp [Upload.keyName] at hReverse

/-- Pairs that are all uploaded can be stored in any order and repeatedly. -/
theorem consistent_stored {us : List Upload}
    (h : ∀ u ∈ us, call.material.get? (String.ofList u.certName) = some u.certPem ∧
      call.material.get? (String.ofList u.keyName) = some u.keyPem) :
    Consistent (us.flatMap Upload.stored) := by
  constructor
  · intro s hs t ht hName
    obtain ⟨u, hu, hsu⟩ := List.mem_flatMap.mp hs
    obtain ⟨v, hv, htv⟩ := List.mem_flatMap.mp ht
    obtain ⟨hCertU, hKeyU⟩ := h u hu
    obtain ⟨hCertV, hKeyV⟩ := h v hv
    rcases mem_stored.mp hsu with rfl | rfl <;> rcases mem_stored.mp htv with rfl | rfl
    · have hSame : u.certName = v.certName := hName
      rw [hSame, hCertV] at hCertU
      rw [hSame, Option.some.inj hCertU]
    · exact absurd hName (certName_ne_keyName u v)
    · exact absurd hName.symm (certName_ne_keyName v u)
    · have hSame : u.keyName = v.keyName := hName
      rw [hSame, hKeyV] at hKeyU
      rw [hSame, Option.some.inj hKeyU]
  · intro s hs t _
    obtain ⟨u, -, hsu⟩ := List.mem_flatMap.mp hs
    rcases mem_stored.mp hsu with rfl | rfl
    · exact certName_ne_part u t.name
    · exact keyName_ne_part u t.name

/-- The call returned, and what its loops did until then. -/
theorem materializeIn_ok {document prepared : JsonObject} {work : Work}
    (h : (materializeIn call dir document).run ⟨[], []⟩ = (.ok prepared, work)) :
    prepared = mapEntries (renamed call dir) document ∧
      (forEach (perform dir) (plans call document)).run ⟨[], []⟩ = (.ok (), work) ∧
      ∀ name ∈ call.material.keys, name ∈ work.consumed := by
  unfold materializeIn at h
  rw [Op.run_bind] at h
  cases hLoops : (inField "inbounds" (inInbounds call dir) document).run ⟨[], []⟩ with
  | mk result w' =>
    rw [hLoops] at h
    cases result with
    | error e => cases h
    | ok rewritten =>
      simp only [Op.run_get_bind] at h
      split at h
      · rename_i hConsumed
        obtain ⟨hPrepared, hWork⟩ := Prod.mk.inj h
        obtain rfl := Except.ok.inj hPrepared
        obtain rfl : w' = work := hWork
        refine ⟨materialize_result document _ _ _ hLoops, ?_, ?_⟩
        · rw [← materialize_effect]
          exact Op.run_effect_ok hLoops
        · intro name hName
          simpa using List.all_eq_true.mp hConsumed name hName
      · cases h

/-- Where all checks pass and every upload is used, the call returns. -/
theorem materializeIn_of_pass {document : JsonObject} (hPass : AllPass (plans call document))
    (hUsed : ∀ name ∈ call.material.keys,
      name ∈ (uploads (plans call document)).flatMap Upload.names) :
    (materializeIn call dir document).run ⟨[], []⟩ =
      (.ok (mapEntries (renamed call dir) document),
        ⟨(uploads (plans call document)).flatMap Upload.names,
          (uploads (plans call document)).flatMap (Upload.ops dir)⟩) := by
  -- the loops, as one loop over the entries
  have hEffect := @loop_of_pass dir _ hPass ⟨[], []⟩
  rw [← materialize_effect, List.nil_append, List.nil_append] at hEffect
  cases hLoops : (inField "inbounds" (inInbounds call dir) document).run ⟨[], []⟩ with
  | mk result work =>
    cases result with
    | error e =>
      rw [Op.run_effect_error hLoops] at hEffect
      cases hEffect
    | ok prepared =>
      rw [Op.run_effect_ok hLoops] at hEffect
      have hWork := congrArg Prod.snd hEffect
      simp only at hWork
      have hPrepared := materialize_result document _ _ _ hLoops
      -- no upload is left over
      have hAll : (call.material.keys.all fun name => work.consumed.contains name) = true := by
        rw [List.all_eq_true]
        intro name hName
        rw [hWork]
        simpa using hUsed name hName
      unfold materializeIn
      rw [Op.run_bind_ok hLoops, Op.run_get_bind, if_pos hAll, hPrepared, hWork]
      rfl

-- ---------------------------------------------------------------------------
-- The whole call
-- ---------------------------------------------------------------------------

/-- What became of one certificate entry: left alone if it used no reference,
and else it names two files beside each other in the directory, which hold the
uploaded pair it referred to. -/
def EntryDone (call : Call) (dir : List Name) (after : Files) (tag : Json)
    (pair done : JsonObject) : Prop :=
  (¬ UsesReference call.lib pair ∧ done = pair) ∨
    ∃ u, UsesReference call.lib pair ∧ RefersTo call tag pair u ∧ done = u.named dir pair ∧
      after (dir ++ [u.certName]) = some ⟨u.certPem, 0o644⟩ ∧
      after (dir ++ [u.keyName]) = some ⟨u.keyPem, 0o600⟩

/-- What the call has to do to the document and the files. -/
structure Materialized (call : Call) (site : Site) (settings : JsonObject) (dir : List Name)
    (document prepared : JsonObject) (ops : List FileOp) (files : Files) : Prop where
  /-- the certificate directory is what the setting denotes, at the core root or
  below it -/
  certDir  : CertDirAt call site settings dir
  /-- it is there, or was made -/
  made     : site.fs.makeDirs dir = true
  /-- the certificate entries are rewritten as they should be, and nothing else -/
  entries  : ∃ rewrite, prepared = mapEntries rewrite document ∧
    ∀ e ∈ certificateEntries document,
      EntryDone call dir (runOps files ops) e.1 e.2 (rewrite e.1 e.2)
  noneLeft : ∀ e ∈ certificateEntries prepared, ¬ UsesReference call.lib e.2
  /-- the files moved into place are the uploads, as children of the directory -/
  written  : ∀ target, (∃ source, FileOp.replace source target ∈ ops) ↔
    ∃ name, String.ofList name ∈ call.material.keys ∧ '/' ∉ name ∧ target = dir ++ [name]
  /-- no operation is about another place than those of the uploads and their
  parts -/
  places   : ∀ op ∈ ops, ∀ place ∈ op.places, ∃ name, String.ofList name ∈ call.material.keys ∧
    (place = dir ++ [name] ∨ place = partOf dir name)
  /-- no part is left behind -/
  noParts  : ∀ name, String.ofList name ∈ call.material.keys →
    runOps files ops (partOf dir name) = none
  /-- every other place holds what it held -/
  others   : ∀ place, (∀ name, String.ofList name ∈ call.material.keys →
      place ≠ dir ++ [name] ∧ place ≠ partOf dir name) →
    runOps files ops place = files place

theorem not_mem_of_materialName {name : List Char} (h : isMaterialName name = true) :
    '/' ∉ name := by
  intro hSlash
  cases name with
  | nil => cases hSlash
  | cons c cs =>
    simp only [isMaterialName, Bool.and_eq_true, List.all_eq_true] at h
    rcases List.mem_cons.mp hSlash with rfl | hTail
    · exact absurd h.1.1 (by decide)
    · exact absurd (h.2 '/' hTail) (by decide)

theorem certDir_ok {site : Site} {settings : JsonObject}
    (h : certDir call site settings = .ok dir) :
    CertDirAt call site settings dir ∧ site.fs.makeDirs dir = true := by
  have hResolve : ∀ {text place}, resolvePath site text = .ok place →
      site.fs.resolve text = some place := by
    intro text place hOk
    unfold resolvePath at hOk
    cases hPlace : site.fs.resolve text with
    | none =>
      rw [hPlace] at hOk
      simp only at hOk
      split at hOk <;> cases hOk
    | some found =>
      rw [hPlace] at hOk
      exact congrArg some (Except.ok.inj hOk)
  unfold certDir at h
  obtain ⟨place, hPlace, h⟩ := bind_ok_iff.mp h
  obtain ⟨root, hRoot, h⟩ := bind_ok_iff.mp h
  split at h
  · rename_i hInside
    split at h
    · rename_i hMade
      obtain rfl := Except.ok.inj h
      exact ⟨⟨root, hResolve hRoot, hResolve hPlace, Fs.inside_iff.mp hInside⟩, hMade⟩
    · cases h
  · cases h

theorem prepare_ok {site : Site} {settings : JsonObject}
    (h : prepare call site settings = .ok dir) : certDir call site settings = .ok dir := by
  unfold prepare at h
  split at h
  · cases h
  · obtain ⟨total, -, h⟩ := bind_ok_iff.mp h
    split at h
    · cases h
    · exact h

/-- What a run of the loops that ends has stored is what was uploaded. -/
theorem stored_iff {document : JsonObject} {work : Work}
    (hRefers : ∀ u ∈ uploads (plans call document), ∃ tag pair, RefersTo call tag pair u)
    (hNames : work.consumed = (uploads (plans call document)).flatMap Upload.names)
    (hConsumed : ∀ name ∈ call.material.keys, name ∈ work.consumed) (name : List Char) :
    (∃ s ∈ (uploads (plans call document)).flatMap Upload.stored, s.name = name) ↔
      String.ofList name ∈ call.material.keys := by
  constructor
  · rintro ⟨s, hs, rfl⟩
    obtain ⟨u, hu, hsu⟩ := List.mem_flatMap.mp hs
    obtain ⟨tag, pair, hUpload⟩ := hRefers u hu
    rcases mem_stored.mp hsu with rfl | rfl
    · exact Dict.mem_keys_iff.mpr ⟨_, hUpload.certPem⟩
    · exact Dict.mem_keys_iff.mpr ⟨_, hUpload.keyPem⟩
  · intro hName
    have hMem := hConsumed _ hName
    rw [hNames] at hMem
    obtain ⟨u, hu, hOne⟩ := List.mem_flatMap.mp hMem
    rcases List.mem_cons.mp hOne with hCert | hOther
    · exact ⟨_, List.mem_flatMap.mpr ⟨u, hu, mem_stored.mpr (Or.inl rfl)⟩,
        (String.ofList_injective hCert).symm⟩
    · exact ⟨_, List.mem_flatMap.mpr ⟨u, hu, mem_stored.mpr (Or.inr rfl)⟩,
        (String.ofList_injective (List.mem_singleton.mp hOther)).symm⟩

/--
**Materialized documents.** For every document and every uploads with which
the call returns, and whatever files there were before: every certificate entry
that used a reference names two children of the certificate directory, which
is what the setting denotes and at or below the core root, and these hold the
validated pair it referred to; the files put there are exactly the uploads, and
no other file is touched or left; no certificate entry uses a reference any
more; and the rest of the document is as it was.
-/
theorem materialized (call : Call) (site : Site) (settings document prepared : JsonObject)
    (ops : List FileOp) (files : Files)
    (hReturns : materializeXrayTls call site settings document = (.ok prepared, ops)) :
    ∃ dir, Materialized call site settings dir document prepared ops files := by
  unfold materializeXrayTls at hReturns
  cases hPrepare : prepare call site settings with
  | error e =>
    rw [hPrepare] at hReturns
    cases hReturns
  | ok dir =>
    rw [hPrepare] at hReturns
    cases hRun : (materializeIn call dir document).run ⟨[], []⟩ with
    | mk result work =>
      simp only [hRun] at hReturns
      obtain ⟨rfl, rfl⟩ := Prod.mk.inj hReturns
      obtain ⟨hPrepared, hLoop, hConsumed⟩ := materializeIn_ok hRun
      obtain ⟨hPass, hNames, hOps⟩ := loop_ok hLoop
      have hPlans := plans_eq document hPass
      -- every entry passed its checks, and every pair stored is that of an entry
      have hEntry : ∀ e ∈ certificateEntries document, ∃ used, planOf call e.1 e.2 = .ok used :=
        fun e he => hPass _ (by rw [hPlans]; exact List.mem_map.mpr ⟨e, he, rfl⟩)
      have hUsed : ∀ u ∈ uploads (plans call document), ∃ tag pair, RefersTo call tag pair u := by
        intro u hu
        rw [mem_uploads, hPlans] at hu
        obtain ⟨e, -, hPlan⟩ := List.mem_map.mp hu
        obtain ⟨hNone, -⟩ | ⟨v, hSome, -, hRefers⟩ := planOf_ok hPlan
        · cases hNone
        · exact ⟨e.1, e.2, Option.some.inj hSome ▸ hRefers⟩
      -- the operations store these pairs, under the names of the uploads
      have hStored : work.ops =
          ((uploads (plans call document)).flatMap Upload.stored).flatMap (Stored.ops dir) := by
        rw [hOps, List.nil_append, List.flatMap_assoc]
        exact List.flatMap_congr fun u _ => ops_eq_stored dir u
      have hKeys := @stored_iff call document work hUsed hNames hConsumed
      have hConsistent : Consistent ((uploads (plans call document)).flatMap Upload.stored) := by
        refine @consistent_stored call _ fun u hu => ?_
        obtain ⟨tag, pair, hRefers⟩ := hUsed u hu
        exact ⟨hRefers.certPem, hRefers.keyPem⟩
      have hInPlace : ∀ u ∈ uploads (plans call document), ∀ s ∈ u.stored,
          runOps files work.ops (dir ++ [s.name]) = some ⟨s.text, s.mode⟩ := by
        intro u hu s hs
        rw [hStored]
        exact runOps_stores hConsistent files (List.mem_flatMap.mpr ⟨u, hu, hs⟩)
      have hSlash : ∀ s ∈ (uploads (plans call document)).flatMap Upload.stored,
          '/' ∉ s.name := by
        intro s hs
        obtain ⟨u, hu, hsu⟩ := List.mem_flatMap.mp hs
        obtain ⟨tag, pair, hRefers⟩ := hUsed u hu
        rcases mem_stored.mp hsu with rfl | rfl
        · exact not_mem_of_materialName hRefers.certName
        · exact not_mem_of_materialName hRefers.keyName
      obtain ⟨hAt, hMade⟩ := certDir_ok (prepare_ok hPrepare)
      refine ⟨dir, hAt, hMade, ⟨renamed call dir, hPrepared, ?_⟩, ?_, ?_, ?_, ?_, ?_⟩
      · intro e he
        obtain ⟨used, hPlan⟩ := hEntry e he
        obtain ⟨rfl, hNot⟩ | ⟨u, rfl, hUses, hRefers⟩ := planOf_ok hPlan
        · exact Or.inl ⟨hNot, by simp [renamed, hPlan]⟩
        · have hMem : u ∈ uploads (plans call document) := by
            rw [mem_uploads, hPlans]
            exact List.mem_map.mpr ⟨e, he, hPlan⟩
          exact Or.inr ⟨u, hUses, hRefers, by simp [renamed, hPlan],
            hInPlace u hMem _ (mem_stored.mpr (Or.inl rfl)),
            hInPlace u hMem _ (mem_stored.mpr (Or.inr rfl))⟩
      · intro e he
        rw [hPrepared, certificateEntries_mapEntries] at he
        obtain ⟨old, hOld, rfl⟩ := List.mem_map.mp he
        obtain ⟨used, hPlan⟩ := hEntry old hOld
        obtain ⟨rfl, hNot⟩ | ⟨u, rfl, -, -⟩ := planOf_ok hPlan
        · simpa [renamed, hPlan] using hNot
        · simpa [renamed, hPlan] using not_usesReference_named call.lib u old.2
      · intro target
        rw [hStored, replace_mem_iff]
        constructor
        · rintro ⟨s, hs, rfl⟩
          exact ⟨s.name, (hKeys s.name).mp ⟨s, hs, rfl⟩, hSlash s hs, rfl⟩
        · rintro ⟨name, hName, -, rfl⟩
          obtain ⟨s, hs, rfl⟩ := (hKeys name).mpr hName
          exact ⟨s, hs, rfl⟩
      · intro op hOp place hPlace
        rw [hStored] at hOp
        obtain ⟨s, hs, hAtPlace⟩ := places_stores hOp hPlace
        exact ⟨s.name, (hKeys s.name).mp ⟨s, hs, rfl⟩, hAtPlace⟩
      · intro name hName
        obtain ⟨s, hs, rfl⟩ := (hKeys name).mpr hName
        rw [hStored]
        exact runOps_parts hConsistent files hs
      · intro place hElsewhere
        rw [hStored]
        exact runOps_of_not_stored files fun s hs =>
          hElsewhere s.name ((hKeys s.name).mp ⟨s, hs, rfl⟩)

-- ---------------------------------------------------------------------------
-- One pair
-- ---------------------------------------------------------------------------

/-- One pair and nothing else. -/
def onePair : Call := sampleCall (.ofPairs [("a.crt", sampleCert), ("a.key", sampleKey)])

def sampleDir : List Name :=
  ["var", "lib", "zagros", "cores", "xray", "certs"].map String.toList

def samplePair : Upload := ⟨['a'], sampleCert, sampleKey⟩

theorem sizes : sampleCert.utf8ByteSize ≤ itemBytes ∧ sampleKey.utf8ByteSize ≤ itemBytes := by
  decide +kernel

theorem prepare_onePair : prepare onePair sampleSite [] = .ok sampleDir := by
  obtain ⟨hCert, hKey⟩ := sizes
  have hMaterial : checkMaterial onePair onePair.material.entries =
      .ok (sampleCert.utf8ByteSize + (sampleKey.utf8ByteSize + 0)) := by
    show checkMaterial onePair [("a.crt", sampleCert), ("a.key", sampleKey)] = _
    simp only [checkMaterial, if_pos hCert, if_pos hKey]
    rfl
  have hTotal : ¬ totalBytes < sampleCert.utf8ByteSize + (sampleKey.utf8ByteSize + 0) := by
    unfold itemBytes at hCert hKey
    unfold totalBytes
    omega
  have hCount : ¬ fileLimit < onePair.material.entries.length := by decide
  have hDir : resolvePath sampleSite (certDirText onePair sampleSite []) = .ok sampleDir := by
    decide
  have hRoot : resolvePath sampleSite sampleSite.coreRoot =
      .ok (["var", "lib", "zagros"].map String.toList) := by
    decide
  unfold prepare certDir
  simp only [if_neg hCount, hMaterial, bind, Except.bind, if_neg hTotal, hDir, hRoot]
  decide

theorem plans_onePair : plans onePair pairDocument = [.ok (some samplePair)] := by
  have hPlan : planOf onePair (.str "in") [("certificateFile", .str "zagros-material://a.crt"),
      ("keyFile", .str "zagros-material://a.key")] = .ok (some samplePair) := by
    rfl
  exact congrArg (fun plan => [plan]) hPlan

/-- The law at a document with one pair. -/
theorem materialized_onePair :
    ∃ dir, Materialized onePair sampleSite [] dir pairDocument
      (mapEntries (renamed onePair sampleDir) pairDocument) (samplePair.ops sampleDir)
      fun _ => none := by
  refine materialized onePair sampleSite [] pairDocument _ _ (fun _ => none) ?_
  have hPass : AllPass (plans onePair pairDocument) := by
    rw [plans_onePair]
    intro p hp
    exact ⟨_, List.mem_singleton.mp hp⟩
  have hUsed : ∀ name ∈ onePair.material.keys,
      name ∈ (uploads (plans onePair pairDocument)).flatMap Upload.names := by
    rw [plans_onePair]
    decide
  have hUploads : uploads (plans onePair pairDocument) = [samplePair] := by
    rw [plans_onePair]
    rfl
  unfold materializeXrayTls
  rw [prepare_onePair]
  simp only [materializeIn_of_pass hPass hUsed, hUploads, List.flatMap_singleton]

end ZagrosNode.Requests
