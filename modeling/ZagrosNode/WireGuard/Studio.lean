import ZagrosNode.Drivers.Reboot
import ZagrosNode.WireGuard.Provisioned

/-!
# ZagrosNode — an inbound document for WireGuard

`_parse_studio_document` makes rows of a document: what the document says about
an inbound, then what its row of the same tag said, then the flat settings.
The rows are validated as a set and become the driver's; the flat settings then
mirror the first one, and every row gets the backend of its interface and
directory.

A field of an entry is taken over if it is true, or if it is there, with a conversion of
its own. `priorEntry` is what an entry starts from, so a document need not repeat what
the row of the same tag has.

`Desired` is the driver's dictionary with the rows taken out. `_listeners` overlays the
flat settings on an only row, and leaves several rows as they are; that `_mirror` writes
the flat settings from the first row is how the two stay the same.

The checks of a set are pairwise: interfaces, ports and tags differ, subnets do not
overlap. `validateRows` goes through the rows with what it remembers of those before
(`Admits`), and every row that is let through is `Passes`, so it has a network and a
safe interface name.

Main results:

* `listeners_eq` — `_listeners()` on the dictionary the settings stand for.
* `parseStudioDocument_ok`, `listenersOf_ok` — an accepted document has inbounds, a
  row for each and no two with one tag, so that there are listeners.
* `mem_configureBackendSet` — every backend is that of a row.
-/

namespace ZagrosNode.WireGuard

open ZagrosNode.Lib ZagrosNode.Cores ZagrosNode.Accounts
open ZagrosNode.Drivers (Lang Build Refused py listOr flagOn rowsOf)
open ZagrosNode.Drivers.WireGuard (listenerKeys listenerFromFlat normalizeListener validateRows
  validateListener interfaceForTag workDirOf mtuOf Seen)

-- ---------------------------------------------------------------------------
-- Settings
-- ---------------------------------------------------------------------------

/-- The settings of the driver: its rows, and what else there is in the
dictionary. -/
structure Desired where
  rows : List Settings
  flat : Settings

/-- The flat settings over an only row. -/
def overlay (flat row : Settings) : Settings :=
  listenerKeys.foldl
    (fun acc key =>
      match Json.get? flat key with
      | some v => assocSet key v acc
      | none   => acc)
    row

/-- `_listeners` -/
def Desired.listeners (d : Desired) : List Settings :=
  match d.rows with
  | [row] => [overlay d.flat row]
  | rows  => rows

def tagOf (lang : Lang) (row : Settings) : String := lang.str (Json.getD row "tag")

/-- `_mirror_primary_flat_settings` -/
def mirror (rows : List Settings) (flat : Settings) : Settings :=
  match rows with
  | []           => flat
  | primary :: _ =>
    listenerKeys.foldl (fun acc key => assocSet key (Json.getD primary key) acc) flat

/-- A backend: a kernel interface and the directory of its files. -/
structure Backend where
  interface : String
  workDir   : String
  deriving DecidableEq

/-- `_backend_settings`, as far as a backend differs from others -/
def backendFor (lang : Lang) (flat row : Settings) (index : Nat) : Backend :=
  let interface := lang.str (Json.getD row "interface")
  ⟨interface, workDirOf lang flat row index interface⟩

/-- `_configure_backend_set`. A backend is used again for a row of the same
interface and directory, which makes it the one that would be made anew. -/
def configureBackendSet (lang : Lang) (d : Desired) : Dict String Backend :=
  Dict.ofPairs (d.rows.zipIdx.map fun row => (tagOf lang row.1, backendFor lang d.flat row.1 row.2))

/-- A row as provisioning and rendering read it, once it is validated. -/
def listenerOf (lang : Lang) (row : Settings) : Listener where
  tag              := tagOf lang row
  subnet           := lang.str (Json.getD row "subnet")
  port             := ((Json.getD row "port").int.toOption.getD 0).toNat
  usePresharedKeys := flagOn row "use_preshared_keys"
  enableNat        := flagOn row "enable_nat"

/-- `_listeners` and `_primary_listener` for the accounts. No two rows of a
validated set have one tag. -/
def listenersOf (lang : Lang) (d : Desired) : Except DriverError Listeners :=
  match d.listeners.map (listenerOf lang) with
  | []                => .error (.core "wireguard has no configured inbound.")
  | primary :: others =>
    if h : ((primary :: others).map Listener.tag).Nodup then .ok ⟨primary, others, h⟩
    else .error (.core "duplicate wireguard inbound name")

-- ---------------------------------------------------------------------------
-- The document
-- ---------------------------------------------------------------------------

/-- `(document or {}).get("inbounds") or []` -/
def inboundsOf (document : Settings) : Except PyErr (List Json) := listOr document "inbounds" []

def fieldsOf : Json → Settings
  | .dict entries => entries
  | _             => []

/-- `if inbound.get(key): entry[name] = value(inbound[key])` -/
def putTruthy (inbound : Settings) (key name : String) (value : Json → Json) (entry : Settings) :
    Settings :=
  if (Json.getD inbound key).truthy then assocSet name (value (Json.getD inbound key)) entry
  else entry

/-- `if inbound.get(key) is not None: entry[name] = value(inbound[key])` -/
def putGiven (inbound : Settings) (key name : String) (value : Json → Json) (entry : Settings) :
    Settings :=
  match Json.getD inbound key with
  | .null => entry
  | v     => assocSet name (value v) entry

/-- `[item.strip() for item in str(v).split(",") if item.strip()]` -/
def itemsOf (lang : Lang) (v : Json) : Json :=
  .list ((((lang.str v).splitOn ",").map fun item => String.ofList (strip item.toList)).filter
    (fun item => decide (item ≠ "")) |>.map .str)

def textOf (lang : Lang) (v : Json) : Json := .str (lang.str v)

def flagOf (v : Json) : Json := .bool v.truthy

/-- What there was for an inbound before the document: its row, or else the
template. -/
def priorEntry (template : Settings) (prior : Option Settings) (tag : String) (port : Int) :
    Settings :=
  let entry := assocSet "tag" (.str (if tag = "" then s!"wireguard-{port}" else tag))
    (template.filter fun e => decide (e.1 ≠ "_work_dir"))
  match prior with
  | some row => assocSet "tag" (.str tag) (Json.merge entry row)
  | none     => entry

/-- The interface of an inbound. -/
def interfaceFor (lang : Lang) (flat inbound entry : Settings) (prior : Option Settings)
    (used : List String) (index : Nat) : Json :=
  if (Json.getD inbound "interface").truthy then textOf lang (Json.getD inbound "interface")
  else
    match prior with
    | some row => Json.getD row "interface"
    | none     =>
      let ofTag := interfaceForTag lang (tagOf lang entry)
      if index = 0 then
        let candidate := lang.textOr flat "interface" "mzwg0"
        .str (if used.contains candidate then ofTag else candidate)
      else .str ofTag

/-- The fields of an inbound over what there was for it. -/
def inboundEntry (lang : Lang) (inbound entry : Settings) : Except PyErr Settings := do
  let entry := putTruthy inbound "listen" "listen" (textOf lang) entry
  let entry ←
    match Json.get? inbound "mtu" with
    | some v => (mtuOf v).map fun mtu => assocSet "mtu" mtu entry
    | none   => .ok entry
  let entry := putGiven inbound "dns" "dns_servers" (itemsOf lang) entry
  let entry := putTruthy inbound "address" "subnet" (textOf lang) entry
  let entry := putGiven inbound "endpoint" "advertise_host" (textOf lang) entry
  let entry := putGiven inbound "allowed_ips" "peer_allowed_ips" (itemsOf lang) entry
  let entry ←
    match Json.getD inbound "persistent_keepalive" with
    | .null => .ok entry
    | v     => v.int.map fun seconds => assocSet "peer_keepalive" (.num seconds) entry
  let entry := putGiven inbound "preshared_keys" "use_preshared_keys" flagOf entry
  .ok (putGiven inbound "enable_nat" "enable_nat" flagOf entry)

/-- One turn of the loop of `_parse_studio_document`. -/
def parseInbound (lang : Lang) (d : Desired) (template : Settings) (used : List String)
    (index : Nat) : Json → Build Settings
  | .dict inbound => do
    let protocol := lang.str (Json.getD inbound "protocol")
    if lang.textOr inbound "protocol" "wireguard" ≠ "wireguard" then
      .error (.core s!"a wireguard core cannot host a '{protocol}' listener.")
    else do
      let tag := lang.label (Json.getD inbound "tag")
      let given := (Json.get? inbound "port").getD (Json.getD template "port")
      let shown := lang.repr given
      let name := if tag = "" then "?" else tag
      let port ←
        match given.int with
        | .ok port => .ok port
        | .error e =>
          if e.kind = .overflow then .error (.py e)
          else .error (.core s!"wireguard inbound '{name}': invalid port {shown}.")
      let prior := d.listeners.reverse.find? fun row => decide (tagOf lang row = tag)
      let entry ← py (inboundEntry lang inbound
        (assocSet "port" (.num port) (priorEntry template prior tag port)))
      let entry := assocSet "interface" (interfaceFor lang d.flat inbound entry prior used index)
        entry
      py (normalizeListener lang d.flat (.dict entry) index)
  | _ => .error (.core s!"wireguard inbound #{index + 1} must be an object.")

def parseInbounds (lang : Lang) (d : Desired) (template : Settings) :
    List String → Nat → List Json → Build (List Settings)
  | _, _, []                     => .ok []
  | used, index, inbound :: rest => do
    let row ← parseInbound lang d template used index inbound
    let others ← parseInbounds lang d template
      (used ++ [lang.str (Json.getD row "interface")]) (index + 1) rest
    .ok (row :: others)

/-- `_parse_studio_document` -/
def parseStudioDocument (lang : Lang) (d : Desired) (document : Settings) :
    Build (List Settings) := do
  let inbounds ← py (inboundsOf document)
  if inbounds = [] then
    .error (.core "a wireguard core needs at least ONE inbound; the Studio document is empty.")
  else do
    let template ← py (listenerFromFlat lang d.flat)
    let rows ← parseInbounds lang d template [] 0 inbounds
    validateRows lang [] rows

-- ---------------------------------------------------------------------------
-- Rows
-- ---------------------------------------------------------------------------

section Rows

variable {lang : Lang}

theorem get?_listeners_rows (rows : List Settings) (flat : Settings) {key : String}
    (hKey : key ∈ listenerKeys) :
    Json.get? (assocSet "listeners" (rowsOf rows) flat) key = Json.get? flat key := by
  have hNe : "listeners" ≠ key := by
    rintro rfl
    revert hKey
    decide
  rw [Json.get?_assocSet, if_neg hNe]

/-- `_listeners()` on the dictionary the settings stand for. -/
theorem listeners_eq (d : Desired) :
    Drivers.WireGuard.listeners (assocSet "listeners" (rowsOf d.rows) d.flat) =
      .ok d.listeners := by
  -- rows that are an empty list count as none, and so do none
  have hRows : listOr (assocSet "listeners" (rowsOf d.rows) d.flat) "listeners" [] =
      .ok (d.rows.map .dict) := by
    rw [listOr, Json.getD_assocSet_self, Json.or]
    split
    · rfl
    · rename_i hEmpty
      have hNil : d.rows = [] := by
        by_contra hNe
        exact hEmpty (Drivers.rowsOf_truthy hNe)
      rw [hNil]
      rfl
  unfold Drivers.WireGuard.listeners Desired.listeners
  rw [hRows]
  show ((d.rows.map Json.dict).mapM Drivers.dictOf >>= _) = _
  rw [Drivers.mapM_dictOf]
  -- only a single row is overlaid with the flat settings
  rcases hShape : d.rows with _ | ⟨row, _ | ⟨next, rest⟩⟩
  · rfl
  · refine congrArg (fun row => Except.ok [row]) (List.foldl_ext _ _ row fun acc key hKey => ?_)
    cases hFlat : Json.get? d.flat key with
    | none   => rw [← hShape, get?_listeners_rows _ _ hKey, hFlat]
    | some v => rw [← hShape, get?_listeners_rows _ _ hKey, hFlat]
  · rfl

/-- One turn of the loop over the keys. -/
def overlayKey (flat acc : Settings) (key : String) : Settings :=
  match Json.get? flat key with
  | some v => assocSet key v acc
  | none   => acc

theorem overlay_eq (flat row : Settings) :
    overlay flat row = listenerKeys.foldl (overlayKey flat) row := rfl

theorem get?_overlayKeys_of_not_mem {keys : List String} {key : String} (h : key ∉ keys)
    (flat row : Settings) :
    Json.get? (keys.foldl (overlayKey flat) row) key = Json.get? row key := by
  induction keys generalizing row with
  | nil => rfl
  | cons first rest ih =>
    rw [List.mem_cons, not_or] at h
    rw [List.foldl_cons, ih h.2, overlayKey]
    split
    · rw [Json.get?_assocSet, if_neg (Ne.symm h.1)]
    · rfl

/-- What the flat settings have stands over the row. -/
theorem get?_overlayKeys {keys : List String} {flat : Settings} {key : String} {v : Json}
    (h : key ∈ keys) (hFlat : Json.get? flat key = some v) (row : Settings) :
    Json.get? (keys.foldl (overlayKey flat) row) key = some v := by
  induction keys generalizing row with
  | nil => cases h
  | cons first rest ih =>
    rw [List.foldl_cons]
    by_cases hRest : key ∈ rest
    · exact ih hRest _
    · obtain rfl : key = first := (List.mem_cons.mp h).resolve_right hRest
      rw [get?_overlayKeys_of_not_mem hRest, overlayKey, hFlat]
      exact (Json.get?_assocSet key key v row).trans (if_pos rfl)

theorem tagOf_overlay (flat row : Settings) : tagOf lang (overlay flat row) = tagOf lang row := by
  rw [tagOf, tagOf, overlay_eq,
    Json.getD_congr (get?_overlayKeys_of_not_mem (by decide) flat row)]

theorem map_tagOf_listeners (d : Desired) :
    d.listeners.map (tagOf lang) = d.rows.map (tagOf lang) := by
  unfold Desired.listeners
  split
  · rename_i row hRow
    rw [hRow, List.map_singleton, List.map_singleton, tagOf_overlay]
  · rfl

theorem exists_listener {d : Desired} {row : Settings} (h : row ∈ d.rows) :
    ∃ row' ∈ d.listeners, tagOf lang row' = tagOf lang row := by
  refine List.mem_map.mp ?_
  rw [map_tagOf_listeners]
  exact List.mem_map_of_mem h

/-- Every backend is that of a row. -/
theorem mem_configureBackendSet {d : Desired} {e : String × Backend}
    (h : e ∈ (configureBackendSet lang d).entries) : e.1 ∈ d.rows.map (tagOf lang) := by
  have hKey : e.1 ∈ (configureBackendSet lang d).keys := List.mem_map_of_mem h
  rw [configureBackendSet, Dict.ofPairs, Dict.mem_keys_setAll, List.map_map] at hKey
  rcases hKey with hEmpty | hRow
  · cases hEmpty
  · obtain ⟨row, hMem, hTag⟩ := List.mem_map.mp hRow
    exact List.mem_map.mpr ⟨row.1, (List.mem_zipIdx' hMem).2 ▸ List.getElem_mem _, hTag⟩

end Rows

-- ---------------------------------------------------------------------------
-- Accepted documents
-- ---------------------------------------------------------------------------

section Accepted

variable {lang : Lang}

/-- The label of a row. -/
abbrev labelOf (lang : Lang) (row : Settings) : String := lang.label (Json.getD row "tag")

/-- A label that is not empty is the tag without blanks around it. -/
theorem labelOf_eq {row : Settings} (h : labelOf lang row ≠ "") :
    labelOf lang row = String.ofList (strip (tagOf lang row).toList) := by
  unfold labelOf Lang.label Json.or at h ⊢
  split
  · rfl
  · rename_i hFalsy
    rw [if_neg hFalsy] at h
    exact absurd rfl h

/-- What a row may be, after those in `seen`. -/
structure Admits (lang : Lang) (seen : List Seen) (first : Seen) : Prop where
  named  : first.tag ≠ ""
  fresh  : seen.any (fun other => decide (other.tag = first.tag)) = false
  safe   : Drivers.WireGuard.safeInterface first.interface = true
  alone  : seen.find? (fun other => decide (other.interface = first.interface)) = none
  ranged : 1 ≤ first.port ∧ first.port ≤ 65535
  own    : seen.find? (fun other => decide (other.port = first.port)) = none
  apart  : seen.find? (fun other => lang.overlaps first.network other.network) = none

/-- A row that is let through, and what is remembered of it. -/
structure Passes (lang : Lang) (seen : List Seen) (row : Settings) (first : Seen) : Prop where
  tag       : first.tag = labelOf lang row
  interface : first.interface = lang.textOr row "interface" ""
  port      : Drivers.intOr row "port" 0 = .ok first.port
  network   : lang.network (lang.textOr row "subnet" "") = .ok first.network
  admits    : Admits lang seen first

theorem validateListener_ok_iff {seen : List Seen} {row : Settings} {checked : Seen × Settings} :
    validateListener lang seen row = .ok checked ↔
      Passes lang seen row checked.1 ∧
        checked.2 = assocSet "subnet" (.str checked.1.network) row := by
  constructor
  -- in the order of the checks: each branch that raises is impossible
  · intro h
    unfold validateListener at h
    dsimp only at h
    obtain ⟨port, hPort, h⟩ := bind_ok_iff.mp h
    split at h
    · cases h
    · rename_i hNamed
      split at h
      · cases h
      · rename_i hFresh
        split at h
        · cases h
        · rename_i hSafe
          split at h
          · cases h
          · rename_i hAlone
            split at h
            · cases h
            · rename_i hRanged
              split at h
              · cases h
              · rename_i hOwn
                split at h
                · cases h
                · rename_i network hNetwork
                  split at h
                  · cases h
                  · rename_i hApart
                    obtain rfl := Except.ok.inj h
                    refine ⟨⟨rfl, rfl, Drivers.py_ok_iff.mp hPort, hNetwork, hNamed, ?_, ?_, hAlone,
                      ?_, hOwn, hApart⟩, rfl⟩
                    · simpa only [Bool.not_eq_true] using hFresh
                    · simpa only [Bool.not_eq_true', Bool.not_eq_false] using hSafe
                    · simpa only [Bool.not_eq_true', decide_eq_false_iff_not, not_not] using hRanged
  -- with every check passed the function computes
  · rintro ⟨h, hEq⟩
    obtain ⟨⟨tag, interface, port, network⟩, row'⟩ := checked
    obtain ⟨rfl, rfl, hPort, hNetwork, hNamed, hFresh, hSafe, hAlone, hRanged, hOwn, hApart⟩ := h
    dsimp only at hEq hPort hNetwork hNamed hFresh hSafe hAlone hRanged hOwn hApart
    subst hEq
    unfold validateListener
    rw [hPort]
    simp only [py, bind, Except.bind, if_neg hNamed, hFresh, hSafe, hAlone, hRanged, hOwn, hNetwork,
      hApart, and_self, decide_true, Bool.not_true, Bool.false_eq_true, if_false]

theorem validateListener_ok {seen : List Seen} {row : Settings} {checked : Seen × Settings}
    (h : validateListener lang seen row = .ok checked) :
    checked.1.tag = labelOf lang row ∧ labelOf lang row ≠ "" ∧
      (∀ other ∈ seen, other.tag ≠ labelOf lang row) ∧
      Json.getD checked.2 "tag" = Json.getD row "tag" := by
  obtain ⟨hPasses, hRow⟩ := validateListener_ok_iff.mp h
  refine ⟨hPasses.tag, hPasses.tag ▸ hPasses.admits.named, fun other hOther hEq => ?_, ?_⟩
  · rw [← hPasses.tag] at hEq
    have hFresh := List.any_eq_false.mp hPasses.admits.fresh other hOther
    exact hFresh (decide_eq_true hEq)
  · rw [hRow, Json.getD_assocSet_of_ne (by decide)]

theorem validateRows_ok {seen : List Seen} {rows checked : List Settings}
    (h : validateRows lang seen rows = .ok checked) :
    checked.length = rows.length ∧ (checked.map (labelOf lang)).Nodup ∧
      ∀ row ∈ checked, labelOf lang row ≠ "" ∧ ∀ other ∈ seen, other.tag ≠ labelOf lang row := by
  -- on the rows; what has been remembered grows by the row just checked
  induction rows generalizing seen checked with
  | nil =>
    obtain rfl := Except.ok.inj h
    exact ⟨rfl, List.nodup_nil, fun row hRow => absurd hRow List.not_mem_nil⟩
  | cons row rest ih =>
    rw [validateRows] at h
    cases hFirst : validateListener lang seen row with
    | error e =>
      rw [hFirst] at h
      cases h
    | ok first =>
      cases hRest : validateRows lang (seen ++ [first.1]) rest with
      | error e =>
        rw [hFirst] at h
        simp only [bind, Except.bind, hRest] at h
        cases h
      | ok others =>
        rw [hFirst] at h
        simp only [bind, Except.bind, hRest] at h
        obtain rfl := Except.ok.inj h
        obtain ⟨hTag, hNe, hSeen, hSame⟩ := validateListener_ok hFirst
        obtain ⟨hLength, hNodup, hOthers⟩ := ih hRest
        -- the row is remembered under its label
        have hLabel : labelOf lang first.2 = first.1.tag := by
          rw [hTag]
          exact congrArg lang.label hSame
        refine ⟨by rw [List.length_cons, List.length_cons, hLength], ?_, ?_⟩
        · rw [List.map_cons, List.nodup_cons]
          refine ⟨fun hMem => ?_, hNodup⟩
          obtain ⟨other, hOther, hEq⟩ := List.mem_map.mp hMem
          -- the later rows have been compared with this one
          have hLast : first.1 ∈ seen ++ [first.1] :=
            List.mem_append_right _ (List.mem_singleton_self _)
          exact (hOthers other hOther).2 _ hLast (hLabel.symm.trans hEq.symm)
        · rw [List.forall_mem_cons]
          refine ⟨?_, fun other hOther => ⟨(hOthers other hOther).1, fun earlier hEarlier =>
            (hOthers other hOther).2 earlier (List.mem_append_left _ hEarlier)⟩⟩
          rw [hLabel, hTag]
          exact ⟨hNe, hSeen⟩

theorem parseInbounds_length {d : Desired} {template : Settings} {used : List String} {index : Nat}
    {inbounds : List Json} {rows : List Settings}
    (h : parseInbounds lang d template used index inbounds = .ok rows) :
    rows.length = inbounds.length := by
  induction inbounds generalizing used index rows with
  | nil =>
    obtain rfl := Except.ok.inj h
    rfl
  | cons inbound rest ih =>
    rw [parseInbounds] at h
    cases hFirst : parseInbound lang d template used index inbound with
    | error e =>
      rw [hFirst] at h
      cases h
    | ok row =>
      simp only [hFirst, bind, Except.bind] at h
      split at h
      · cases h
      · rename_i others hRest
        obtain rfl := Except.ok.inj h
        rw [List.length_cons, List.length_cons, ih hRest]

/-- What an accepted document comes to. -/
theorem parseStudioDocument_ok {d : Desired} {document : Settings} {rows : List Settings}
    (h : parseStudioDocument lang d document = .ok rows) :
    ∃ inbounds, inboundsOf document = .ok inbounds ∧ inbounds ≠ [] ∧
      rows.length = inbounds.length ∧ (rows.map (tagOf lang)).Nodup := by
  unfold parseStudioDocument at h
  cases hInbounds : inboundsOf document with
  | error e =>
    rw [hInbounds] at h
    cases h
  | ok inbounds =>
    rw [hInbounds] at h
    dsimp only [py, bind, Except.bind] at h
    split at h
    · cases h
    -- a document without inbounds is refused
    · rename_i hNe
      split at h
      · cases h
      · split at h
        · cases h
        · rename_i parsed hParsed
          obtain ⟨hLength, hNodup, hLabels⟩ := validateRows_ok h
          refine ⟨inbounds, rfl, hNe, hLength.trans (parseInbounds_length hParsed), ?_⟩
          -- the labels differ, so the tags do
          refine List.Nodup.of_map (fun tag => String.ofList (strip tag.toList)) ?_
          rw [List.map_map]
          convert hNodup using 1
          exact List.map_congr_left fun row hRow => (labelOf_eq (hLabels row hRow).1).symm

/-- Rows that have been accepted are listeners. -/
theorem listenersOf_ok {d : Desired} (hNe : d.rows ≠ []) (hTags : (d.rows.map (tagOf lang)).Nodup) :
    ∃ ls, listenersOf lang d = .ok ls := by
  have hMap : (d.listeners.map (listenerOf lang)).map Listener.tag = d.rows.map (tagOf lang) := by
    rw [List.map_map, ← map_tagOf_listeners]
    rfl
  unfold listenersOf
  split
  · rename_i hNil
    rw [hNil] at hMap
    exact absurd (List.map_eq_nil_iff.mp hMap.symm) hNe
  · rename_i primary others hCons
    rw [hCons] at hMap
    rw [dif_pos (hMap ▸ hTags)]
    exact ⟨_, rfl⟩

end Accepted

end ZagrosNode.WireGuard
