import ZagrosNode.Lib.Machine
import ZagrosNode.Lib.Outcome
import ZagrosNode.Drivers.Construct
import ZagrosNode.Requests.Authorize

/-!
# ZagrosNode — the settings of a running driver

`core_settings_update` gives the driver a new dictionary and saves it; a restart
stops and starts the driver and its backend as they are, and saves the
dictionary again. A reboot builds both from the record. What the constructor
takes from the settings is thus as it was at the last build until the next one,
and its own value is missing from a dictionary that has been replaced.

`Live` is a driver together with the fact that it was built: its settings are those of
its record. Two things come from a build: what backend and driver keep from the
dictionary (`kept`), and the value the constructor puts in place. A request replaces the
dictionary and neither of them.

`UsedAlike` compares the driver as it is with one built from its record: the same kept
values, and every key the code reads reads the same in both dictionaries (`SameUse`).
The equivalence reduces this to what the constructor takes and its own value, driver by
driver; whatever else is in the dictionary survives anyway.

The run is a list of cycles, each a request and a restart. Every one must leave what is
taken from the settings as it was, for what has been taken is never taken again.

Main results:

* `usedAlike_iff` — when a reboot changes nothing.
* `settings_alike_iff` — the requests after which it still does not.
* `settings_left_behind` — an accepted one after which it does.
-/

namespace ZagrosNode.Drivers

open ZagrosNode.Lib ZagrosNode.Cores ZagrosNode.Requests

theorem defaults_keys (core : CoreId) : (defaults core).map Prod.fst = defaultSettings core := by
  cases core <;> rfl

-- ---------------------------------------------------------------------------
-- The running driver
-- ---------------------------------------------------------------------------

/-- A driver built by the agent, with the settings in its record. -/
structure Live (core : CoreId) where
  settings : Settings
  kept     : Kept
  saved    : Settings
  recorded : saved = settings
  node     : Json.get? settings "_runtime_mode" = some (.str "node")
  complete : ∀ key ∈ defaultSettings core, (Json.get? settings key).isSome

namespace Live

variable {core : CoreId}

theorem allowed_ne_mode : ∀ key ∈ allowedSettings core, key ≠ "_runtime_mode" := by
  cases core <;> decide

/-- `core_settings_update`: what the request's settings leave out stays. -/
def put (site : Site) (patch : Settings) (d : Live core) : Live core :=
  match hOk : authorizeCore site core.name patch with
  | .error _ => d
  | .ok _    =>
    { settings := Json.merge d.settings patch
      kept     := d.kept
      saved    := Json.merge d.settings patch
      recorded := rfl
      node     := by
        have hAbsent : Json.get? patch "_runtime_mode" = none := by
          rw [Json.get?_eq_assocGet?, assocGet?_eq_none]
          intro hMem
          obtain ⟨e, he, hKey⟩ := List.mem_map.mp hMem
          rcases (authorize_ok_iff.mp hOk).2 with rfl | ⟨hAllowed, -⟩
          · exact absurd he List.not_mem_nil
          · exact allowed_ne_mode e.1 (hAllowed e he) hKey
        rw [Json.get?_merge, hAbsent, Option.none_or, d.node]
      complete := by
        intro key hKey
        rw [Json.get?_merge, Option.isSome_or, d.complete key hKey, Bool.or_true] }

/-- What a start leaves in the dictionary: sing-box replaces a binary without
statistics, and notes where it is. -/
def started (repaired : Bool) (d : Live core) : Settings :=
  if core = .singBox ∧ repaired ∧ (Json.getD d.settings "stats_enabled").truthy then
    match Json.getD d.kept "executable" with
    | .str path =>
      if strip path.toList = [] then d.settings
      else assocSet "executable_path" (.str (String.ofList (strip path.toList))) d.settings
    | _ => d.settings
  else d.settings

theorem get?_started (repaired : Bool) (d : Live core) {key : String}
    (hKey : key ≠ "executable_path") :
    Json.get? (d.started repaired) key = Json.get? d.settings key := by
  unfold started
  split
  · split
    · split
      · rfl
      · rw [Json.get?_assocSet, if_neg hKey.symm]
    · rfl
  · rfl

theorem isSome_started (repaired : Bool) (d : Live core) {key : String}
    (h : (Json.get? d.settings key).isSome) : (Json.get? (d.started repaired) key).isSome := by
  unfold started
  split
  · split
    · split
      · exact h
      · rw [Json.get?_assocSet]
        split
        · rfl
        · exact h
    · exact h
  · exact h

/-- `restart_core`: the driver and its backend stay. -/
def restart (repaired : Bool) (d : Live core) : Live core :=
  { settings := d.started repaired
    kept     := d.kept
    saved    := d.started repaired
    recorded := rfl
    node     := (d.get?_started repaired (by decide)).trans d.node
    complete := fun key hKey => d.isSome_started repaired (d.complete key hKey) }

end Live

/-- One request with the restart after it; `repaired` if the start finds a
binary to replace. -/
structure Cycle where
  patch    : Settings
  repaired : Bool

/-- The driver after a request and a restart. -/
def Live.after {core : CoreId} (site : Site) (d : Live core) (e : Cycle) : Live core :=
  (d.put site e.patch).restart e.repaired

/-- A core whose settings are changed and which is restarted, over and over. -/
def settingsMachine (site : Site) (core : CoreId) :
    Machine (Live core) Cycle (Except Refusal Unit) where
  step d e := (d.after site e, authorizeCore site core.name e.patch)

-- ---------------------------------------------------------------------------
-- Used alike
-- ---------------------------------------------------------------------------

/-- The environment of an agent with its core root elsewhere. -/
def host (coreRoot : String) : Environment := ⟨coreRoot, defaults⟩

/-- The driver finds the same in both dictionaries. -/
structure SameUse (lang : Lang) (core : CoreId) (live rebuilt : Settings) : Prop where
  others : ∀ key, ownKey core ≠ some key →
    Json.SameEntry (Json.get? live key) (Json.get? rebuilt key)
  own : ∃ v w, seen lang core live = .ok v ∧ seen lang core rebuilt = .ok w ∧ Json.Same v w

/-- A driver built from the record uses the settings the running one uses, and
so does its backend. -/
def UsedAlike (lang : Lang) (coreRoot : String) {core : CoreId} (d : Live core) : Prop :=
  ∀ secret, ∃ b,
    construct lang secret core (nodeDriverSettings (host coreRoot) core d.saved) = .ok b ∧
      SameUse lang core d.settings b.settings ∧ d.kept = b.kept

/-- The constructor's own value is as the constructor would make it. -/
def Settled (lang : Lang) (core : CoreId) (s : Settings) : Prop :=
  match core with
  | .openvpn   => ∃ rows stored,
      OpenVpn.listeners lang s = .ok rows ∧ OpenVpn.storedListeners lang s = .ok stored ∧
        Json.Same (rowsOf rows) (rowsOf stored)
  | .pptp      => (Json.getD s "inbounds").truthy = true
  | .singBox   => ∃ ports, Json.getD s "ports" = .dict ports ∧
      ∀ key ∈ portDefaults.map Prod.fst, (Json.get? ports key).isSome
  | .softether => lang.label (Json.getD s "admin_password") ≠ "" ∧ intOr s "sstp_port" 443 = .ok 443
  | .wireguard => ∃ rows stored again,
      WireGuard.listeners s = .ok rows ∧ WireGuard.storedListeners lang s = .ok stored ∧
        WireGuard.listeners (assocSet "listeners" (rowsOf stored) s) = .ok again ∧
          Json.Same (rowsOf rows) (rowsOf again)
  | .ssh | .xray => True

-- ---------------------------------------------------------------------------
-- The constructor's own value
-- ---------------------------------------------------------------------------

theorem listOf_rows (rows : List Settings) : listOf (rowsOf rows) = .ok (rows.map .dict) := rfl

theorem mapM_dictOf (rows : List Settings) : (rows.map Json.dict).mapM dictOf = .ok rows := by
  induction rows with
  | nil => rfl
  | cons row rest ih =>
    rw [List.map_cons, List.mapM_cons, ih]
    rfl

theorem rowsOf_truthy {rows : List Settings} (h : rows ≠ []) : (rowsOf rows).truthy = true := by
  cases rows with
  | nil => exact absurd rfl h
  | cons row rest => rfl

theorem listOf_ne_nil {v : Json} {xs : List Json} (hTruthy : v.truthy = true)
    (h : listOf v = .ok xs) : xs ≠ [] := by
  rintro rfl
  cases v with
  | list ys =>
    obtain rfl := Except.ok.inj h
    exact absurd hTruthy (by decide)
  | str text =>
    have hEmpty : text.toList = [] := List.map_eq_nil_iff.mp (Except.ok.inj h)
    rw [Json.truthy, bne_iff_ne] at hTruthy
    exact hTruthy (String.toList_inj.mp (hEmpty.trans String.toList_empty.symm))
  | dict entries =>
    obtain rfl : entries = [] := List.map_eq_nil_iff.mp (Except.ok.inj h)
    exact absurd hTruthy (by decide)
  | null | bool | num | float => cases h

theorem OpenVpn.stored_ne_nil {lang : Lang} {s : Settings} {rows : List Settings}
    (h : OpenVpn.storedListeners lang s = .ok rows) : rows ≠ [] := by
  unfold OpenVpn.storedListeners at h
  by_cases hTruthy : (Json.getD s "listeners").truthy = true
  · rw [if_pos hTruthy] at h
    cases hList : listOf (Json.getD s "listeners") with
    | error e =>
      rw [hList] at h
      cases h
    | ok xs =>
      rw [hList] at h
      exact mapM_ne_nil (listOf_ne_nil hTruthy hList) h
  · rw [if_neg hTruthy] at h
    cases hFlat : OpenVpn.listenerFromFlat lang s with
    | error e =>
      rw [hFlat] at h
      cases h
    | ok row =>
      rw [hFlat] at h
      obtain rfl := Except.ok.inj h
      exact List.cons_ne_nil _ _

/-- A driver that has just been built reads the rows its constructor stored. -/
theorem OpenVpn.listeners_stored {lang : Lang} {s : Settings} {rows : List Settings}
    (h : rows ≠ []) : OpenVpn.listeners lang (assocSet "listeners" (rowsOf rows) s) = .ok rows := by
  unfold OpenVpn.listeners
  rw [Json.getD_assocSet_self, if_pos (rowsOf_truthy h), listOf_rows]
  exact mapM_dictOf rows

/-- What a reader of a list finds first. -/
theorem same_list_truthy {v x : Json} (h : Json.Same v (.list [x])) : v.truthy = true := by
  have hFirst := h [.index 0]
  cases v with
  | list xs =>
    cases xs with
    | nil => cases hFirst
    | cons y rest => rfl
  | null | bool | num | float | str | dict => cases hFirst

theorem Pptp.own_iff (s : Settings) :
    Json.Same (Json.getD s "inbounds") (Pptp.inbounds s) ↔
      (Json.getD s "inbounds").truthy = true := by
  unfold Pptp.inbounds Json.or
  by_cases hTruthy : (Json.getD s "inbounds").truthy = true
  · rw [if_pos hTruthy]
    exact iff_of_true (Json.Same.refl _) hTruthy
  · rw [if_neg hTruthy]
    exact iff_of_false (fun h => hTruthy (same_list_truthy h)) hTruthy

/-- The ports merged into the defaults are the same exactly if none was missing. -/
theorem SingBox.same_ports_iff (ports : Settings) :
    Json.Same (.dict ports) (.dict (Json.merge portDefaults ports)) ↔
      ∀ key ∈ portDefaults.map Prod.fst, (Json.get? ports key).isSome := by
  rw [Json.same_dict_iff]
  constructor
  · intro h key hKey
    have hDefault : (Json.get? portDefaults key).isSome := by
      rw [Option.isSome_iff_ne_none, Json.get?_eq_assocGet?, ne_eq, assocGet?_eq_none, not_not]
      exact hKey
    rw [(h key).isSome, Json.get?_merge, Option.isSome_or, hDefault, Bool.or_true]
  · intro h key
    rw [Json.get?_merge]
    cases hPort : Json.get? ports key with
    | some v => exact Json.SameEntry.refl _
    | none   =>
      have hAbsent : Json.get? portDefaults key = none := by
        rw [Json.get?_eq_assocGet?, assocGet?_eq_none]
        intro hKey
        have hSome := h key hKey
        rw [hPort] at hSome
        cases hSome
      rw [hAbsent]
      exact Json.SameEntry.refl _

/-- A value the same as an object is one. -/
theorem same_dict {v : Json} {entries : Settings} (h : Json.Same v (.dict entries)) :
    ∃ others, v = .dict others := by
  have hHead := h []
  cases v with
  | dict others => exact ⟨others, rfl⟩
  | null | bool | num | float | str | list => cases hHead

theorem SingBox.own_iff {lang : Lang} {s : Settings} {kept : Kept}
    (hTaken : SingBox.taken lang s = .ok kept) :
    (∃ value, SingBox.ports lang s = .ok value ∧ Json.Same (Json.getD s "ports") value) ↔
      Settled lang .singBox s := by
  -- an object of ports is merged over the defaults, the empty one as well
  have hPorts : ∀ ports, Json.getD s "ports" = .dict ports →
      SingBox.ports lang s = .ok (.dict (Json.merge portDefaults ports)) := by
    intro ports hDict
    have hOr : (Json.dict ports).or (.dict []) = .dict ports := by
      cases ports <;> rfl
    rw [SingBox.ports, hTaken, hDict, hOr]
    rfl
  constructor
  -- what the constructor puts in place is an object, so it was one before
  · rintro ⟨value, hValue, hSame⟩
    have hDict : ∃ entries, value = .dict entries := by
      unfold SingBox.ports at hValue
      rw [hTaken] at hValue
      cases hMap : mappingOf ((Json.getD s "ports").or (.dict [])) with
      | error e =>
        rw [hMap] at hValue
        cases hValue
      | ok entries =>
        rw [hMap] at hValue
        exact ⟨_, (Except.ok.inj hValue).symm⟩
    obtain ⟨entries, rfl⟩ := hDict
    obtain ⟨ports, hDict⟩ := same_dict hSame
    rw [hPorts ports hDict] at hValue
    rw [hDict, ← Except.ok.inj hValue, SingBox.same_ports_iff] at hSame
    exact ⟨ports, hDict, hSame⟩
  · rintro ⟨ports, hDict, hAll⟩
    refine ⟨_, hPorts ports hDict, ?_⟩
    rw [hDict]
    exact (SingBox.same_ports_iff ports).mpr hAll

theorem py_ok_iff {α : Type} {x : Except PyErr α} {a : α} : py x = .ok a ↔ x = .ok a := by
  cases x with
  | error e => exact iff_of_false (fun h => by cases h) fun h => by cases h
  | ok b    => exact ⟨fun h => congrArg _ (Except.ok.inj h), fun h => congrArg _ (Except.ok.inj h)⟩

/-- What a driver finds once its constructor's value is in place. -/
theorem seen_settle_openvpn {lang : Lang} {s : Settings} {rows : List Settings} (h : rows ≠ []) :
    seen lang .openvpn (settle .openvpn (rowsOf rows) s) = .ok (rowsOf rows) := by
  show (OpenVpn.listeners lang (assocSet "listeners" (rowsOf rows) s)).map rowsOf = _
  rw [OpenVpn.listeners_stored h]
  rfl

theorem intOr_settle (s : Settings) : intOr (assocSet "sstp_port" (.num 443) s) "sstp_port" 443 =
    .ok 443 := by
  rw [intOr, Json.getD_assocSet_self]
  rfl

/--
**The constructor's own value** reads after a rebuild as it reads now exactly
if it is settled. Every driver but Xray's fills in one value of its settings
from the others; a rebuild computes it again, now with what was filled in among
them.
-/
theorem own_iff {lang : Lang} {core : CoreId} {s : Settings} {kept : Kept}
    (hTaken : taken lang core s = .ok kept)
    (hPassword : core = .softether → lang.label (Json.getD s "admin_password") ≠ "") :
    (∃ value, remake lang core s = .ok value ∧ ∃ v w, seen lang core s = .ok v ∧
        seen lang core (settle core value s) = .ok w ∧ Json.Same v w) ↔
      Settled lang core s := by
  -- driver by driver: what is seen is the value in the dictionary, or nothing at all
  cases core with
  | openvpn =>
    simp only [remake, seen, map_ok_iff, py_ok_iff, Settled]
    constructor
    · rintro ⟨_, ⟨stored, hStored, rfl⟩, _, w, ⟨rows, hRows, rfl⟩, hSeen, hSame⟩
      have hAgain := @seen_settle_openvpn lang s _ (OpenVpn.stored_ne_nil hStored)
      obtain ⟨again, hAgain', rfl⟩ := hSeen
      rw [seen, hAgain'] at hAgain
      rw [Except.ok.inj hAgain] at hSame
      exact ⟨rows, stored, hRows, hStored, hSame⟩
    · rintro ⟨rows, stored, hRows, hStored, hSame⟩
      exact ⟨_, ⟨stored, hStored, rfl⟩, _, rowsOf stored, ⟨rows, hRows, rfl⟩,
        ⟨stored, OpenVpn.listeners_stored (OpenVpn.stored_ne_nil hStored), rfl⟩, hSame⟩
  | pptp =>
    have hSeen : seen lang .pptp (settle .pptp (Pptp.inbounds s) s) = .ok (Pptp.inbounds s) :=
      congrArg _ (Json.getD_assocSet_self _ _ _)
    constructor
    · rintro ⟨_, hValue, v, w, hV, hW, hSame⟩
      obtain rfl := Except.ok.inj hValue
      obtain rfl := Except.ok.inj hV
      obtain rfl := Except.ok.inj (hSeen.symm.trans hW)
      exact (Pptp.own_iff s).mp hSame
    · intro h
      exact ⟨_, rfl, _, _, rfl, hSeen, (Pptp.own_iff s).mpr h⟩
  | singBox =>
    rw [← SingBox.own_iff hTaken]
    have hSeen : ∀ value, seen lang .singBox (settle .singBox value s) = .ok value :=
      fun value => congrArg _ (Json.getD_assocSet_self _ _ _)
    refine exists_congr fun value => and_congr_right fun _ => ?_
    constructor
    · rintro ⟨v, w, hV, hW, hSame⟩
      obtain rfl := Except.ok.inj hV
      obtain rfl := Except.ok.inj ((hSeen value).symm.trans hW)
      exact hSame
    · exact fun hSame => ⟨_, _, rfl, hSeen value, hSame⟩
  -- the port that is put in place is always the same one
  | softether =>
    have hSeen : seen lang .softether (settle .softether (.num 443) s) = .ok (.num 443) := by
      show (intOr (assocSet "sstp_port" (.num 443) s) "sstp_port" 443).map Json.num = _
      rw [intOr_settle]
      rfl
    constructor
    · rintro ⟨_, hValue, v, w, hV, hW, hSame⟩
      obtain rfl := Except.ok.inj hValue
      obtain rfl := Except.ok.inj (hSeen.symm.trans hW)
      obtain ⟨port, hPort, rfl⟩ := map_ok_iff.mp hV
      obtain rfl := Json.num.inj (Option.some.inj (hSame []))
      exact ⟨hPassword rfl, hPort⟩
    · rintro ⟨-, hPort⟩
      exact ⟨_, rfl, _, _, map_ok_iff.mpr ⟨_, hPort, rfl⟩, hSeen, Json.Same.refl _⟩
  -- it never looks at its rows again, so deriving them once is enough
  | ssh =>
    refine iff_of_true ?_ trivial
    obtain ⟨rows, hRows⟩ : ∃ rows, Ssh.deriveListeners lang s = .ok rows := by
      unfold taken Ssh.taken at hTaken
      cases hRows : Ssh.deriveListeners lang s with
      | error e =>
        rw [hRows] at hTaken
        cases hTaken
      | ok rows => exact ⟨rows, rfl⟩
    exact ⟨rowsOf rows, map_ok_iff.mpr ⟨rows, py_ok_iff.mpr hRows, rfl⟩, .null, .null, rfl, rfl,
      Json.Same.refl _⟩
  | wireguard =>
    simp only [remake, seen, settle, ownKey, map_ok_iff, Settled]
    constructor
    · rintro ⟨_, ⟨stored, hStored, rfl⟩, _, _, ⟨rows, hRows, rfl⟩, ⟨again, hAgain, rfl⟩, hSame⟩
      exact ⟨rows, stored, again, hRows, hStored, hAgain, hSame⟩
    · rintro ⟨rows, stored, again, hRows, hStored, hAgain, hSame⟩
      exact ⟨_, ⟨stored, hStored, rfl⟩, _, _, ⟨rows, hRows, rfl⟩, ⟨again, hAgain, rfl⟩, hSame⟩
  | xray => exact iff_of_true ⟨.null, rfl, .null, .null, rfl, rfl, Json.Same.refl _⟩ trivial

-- ---------------------------------------------------------------------------
-- The rebuilt driver
-- ---------------------------------------------------------------------------

theorem foldl_eq_self {α β : Type} {f : β → α → β} {b : β} {l : List α}
    (h : ∀ a ∈ l, f b a = b) : l.foldl f b = b := by
  induction l with
  | nil => rfl
  | cons a rest ih =>
    rw [List.foldl_cons, h a List.mem_cons_self]
    exact ih fun a' h' => h a' (List.mem_cons_of_mem _ h')

/-- The agent's settings for a driver read as the driver's own. -/
theorem Live.reads_node {core : CoreId} (d : Live core) (root : String) :
    Json.get? (nodeDriverSettings (host root) core d.settings) = Json.get? d.settings := by
  have hMode : Json.get? (assocSet "_runtime_mode" (.str "node") d.settings) =
      Json.get? d.settings := by
    funext key
    rw [Json.get?_assocSet]
    split
    · next hKey =>
      rw [← hKey, d.node]
    · rfl
  have hPresent : ∀ key ∈ (defaults core).map Prod.fst,
      (Json.get? (assocSet "_runtime_mode" (.str "node") d.settings) key).isSome := by
    intro key hKey
    rw [hMode]
    exact d.complete key (defaults_keys core ▸ hKey)
  unfold nodeDriverSettings
  by_cases hRoot : (host root).coreRoot = coreRootDefault
  · simp only [if_pos hRoot]
    exact hMode
  · simp only [if_neg hRoot]
    rw [foldl_eq_self, hMode]
    -- every default is there, so none is relocated
    intro e he
    have hKey := hPresent e.1 (List.mem_map_of_mem he)
    rw [Json.get?_eq_assocGet?] at hKey
    split
    · rw [if_pos hKey]
    · rfl

/-- Nor do the defaults add to a complete dictionary. -/
theorem Live.reads_merged {core : CoreId} (d : Live core) {s : Settings}
    (hReads : Json.get? s = Json.get? d.settings) :
    Json.get? (Json.merge (defaults core) s) = Json.get? d.settings := by
  funext key
  rw [Json.get?_merge, hReads]
  cases hKey : Json.get? d.settings key with
  | some v => rfl
  | none   =>
    rw [Option.none_or, Json.get?_eq_assocGet?, assocGet?_eq_none, defaults_keys]
    intro hMem
    have hSome := d.complete key hMem
    rw [hKey] at hSome
    cases hSome

/-- Another value in the constructor's place, the rest read alike. -/
theorem get?_settle {core : CoreId} {value : Json} {s : Settings} {key : String}
    (hKey : ownKey core ≠ some key) : Json.get? (settle core value s) key = Json.get? s key := by
  unfold settle
  split
  · next own hOwn =>
    have hNe : own ≠ key := fun h => hKey (h ▸ hOwn)
    rw [Json.get?_assocSet, if_neg hNe]
  · rfl

theorem settle_congr {core : CoreId} {value : Json} {s t : Settings}
    (hReads : Json.get? s = Json.get? t) :
    Json.get? (settle core value s) = Json.get? (settle core value t) := by
  unfold settle
  split
  · funext key
    rw [Json.get?_assocSet, Json.get?_assocSet, hReads]
  · exact hReads

theorem taken_password {lang : Lang} {s : Settings} {kept : Kept}
    (h : taken lang .softether s = .ok kept) :
    Json.getD kept "password" = Json.getD s "admin_password" := by
  unfold taken SoftEther.taken at h
  cases hPort : py (intOr s "sstp_port" 443) with
  | error e =>
    rw [hPort] at h
    cases h
  | ok legacy =>
    rw [hPort] at h
    obtain rfl := Except.ok.inj h
    rfl

/-- A blank password is another one at every reboot. -/
theorem not_usedAlike_blank {lang : Lang} {root : String} {d : Live .softether}
    (hBlank : lang.label (Json.getD d.settings "admin_password") = "") :
    ¬ UsedAlike lang root d := by
  intro h
  have hPassword : ∀ secret, Json.getD d.kept "password" = .str secret := by
    intro secret
    obtain ⟨b, hBuilt, -, hKept⟩ := h secret
    obtain ⟨value, kept, -, hTaken, rfl⟩ := construct_ok_iff.mp hBuilt
    have hFresh : prepare lang secret .softether
        (nodeDriverSettings (host root) .softether d.saved) =
          assocSet "admin_password" (.str secret)
            (nodeDriverSettings (host root) .softether d.saved) := by
      refine if_pos ?_
      rw [d.recorded, Json.getD_congr (congrFun (d.reads_node root) _), hBlank]
    rw [hKept, taken_password hTaken, hFresh, Json.getD_eq, Json.get?_merge,
      Json.get?_assocSet, if_pos rfl]
    rfl
  have hTwo : ("" : String) = "-" := Json.str.inj ((hPassword "").symm.trans (hPassword "-"))
  exact absurd hTwo (by decide)

/--
**A reboot changes nothing** exactly if the backend holds what the constructor
takes from the settings, and the constructor's own value is in place.
-/
theorem usedAlike_iff {lang : Lang} {root : String} {core : CoreId} (d : Live core) :
    UsedAlike lang root d ↔
      taken lang core d.settings = .ok d.kept ∧ Settled lang core d.settings := by
  -- a blank password of SoftEther is replaced at every build
  by_cases hPassword : core = .softether →
      lang.label (Json.getD d.settings "admin_password") ≠ ""
  · have hReads := d.reads_node root
    have hPlain : ∀ secret, prepare lang secret core
        (nodeDriverSettings (host root) core d.saved) =
          nodeDriverSettings (host root) core d.saved := by
      intro secret
      cases core with
      | softether =>
        refine if_neg ?_
        rw [d.recorded, Json.getD_congr (congrFun hReads _)]
        exact hPassword rfl
      | openvpn | pptp | singBox | ssh | wireguard | xray => rfl
    rw [← d.recorded] at hReads
    -- the record has the settings of the driver, and all that is read is in it
    have hMerged := d.reads_merged (hReads.trans (congrArg _ d.recorded))
    constructor
    · intro h
      obtain ⟨b, hBuilt, hUse, hKept⟩ := h ""
      obtain ⟨value, kept, hRemake, hTaken, rfl⟩ := construct_ok_iff.mp hBuilt
      rw [hPlain, remake_congr hMerged] at hRemake
      rw [hPlain, taken_congr hMerged] at hTaken
      obtain ⟨v, w, hV, hW, hSame⟩ := hUse.own
      rw [hPlain, seen_congr (settle_congr hMerged)] at hW
      exact ⟨hTaken.trans (congrArg _ hKept.symm),
        (own_iff hTaken hPassword).mp ⟨value, hRemake, v, w, hV, hW, hSame⟩⟩
    -- whatever is drawn, the constructor takes the same and puts the same
    · rintro ⟨hTaken, hSettled⟩ secret
      obtain ⟨value, hRemake, v, w, hV, hW, hSame⟩ := (own_iff hTaken hPassword).mpr hSettled
      refine ⟨_, construct_ok_iff.mpr ⟨value, d.kept, ?_, ?_, rfl⟩, ⟨?_, v, w, hV, ?_, hSame⟩, rfl⟩
      · rw [hPlain, remake_congr hMerged, hRemake]
      · rw [hPlain, taken_congr hMerged, hTaken]
      · intro key hKey
        rw [hPlain, get?_settle hKey, hMerged]
        exact Json.SameEntry.refl _
      · rw [hPlain, seen_congr (settle_congr hMerged), hW]
  · obtain ⟨hCore, hBlank⟩ := Classical.not_imp.mp hPassword
    subst hCore
    exact iff_of_false (not_usedAlike_blank (not_not.mp hBlank)) fun h => h.2.1 (not_not.mp hBlank)

-- ---------------------------------------------------------------------------
-- Runs
-- ---------------------------------------------------------------------------

/-- The request and the restart leave what the constructor takes from the
settings as it was, and its own value settled. -/
def Suits (lang : Lang) (site : Site) {core : CoreId} (d : Live core) (e : Cycle) : Prop :=
  taken lang core (d.after site e).settings = taken lang core d.settings ∧
    Settled lang core (d.after site e).settings

theorem kept_after {core : CoreId} (site : Site) (d : Live core) (e : Cycle) :
    (d.after site e).kept = d.kept := by
  show (d.put site e.patch).kept = d.kept
  unfold Live.put
  split <;> rfl

/-- **Live settings and rebooted ones.** After every request and restart of a run
a driver built from the record uses the settings the running one uses exactly
if it did at the start, no request touches what the constructor takes, and each
leaves the constructor's own value settled. -/
theorem settings_alike_iff (lang : Lang) (root : String) (site : Site) (core : CoreId)
    (d : Live core) (cycles : List Cycle) :
    (settingsMachine site core).Always (UsedAlike lang root) d cycles ↔
      (taken lang core d.settings = .ok d.kept ∧ Settled lang core d.settings) ∧
        (settingsMachine site core).Along (fun _ => Suits lang site) [] d cycles := by
  rw [← @usedAlike_iff lang root]
  have hStep : ∀ (d : Live core) (e : Cycle), UsedAlike lang root d →
      (UsedAlike lang root ((settingsMachine site core).next d e) ↔ Suits lang site d e) := by
    intro d e hAlike
    obtain ⟨hTaken, -⟩ := (usedAlike_iff d).mp hAlike
    show UsedAlike lang root (d.after site e) ↔ _
    rw [usedAlike_iff, kept_after, Suits, hTaken]
  constructor
  · intro h
    have hStart := (settingsMachine site core).always_start h
    exact ⟨hStart, ((settingsMachine site core).always_iff_along hStep hStart [] cycles).mp h⟩
  · rintro ⟨hStart, hAlong⟩
    exact ((settingsMachine site core).always_iff_along hStep hStart [] cycles).mpr hAlong

/-- The one row of a new SSH core. -/
def sshRow : Settings := [("tag", .str "ssh"), ("port", .num 2022)]

/-- SSH as it is built from no settings. -/
def newSsh : Live .ssh :=
  { settings := settle .ssh (rowsOf [sshRow])
      (Json.merge (defaults .ssh) [("_runtime_mode", .str "node")])
    kept :=
      [("work_dir", .str "/var/lib/zagros/cores/ssh"), ("_listeners", rowsOf [sshRow]),
        ("zagros.conf", .dict
          [("Port", .num 2022), ("PasswordAuthentication", .bool true),
            ("PubkeyAuthentication", .bool true), ("MaxSessions", .num 10),
            ("ForceCommand", .bool true)])]
    saved := settle .ssh (rowsOf [sshRow])
      (Json.merge (defaults .ssh) [("_runtime_mode", .str "node")])
    recorded := rfl
    node := rfl
    complete := by decide }

/-- The drop-in lets users in by password. -/
def takesPasswords : Build Kept → Bool
  | .error _ => false
  | .ok kept =>
    match Json.getD kept "zagros.conf" with
    | .dict lines => (Json.getD lines "PasswordAuthentication").truthy
    | _           => false

/-- Passwords are turned off for SSH: the daemon still takes them after a restart,
and no longer after a reboot. -/
theorem settings_left_behind :
    UsedAlike plainLang coreRootDefault newSsh ∧
    authorizeCore plainSite "ssh" [("password_auth", .bool false)] = .ok () ∧
    ¬ UsedAlike plainLang coreRootDefault
        (newSsh.after plainSite ⟨[("password_auth", .bool false)], false⟩) := by
  refine ⟨(usedAlike_iff newSsh).mpr ⟨rfl, trivial⟩, by decide, fun h => ?_⟩
  have hTaken := ((usedAlike_iff _).mp h).1
  rw [kept_after] at hTaken
  exact absurd (congrArg takesPasswords hTaken) (by decide)

end ZagrosNode.Drivers
