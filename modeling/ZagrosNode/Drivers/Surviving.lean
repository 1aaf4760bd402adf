import ZagrosNode.Drivers.Rows

/-!
# ZagrosNode — inbound documents over a restart

A restart of the agent builds every driver again, from the settings in its
record. What an apply has put anywhere else is gone then: the document
of sing-box, and the file of Xray if its path is another one by now. And PPTP is
given its default row where a document has left it without one.

`Survives` compares two drivers by the inbounds they serve, the one that has applied the
document and the one that the agent builds from the record at its next start. `rebuild`
is the constructor with the settings of the record, and a start; the accounts are those
that the snapshot restores, whichever they are, and files are as they were.

`Lasting` is what decides it, a case for each core and each about the driver and the
document before the apply. For OpenVPN the constructor has to succeed at all. PPTP puts
its default row where there is none. sing-box keeps documents in memory only: its
listeners come back if they are those it derives from the accounts anyway. Xray writes
the file its backend was built with, and a new backend reads the one its settings name.

The proofs have the same two parts for every driver. One says what the apply has put
into the settings (`*_set`), with `adopt_settings` for everything it leaves alone; the
other reads the inbounds from settings that have gone through a constructor.

Main results:

* `adopt_settings` — a document sets only the settings it may set.
* `exists_rebuilt_iff` — the driver after a restart, in the settings before it.
* `document_survives_iff` — which documents are still there after a restart.
-/

namespace ZagrosNode.Drivers

open ZagrosNode.Lib ZagrosNode.Cores
open ZagrosNode.Accounts (UserAccount)

-- ---------------------------------------------------------------------------
-- The restart
-- ---------------------------------------------------------------------------

/-- A driver built by the agent, with what it has besides its settings. -/
structure Running (core : CoreId) extends Live core where
  document : Option Settings
  accounts : List UserAccount
  configs  : String → Option Json

def Running.driver {core : CoreId} (r : Running core) : Driver :=
  ⟨r.settings, r.kept, r.document, r.accounts, r.configs⟩

/-- The driver after a restart of the agent: built from its record and started, with
the accounts that are restored. -/
def rebuild (host : Host) (root : String) (core : CoreId) (secret : String)
    (executable : Option String) (restored : List UserAccount) (d : Driver) : Build Driver :=
  (construct host.lang secret core (nodeDriverSettings (Drivers.host root) core d.settings)).map
    fun b => Driver.noted core executable ⟨b.settings, b.kept, none, restored, d.configs⟩

/-- The same inbounds are served, in whatever order, or none can be listed for the same
reason. -/
def Alike : Build (List Inbound) → Build (List Inbound) → Prop
  | .ok live, .ok after       => ∀ i, i ∈ live ↔ i ∈ after
  | .error e, .error e'       => e = e'
  | .ok _, .error _           => False
  | .error _, .ok _           => False

theorem Alike.refl (x : Build (List Inbound)) : Alike x x := by
  cases x with
  | error e => rfl
  | ok live => exact fun i => Iff.rfl

theorem alike_ok_iff {live : List Inbound} {x : Build (List Inbound)} :
    Alike (.ok live) x ↔ ∃ after, x = .ok after ∧ ∀ i, i ∈ live ↔ i ∈ after := by
  cases x with
  | error e => exact iff_of_false id fun ⟨_, h, _⟩ => by cases h
  | ok after =>
    refine ⟨fun h => ⟨after, rfl, h⟩, fun ⟨after', hEq, h⟩ => ?_⟩
    rwa [← Except.ok.inj hEq] at h

/-- The driver serves the same inbounds after a restart of the agent: the same ones by tag,
protocol and port. -/
def Survives (host : Host) (root : String) (core : CoreId) (secret : String)
    (executable : Option String) (restored : List UserAccount) (d : Driver) : Prop :=
  ∃ rebuilt, rebuild host root core secret executable restored d = .ok rebuilt ∧
    Alike (d.inbounds host core) (rebuilt.inbounds host core)

-- ---------------------------------------------------------------------------
-- What a document sets
-- ---------------------------------------------------------------------------

/-- The settings a document may set. -/
def documentKeys : CoreId → List String
  | .openvpn   => OpenVpn.knobKeys ++ "listeners" :: OpenVpn.listenerKeys
  | .pptp      => ["inbounds"]
  | .softether =>
    ["ipsec_psk", "native_port", "feature_softether", "feature_l2tp", "feature_l2tp_raw",
      "feature_etherip", "feature_sstp", "sstp_port", "feature_ovpn", "ovpn_ports", "feature_tags"]
  | .ssh       => Ssh.knobKeys ++ ["listeners", "port"]
  | .wireguard => "listeners" :: WireGuard.listenerKeys
  | .singBox | .xray => []

namespace SoftEther

variable {lang : Lang}

theorem pskUpdates_keys {s set : Settings} {live : Option String} {wanted : List (String × Settings)}
    (h : pskUpdates lang s live wanted = .ok set) : ∀ e ∈ set, e.1 = "ipsec_psk" := by
  unfold pskUpdates at h
  dsimp only at h
  split at h
  · rw [← Except.ok.inj h]
    exact fun e hMem => absurd hMem List.not_mem_nil
  · split at h
    · cases h
    · rw [← Except.ok.inj h]
      exact fun e hMem => congrArg Prod.fst (List.mem_singleton.mp hMem)

theorem nativeUpdates_keys {s set : Settings} {wanted : List (String × Settings)}
    (h : nativeUpdates s wanted = .ok set) :
    ∀ e ∈ set, e.1 ∈ ["native_port", "feature_softether"] := by
  have hOff : set = [("feature_softether", .bool false)] →
      ∀ e ∈ set, e.1 ∈ ["native_port", "feature_softether"] := by
    rintro rfl e hMem
    rw [List.mem_singleton.mp hMem]
    decide
  unfold nativeUpdates at h
  split at h
  · simp only [bind_ok_iff] at h
    obtain ⟨port, -, _, -, hEq⟩ := h
    rw [← Except.ok.inj hEq]
    intro e hMem
    rcases List.mem_cons.mp hMem with rfl | hMem
    · exact List.mem_cons_self
    · rw [List.mem_singleton.mp hMem]
      decide
  · split at h
    · obtain ⟨_, -, hEq⟩ := bind_ok_iff.mp h
      exact hOff (Except.ok.inj hEq).symm
    · exact hOff (Except.ok.inj h).symm

/-- What an accepted document sets. -/
theorem updates_ok {s document set : Settings} {legacy : Json} {live : Option String}
    (h : updates lang s legacy live document = .ok set) :
    (∀ e ∈ set, e.1 ∈ documentKeys .softether) ∧
      Json.get? set "sstp_port" = some (.num 443) := by
  unfold updates at h
  simp only [bind_ok_iff] at h
  obtain ⟨inbounds, -, wanted, -, psk, hPsk, native, hNative, _, -, port, -, hEq⟩ := h
  have hPskKeys : ∀ e ∈ psk, e.1 ∈ ["ipsec_psk"] :=
    fun e hMem => List.mem_singleton.mpr (pskUpdates_keys hPsk e hMem)
  have hNativeKeys := nativeUpdates_keys hNative
  rw [← Except.ok.inj hEq]
  constructor
  · intro e hMem
    rcases List.mem_append.mp hMem with hMem | hRest
    · rcases List.mem_append.mp hMem with hMem | hMem
      · exact (by decide : ["ipsec_psk"] ⊆ documentKeys .softether) (hPskKeys e hMem)
      · exact (by decide : ["native_port", "feature_softether"] ⊆ documentKeys .softether)
          (hNativeKeys e hMem)
    · have hKey := List.mem_map_of_mem (f := Prod.fst) hRest
      exact (by decide : ["feature_l2tp", "feature_l2tp_raw", "feature_etherip", "feature_sstp",
        "sstp_port", "feature_ovpn", "ovpn_ports", "feature_tags"] ⊆ documentKeys .softether) hKey
  · rw [Json.get?_append, Json.get?_append, Json.get?_eq_none hPskKeys (by decide),
      Json.get?_eq_none hNativeKeys (by decide)]
    rfl

end SoftEther

theorem OpenVpn.mirrored_keys (rows : List Settings) :
    ∀ e ∈ OpenVpn.mirrored rows, e.1 ∈ OpenVpn.listenerKeys := by
  intro e hMem
  cases rows with
  | nil => cases hMem
  | cons first rest =>
    obtain ⟨key, hKey, rfl⟩ := List.mem_map.mp hMem
    exact hKey

theorem OpenVpn.set_keys {common : Settings} (hCommon : ∀ e ∈ common, e.1 ∈ OpenVpn.knobKeys)
    (v : Json) (rows : List Settings) :
    ∀ e ∈ common ++ ("listeners", v) :: OpenVpn.mirrored rows, e.1 ∈ documentKeys .openvpn := by
  intro e hMem
  rcases List.mem_append.mp hMem with hMem | hMem
  · exact List.mem_append_left _ (hCommon e hMem)
  · rcases List.mem_cons.mp hMem with rfl | hMem
    · exact List.mem_append_right _ List.mem_cons_self
    · exact List.mem_append_right _ (List.mem_cons_of_mem _ (OpenVpn.mirrored_keys rows e hMem))

theorem WireGuard.mirrored_keys (rows : List Settings) :
    ∀ e ∈ WireGuard.mirrored rows, e.1 ∈ WireGuard.listenerKeys := by
  intro e hMem
  cases rows with
  | nil => cases hMem
  | cons first rest =>
    obtain ⟨key, hKey, rfl⟩ := List.mem_map.mp hMem
    exact hKey

theorem Ssh.mirrored_keys (rows : List Ssh.Row) : ∀ e ∈ Ssh.mirrored rows, e.1 = "port" := by
  intro e hMem
  cases rows with
  | nil => cases hMem
  | cons first rest => exact congrArg Prod.fst (List.mem_singleton.mp hMem)

/-- What an accepted document sets. -/
theorem WireGuard.updates_ok {host : Host} {s document set : Settings}
    (h : WireGuard.updates host.lang s document = .ok set) :
    ∃ rows firsts, set = ("listeners", rowsOf rows) :: WireGuard.mirrored rows ∧ rows ≠ [] ∧
      List.Forall₂ (WireGuard.Accepted host.lang) rows firsts ∧
        WireGuard.Admitted host.lang [] firsts := by
  unfold WireGuard.updates at h
  simp only [bind_ok_iff] at h
  obtain ⟨_, -, _, -, rows, hRows, hEq⟩ := h
  obtain ⟨hNe, firsts, hAccepted, hAdmitted⟩ :=
    WireGuard.parse_accepted host.network_again hRows
  exact ⟨rows, firsts, (Except.ok.inj hEq).symm, hNe, hAccepted, hAdmitted⟩

/--
**A document leaves the other settings alone.** What it sets are its own keys,
a fixed list for each core, merged over the settings there were.
-/
theorem adopt_settings {host : Host} {core : CoreId} {psk : Option String} {d d' : Driver}
    {document : Settings} (h : adopt host core psk d document = .ok d') :
    ∃ set, d'.settings = Json.merge d.settings set ∧ ∀ e ∈ set, e.1 ∈ documentKeys core := by
  -- three drivers store rows and what these mirror, two store nothing
  cases core with
  | openvpn =>
    obtain ⟨set, hSet, rfl⟩ := map_ok_iff.mp h
    obtain ⟨common, rows, ends, rfl, hCommon, -, -⟩ := OpenVpn.updates_ok hSet
    exact ⟨_, rfl, OpenVpn.set_keys hCommon _ rows⟩
  | pptp =>
    obtain ⟨rows, -, rfl⟩ := map_ok_iff.mp h
    exact ⟨_, rfl, fun e hMem =>
      List.mem_singleton.mpr (congrArg Prod.fst (List.mem_singleton.mp hMem))⟩
  | singBox =>
    obtain ⟨_, -, rfl⟩ := map_ok_iff.mp h
    exact ⟨[], rfl, fun e hMem => absurd hMem List.not_mem_nil⟩
  | softether =>
    obtain ⟨set, hSet, rfl⟩ := map_ok_iff.mp h
    exact ⟨set, rfl, (SoftEther.updates_ok hSet).1⟩
  | ssh =>
    obtain ⟨⟨rows, set⟩, hSet, rfl⟩ := map_ok_iff.mp h
    refine ⟨_, rfl, fun e hMem => ?_⟩
    rcases List.mem_append.mp hMem with hMem | hMem
    · exact List.mem_append_left _ ((Ssh.rowsAndKnobs_ok hSet).2.2 e hMem)
    · rcases List.mem_cons.mp hMem with rfl | hMem
      · exact List.mem_append_right _ List.mem_cons_self
      · rw [Ssh.mirrored_keys rows e hMem]
        decide
  | wireguard =>
    obtain ⟨set, hSet, rfl⟩ := map_ok_iff.mp h
    obtain ⟨rows, firsts, rfl, -⟩ := WireGuard.updates_ok hSet
    refine ⟨_, rfl, fun e hMem => ?_⟩
    rcases List.mem_cons.mp hMem with rfl | hMem
    · exact List.mem_cons_self
    · exact List.mem_cons_of_mem _ (WireGuard.mirrored_keys rows e hMem)
  | xray =>
    obtain ⟨config, -, rfl⟩ := map_ok_iff.mp h
    exact ⟨[], rfl, fun e hMem => absurd hMem List.not_mem_nil⟩

theorem mode_not_set (core : CoreId) : "_runtime_mode" ∉ documentKeys core := by
  cases core <;> decide

/-- Settings of an agent's driver with some more set. -/
theorem Live.exists_set {core : CoreId} (d : Live core) {set : Settings}
    (hMode : Json.get? set "_runtime_mode" = none) :
    ∃ d' : Live core, d'.settings = Json.merge d.settings set :=
  ⟨{  settings := Json.merge d.settings set
      kept     := d.kept
      saved    := Json.merge d.settings set
      recorded := rfl
      node     := by rw [Json.get?_merge, hMode, Option.none_or, d.node]
      complete := fun key hKey => by
        rw [Json.get?_merge, Option.isSome_or, d.complete key hKey, Bool.or_true] }, rfl⟩

/-- After an apply the driver is one of the agent's. -/
theorem Running.exists_after {core : CoreId} {host : Host} (r : Running core) {answers : Answers}
    {document : Settings} {d' : Driver}
    (h : applyStudioDocument host core answers r.driver document = .ok d') :
    ∃ r' : Live core, r'.settings = d'.settings := by
  unfold applyStudioDocument at h
  simp only [bind_ok_iff] at h
  obtain ⟨adopted, hAdopt, _, -, hEq⟩ := h
  obtain ⟨set, hSet, hKeys⟩ := adopt_settings hAdopt
  obtain ⟨d, hd⟩ := r.toLive.exists_set (Json.get?_eq_none hKeys (mode_not_set core))
  have hAdopted : d.settings = adopted.settings := hd.trans hSet.symm
  rw [← Except.ok.inj hEq]
  unfold Driver.noted
  split
  · rename_i path _
    have hMode : Json.get? [("executable_path", Json.str path)] "_runtime_mode" = none := rfl
    obtain ⟨noted, hNoted⟩ := d.exists_set hMode
    exact ⟨noted, hNoted.trans (by rw [hAdopted]; rfl)⟩
  · exact ⟨d, hAdopted⟩

-- ---------------------------------------------------------------------------
-- The rebuilt driver
-- ---------------------------------------------------------------------------

section Rebuilt

variable {host : Host} {core : CoreId}

theorem SingBox.rendered_none (s : Settings) (accounts : List UserAccount) :
    SingBox.rendered host s accounts none = SingBox.derived host.lang s accounts := rfl

theorem SingBox.derived_congr {lang : Lang} {s t : Settings}
    (hMethod : Json.getD s "ss_method" = Json.getD t "ss_method")
    (hPorts : Json.getD s "ports" = Json.getD t "ports") (accounts : List UserAccount) :
    SingBox.derived lang s accounts = SingBox.derived lang t accounts := by
  have hEach : SingBox.derivedInbound lang s accounts = SingBox.derivedInbound lang t accounts := by
    funext protocol
    rw [SingBox.derivedInbound, SingBox.derivedInbound, hMethod, hPorts]
  rw [SingBox.derived, SingBox.derived, hEach]

/-- What SoftEther lists does not depend on its administrator password. -/
theorem SoftEther.exported_congr {lang : Lang} {s t : Settings}
    (h : ∀ key, key ≠ "admin_password" → Json.get? s key = Json.get? t key) :
    SoftEther.exported lang s = SoftEther.exported lang t := by
  have hGetD : ∀ {key}, key ≠ "admin_password" → Json.getD s key = Json.getD t key :=
    fun hKey => Json.getD_congr (h _ hKey)
  have hFeature : SoftEther.featureInbound lang s = SoftEther.featureInbound lang t := by
    funext proto port
    have hKey : "feature_" ++ proto ≠ "admin_password" := by
      intro hEq
      have hHead := congrArg (fun text => text.toList.head?) hEq
      rw [String.toList_append] at hHead
      exact absurd (Option.some.inj hHead : 'f' = 'a') (by decide)
    have hTags : "feature_tags" ≠ "admin_password" := by decide
    unfold SoftEther.featureInbound SoftEther.featureTag SoftEther.has
    rw [hGetD hKey, hGetD hTags]
  unfold SoftEther.exported SoftEther.firstOvpnPort Lang.textOr intOr
  rw [hFeature, hGetD (by decide), hGetD (by decide), hGetD (by decide)]

/-- Drivers without a document whose settings read the same list the same. -/
theorem inbounds_congr {s t : Settings} (hReads : Json.get? s = Json.get? t) (kept : Kept)
    (accounts : List UserAccount) (configs : String → Option Json) :
    Driver.inbounds host core ⟨s, kept, none, accounts, configs⟩ =
      Driver.inbounds host core ⟨t, kept, none, accounts, configs⟩ := by
  have hGetD := getD_reads hReads
  cases core with
  | openvpn =>
    simp only [Driver.inbounds, OpenVpn.listeners, hGetD, OpenVpn.fromFlat_reads hReads]
  | pptp => simp only [Driver.inbounds, listOr_reads hReads]
  | singBox =>
    show SingBox.rendered host s accounts none = SingBox.rendered host t accounts none
    rw [SingBox.rendered_none, SingBox.rendered_none]
    exact SingBox.derived_congr (congrFun hGetD _) (congrFun hGetD _) accounts
  | softether =>
    exact congrArg py (SoftEther.exported_congr fun key _ => congrFun hReads key)
  | ssh => rfl
  | wireguard => simp only [Driver.inbounds, WireGuard.listeners, listOr_reads hReads, hReads]
  | xray => rfl

/-- Only sing-box notes anything, and what it lists without a document does not depend
on it. -/
theorem inbounds_noted (executable : Option String) {d : Driver} (h : d.document = none) :
    (d.noted core executable).inbounds host core = d.inbounds host core := by
  unfold Driver.noted
  split
  · obtain ⟨s, kept, document, accounts, configs⟩ := d
    obtain rfl : document = none := h
    rename_i path
    show SingBox.rendered host (assocSet "executable_path" (.str path) s) accounts none =
      SingBox.rendered host s accounts none
    rw [SingBox.rendered_none, SingBox.rendered_none]
    exact SingBox.derived_congr (Json.getD_assocSet_of_ne (by decide) _ _)
      (Json.getD_assocSet_of_ne (by decide) _ _) accounts
  · rfl

/-- The agent's driver, built again: its constructor sees the settings it has. -/
theorem exists_rebuilt_iff (hCore : core ≠ .softether) {d : Driver} {l : Live core}
    (hLive : l.settings = d.settings) {root secret : String} {executable : Option String}
    {restored : List UserAccount} {P : Build (List Inbound) → Prop} :
    (∃ rebuilt, rebuild host root core secret executable restored d = .ok rebuilt ∧
        P (rebuilt.inbounds host core)) ↔
      ∃ value kept, remake host.lang core d.settings = .ok value ∧
        taken host.lang core d.settings = .ok kept ∧
        P (Driver.inbounds host core
          ⟨settle core value d.settings, kept, none, restored, d.configs⟩) := by
  -- only SoftEther replaces something before it merges
  have hPlain : prepare host.lang secret core
      (nodeDriverSettings (Drivers.host root) core d.settings) =
        nodeDriverSettings (Drivers.host root) core d.settings := by
    cases core with
    | softether => exact absurd rfl hCore
    | openvpn | pptp | singBox | ssh | wireguard | xray => rfl
  -- over the defaults the settings read as they did
  have hReads : Json.get? (Json.merge (defaults core)
      (nodeDriverSettings (Drivers.host root) core d.settings)) = Json.get? d.settings := by
    rw [← hLive]
    exact l.reads_merged (l.reads_node root)
  -- the binary that a start may note is no matter of the inbounds
  have hInbounds : ∀ value kept, (Driver.noted core executable
      ⟨settle core value (Json.merge (defaults core)
        (nodeDriverSettings (Drivers.host root) core d.settings)), kept, none, restored,
          d.configs⟩).inbounds host core =
      Driver.inbounds host core
        ⟨settle core value d.settings, kept, none, restored, d.configs⟩ := by
    intro value kept
    rw [inbounds_noted executable rfl]
    exact inbounds_congr (settle_congr hReads) kept restored d.configs
  constructor
  · rintro ⟨rebuilt, hRebuilt, hP⟩
    obtain ⟨b, hBuilt, rfl⟩ := map_ok_iff.mp hRebuilt
    obtain ⟨value, kept, hRemake, hTaken, rfl⟩ := construct_ok_iff.mp hBuilt
    rw [hPlain] at hRemake hTaken hP
    rw [remake_congr hReads] at hRemake
    rw [taken_congr hReads] at hTaken
    rw [hInbounds] at hP
    exact ⟨value, kept, hRemake, hTaken, hP⟩
  · rintro ⟨value, kept, hRemake, hTaken, hP⟩
    refine ⟨_, map_ok_iff.mpr ⟨_, construct_ok_iff.mpr ⟨value, kept, ?_, ?_, rfl⟩, rfl⟩, ?_⟩
    · rw [hPlain, remake_congr hReads, hRemake]
    · rw [hPlain, taken_congr hReads, hTaken]
    · rw [hPlain, hInbounds]
      exact hP

end Rebuilt

-- ---------------------------------------------------------------------------
-- Drivers with rows
-- ---------------------------------------------------------------------------

section Rows

variable {host : Host} {root secret : String} {executable : Option String}
  {restored : List UserAccount}

theorem getD_set {s set : Settings} {keys : List String} (hKeys : ∀ e ∈ set, e.1 ∈ keys)
    {key : String} (hKey : key ∉ keys) : Json.getD (Json.merge s set) key = Json.getD s key := by
  refine Json.getD_congr ?_
  rw [Json.get?_merge, Json.get?_eq_none hKeys hKey, Option.none_or]

/-- What inbounds rows of these ends are. -/
def inboundsOf (protocol : String) (ends : List (String × Int)) : List Inbound :=
  ends.map fun e => ⟨.str e.1, .str protocol, .num e.2⟩

section OpenVpn

variable {s common : Settings} (hCommon : ∀ e ∈ common, e.1 ∈ OpenVpn.knobKeys)
include hCommon

/-- The dictionary has the rows. -/
theorem OpenVpn.stored_set (rows : List Settings) :
    Json.getD (Json.merge s (common ++ ("listeners", rowsOf rows) :: OpenVpn.mirrored rows))
      "listeners" = rowsOf rows := by
  refine getD_of_get? ?_
  rw [Json.get?_merge, Json.get?_append, Json.get?_eq_none hCommon (by decide), Json.get?_cons,
    if_pos rfl]
  rfl

/-- The flat settings are those of the first row. -/
theorem OpenVpn.flat_set (v : Json) (first : Settings) (rest : List Settings) {key : String}
    (hKey : key ∈ OpenVpn.listenerKeys) :
    Json.getD (Json.merge s (common ++ ("listeners", v) :: OpenVpn.mirrored (first :: rest))) key =
      Json.getD first key := by
  have hOther : ∀ key ∈ OpenVpn.listenerKeys, key ∉ OpenVpn.knobKeys ∧ "listeners" ≠ key := by
    decide
  obtain ⟨hKnob, hNe⟩ := hOther key hKey
  refine getD_of_get? ?_
  rw [Json.get?_merge, Json.get?_append, Json.get?_eq_none hCommon hKnob, Json.get?_cons,
    if_neg hNe, OpenVpn.mirrored, Json.get?_tabulate hKey]
  rfl

theorem OpenVpn.taken_set (v : Json) (rows : List Settings) :
    OpenVpn.taken (Json.merge s (common ++ ("listeners", v) :: OpenVpn.mirrored rows)) =
      OpenVpn.taken s := by
  have hOther := OpenVpn.set_keys hCommon v rows
  unfold OpenVpn.taken
  rw [getD_set hOther (by decide), getD_set hOther (by decide), getD_set hOther (by decide)]

end OpenVpn

theorem OpenVpn.inbounds_ok {d : Driver} {rows : List Settings} {ends : List (String × Int)}
    (hNe : rows ≠ []) (hStored : Json.getD d.settings "listeners" = rowsOf rows)
    (hListens : List.Forall₂ (fun row e => Listens row e.1 e.2) rows ends) :
    d.inbounds host .openvpn = .ok (inboundsOf "ovpn" ends) := by
  show (py (OpenVpn.listeners host.lang d.settings) >>= fun rows =>
    py (rows.mapM (rowInbound "ovpn"))) = _
  rw [OpenVpn.listeners_accepted hNe hStored]
  exact congrArg py (rowInbounds_ok hListens)

/-- An accepted document is one OpenVPN has after a restart as well, if its
constructor returns at all. -/
theorem OpenVpn.survives_iff {r : Running .openvpn} {document set : Settings}
    {l : Live .openvpn} (h : OpenVpn.updates host.lang r.settings document = .ok set)
    (hLive : l.settings = Json.merge r.settings set) :
    Survives host root .openvpn secret executable restored (r.driver.assign set) ↔
      ∃ kept, OpenVpn.taken r.settings = .ok kept := by
  obtain ⟨common, rows, ends, rfl, hCommon, hNe, hRows⟩ := OpenVpn.updates_ok h
  obtain ⟨first, rest, rfl⟩ := List.exists_cons_of_ne_nil hNe
  have hListens : List.Forall₂ (fun row e => Listens row e.1 e.2) (first :: rest) ends :=
    hRows.imp fun _ _ h => h.listens
  obtain ⟨e, others, hFirst, -, -⟩ := List.forall₂_cons_left_iff.mp hRows
  have hStored := OpenVpn.stored_set hCommon (s := r.settings) (first :: rest)
  obtain ⟨template, hTemplate⟩ : ∃ template, OpenVpn.listenerFromFlat host.lang (Json.merge
      r.settings (common ++ ("listeners", rowsOf (first :: rest)) ::
        OpenVpn.mirrored (first :: rest))) = .ok template :=
    OpenVpn.fromFlat_mirrored hFirst.sound fun key hKey =>
      OpenVpn.flat_set hCommon (rowsOf (first :: rest)) first rest hKey
  obtain ⟨again, hAgain, hAgainListens⟩ := OpenVpn.stored_accepted hNe hRows hStored hTemplate
  have hAgainNe : again ≠ [] := OpenVpn.stored_ne_nil hAgain
  have hTaken := OpenVpn.taken_set hCommon (s := r.settings) (rowsOf (first :: rest)) (first :: rest)
  rw [Survives, exists_rebuilt_iff (by decide) hLive]
  constructor
  · rintro ⟨value, kept, -, hKept, -⟩
    exact ⟨kept, hTaken.symm.trans hKept⟩
  · rintro ⟨kept, hKept⟩
    refine ⟨rowsOf again, kept, ?_, hTaken.trans hKept, ?_⟩
    · exact map_ok_iff.mpr ⟨again, py_ok_iff.mpr hAgain, rfl⟩
    · rw [OpenVpn.inbounds_ok hNe hStored hListens,
        OpenVpn.inbounds_ok hAgainNe (Json.getD_assocSet_self _ _ _) hAgainListens]
      exact Alike.refl _

theorem Ssh.inbounds_ok {d : Driver} {rows : List Settings} {ends : List (String × Int)}
    (hKept : Json.getD d.kept "_listeners" = rowsOf rows)
    (hListens : List.Forall₂ (fun row e => Listens row e.1 e.2) rows ends) :
    d.inbounds host .ssh = .ok (inboundsOf "ssh" ends) := by
  have hRows : d.sshRows = rows := by
    unfold Driver.sshRows
    rw [hKept]
    show (rows.map Json.dict).map ZagrosNode.WireGuard.fieldsOf = rows
    rw [List.map_map]
    exact List.map_id rows
  show py (d.sshRows.mapM (rowInbound "ssh")) = _
  rw [hRows, rowInbounds_ok hListens]
  rfl

/-- SSH has the rows of an accepted document after a restart as well. -/
theorem Ssh.survives {r : Running .ssh} {document set : Settings} {rows : List Ssh.Row}
    {l : Live .ssh} {d : Driver}
    (h : Ssh.rowsAndKnobs host.lang r.settings r.driver.sshRows document = .ok (rows, set))
    (hSettings : d.settings = Json.merge r.settings
      (set ++ ("listeners", rowsOf (rows.map Ssh.Row.entries)) :: Ssh.mirrored rows))
    (hKept : Json.getD d.kept "_listeners" = rowsOf (rows.map Ssh.Row.entries))
    (hLive : l.settings = d.settings) :
    Survives host root .ssh secret executable restored d := by
  obtain ⟨hNe, hNames, hKeys⟩ := Ssh.rowsAndKnobs_ok h
  have hStored : Json.getD d.settings "listeners" = rowsOf (rows.map Ssh.Row.entries) := by
    rw [hSettings]
    refine getD_of_get? ?_
    rw [Json.get?_merge, Json.get?_append, Json.get?_eq_none hKeys (by decide), Json.get?_cons,
      if_pos rfl]
    rfl
  obtain ⟨again, hAgain, hListens⟩ := Ssh.derive_stored hNe hNames hStored
  rw [Survives, exists_rebuilt_iff (by decide) hLive]
  refine ⟨rowsOf again, _, map_ok_iff.mpr ⟨again, py_ok_iff.mpr hAgain, rfl⟩,
    bind_ok_iff.mpr ⟨again, py_ok_iff.mpr hAgain, rfl⟩, ?_⟩
  rw [Ssh.inbounds_ok hKept (Ssh.listens_rows rows), Ssh.inbounds_ok rfl hListens]
  exact Alike.refl _

theorem WireGuard.inbounds_ok {d : Driver} {rows : List Settings} {ends : List (String × Int)}
    (hNe : rows ≠ []) (hStored : Json.getD d.settings "listeners" = rowsOf rows)
    (hListens : List.Forall₂ (fun row e => Listens row e.1 e.2) rows ends)
    (hFirst : ∀ e ∈ ends.head?, Json.get? d.settings "port" = some (.num e.2)) :
    d.inbounds host .wireguard = .ok (inboundsOf "wireguard" ends) := by
  obtain ⟨listed, hListed, hEnds⟩ := WireGuard.listeners_listens hNe hStored hListens hFirst
  show (py (WireGuard.listeners d.settings) >>= fun rows =>
    py (rows.mapM (rowInbound "wireguard"))) = _
  rw [hListed]
  exact congrArg py (rowInbounds_ok hEnds)

theorem WireGuard.stored_set (s : Settings) (rows : List Settings) :
    Json.getD (Json.merge s (("listeners", rowsOf rows) :: WireGuard.mirrored rows)) "listeners" =
      rowsOf rows := by
  refine getD_of_get? ?_
  rw [Json.get?_merge, Json.get?_cons, if_pos rfl]
  rfl

theorem WireGuard.flat_set (s : Settings) (v : Json) (first : Settings) (rest : List Settings)
    {key : String} (hKey : key ∈ WireGuard.listenerKeys) :
    Json.get? (Json.merge s (("listeners", v) :: WireGuard.mirrored (first :: rest))) key =
      some (Json.getD first key) := by
  have hOther : ∀ key ∈ WireGuard.listenerKeys, "listeners" ≠ key := by decide
  rw [Json.get?_merge, Json.get?_cons, if_neg (hOther key hKey), WireGuard.mirrored,
    Json.get?_tabulate hKey]
  rfl

/-- The ends of rows of which this is remembered. -/
def WireGuard.ends (firsts : List WireGuard.Seen) : List (String × Int) :=
  firsts.map fun first => (first.tag, first.port)

/-- A restart stores and keeps rows with the same ends. -/
theorem WireGuard.exists_again {s : Settings} {first : Settings} {rest : List Settings}
    {firsts : List WireGuard.Seen}
    (hRows : List.Forall₂ (WireGuard.Accepted host.lang) (first :: rest) firsts)
    (hAdmitted : WireGuard.Admitted host.lang [] firsts)
    (hStored : Json.getD s "listeners" = rowsOf (first :: rest))
    (hFlat : ∀ key ∈ WireGuard.listenerKeys, Json.get? s key = some (Json.getD first key)) :
    ∃ again, WireGuard.storedListeners host.lang s = .ok again ∧ again ≠ [] ∧
      List.Forall₂ (fun row e => Listens row e.1 e.2) again (WireGuard.ends firsts) := by
  obtain ⟨seen, others, hFirst, -, rfl⟩ := List.forall₂_cons_left_iff.mp hRows
  have hMtu : Json.getD s "mtu" = .null ∨ ∃ mtu, Json.getD s "mtu" = .num mtu := by
    rw [getD_of_get? (hFlat "mtu" (by decide))]
    exact hFirst.sound.mtu
  obtain ⟨template, hTemplate⟩ := WireGuard.fromFlat_mirrored hFirst.sound
    fun key hKey => getD_of_get? (hFlat key hKey)
  obtain ⟨again, hAgain, hListens⟩ := WireGuard.stored_accepted (List.cons_ne_nil first rest)
    hTemplate hMtu hRows hAdmitted hStored
  refine ⟨again, hAgain, ?_, List.forall₂_map_right_iff.mpr hListens⟩
  rintro rfl
  cases hListens

theorem WireGuard.survives_of_rows {d : Driver} {l : Live .wireguard} {first : Settings}
    {rest : List Settings} {firsts : List WireGuard.Seen}
    (hRows : List.Forall₂ (WireGuard.Accepted host.lang) (first :: rest) firsts)
    (hAdmitted : WireGuard.Admitted host.lang [] firsts)
    (hStored : Json.getD d.settings "listeners" = rowsOf (first :: rest))
    (hFlat : ∀ key ∈ WireGuard.listenerKeys,
      Json.get? d.settings key = some (Json.getD first key))
    (hLive : l.settings = d.settings) :
    Survives host root .wireguard secret executable restored d := by
  obtain ⟨again, hAgain, hAgainNe, hAgainListens⟩ :=
    WireGuard.exists_again hRows hAdmitted hStored hFlat
  have hListens : List.Forall₂ (fun row e => Listens row e.1 e.2) (first :: rest)
      (WireGuard.ends firsts) :=
    List.forall₂_map_right_iff.mpr (hRows.imp fun _ _ h => h.reads.listens)
  -- the flat port is that of the first row, before the restart and after it
  have hPort : ∀ e ∈ (WireGuard.ends firsts).head?,
      Json.get? d.settings "port" = some (.num e.2) := by
    intro e hMem
    obtain ⟨seen, others, hFirst, -, rfl⟩ := List.forall₂_cons_left_iff.mp hRows
    obtain rfl := Option.some.inj hMem
    rw [hFlat "port" (by decide), getD_of_get? hFirst.reads.listens.2]
  have hAgainPort : ∀ e ∈ (WireGuard.ends firsts).head?,
      Json.get? (assocSet "listeners" (rowsOf again) d.settings) "port" = some (.num e.2) := by
    intro e hMem
    rw [Json.get?_assocSet, if_neg (by decide)]
    exact hPort e hMem
  have hAfter : Driver.inbounds host .wireguard ⟨assocSet "listeners" (rowsOf again) d.settings,
      WireGuard.backends again, none, restored, d.configs⟩ =
        .ok (inboundsOf "wireguard" (WireGuard.ends firsts)) :=
    WireGuard.inbounds_ok hAgainNe (Json.getD_assocSet_self _ _ _) hAgainListens hAgainPort
  rw [Survives, exists_rebuilt_iff (by decide) hLive]
  refine ⟨rowsOf again, WireGuard.backends again, map_ok_iff.mpr ⟨again, hAgain, rfl⟩,
    map_ok_iff.mpr ⟨again, hAgain, rfl⟩, ?_⟩
  rw [WireGuard.inbounds_ok (List.cons_ne_nil first rest) hStored hListens hPort]
  show Alike _ (Driver.inbounds host .wireguard ⟨assocSet "listeners" (rowsOf again) d.settings,
    WireGuard.backends again, none, restored, d.configs⟩)
  rw [hAfter]
  exact Alike.refl _

/-- WireGuard has the rows of an accepted document after a restart as well. -/
theorem WireGuard.survives {r : Running .wireguard} {document set : Settings} {l : Live .wireguard}
    (h : WireGuard.updates host.lang r.settings document = .ok set)
    (hLive : l.settings = Json.merge r.settings set) :
    Survives host root .wireguard secret executable restored (r.driver.assign set) := by
  obtain ⟨rows, firsts, rfl, hNe, hRows, hAdmitted⟩ := WireGuard.updates_ok h
  obtain ⟨first, rest, rfl⟩ := List.exists_cons_of_ne_nil hNe
  exact WireGuard.survives_of_rows hRows hAdmitted (WireGuard.stored_set r.settings _)
    (fun _ hKey => WireGuard.flat_set r.settings _ first rest hKey) hLive

-- ---------------------------------------------------------------------------
-- PPTP, SoftEther and Xray
-- ---------------------------------------------------------------------------

/-- An accepted document has no row exactly if its list is missing or empty. -/
theorem Pptp.row_nil_iff {document : Settings} {rows : List Settings}
    (h : Pptp.row host.lang document = .ok rows) :
    rows = [] ↔ (Json.getD document "inbounds").truthy = false := by
  unfold Pptp.row Json.or at h
  cases hTruthy : (Json.getD document "inbounds").truthy with
  | false =>
    rw [hTruthy] at h
    exact iff_of_true (Except.ok.inj h).symm rfl
  | true =>
    rw [hTruthy] at h
    refine iff_of_false ?_ (by decide)
    rintro rfl
    split at h
    · rename_i hEmpty
      rw [show Json.getD document "inbounds" = .list [] from hEmpty] at hTruthy
      cases hTruthy
    · obtain ⟨row, -, hCons⟩ := map_ok_iff.mp h
      cases hCons
    · cases h
    · cases h

/-- A row of PPTP as an inbound. -/
def Pptp.listed (row : Settings) : Inbound :=
  ⟨Json.getD row "tag", Json.getD row "protocol", Json.getD row "port"⟩

theorem Pptp.inbounds_ok {d : Driver} {rows : List Settings}
    (hStored : Json.getD d.settings "inbounds" = rowsOf rows) :
    d.inbounds host .pptp = .ok (rows.map Pptp.listed) := by
  have hList : listOr d.settings "inbounds" [] = .ok (rows.map .dict) := by
    rw [listOr, hStored, Json.or]
    split
    · rfl
    · rename_i hEmpty
      have hNil : rows = [] := by
        by_contra hNe
        exact hEmpty (rowsOf_truthy hNe)
      rw [hNil]
      rfl
  show (py (listOr d.settings "inbounds" []) >>= fun rows => py (rows.mapM Pptp.inboundOf)) = _
  rw [hList]
  have hRows : (rows.map Json.dict).mapM Pptp.inboundOf = .ok (rows.map Pptp.listed) := by
    rw [mapM_ok_iff, List.forall₂_map_left_iff, List.forall₂_map_right_iff, List.forall₂_same]
    exact fun row _ => rfl
  exact congrArg py hRows

theorem Pptp.taken_set {lang : Lang} (s : Settings) (v : Json) :
    Pptp.taken lang (assocSet "inbounds" v s) = Pptp.taken lang s := by
  have hOther : ∀ {key}, "inbounds" ≠ key → Json.getD (assocSet "inbounds" v s) key =
      Json.getD s key := fun hKey => Json.getD_assocSet_of_ne hKey v s
  unfold Pptp.taken Lang.textOr intOr
  rw [hOther (by decide), hOther (by decide), hOther (by decide), hOther (by decide)]

/-- PPTP has the row of an accepted document after a restart as well, but no document
without a row. -/
theorem Pptp.survives_iff {r : Running .pptp} {document : Settings} {rows : List Settings}
    {l : Live .pptp} (h : Pptp.row host.lang document = .ok rows)
    (hLive : l.settings = Json.merge r.settings [("inbounds", rowsOf rows)]) :
    Survives host root .pptp secret executable restored
        (r.driver.assign [("inbounds", rowsOf rows)]) ↔
      (Json.getD document "inbounds").truthy = true ∧
        ∃ kept, Pptp.taken host.lang r.settings = .ok kept := by
  have hStored : Json.getD (Json.merge r.settings [("inbounds", rowsOf rows)]) "inbounds" =
      rowsOf rows := Json.getD_assocSet_self _ _ _
  have hTaken : Pptp.taken host.lang (Json.merge r.settings [("inbounds", rowsOf rows)]) =
      Pptp.taken host.lang r.settings := Pptp.taken_set _ _
  have hNil := Pptp.row_nil_iff h
  have hMade : ∀ (made : List Settings) (kept : Kept), Driver.inbounds host .pptp
      ⟨assocSet "inbounds" (rowsOf made) (Json.merge r.settings [("inbounds", rowsOf rows)]), kept,
        none, restored, r.configs⟩ = .ok (made.map Pptp.listed) :=
    fun _ _ => Pptp.inbounds_ok (Json.getD_assocSet_self _ _ _)
  rw [Survives, exists_rebuilt_iff (by decide) hLive,
    Pptp.inbounds_ok (d := r.driver.assign [("inbounds", rowsOf rows)]) hStored]
  cases rows with
  | nil =>
    -- the constructor puts its own row in place
    have hDefault : Pptp.inbounds (Json.merge r.settings [("inbounds", rowsOf [])]) =
        rowsOf [Pptp.defaultInbound] := by
      rw [Pptp.inbounds, hStored]
      rfl
    refine iff_of_false ?_ fun h => ?_
    · rintro ⟨value, kept, hValue, -, hAlike⟩
      obtain rfl : value = rowsOf [Pptp.defaultInbound] :=
        (Except.ok.inj hValue).symm.trans hDefault
      have hLists := (congrArg (Alike _) (hMade [Pptp.defaultInbound] kept)).mp hAlike
      exact absurd ((hLists _).mpr List.mem_cons_self) List.not_mem_nil
    · rw [hNil.mp rfl] at h
      cases h.1
  | cons row rest =>
    have hKeeps : Pptp.inbounds (Json.merge r.settings [("inbounds", rowsOf (row :: rest))]) =
        rowsOf (row :: rest) := by
      rw [Pptp.inbounds, hStored]
      rfl
    have hTruthy : (Json.getD document "inbounds").truthy = true := by
      by_contra hFalsy
      exact List.cons_ne_nil row rest (hNil.mpr (Bool.eq_false_iff.mpr hFalsy))
    constructor
    · rintro ⟨value, kept, -, hKept, -⟩
      exact ⟨hTruthy, kept, hTaken.symm.trans hKept⟩
    · rintro ⟨-, kept, hKept⟩
      refine ⟨rowsOf (row :: rest), kept, congrArg Except.ok hKeeps, hTaken.trans hKept, ?_⟩
      exact (congrArg (Alike _) (hMade (row :: rest) kept)).mpr (Alike.refl _)

theorem SoftEther.prepare_reads {lang : Lang} {key : String} (hKey : key ≠ "admin_password")
    (given : Settings) :
    Json.get? (SoftEther.prepare lang secret given) key = Json.get? given key := by
  unfold SoftEther.prepare
  split
  · rw [Json.get?_assocSet, if_neg (Ne.symm hKey)]
  · rfl

/-- SoftEther, built again: its dictionary differs in the password at most, and in the
port it always puts in place. -/
theorem SoftEther.exists_built {lang : Lang} {l : Live .softether} {port : Int}
    (hPort : intOr l.settings "sstp_port" 443 = .ok port) :
    ∃ t kept, construct lang secret .softether
        (nodeDriverSettings (Drivers.host root) .softether l.settings) =
          .ok ⟨assocSet "sstp_port" (.num 443) t, kept⟩ ∧
      ∀ key, key ≠ "admin_password" → Json.get? t key = Json.get? l.settings key := by
  have hNode := l.reads_merged (l.reads_node root)
  generalize nodeDriverSettings (Drivers.host root) .softether l.settings = given at hNode ⊢
  have hReads : ∀ key, key ≠ "admin_password" →
      Json.get? (Json.merge (defaults .softether) (SoftEther.prepare lang secret given)) key =
        Json.get? l.settings key := by
    intro key hKey
    rw [← hNode, Json.get?_merge, Json.get?_merge, SoftEther.prepare_reads hKey]
  have hTaken : ∀ {t : Settings}, Json.get? t "sstp_port" = Json.get? l.settings "sstp_port" →
      ∃ kept, SoftEther.taken lang t = .ok kept := by
    intro t hEq
    refine ⟨_, bind_ok_iff.mpr ⟨port, py_ok_iff.mpr ?_, rfl⟩⟩
    rw [intOr, Json.getD_congr hEq]
    exact hPort
  obtain ⟨kept, hKept⟩ := hTaken (hReads "sstp_port" (by decide))
  exact ⟨_, kept, construct_ok_iff.mpr ⟨.num 443, kept, rfl, hKept, rfl⟩, hReads⟩

/-- SoftEther has the features of an accepted document after a restart as well. -/
theorem SoftEther.survives {r : Running .softether} {document set : Settings} {legacy : Json}
    {live : Option String} {l : Live .softether}
    (h : SoftEther.updates host.lang r.settings legacy live document = .ok set)
    (hLive : l.settings = Json.merge r.settings set) :
    Survives host root .softether secret executable restored (r.driver.assign set) := by
  have hPort : Json.get? l.settings "sstp_port" = some (.num 443) := by
    rw [hLive, Json.get?_merge, (SoftEther.updates_ok h).2, Option.some_or]
  have hOk : intOr l.settings "sstp_port" 443 = .ok 443 := by
    rw [intOr, getD_of_get? hPort]
    rfl
  obtain ⟨t, kept, hBuilt, hReads⟩ := SoftEther.exists_built hOk
  rw [hLive] at hBuilt
  refine ⟨_, map_ok_iff.mpr ⟨_, hBuilt, rfl⟩, ?_⟩
  have hSame : SoftEther.exported host.lang (assocSet "sstp_port" (.num 443) t) =
      SoftEther.exported host.lang l.settings := by
    refine SoftEther.exported_congr fun key hKey => ?_
    rw [Json.get?_assocSet]
    split
    · rename_i hSstp
      rw [← hSstp, hPort]
    · exact hReads key hKey
  rw [hLive] at hSame
  rw [inbounds_noted executable rfl]
  exact (congrArg (Alike _) (congrArg py hSame)).mpr (Alike.refl _)

/-- Where the settings say that Xray's configuration is. -/
def Xray.configPath (host : Host) (s : Settings) : String :=
  host.place (host.lang.str (Json.getD s "config_path"))

/-- Xray has the document after a restart as well, unless the settings lead to another
file by now that lists something else. -/
theorem Xray.survives_iff {r : Running .xray} {config : Settings} {d : Driver} {l : Live .xray}
    (hDriver : d = { r.driver with
      configs := Function.update r.configs (r.driver.config host) (some (.dict config)) })
    (hLive : l.settings = d.settings) :
    Survives host root .xray secret executable restored d ↔
      Xray.configPath host r.settings = r.driver.config host ∨
        Alike (Xray.listed host.lang (some (.dict config)))
          (Xray.listed host.lang (r.configs (Xray.configPath host r.settings))) := by
  subst hDriver
  -- before the restart the backend reads the file it has just written
  have hLists : Driver.inbounds host .xray { r.driver with
      configs := Function.update r.configs (r.driver.config host) (some (.dict config)) } =
        Xray.listed host.lang (some (.dict config)) :=
    congrArg (Xray.listed host.lang) (Function.update_self _ _ _)
  have hAfter : Driver.inbounds host .xray ⟨r.settings, Xray.taken host.lang r.settings, none,
      restored, Function.update r.configs (r.driver.config host) (some (.dict config))⟩ =
        Xray.listed host.lang (Function.update r.configs (r.driver.config host)
          (some (.dict config)) (Xray.configPath host r.settings)) := rfl
  rw [Survives, exists_rebuilt_iff (by decide) hLive, hLists]
  have hReduce : (∃ value kept, remake host.lang .xray r.settings = .ok value ∧
      Drivers.taken host.lang .xray r.settings = .ok kept ∧
      Alike (Xray.listed host.lang (some (.dict config))) (Driver.inbounds host .xray
        ⟨settle .xray value r.settings, kept, none, restored,
          Function.update r.configs (r.driver.config host) (some (.dict config))⟩)) ↔
      Alike (Xray.listed host.lang (some (.dict config))) (Xray.listed host.lang
        (Function.update r.configs (r.driver.config host) (some (.dict config))
          (Xray.configPath host r.settings))) := by
    constructor
    · rintro ⟨value, kept, -, hKept, hAlike⟩
      obtain rfl := Except.ok.inj hKept
      exact (congrArg (Alike _) hAfter).mp hAlike
    · intro hAlike
      exact ⟨.null, _, rfl, rfl, (congrArg (Alike _) hAfter).mpr hAlike⟩
  refine Iff.trans hReduce ?_
  -- after it the file that the settings name: the same one, or one as it was
  by_cases hPath : Xray.configPath host r.settings = r.driver.config host
  · rw [hPath, Function.update_self]
    exact iff_of_true (Alike.refl _) (Or.inl rfl)
  · rw [Function.update_of_ne hPath, or_iff_right hPath]

end Rows

-- ---------------------------------------------------------------------------
-- sing-box
-- ---------------------------------------------------------------------------

namespace SingBox

variable {host : Host}

/-- The listener of a protocol that has users, on the port the settings have for it. -/
def Derives (s : Settings) (accounts : List UserAccount) (i : Inbound) : Prop :=
  ∃ protocol ∈ derivedProtocols, served accounts protocol (fun _ => .ok true) = .ok true ∧
    ∃ ports v port, Json.getD s "ports" = .dict ports ∧ Json.get? ports protocol = some v ∧
      v.int = .ok port ∧ i = ⟨.str (protocol ++ "-in"), .str protocol, .num port⟩

/-- Nothing stands in the way of such a listener, or there is none. -/
def Derivable (lang : Lang) (s : Settings) (accounts : List UserAccount) : Prop :=
  ∀ protocol ∈ derivedProtocols, ∃ inbound, derivedInbound lang s accounts protocol = .ok inbound

/-- A listener of a document: one of its entries, or of no document one of a protocol. -/
def Serves (host : Host) (s : Settings) (accounts : List UserAccount) (document : Settings)
    (i : Inbound) : Prop :=
  if (Json.getD document "inbounds").truthy then
    ∃ entries, listOf (Json.getD document "inbounds") = .ok entries ∧
      ∃ raw ∈ entries, mergeEntry host s accounts raw = .ok (some i)
  else Derives s accounts i

/-- The settings as the constructor leaves them. -/
def settled (ports s : Settings) : Settings :=
  assocSet "ports" (.dict (Json.merge portDefaults ports)) s

theorem item_ok_iff {d : Settings} {key : String} {v : Json} :
    item d key = .ok v ↔ Json.get? d key = some v := by
  unfold item
  split
  · rename_i w hGet
    rw [hGet]
    exact ⟨fun h => congrArg some (Except.ok.inj h), fun h => congrArg _ (Option.some.inj h)⟩
  · rename_i hGet
    rw [hGet]
    exact iff_of_false (fun h => by cases h) fun h => by cases h

theorem mappingOf_ok_iff {v : Json} {entries : Settings} :
    mappingOf v = .ok entries ↔ v = .dict entries := by
  cases v with
  | dict es => exact ⟨fun h => congrArg _ (Except.ok.inj h), fun h => congrArg _ (Json.dict.inj h)⟩
  | null | bool | num | float | str | list =>
    exact iff_of_false (fun h => by cases h) fun h => by cases h

theorem derivedInbound_some_iff {lang : Lang} {s : Settings} {accounts : List UserAccount}
    {protocol : String} {inbound : Option Inbound} {i : Inbound}
    (h : derivedInbound lang s accounts protocol = .ok inbound) :
    inbound = some i ↔ served accounts protocol (fun _ => .ok true) = .ok true ∧
      ∃ ports v port, Json.getD s "ports" = .dict ports ∧ Json.get? ports protocol = some v ∧
        v.int = .ok port ∧ i = ⟨.str (protocol ++ "-in"), .str protocol, .num port⟩ := by
  unfold derivedInbound at h
  obtain ⟨users, hServed, hRest⟩ := bind_ok_iff.mp h
  rw [py_ok_iff.mp hServed]
  dsimp only at hRest
  cases users with
  -- a protocol nobody uses has no listener
  | false =>
    rw [← Except.ok.inj hRest]
    exact iff_of_false (fun h => by cases h) fun h => by cases h.1
  | true =>
    -- there are users: the port is looked up, and must be one
    split at hRest
    · rename_i hNot
      cases hNot
    split at hRest
    · cases hRest
    simp only [bind_ok_iff, py_ok_iff, mappingOf_ok_iff, item_ok_iff] at hRest
    obtain ⟨ports, hPorts, v, hItem, port, hPort, hEq⟩ := hRest
    rw [← Except.ok.inj hEq, and_iff_right rfl]
    constructor
    · rintro ⟨⟩
      exact ⟨ports, v, port, hPorts, hItem, hPort, rfl⟩
    · rintro ⟨ports', v', port', hPorts', hItem', hPort', rfl⟩
      obtain rfl : ports = ports' := Json.dict.inj (hPorts.symm.trans hPorts')
      obtain rfl : v = v' := Option.some.inj (hItem.symm.trans hItem')
      rw [Except.ok.inj (hPort.symm.trans hPort')]

theorem derived_ok_iff {lang : Lang} {s : Settings} {accounts : List UserAccount} :
    (∃ after, derived lang s accounts = .ok after) ↔ Derivable lang s accounts := by
  rw [Derivable, ← exists_mapM_ok_iff]
  constructor
  · rintro ⟨after, h⟩
    obtain ⟨inbounds, hEach, -⟩ := map_ok_iff.mp h
    exact ⟨inbounds, hEach⟩
  · rintro ⟨inbounds, hEach⟩
    exact ⟨_, map_ok_iff.mpr ⟨inbounds, hEach, rfl⟩⟩

theorem mem_derived_iff {lang : Lang} {s : Settings} {accounts : List UserAccount}
    {after : List Inbound} (h : derived lang s accounts = .ok after) (i : Inbound) :
    i ∈ after ↔ Derives s accounts i := by
  obtain ⟨inbounds, hEach, rfl⟩ := map_ok_iff.mp h
  rw [mem_reduceOption_iff hEach]
  refine exists_congr fun protocol => and_congr_right fun hMem => ?_
  obtain ⟨inbound, -, hInbound⟩ := mem_of_mapM_left hEach hMem
  rw [← derivedInbound_some_iff hInbound, hInbound]
  exact ⟨fun h => Except.ok.inj h, fun h => congrArg _ h⟩

theorem mem_rendered_iff {s document : Settings} {accounts : List UserAccount}
    {live : List Inbound} (h : rendered host s accounts (some document) = .ok live) (i : Inbound) :
    i ∈ live ↔ Serves host s accounts document i := by
  unfold rendered at h
  unfold Serves
  dsimp only [Option.getD_some] at h
  split
  · rename_i hTruthy
    rw [if_pos hTruthy] at h
    simp only [bind_ok_iff, py_ok_iff] at h
    obtain ⟨entries, hEntries, inbounds, hEach, hEq⟩ := h
    rw [← Except.ok.inj hEq, mem_reduceOption_iff hEach]
    constructor
    · exact fun hRaw => ⟨entries, hEntries, hRaw⟩
    · rintro ⟨entries', hEntries', hRaw⟩
      rwa [Except.ok.inj (hEntries.symm.trans hEntries')] 
  · rename_i hFalsy
    rw [if_neg hFalsy] at h
    exact mem_derived_iff h i

/-- What is rendered does not depend on where the binary is. -/
theorem rendered_path (path : Json) (s : Settings) (accounts : List UserAccount)
    (document : Option Settings) :
    rendered host (assocSet "executable_path" path s) accounts document =
      rendered host s accounts document := by
  have hListen : Json.getD (assocSet "executable_path" path s) "listen" = Json.getD s "listen" :=
    Json.getD_assocSet_of_ne (by decide) _ _
  have hNative : nativeEntry host (assocSet "executable_path" path s) = nativeEntry host s := by
    funext raw
    unfold nativeEntry
    rw [hListen]
    simp only [host.fields_path]
  have hMerge : mergeEntry host (assocSet "executable_path" path s) accounts =
      mergeEntry host s accounts := by
    funext raw
    unfold mergeEntry
    rw [hNative]
  unfold rendered
  rw [hMerge, derived_congr (Json.getD_assocSet_of_ne (by decide) _ _)
    (Json.getD_assocSet_of_ne (by decide) _ _)]

theorem taken_ok_iff {lang : Lang} {s : Settings} :
    (∃ kept, taken lang s = .ok kept) ↔ (∃ dir, pathOf (Json.getD s "work_dir") = .ok dir) ∧
      ∃ n, (Json.getD s "log_buffer").int = .ok n := by
  unfold taken
  simp only [bind_ok_iff, py_ok_iff]
  constructor
  · rintro ⟨kept, dir, hDir, n, hBuffer, -⟩
    exact ⟨⟨dir, hDir⟩, n, hBuffer⟩
  · rintro ⟨⟨dir, hDir⟩, n, hBuffer⟩
    exact ⟨_, dir, hDir, n, hBuffer, rfl⟩

theorem ports_ok_iff {lang : Lang} {s : Settings} {value : Json} :
    ports lang s = .ok value ↔ (∃ kept, taken lang s = .ok kept) ∧
      ∃ given, mappingOf ((Json.getD s "ports").or (.dict [])) = .ok given ∧
        value = .dict (Json.merge portDefaults given) := by
  unfold ports
  simp only [bind_ok_iff, py_ok_iff]
  constructor
  · rintro ⟨kept, hKept, given, hGiven, hEq⟩
    exact ⟨⟨kept, hKept⟩, given, hGiven, (Except.ok.inj hEq).symm⟩
  · rintro ⟨⟨kept, hKept⟩, given, hGiven, rfl⟩
    exact ⟨kept, hKept, given, hGiven, rfl⟩

/-- With the document, and the binary that its start has noted. -/
def after (s : Settings) (noted : Option String) : Settings :=
  match noted with
  | some path => assocSet "executable_path" (.str path) s
  | none      => s

theorem getD_after {key : String} (hKey : "executable_path" ≠ key) (s : Settings)
    (noted : Option String) : Json.getD (after s noted) key = Json.getD s key := by
  cases noted with
  | none => rfl
  | some path => exact Json.getD_assocSet_of_ne hKey _ _

/-- sing-box has the listeners of a document after a restart exactly if they are the ones
that come from the accounts alone. -/
theorem survives_iff {root secret : String} {executable noted : Option String}
    {restored accounts : List UserAccount} {s document : Settings} {kept : Kept}
    {configs : String → Option Json} {live : List Inbound} {l : Live .singBox}
    (h : rendered host s accounts (some document) = .ok live) (hLive : l.settings = after s noted) :
    Survives host root .singBox secret executable restored
        ⟨after s noted, kept, some document, accounts, configs⟩ ↔
      (∃ again, taken host.lang s = .ok again) ∧
        ∃ given, mappingOf ((Json.getD s "ports").or (.dict [])) = .ok given ∧
          Derivable host.lang (settled given s) restored ∧
          ∀ i, Serves host s accounts document i ↔ Derives (settled given s) restored i := by
  -- the note of a binary is in none of the settings that are read
  have hTaken : (∃ again, taken host.lang (after s noted) = .ok again) ↔
      ∃ again, taken host.lang s = .ok again := by
    rw [taken_ok_iff, taken_ok_iff, getD_after (by decide), getD_after (by decide)]
  have hRendered : rendered host (after s noted) accounts (some document) = .ok live := by
    rw [← h]
    cases noted with
    | none => rfl
    | some path => exact rendered_path _ _ _ _
  -- nor is it where the listeners are derived from
  have hDerived : ∀ given, derived host.lang (settled given (after s noted)) restored =
      derived host.lang (settled given s) restored := by
    intro given
    refine derived_congr ?_ ?_ restored
    · rw [settled, settled, Json.getD_assocSet_of_ne (by decide),
        Json.getD_assocSet_of_ne (by decide), getD_after (by decide)]
    · rw [settled, settled, Json.getD_assocSet_self, Json.getD_assocSet_self]
  have hBuilt : ∀ given again, Alike (.ok live) (Driver.inbounds host .singBox
      ⟨settle .singBox (.dict (Json.merge portDefaults given)) (after s noted), again, none,
        restored, configs⟩) ↔
      Derivable host.lang (settled given s) restored ∧
        ∀ i, Serves host s accounts document i ↔ Derives (settled given s) restored i := by
    intro given again
    show Alike (.ok live) (derived host.lang (settled given (after s noted)) restored) ↔ _
    rw [hDerived, alike_ok_iff, ← derived_ok_iff]
    constructor
    · rintro ⟨listed, hListed, hSame⟩
      refine ⟨⟨listed, hListed⟩, fun i => ?_⟩
      rw [← mem_rendered_iff h i, ← mem_derived_iff hListed i, hSame i]
    · rintro ⟨⟨listed, hListed⟩, hSame⟩
      refine ⟨listed, hListed, fun i => ?_⟩
      rw [mem_rendered_iff h i, mem_derived_iff hListed i, hSame i]
  rw [Survives, exists_rebuilt_iff (by decide) hLive]
  show (∃ value again, ports host.lang (after s noted) = .ok value ∧ _ ∧
    Alike (rendered host (after s noted) accounts (some document)) _) ↔ _
  simp only [hRendered, ports_ok_iff, hTaken, getD_after (by decide : "executable_path" ≠ "ports")]
  constructor
  · rintro ⟨value, again, ⟨hAgain, given, hGiven, rfl⟩, -, hAlike⟩
    exact ⟨hAgain, given, hGiven, (hBuilt given again).mp hAlike⟩
  · rintro ⟨hAgain, given, hGiven, hSame⟩
    obtain ⟨again, hEq⟩ := hTaken.mpr hAgain
    exact ⟨_, again, ⟨hAgain, given, hGiven, rfl⟩, hEq, (hBuilt given again).mpr hSame⟩

end SingBox

-- ---------------------------------------------------------------------------
-- All drivers
-- ---------------------------------------------------------------------------

/-- When a document that the driver accepts is still there after a restart. -/
def Lasting (host : Host) (core : CoreId) (restored : List UserAccount) (d : Driver)
    (document : Settings) : Prop :=
  match core with
  | .openvpn   => ∃ kept, OpenVpn.taken d.settings = .ok kept
  | .pptp      => (Json.getD document "inbounds").truthy = true ∧
    ∃ kept, Pptp.taken host.lang d.settings = .ok kept
  | .singBox   => (∃ kept, SingBox.taken host.lang d.settings = .ok kept) ∧
    ∃ given, mappingOf ((Json.getD d.settings "ports").or (.dict [])) = .ok given ∧
      SingBox.Derivable host.lang (SingBox.settled given d.settings) restored ∧
      ∀ i, SingBox.Serves host d.settings d.accounts document i ↔
        SingBox.Derives (SingBox.settled given d.settings) restored i
  | .xray      => ∃ config, Xray.native host document = .ok config ∧
    (Xray.configPath host d.settings = d.config host ∨
      Alike (Xray.listed host.lang (some (.dict config)))
        (Xray.listed host.lang (d.configs (Xray.configPath host d.settings))))
  | .softether | .ssh | .wireguard => True

/-- **An applied document and a restart of the agent.** What OpenVPN, SoftEther, SSH and
WireGuard have been given is in their settings; PPTP loses a document without rows to its
default, sing-box every listener its accounts do not give it anyway, and Xray what is not
in the file that its settings name. -/
theorem document_survives_iff {host : Host} {root : String} {core : CoreId} {secret : String}
    {executable : Option String} {restored : List UserAccount} {answers : Answers}
    {document : Settings} {r : Running core} {d : Driver}
    (h : applyStudioDocument host core answers r.driver document = .ok d) :
    Survives host root core secret executable restored d ↔
      Lasting host core restored r.driver document := by
  obtain ⟨l, hLive⟩ := r.exists_after h
  unfold applyStudioDocument at h
  simp only [bind_ok_iff] at h
  obtain ⟨adopted, hAdopt, _, -, hEq⟩ := h
  obtain rfl := Except.ok.inj hEq
  -- what an apply has put where, driver by driver
  cases core with
  | openvpn =>
    obtain ⟨set, hSet, rfl⟩ := map_ok_iff.mp hAdopt
    exact OpenVpn.survives_iff hSet hLive
  | pptp =>
    obtain ⟨rows, hRows, rfl⟩ := map_ok_iff.mp hAdopt
    exact Pptp.survives_iff hRows hLive
  -- the start after the apply may note its binary in the settings
  | singBox =>
    obtain ⟨live, hRendered, rfl⟩ := map_ok_iff.mp hAdopt
    have hNoted : Driver.noted .singBox answers.executable
        { r.driver with document := some document } =
        ⟨SingBox.after r.settings answers.executable, r.kept, some document, r.accounts,
          r.configs⟩ := by
      cases answers.executable <;> rfl
    rw [hNoted] at hLive ⊢
    exact SingBox.survives_iff hRendered hLive
  | softether =>
    obtain ⟨set, hSet, rfl⟩ := map_ok_iff.mp hAdopt
    exact iff_of_true (SoftEther.survives hSet hLive) trivial
  | ssh =>
    obtain ⟨⟨rows, set⟩, hSet, rfl⟩ := map_ok_iff.mp hAdopt
    exact iff_of_true (Ssh.survives hSet rfl (Json.getD_assocSet_self _ _ _) hLive) trivial
  | wireguard =>
    obtain ⟨set, hSet, rfl⟩ := map_ok_iff.mp hAdopt
    exact iff_of_true (WireGuard.survives hSet hLive) trivial
  -- the document that was written is the one the settings' file is compared with
  | xray =>
    obtain ⟨config, hConfig, rfl⟩ := map_ok_iff.mp hAdopt
    refine Iff.trans (Xray.survives_iff rfl hLive) ?_
    constructor
    · exact fun hPath => ⟨config, hConfig, hPath⟩
    · rintro ⟨config', hConfig', hPath⟩
      rwa [Except.ok.inj (hConfig.symm.trans hConfig')]

-- ---------------------------------------------------------------------------
-- Two documents of two rows
-- ---------------------------------------------------------------------------

/-- The only network of a plain host. -/
def plainNetwork (subnet : String) : Except PyErr String :=
  if subnet = "10.77.0.0/24" then .ok subnet
  else .error ⟨.value, "does not appear to be a network"⟩

theorem plainNetwork_again (subnet net : String) (h : plainNetwork subnet = .ok net) :
    net ≠ "" ∧ plainNetwork net = .ok net := by
  unfold plainNetwork at h
  split at h
  · obtain rfl := Except.ok.inj h
    rename_i hNet
    subst hNet
    exact ⟨by decide, rfl⟩
  · cases h

/-- A host whose wizards have no other fields. -/
def plainHost : Host :=
  { lang          := { plainLang with network := plainNetwork }
    network_again := plainNetwork_again
    place         := id
    xrayNative    := .ok
    singBoxFields := fun _ _ => .ok []
    fields_path   := fun _ _ _ => rfl }

/-- A core as the agent builds it from no settings. -/
def newOpenVpn : Running .openvpn :=
  { settings := settle .openvpn (rowsOf ((OpenVpn.storedListeners plainLang
      (defaults .openvpn)).toOption.getD []))
      (Json.merge (defaults .openvpn) [("_runtime_mode", .str "node")])
    kept     := (OpenVpn.taken (defaults .openvpn)).toOption.getD []
    saved    := settle .openvpn (rowsOf ((OpenVpn.storedListeners plainLang
      (defaults .openvpn)).toOption.getD []))
      (Json.merge (defaults .openvpn) [("_runtime_mode", .str "node")])
    recorded := rfl
    node     := rfl
    complete := by decide
    document := none
    accounts := []
    configs  := fun _ => none }

/-- Xray whose settings have been led to another file since it was built. -/
def movedXray : Running .xray :=
  { settings := Json.merge (Json.merge (defaults .xray) [("_runtime_mode", .str "node")])
      [("config_path", .str "/var/lib/zagros/cores/xray/next.json")]
    kept     := Xray.taken plainLang (defaults .xray)
    saved    := Json.merge (Json.merge (defaults .xray) [("_runtime_mode", .str "node")])
      [("config_path", .str "/var/lib/zagros/cores/xray/next.json")]
    recorded := rfl
    node     := rfl
    complete := by decide
    document := none
    accounts := []
    configs  := fun _ => none }

/-- Two listeners for OpenVPN, with ports and networks of their own. -/
def twoTunnels : Settings :=
  [("inbounds", .list
    [.dict [("tag", .str "home"), ("protocol", .str "ovpn"), ("port", .num 1194)],
     .dict [("tag", .str "away"), ("protocol", .str "openvpn"), ("port", .num 1195),
       ("transport", .str "tcp"), ("subnet", .str "10.9.0.0")]])]

/-- Two listeners for Xray, and a way out. -/
def twoProxies : Settings :=
  [("inbounds", .list
    [.dict [("tag", .str "home"), ("protocol", .str "vless"), ("port", .num 443)],
     .dict [("tag", .str "away"), ("protocol", .str "trojan"), ("port", .num 8443)]]),
   ("outbounds", .list [.dict [("tag", .str "DIRECT"), ("protocol", .str "freedom")]])]

/-- OpenVPN has both of its listeners after a restart; Xray has none of its two. -/
theorem two_rows_returned :
    (∃ d, applyStudioDocument plainHost .openvpn ⟨.ok (), none, none⟩ newOpenVpn.driver
        twoTunnels = .ok d ∧
      d.inbounds plainHost .openvpn =
        .ok [⟨.str "home", .str "ovpn", .num 1194⟩, ⟨.str "away", .str "ovpn", .num 1195⟩] ∧
      Survives plainHost coreRootDefault .openvpn "" none [] d) ∧
    ∃ d, applyStudioDocument plainHost .xray ⟨.ok (), none, none⟩ movedXray.driver
        twoProxies = .ok d ∧
      d.inbounds plainHost .xray =
        .ok [⟨.str "home", .str "vless", .num 443⟩, ⟨.str "away", .str "trojan", .num 8443⟩] ∧
      ¬ Survives plainHost coreRootDefault .xray "" none [] d := by
  -- both applies run by computation; what follows from them is the theorem's
  have hTunnels : ∃ d, applyStudioDocument plainHost .openvpn ⟨.ok (), none, none⟩
      newOpenVpn.driver twoTunnels = .ok d ∧ d.inbounds plainHost .openvpn =
        .ok [⟨.str "home", .str "ovpn", .num 1194⟩, ⟨.str "away", .str "ovpn", .num 1195⟩] :=
    ⟨_, rfl, rfl⟩
  have hProxies : ∃ d, applyStudioDocument plainHost .xray ⟨.ok (), none, none⟩
      movedXray.driver twoProxies = .ok d ∧ d.inbounds plainHost .xray =
        .ok [⟨.str "home", .str "vless", .num 443⟩, ⟨.str "away", .str "trojan", .num 8443⟩] :=
    ⟨_, rfl, rfl⟩
  constructor
  · obtain ⟨d, hApplied, hInbounds⟩ := hTunnels
    exact ⟨d, hApplied, hInbounds, (document_survives_iff hApplied).mpr ⟨_, rfl⟩⟩
  · obtain ⟨d, hApplied, hInbounds⟩ := hProxies
    refine ⟨d, hApplied, hInbounds, fun hSurvives => ?_⟩
    obtain ⟨config, hConfig, hSame⟩ := (document_survives_iff hApplied).mp hSurvives
    obtain rfl := Except.ok.inj hConfig
    rcases hSame with hPath | hListed
    · exact absurd hPath (by decide)
    · -- the other file is not there, so nothing is listed from it
      exact absurd ((hListed _).mp List.mem_cons_self) List.not_mem_nil
end ZagrosNode.Drivers
