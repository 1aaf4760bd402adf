import ZagrosNode.Cores.Manager
import ZagrosNode.Lib.Path

/-!
# ZagrosNode — authorizing settings

`_authorize_core` admits settings for a core: their names have to be in the
driver's schema, and an absolute path in them has to stay below the core root.
The check looks at the strings directly in the object, and takes a relative
path as it is, while a process resolves it against its working directory; nor
does it look into lists and objects, which drivers read paths from as well.

A setting is checked by its key and its value. The key has to be in the schema or in the
defaults of the driver; if it says that the value is a path, and the value is an
absolute one, the path is resolved and must be at or below the core root. `PathIn` says
where texts under such keys are in a value of any depth, and `Confined` asks of all of
them what the check asks of some.

* **Relative paths** are resolved against the working directory of the agent, which is
  in `Site`, as a process does that uses the setting. The core root is there too.
* **Nested paths** are the strings in lists and objects under a path key, and those
  under a path key within an object.
* **Links.** Resolving goes through symbolic links (`Lib/Path.lean`), so a path may look
  as if it were below the root and not be. A loop of links is no place.

`SkippedConfined` is the property for the paths the check passes over, and the
equivalence says that these are all that is missing.

Main results:

* `authorize_ok_iff` — what the check admits.
* `confined_iff` — admitted settings are confined exactly if the paths the
  check passes over are.
* `unconfined` — admitted settings that are not.
-/

namespace ZagrosNode.Requests

open ZagrosNode.Lib
open ZagrosNode.Cores (CoreId)

-- ---------------------------------------------------------------------------
-- What drivers take
-- ---------------------------------------------------------------------------

/-- The properties of a driver's `config_schema`. -/
def schemaProperties : CoreId → List String
  | .openvpn   =>
    ["executable_path", "openvpn_version", "work_dir", "listen", "port", "proto", "subnet",
     "netmask", "management_port", "redirect_gateway", "dns_servers", "advertise_host", "topology",
     "cipher", "cipher_fallback", "auth_digest", "compression", "auth_mode", "static_user",
     "static_pass", "extra_directives", "listeners"]
  | .pptp      =>
    ["legacy_risk_ack", "internet_exposure_ack", "work_dir", "executable_path", "module_dir",
     "management_port", "advertise_host", "inbounds"]
  | .singBox   =>
    ["executable_path", "work_dir", "listen", "ports", "advertise_host",
     "allow_loopback_advertise", "ss_method", "final_outbound", "stats_enabled", "stats_api",
     "clash_api", "geoip_db", "geosite_db"]
  | .softether =>
    ["executable_path", "install_root", "server", "hub", "admin_password", "ipsec_psk",
     "native_port", "sstp_port", "ovpn_ports", "secure_nat", "policy_tap_device", "policy_subnet",
     "policy_gateway", "policy_routing_scope", "policy_hubs", "advertise_host"]
  | .ssh       =>
    ["shell", "work_dir", "create_home", "port", "listeners", "advertise_host", "password_auth",
     "pubkey_auth", "max_sessions", "banner", "sftp", "default_password",
     "default_authorized_key"]
  | .wireguard =>
    ["interface", "work_dir", "listen", "port", "subnet", "dns_servers", "advertise_host",
     "allow_loopback_advertise", "mtu", "use_preshared_keys", "online_threshold_seconds",
     "peer_allowed_ips", "peer_keepalive", "enable_nat", "listeners"]
  | .xray      => ["executable_path", "assets_path", "config_path"]

/-- The keys of a driver's `default_settings`. -/
def defaultSettings : CoreId → List String
  | .openvpn   =>
    ["executable_path", "work_dir", "listen", "port", "proto", "subnet", "netmask",
     "management_port", "redirect_gateway", "dns_servers", "advertise_host", "topology", "cipher",
     "cipher_fallback", "auth_digest", "compression", "auth_mode", "static_user", "static_pass",
     "extra_directives", "listeners"]
  | .pptp      =>
    ["legacy_risk_ack", "internet_exposure_ack", "work_dir", "executable_path", "module_dir",
     "management_port", "advertise_host", "inbounds"]
  | .singBox   =>
    ["executable_path", "work_dir", "listen", "ports", "advertise_host",
     "allow_loopback_advertise", "ss_method", "final_outbound", "geoip_db", "geosite_db",
     "stats_enabled", "stats_api", "clash_api", "log_buffer"]
  | .softether =>
    ["executable_path", "install_root", "server", "hub", "admin_password", "ipsec_psk",
     "native_port", "sstp_port", "ovpn_ports", "secure_nat", "policy_tap_device", "policy_subnet",
     "policy_gateway", "policy_routing_scope", "policy_hubs", "feature_tags", "feature_softether",
     "feature_l2tp", "feature_l2tp_raw", "feature_etherip", "feature_sstp", "feature_ovpn",
     "advertise_host"]
  | .ssh       =>
    ["shell", "work_dir", "create_home", "port", "listeners", "advertise_host", "password_auth",
     "pubkey_auth", "max_sessions", "sftp", "default_password", "default_authorized_key"]
  | .wireguard =>
    ["interface", "work_dir", "listen", "port", "subnet", "dns_servers", "advertise_host",
     "allow_loopback_advertise", "mtu", "use_preshared_keys", "online_threshold_seconds",
     "peer_allowed_ips", "peer_keepalive", "enable_nat", "listeners"]
  | .xray      => ["executable_path", "assets_path", "config_path", "cert_dir"]

/-- `allowed` -/
def allowedSettings (core : CoreId) : List String :=
  schemaProperties core ++ defaultSettings core ++ ["release_version"]

-- ---------------------------------------------------------------------------
-- The check
-- ---------------------------------------------------------------------------

/-- What an agent runs on. -/
structure Site where
  fs        : Fs
  /-- `CORE_ROOT` -/
  coreRoot  : List Char
  /-- the core has a driver in this image -/
  available : CoreId → Bool

inductive Refusal
  /-- 403 -/
  | notAllowlisted (core : String)
  /-- 404 -/
  | noDriver (core : CoreId)
  /-- 422 -/
  | notAllowed (core : CoreId) (unknown : List String)
  /-- 422: the setting must remain under the core root -/
  | outside (key : String)
  /-- 500: `resolve` raised -/
  | unresolved
  deriving DecidableEq, Repr

def pathMarkers : List String := ["path", "root", "dir"]

/-- `any(marker in key.lower() for marker in ("path", "root", "dir"))` -/
def isPathKey (key : String) : Bool :=
  pathMarkers.any fun marker => decide (marker.toList <:+: key.toList.map Char.toLower)

/-- One turn of the loop over the settings. -/
def checkSetting (site : Site) (root : List Name) (key : String) : Json → Except Refusal Unit
  | .str value =>
    if isPathKey key && isAbsolute value.toList then
      match site.fs.resolve value.toList with
      | none       => .error .unresolved
      | some place => if Fs.inside root place then .ok () else .error (.outside key)
    else .ok ()
  | _ => .ok ()

def checkSettings (site : Site) (root : List Name) : List (String × Json) → Except Refusal Unit
  | []                   => .ok ()
  | (key, value) :: rest =>
    match checkSetting site root key value with
    | .error e => .error e
    | .ok _    => checkSettings site root rest

/-- The core of a name, if it is in `NODE_CORE_ALLOWLIST`. -/
def allowlisted (name : String) : Option CoreId := CoreId.all.find? fun core => core.name == name

/-- The names that are not in the schema, sorted. -/
def unknownSettings (core : CoreId) (settings : List (String × Json)) : List String :=
  ((settings.map Prod.fst).filter fun key => !(allowedSettings core).contains key).mergeSort
    fun a b => decide (a ≤ b)

/-- `_authorize_core`; no settings are an empty object. -/
def authorizeCore (site : Site) (name : String) (settings : List (String × Json)) :
    Except Refusal Unit :=
  match allowlisted name with
  | none      => .error (.notAllowlisted name)
  | some core =>
    if !site.available core then .error (.noDriver core)
    else if settings.isEmpty then .ok ()
    else if !settings.all fun e => (allowedSettings core).contains e.1 then
      .error (.notAllowed core (unknownSettings core settings))
    else
      match site.fs.resolve site.coreRoot with
      | none      => .error .unresolved
      | some root => checkSettings site root settings

-- ---------------------------------------------------------------------------
-- What is admitted
-- ---------------------------------------------------------------------------

/-- The text denotes a place at or below the core root. -/
def Site.Under (site : Site) (text : String) : Prop :=
  ∃ root place, site.fs.resolve site.coreRoot = some root ∧
    site.fs.resolve text.toList = some place ∧ root <+: place

theorem checkSetting_ok_iff {site : Site} {root : List Name} {key : String} {value : Json} :
    checkSetting site root key value = .ok () ↔
      ∀ text, value = .str text → isPathKey key = true → isAbsolute text.toList = true →
        ∃ place, site.fs.resolve text.toList = some place ∧ root <+: place := by
  cases value with
  | str text =>
    -- a text that is checked: it is resolved, and compared with the root
    by_cases hChecked : (isPathKey key && isAbsolute text.toList) = true
    · simp only [checkSetting, if_pos hChecked]
      rw [Bool.and_eq_true] at hChecked
      cases hResolve : site.fs.resolve text.toList with
      | none =>
        refine iff_of_false (fun h => by cases h) fun h => ?_
        obtain ⟨place, hPlace, -⟩ := h text rfl hChecked.1 hChecked.2
        rw [hResolve] at hPlace
        cases hPlace
      | some place =>
        by_cases hInside : Fs.inside root place = true
        · simp only [if_pos hInside, true_iff]
          rintro other hText - -
          obtain rfl := Json.str.inj hText
          exact ⟨place, hResolve, Fs.inside_iff.mp hInside⟩
        · simp only [if_neg hInside]
          refine iff_of_false (fun h => by cases h) fun h => ?_
          obtain ⟨place', hPlace, hPrefix⟩ := h text rfl hChecked.1 hChecked.2
          rw [hResolve] at hPlace
          obtain rfl := Option.some.inj hPlace
          exact hInside (Fs.inside_iff.mpr hPrefix)
    -- the key names no path, or the path is a relative one
    · simp only [checkSetting, if_neg hChecked]
      refine iff_of_true trivial ?_
      rintro other hText hKey hAbsolute
      obtain rfl := Json.str.inj hText
      rw [hKey, hAbsolute] at hChecked
      exact absurd rfl hChecked
  -- nothing but texts is checked
  | null | bool | num | float | list | dict =>
    exact iff_of_true rfl fun text hText => by cases hText

theorem checkSettings_ok_iff {site : Site} {root : List Name} {settings : List (String × Json)} :
    checkSettings site root settings = .ok () ↔
      ∀ e ∈ settings, checkSetting site root e.1 e.2 = .ok () := by
  induction settings with
  | nil => simp [checkSettings]
  | cons e rest ih =>
    obtain ⟨key, value⟩ := e
    rw [checkSettings, List.forall_mem_cons]
    cases hHead : checkSetting site root key value with
    | error e => simp
    | ok u => simp [ih]

/-- What the whole check admits: settings in the schema, whose absolute paths
directly in the object denote places at or below the core root. -/
theorem authorize_ok_iff {site : Site} {core : CoreId} {settings : List (String × Json)} :
    authorizeCore site core.name settings = .ok () ↔
      site.available core = true ∧ (settings = [] ∨
        (∀ e ∈ settings, e.1 ∈ allowedSettings core) ∧ (site.fs.resolve site.coreRoot).isSome ∧
          ∀ key text, (key, .str text) ∈ settings → isPathKey key = true →
            isAbsolute text.toList = true → site.Under text) := by
  have hCore : allowlisted core.name = some core := by
    cases core <;> decide
  unfold authorizeCore
  rw [hCore]
  simp only
  by_cases hAvailable : site.available core = true
  -- no settings: nothing is resolved, not even the root
  · by_cases hEmpty : settings = []
    · simp [hAvailable, hEmpty]
    · by_cases hAllowed : ∀ e ∈ settings, e.1 ∈ allowedSettings core
      · have hAll : (settings.all fun e => (allowedSettings core).contains e.1) = true := by
          rw [List.all_eq_true]
          exact fun e he => List.contains_iff_mem.mpr (hAllowed e he)
        have hNonempty : settings.isEmpty = false := by
          rwa [Bool.eq_false_iff, ne_eq, List.isEmpty_iff]
        simp only [hAvailable, hNonempty, hAll, Bool.not_true, Bool.false_eq_true, if_false,
          true_and, hEmpty, false_or]
        -- the root is resolved once, and the settings are compared with it
        cases hRoot : site.fs.resolve site.coreRoot with
        | none => simp
        | some root =>
          simp only [Option.isSome_some, true_and]
          rw [checkSettings_ok_iff, and_iff_right hAllowed]
          constructor
          · intro h key text hMem hKey hAbsolute
            have hChecked := h (key, .str text) hMem
            obtain ⟨place, hPlace, hPrefix⟩ :=
              checkSetting_ok_iff.mp hChecked text rfl hKey hAbsolute
            exact ⟨root, place, hRoot, hPlace, hPrefix⟩
          · rintro h ⟨key, value⟩ hMem
            rw [checkSetting_ok_iff]
            rintro text rfl hKey hAbsolute
            obtain ⟨root', place, hRoot', hPlace, hPrefix⟩ := h key text hMem hKey hAbsolute
            rw [hRoot] at hRoot'
            obtain rfl := Option.some.inj hRoot'
            exact ⟨place, hPlace, hPrefix⟩
      -- a name outside the schema: refused before any path is looked at
      · have hAll : (settings.all fun e => (allowedSettings core).contains e.1) = false := by
          rw [Bool.eq_false_iff, ne_eq, List.all_eq_true]
          exact fun hAll => hAllowed fun e he => List.contains_iff_mem.mp (hAll e he)
        have hNonempty : settings.isEmpty = false := by
          rwa [Bool.eq_false_iff, ne_eq, List.isEmpty_iff]
        simp only [hAvailable, hNonempty, hAll, Bool.not_true, Bool.not_false, Bool.false_eq_true,
          if_false, if_true, true_and, hEmpty, false_or]
        exact iff_of_false (fun h => by cases h) fun h => hAllowed h.1
  · simp [hAvailable]

-- ---------------------------------------------------------------------------
-- Confinement
-- ---------------------------------------------------------------------------

/-- The text is somewhere in the value, under a path key; `under` says that the
value itself already is. -/
inductive PathIn : Bool → Json → String → Prop
  | here {text} : PathIn true (.str text) text
  | item {under items item text} (hMem : item ∈ items) (hIn : PathIn under item text) :
      PathIn under (.list items) text
  | member {under entries key value text} (hMem : (key, value) ∈ entries)
      (hIn : PathIn (under || isPathKey key) value text) : PathIn under (.dict entries) text

/-- Every path in the settings, at any depth, denotes a place at or below the
core root. -/
def Confined (site : Site) (settings : List (String × Json)) : Prop :=
  ∀ text, PathIn false (.dict settings) text → site.Under text

/-- So do the paths the check passes over: relative ones, and those in lists
and objects. -/
structure SkippedConfined (site : Site) (settings : List (String × Json)) : Prop where
  relative : ∀ key text, (key, .str text) ∈ settings → isPathKey key = true →
    isAbsolute text.toList = false → site.Under text
  nested   : ∀ key value text, (key, value) ∈ settings → (∀ s, value ≠ .str s) →
    PathIn (isPathKey key) value text → site.Under text

/-- A path in an object is in one of its values. -/
theorem pathIn_dict {settings : List (String × Json)} {text : String} :
    PathIn false (.dict settings) text ↔
      ∃ key value, (key, value) ∈ settings ∧ PathIn (isPathKey key) value text := by
  constructor
  · intro h
    cases h with
    | member hMem hIn =>
      rw [Bool.false_or] at hIn
      exact ⟨_, _, hMem, hIn⟩
  · rintro ⟨key, value, hMem, hIn⟩
    exact .member hMem (by rwa [Bool.false_or])

/--
**Confinement.** Admitted settings have all their paths at or below the core
root exactly if those paths have that are relative or not directly in the
object.
-/
theorem confined_iff (site : Site) (name : String) (settings : List (String × Json))
    (hOk : authorizeCore site name settings = .ok ()) :
    Confined site settings ↔ SkippedConfined site settings := by
  constructor
  · intro h
    refine ⟨fun key text hMem hKey _ => ?_, fun key value text hMem _ hIn => ?_⟩
    · refine h text (pathIn_dict.mpr ⟨key, .str text, hMem, ?_⟩)
      rw [hKey]
      exact .here
    · exact h text (pathIn_dict.mpr ⟨key, value, hMem, hIn⟩)
  · intro h text hPath
    obtain ⟨key, value, hMem, hIn⟩ := pathIn_dict.mp hPath
    cases value with
    | str s =>
      have hHere : isPathKey key = true ∧ s = text := by
        generalize isPathKey key = under at hIn
        cases hIn with
        | here => exact ⟨rfl, rfl⟩
      obtain ⟨hKey, rfl⟩ := hHere
      cases hAbsolute : isAbsolute s.toList with
      | false => exact h.relative key s hMem hKey hAbsolute
      | true =>
        -- the one kind of path that the check looks at
        have hName : ∃ core : CoreId, core.name = name := by
          unfold authorizeCore at hOk
          cases hFound : allowlisted name with
          | none =>
            rw [hFound] at hOk
            cases hOk
          | some core =>
            have hEq := List.find?_some hFound
            exact ⟨core, beq_iff_eq.mp hEq⟩
        obtain ⟨core, rfl⟩ := hName
        rcases (authorize_ok_iff.mp hOk).2 with hEmpty | ⟨-, -, hChecked⟩
        · rw [hEmpty] at hMem
          cases hMem
        · exact hChecked key s hMem hKey hAbsolute
    | null | bool | num | float | list | dict =>
      exact h.nested key _ text hMem (fun s hStr => by cases hStr) hIn

/-- An agent started in `/app`, with the core root of the image and no links. -/
def plainSite : Site :=
  { fs := ⟨["app".toList], fun _ => none, 40, fun _ => none, fun _ => false⟩
    coreRoot := "/var/lib/zagros".toList
    available := fun _ => true }

/-- A relative path that leads back under the core root, and an absolute one in
a listener. -/
def plainSettings : List (String × Json) :=
  [("work_dir", .str "../var/lib/zagros/cores/wireguard"),
    ("listeners", .list [.dict [("_work_dir", .str "/var/lib/zagros/cores/awg")]])]

/--
Settings with a relative path and a nested one, both of which the check passes
over.
-/
theorem confined_iff_plainSettings :
    Confined plainSite plainSettings ↔ SkippedConfined plainSite plainSettings :=
  confined_iff plainSite "wireguard" plainSettings (by decide)

/-- A relative path out of the core root, and an absolute one in a listener. -/
theorem unconfined :
    (authorizeCore plainSite "wireguard" [("work_dir", .str "../etc")] = .ok () ∧
      ¬ Confined plainSite [("work_dir", .str "../etc")]) ∧
    (authorizeCore plainSite "wireguard"
        [("listeners", .list [.dict [("_work_dir", .str "/etc")]])] = .ok () ∧
      ¬ Confined plainSite [("listeners", .list [.dict [("_work_dir", .str "/etc")]])]) := by
  have hEtc : ∀ text ∈ ["../etc", "/etc"], ¬ plainSite.Under text := by
    rintro text hText ⟨root, place, hRoot, hPlace, hPrefix⟩
    have hVar : plainSite.fs.resolve plainSite.coreRoot =
        some ["var".toList, "lib".toList, "zagros".toList] := by
      decide
    have hPlaceEtc : plainSite.fs.resolve text.toList = some ["etc".toList] := by
      rcases List.mem_cons.mp hText with rfl | hRest
      · decide
      · rw [List.mem_singleton.mp hRest]
        decide
    rw [← Option.some.inj (hVar.symm.trans hRoot),
      ← Option.some.inj (hPlaceEtc.symm.trans hPlace)] at hPrefix
    revert hPrefix
    decide
  refine ⟨⟨by decide, fun h => ?_⟩, ⟨by decide, fun h => ?_⟩⟩
  · refine hEtc "../etc" (by decide) (h _ (.member List.mem_cons_self ?_))
    exact .here
  · refine hEtc "/etc" (by decide) (h _ (.member List.mem_cons_self ?_))
    exact .item List.mem_cons_self (.member List.mem_cons_self .here)

end ZagrosNode.Requests
