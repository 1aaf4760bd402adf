import ZagrosNode.Bandwidth.Identities
import ZagrosNode.Startup.Node

/-!
# ZagrosNode — accounts and limits in either order

A push of limits resolves the accounts it lists through the drivers and
installs a rule set. A push of accounts changes what the drivers know of an
account and installs nothing, so what is shaped depends on which of the two
came last.

A rule set is described by what it does: the rates policed for each user, the
traffic marked as a user's, and the rates of the quarantine SoftEther sessions
start in.

The state is `Shaped`: the drivers with their accounts and the rule set installed last.
A push of accounts changes the first part, a push of limits computes the second from the
first. The two orders are compared on the second; they agree on the first anyway.

What a rule set depends on is split. The rates, the names and the SoftEther accounts
come from the pushed limits alone (`bare`), the addresses and uids from the drivers.
`rulesetOf_eq_iff` says that two rule sets with the same bare part are equal exactly if
the limited users have the same traffic. So the theorem's condition mentions limited
users only: an account of a user without a limit may change at will.

The theorem is about pushes that are answered without an error. Where an installation
fails, what is left of the rules before it is up to the host (`leaves`), and nothing can
be said of the orders.

Main results:

* `get?_desired` — the limit of a user is that of the last entry under the
  user's id.
* `order_irrelevant_iff` — both orders leave the same rule set exactly if the
  account push changes no limited user's addresses and uids.
* `accounts_last_unshaped` — an account pushed after the limits is not shaped.
-/

namespace ZagrosNode.Bandwidth

open ZagrosNode.Lib ZagrosNode.Cores ZagrosNode.Security ZagrosNode.Accounts ZagrosNode.Startup Op

-- ---------------------------------------------------------------------------
-- Rule sets
-- ---------------------------------------------------------------------------

/-- The traffic that is marked as one user's. -/
structure Traffic where
  sources : Finset String
  uids    : Finset Int
  deriving DecidableEq

/-- What is installed on the host. -/
@[ext] structure Ruleset where
  /-- upload and download rate of every user with filters -/
  filters    : Int → Option (Int × Int)
  marks      : Int → Option Traffic
  /-- upload and download rate of the SoftEther quarantine, where there is one -/
  quarantine : Option (Option Int × Option Int)

namespace UserLimit

/-- `limited` -/
def limited (limit : UserLimit) : Bool := decide (0 < limit.uploadMbps ∨ 0 < limit.downloadMbps)

def traffic (limit : UserLimit) : Traffic :=
  ⟨limit.innerSources.toFinset, limit.sshUids.toFinset⟩

/-- The limit without its traffic. -/
def bare (limit : UserLimit) : UserLimit := { limit with innerSources := [], sshUids := [] }

end UserLimit

/-- `soft`: the limited users with SoftEther accounts. -/
def softLimits (rules : List UserLimit) : List UserLimit :=
  rules.filter fun limit => limit.limited && !limit.softetherAccounts.isEmpty

/-- `filter_users`: the limited users, and with SoftEther guarded also the
users with SoftEther accounts. -/
def filtered (rules : List UserLimit) (limit : UserLimit) : Bool :=
  limit.limited || (!(softLimits rules).isEmpty && !limit.softetherAccounts.isEmpty)

/-- `_install_softether_quarantine` -/
def quarantineOf (rules : List UserLimit) : Option (Option Int × Option Int) :=
  let soft := softLimits rules
  if soft.isEmpty then none
  else
    let rates (rate : UserLimit → Int) := ((soft.map rate).filter (· ≠ 0)).min?
    some (rates UserLimit.uploadMbps, rates UserLimit.downloadMbps)

/-- What `reconcile` installs. -/
def rulesetOf (rules : Dict Int UserLimit) : Ruleset where
  filters userId :=
    ((rules.get? userId).filter (filtered rules.values)).map fun limit =>
      (limit.uploadMbps, limit.downloadMbps)
  marks userId := ((rules.get? userId).filter UserLimit.limited).map UserLimit.traffic
  quarantine := quarantineOf rules.values

-- ---------------------------------------------------------------------------
-- The two requests
-- ---------------------------------------------------------------------------

/-- The host as the limiter of the node meets it. -/
structure Shaper extends Resolver where
  construct : Except String Unit
  install   : Dict Int UserLimit → Except String Nat
  /-- what an installation that fails leaves of the rule set there was -/
  leaves    : Ruleset → Ruleset

/-- The core of a name. -/
def coreNamed (name : String) : Option CoreId :=
  CoreId.all.find? fun core => decide (core.name = name)

def drivers (n : Startup.Node) : CoreId → Option Driver := fun core => (n.cores core).map Core.driver

/-- `_identities` of a core that may not be installed. -/
def reported (p : Platform) (r : Resolver) (core : CoreId) : Option Driver → Dict String Identity
  | some d => identities p r core d
  | none   => Dict.empty

/-- The limiter's view of the drivers. -/
def kernelOf (p : Platform) (shaper : Shaper) (drivers : CoreId → Option Driver) : Kernel where
  identities name :=
    match coreNamed name with
    | some core => reported p shaper.toResolver core (drivers core)
    | none      => Dict.empty
  address := shaper.address
  construct := shaper.construct
  install := shaper.install

/-- A node with what is installed on its host. -/
structure Shaped where
  node  : Startup.Node
  rules : Ruleset

structure LimitsPush where
  limits   : Limits
  writable : Bool

/-- `PUT /v1/cores/{core_id}/accounts` -/
def pushAccounts (p : Platform) (s : Shaped) (core : CoreId) (push : Accounts.Push) :
    Shaped × Except Failure Unit :=
  let (node, answer) := putAccounts p s.node core push
  ({ s with node := node }, answer)

/-- The rule set after `reconcile`. -/
def installed (p : Platform) (shaper : Shaper) (k : Kernel) (limits : Limits) (old : Ruleset) :
    Ruleset :=
  match reconcile p k limits, desired p k limits with
  | .ok _, .ok rules => rulesetOf rules
  | _, _             => shaper.leaves old

/-- `PUT /v1/bandwidth/limits` -/
def pushLimits (p : Platform) (shaper : Shaper) (s : Shaped) (push : LimitsPush) :
    Shaped × Except Failure Unit :=
  let k := kernelOf p shaper (drivers s.node)
  let (node, answer) := putLimits p s.node push.limits k push.writable
  (⟨node, installed p shaper k push.limits s.rules⟩, answer)

-- ---------------------------------------------------------------------------
-- What a limit says
-- ---------------------------------------------------------------------------

/-- The accounts of one core that an entry lists. -/
def namedIn (p : Platform) : Json → List String
  | .list ids => ids.map p.str
  | _         => []

/-- The accounts an entry lists, each with its core. -/
def listedAccounts (p : Platform) (spec : Raw) : List (String × String) :=
  match accountsOf spec with
  | .dict cores => cores.flatMap fun e => (namedIn p e.2).map fun id => (e.1, id)
  | _           => []

def Kernel.identity? (k : Kernel) (account : String × String) : Option Identity :=
  (k.identities account.1).get? account.2

def Kernel.sourcesOf (k : Kernel) (account : String × String) : List String :=
  ((k.identity? account).map fun identity => identity.innerSources.filterMap k.address).getD []

def Kernel.uidsOf (k : Kernel) (account : String × String) : List Int :=
  ((k.identity? account).map Identity.uids).getD []

/-- The traffic of the accounts an entry lists. -/
def trafficOf (p : Platform) (k : Kernel) (spec : Raw) : Traffic where
  sources := ((listedAccounts p spec).flatMap k.sourcesOf).toFinset
  uids := ((listedAccounts p spec).flatMap k.uidsOf).toFinset

/-- One of the rates of the entry is positive. -/
def limitsUser (spec : Raw) : Bool :=
  match rate spec "upload_mbps", rate spec "download_mbps" with
  | .ok upload, .ok download => decide (0 < upload ∨ 0 < download)
  | _, _                     => false

/-- The last entry under an id. -/
def entryFor (userId : Int) : Limits → Option (String × Raw)
  | []           => none
  | (rawId, v) :: rest =>
    (entryFor userId rest).or
      (match v, intOfStr rawId with
      | .dict spec, .ok n => if n = userId then some (rawId, spec) else none
      | _, _              => none)

section Limits

variable (p : Platform) (k : Kernel)

/-- One account of an entry joins the limit. -/
def addAccount (core : String) (limit : UserLimit) (id : Json) : UserLimit :=
  match k.identity? (core, p.str id) with
  | some identity => limit.addIdentity k identity
  | none          => limit

/-- The accounts of SoftEther are listed by name as well. -/
def withNamed (core : String) (limit : UserLimit) (ids : List Json) : UserLimit :=
  if core = "softether" then
    { limit with softetherAccounts := limit.softetherAccounts ++ ids.map p.str }
  else limit

theorem addAccounts_list (limit : UserLimit) (core : String) (ids : List Json) :
    limit.addAccounts p k core (.list ids) =
      ids.foldl (addAccount p k core) (withNamed p core limit ids) := rfl

theorem foldl_addAccount (core : String) (ids : List Json) (limit : UserLimit) :
    ids.foldl (addAccount p k core) limit =
      { limit with
        innerSources := limit.innerSources ++
          (ids.map p.str).flatMap fun id => k.sourcesOf (core, id)
        sshUids := limit.sshUids ++ (ids.map p.str).flatMap fun id => k.uidsOf (core, id) } := by
  induction ids generalizing limit with
  | nil =>
    show limit = { limit with
      innerSources := limit.innerSources ++ [], sshUids := limit.sshUids ++ [] }
    rw [List.append_nil, List.append_nil]
  | cons id rest ih =>
    rw [List.foldl_cons, ih, List.map_cons, List.flatMap_cons, List.flatMap_cons]
    unfold addAccount Kernel.sourcesOf Kernel.uidsOf
    cases k.identity? (core, p.str id) with
    | none => rfl
    | some identity =>
      simp only [UserLimit.addIdentity, Option.map_some, Option.getD_some, List.append_assoc]

/-- The accounts of one core join a limit with their traffic. -/
theorem addAccounts_eq (limit : UserLimit) (core : String) (v : Json) :
    limit.addAccounts p k core v =
      { limit with
        innerSources := limit.innerSources ++
          (namedIn p v).flatMap fun id => k.sourcesOf (core, id)
        sshUids := limit.sshUids ++ (namedIn p v).flatMap fun id => k.uidsOf (core, id)
        softetherAccounts :=
          limit.softetherAccounts ++ if core = "softether" then namedIn p v else [] } := by
  have hSame : limit = { limit with
      innerSources := limit.innerSources ++ [], sshUids := limit.sshUids ++ []
      softetherAccounts :=
        limit.softetherAccounts ++ if core = "softether" then [] else [] } := by
    rw [ite_self, List.append_nil, List.append_nil, List.append_nil]
  cases v with
  | list ids =>
    rw [addAccounts_list, foldl_addAccount, withNamed]
    split
    · rfl
    · rw [List.append_nil]
      rfl
  | _ => exact hSame

/-- The SoftEther accounts an entry lists. -/
def softNamed (cores : Raw) : List String :=
  cores.flatMap fun e => if e.1 = "softether" then namedIn p e.2 else []

/-- The accounts of all cores. -/
theorem foldl_addAccounts (cores : Raw) (limit : UserLimit) :
    cores.foldl (fun limit e => limit.addAccounts p k e.1 e.2) limit =
      { limit with
        innerSources := limit.innerSources ++
          (cores.flatMap fun e => (namedIn p e.2).map fun id => (e.1, id)).flatMap k.sourcesOf
        sshUids := limit.sshUids ++
          (cores.flatMap fun e => (namedIn p e.2).map fun id => (e.1, id)).flatMap k.uidsOf
        softetherAccounts := limit.softetherAccounts ++ softNamed p cores } := by
  induction cores generalizing limit with
  | nil =>
    show limit = { limit with
      innerSources := limit.innerSources ++ [], sshUids := limit.sshUids ++ []
      softetherAccounts := limit.softetherAccounts ++ [] }
    rw [List.append_nil, List.append_nil, List.append_nil]
  | cons e rest ih =>
    rw [List.foldl_cons, ih, addAccounts_eq]
    simp only [softNamed, List.flatMap_cons, List.flatMap_append, List.flatMap_map,
      List.append_assoc]

/--
**The limit of an entry.** Its traffic is that of the accounts the entry lists,
as the drivers know them, and it limits if one of its rates is above nought.
-/
theorem userLimit_ok {rawId : String} {userId : Int} {spec : Raw} {limit : UserLimit}
    (h : userLimit p k rawId userId spec = .ok limit) :
    limit.traffic = trafficOf p k spec ∧ limit.limited = limitsUser spec := by
  unfold userLimit at h
  unfold limitsUser trafficOf listedAccounts
  cases hUpload : rate spec "upload_mbps" with
  | error e =>
    rw [hUpload] at h
    cases h
  | ok upload =>
    cases hDownload : rate spec "download_mbps" with
    | error e =>
      rw [hUpload, hDownload] at h
      cases h
    | ok download =>
      rw [hUpload, hDownload] at h
      cases hAccounts : accountsOf spec with
      -- every account is folded in, and the traffic is what the fold has gathered
      | dict cores =>
        simp only [hAccounts, bind, Except.bind, foldl_addAccounts, List.nil_append] at h
        obtain rfl := Except.ok.inj h
        refine ⟨rfl, ?_⟩
        simp [UserLimit.limited]
      | _ =>
        simp only [hAccounts, bind, Except.bind] at h
        cases h

/-- Apart from its traffic the limit does not depend on the drivers. -/
theorem userLimit_bare {k k' : Kernel} {rawId : String} {userId : Int} {spec : Raw}
    {limit limit' : UserLimit} (h : userLimit p k rawId userId spec = .ok limit)
    (h' : userLimit p k' rawId userId spec = .ok limit') : limit'.bare = limit.bare := by
  unfold userLimit at h h'
  cases hUpload : rate spec "upload_mbps" with
  | error e =>
    rw [hUpload] at h
    cases h
  | ok upload =>
    cases hDownload : rate spec "download_mbps" with
    | error e =>
      rw [hUpload, hDownload] at h
      cases h
    | ok download =>
      rw [hUpload, hDownload] at h h'
      cases hAccounts : accountsOf spec with
      | dict cores =>
        simp only [hAccounts, bind, Except.bind, foldl_addAccounts] at h h'
        rw [← Except.ok.inj h, ← Except.ok.inj h']
        rfl
      | _ =>
        simp only [hAccounts, bind, Except.bind] at h
        cases h

-- ---------------------------------------------------------------------------
-- The desired rule set
-- ---------------------------------------------------------------------------

/-- What one round of the loop does. -/
theorem addLimit_ok {rules rules' : Dict Int UserLimit} {e : String × Json}
    (h : addLimit p k rules e = .ok rules') :
    (rules' = rules ∧ ∀ userId, entryFor userId [e] = none) ∨
      ∃ userId spec limit, userLimit p k e.1 userId spec = .ok limit ∧
        rules' = rules.set userId limit ∧
        ∀ other, entryFor other [e] = if userId = other then some (e.1, spec) else none := by
  obtain ⟨rawId, v⟩ := e
  unfold addLimit at h
  split at h
  · rename_i spec userId hSpec hId
    simp only at hSpec hId
    subst hSpec
    simp only [entryFor, Option.none_or, hId]
    cases hLimit : userLimit p k rawId userId spec with
    | error e =>
      rw [hLimit] at h
      cases h
    | ok limit =>
      rw [hLimit] at h
      obtain rfl := Except.ok.inj h
      exact Or.inr ⟨userId, spec, limit, hLimit, rfl, fun other => rfl⟩
  · obtain rfl := Except.ok.inj h
    exact Or.inl ⟨rfl, fun userId => by simp only [entryFor, Option.none_or]⟩

theorem entryFor_cons (userId : Int) (e : String × Json) (rest : Limits) :
    entryFor userId (e :: rest) = (entryFor userId rest).or (entryFor userId [e]) := by
  simp only [entryFor, Option.none_or]

/--
**The limit of a user** is that of the last entry under the user's id. Two
entries have one id if their keys are read as one number, as `"7"` and `"07"`
are; the earlier one leaves no trace but its place in the order.
-/
theorem get?_desired {limits : Limits} {rules : Dict Int UserLimit}
    (h : desired p k limits = .ok rules) (userId : Int) :
    (entryFor userId limits = none ∧ rules.get? userId = none) ∨
      ∃ e limit, entryFor userId limits = some e ∧ rules.get? userId = some limit ∧
        userLimit p k e.1 userId e.2 = .ok limit := by
  have hFold : ∀ (limits : Limits) (before after : Dict Int UserLimit),
      limits.foldlM (addLimit p k) before = .ok after →
        (entryFor userId limits = none ∧ after.get? userId = before.get? userId) ∨
          ∃ e limit, entryFor userId limits = some e ∧ after.get? userId = some limit ∧
            userLimit p k e.1 userId e.2 = .ok limit := by
    intro limits
    -- on the entries; a later entry under the same id overrides this one
    induction limits with
    | nil =>
      intro before after hRun
      obtain rfl := Except.ok.inj hRun
      exact Or.inl ⟨rfl, rfl⟩
    | cons e rest ih =>
      intro before after hRun
      rw [List.foldlM_cons] at hRun
      rw [entryFor_cons]
      cases hHead : addLimit p k before e with
      | error err =>
        rw [hHead] at hRun
        cases hRun
      | ok next =>
        rw [hHead] at hRun
        rcases ih next after hRun with ⟨hNone, hGet⟩ | ⟨last, limit, hLast, hGet, hLimit⟩
        · rw [hNone, Option.none_or, hGet]
          rcases addLimit_ok p k hHead with ⟨rfl, hSkip⟩ | ⟨own, spec, limit, hLimit, rfl, hOwn⟩
          · exact Or.inl ⟨hSkip userId, rfl⟩
          · rw [hOwn, Dict.get?_set]
            by_cases hId : own = userId
            · subst hId
              exact Or.inr ⟨(e.1, spec), limit, if_pos rfl, if_pos rfl, hLimit⟩
            · exact Or.inl ⟨if_neg hId, if_neg hId⟩
        · exact Or.inr ⟨last, limit, by rw [hLast]; rfl, hGet, hLimit⟩
  exact hFold limits Dict.empty rules h

/-- The entries of a rule set without their traffic. -/
def bareEntries (rules : Dict Int UserLimit) : List (Int × UserLimit) :=
  rules.entries.map fun e => (e.1, e.2.bare)

/-- Apart from the traffic the desired rule set does not depend on the drivers. -/
theorem desired_bare {k k' : Kernel} {limits : Limits} {rules rules' : Dict Int UserLimit}
    (h : desired p k limits = .ok rules) (h' : desired p k' limits = .ok rules') :
    bareEntries rules' = bareEntries rules := by
  have hFold : ∀ (limits : Limits) (before before' after after' : Dict Int UserLimit),
      bareEntries before' = bareEntries before →
        limits.foldlM (addLimit p k) before = .ok after →
          limits.foldlM (addLimit p k') before' = .ok after' →
            bareEntries after' = bareEntries after := by
    intro limits
    -- both folds run over the same entries, and an entry is skipped in both or in neither
    induction limits with
    | nil =>
      intro before before' after after' hBefore hRun hRun'
      rw [← Except.ok.inj hRun, ← Except.ok.inj hRun']
      exact hBefore
    | cons e rest ih =>
      intro before before' after after' hBefore hRun hRun'
      rw [List.foldlM_cons] at hRun hRun'
      cases hHead : addLimit p k before e with
      | error err =>
        rw [hHead] at hRun
        cases hRun
      | ok next =>
        cases hHead' : addLimit p k' before' e with
        | error err =>
          rw [hHead'] at hRun'
          cases hRun'
        | ok next' =>
          rw [hHead] at hRun
          rw [hHead'] at hRun'
          refine ih next next' after after' ?_ hRun hRun'
          obtain ⟨rawId, v⟩ := e
          unfold addLimit at hHead hHead'
          split at hHead
          · rename_i spec userId hSpec hId
            simp only at hSpec hId
            subst hSpec
            simp only [hId] at hHead'
            cases hLimit : userLimit p k rawId userId spec with
            | error err =>
              rw [hLimit] at hHead
              cases hHead
            | ok limit =>
              cases hLimit' : userLimit p k' rawId userId spec with
              | error err =>
                rw [hLimit'] at hHead'
                cases hHead'
              | ok limit' =>
                rw [hLimit] at hHead
                rw [hLimit'] at hHead'
                obtain rfl := Except.ok.inj hHead
                obtain rfl := Except.ok.inj hHead'
                show (assocSet userId limit' before'.entries).map _ =
                  (assocSet userId limit before.entries).map _
                rw [assocSet_mapValues UserLimit.bare, assocSet_mapValues UserLimit.bare,
                  userLimit_bare p hLimit hLimit']
                exact congrArg (assocSet userId limit.bare) hBefore
          · split at hHead'
            · rename_i hNone _ _ spec userId hSpec hId
              exact absurd hId (hNone spec userId hSpec)
            · obtain rfl := Except.ok.inj hHead
              obtain rfl := Except.ok.inj hHead'
              exact hBefore
  exact hFold limits Dict.empty Dict.empty rules rules' rfl h h'

end Limits

-- ---------------------------------------------------------------------------
-- Equal rule sets
-- ---------------------------------------------------------------------------

section Rulesets

variable {rules rules' : Dict Int UserLimit}

theorem softLimits_bare (limits : List UserLimit) :
    softLimits (limits.map UserLimit.bare) = (softLimits limits).map UserLimit.bare :=
  List.filter_map

theorem filtered_bare (limits : List UserLimit) (limit : UserLimit) :
    filtered (limits.map UserLimit.bare) limit.bare = filtered limits limit := by
  rw [filtered, filtered, softLimits_bare, List.isEmpty_map]
  rfl

theorem quarantineOf_bare (limits : List UserLimit) :
    quarantineOf (limits.map UserLimit.bare) = quarantineOf limits := by
  simp only [quarantineOf, softLimits_bare, List.isEmpty_map, List.map_map]
  rfl

theorem values_bare (hBare : bareEntries rules' = bareEntries rules) :
    rules'.values.map UserLimit.bare = rules.values.map UserLimit.bare := by
  have hValues := congrArg (List.map Prod.snd) hBare
  unfold bareEntries at hValues
  rw [List.map_map, List.map_map] at hValues
  rw [Dict.values, Dict.values, List.map_map, List.map_map]
  exact hValues

theorem get?_bare (hBare : bareEntries rules' = bareEntries rules) (userId : Int) :
    (rules'.get? userId).map UserLimit.bare = (rules.get? userId).map UserLimit.bare := by
  have hEntries : ∀ rules : Dict Int UserLimit,
      assocGet? userId (bareEntries rules) = (rules.get? userId).map UserLimit.bare :=
    fun rules => assocGet?_mapValues (fun e : Int × UserLimit => e.2.bare) userId rules.entries
  rw [← hEntries, hBare, hEntries]

/-- What a limit says apart from its traffic. -/
theorem of_bare_eq {limit limit' : UserLimit} (h : limit'.bare = limit.bare) :
    limit'.limited = limit.limited ∧ limit'.uploadMbps = limit.uploadMbps ∧
      limit'.downloadMbps = limit.downloadMbps :=
  ⟨(congrArg UserLimit.limited h :), (congrArg UserLimit.uploadMbps h :),
    (congrArg UserLimit.downloadMbps h :)⟩

/-- Two rule sets that differ in traffic only are installed alike exactly if
every limited user has the same traffic. -/
theorem rulesetOf_eq_iff (hBare : bareEntries rules' = bareEntries rules) :
    rulesetOf rules' = rulesetOf rules ↔
      ∀ userId limit limit', rules.get? userId = some limit → rules'.get? userId = some limit' →
        limit.limited = true → limit'.traffic = limit.traffic := by
  have hValues := values_bare hBare
  -- the quarantine and the filters are made of rates alone
  have hQuarantine : quarantineOf rules'.values = quarantineOf rules.values := by
    rw [← quarantineOf_bare, hValues, quarantineOf_bare]
  have hFiltered : ∀ {limit limit' : UserLimit}, limit'.bare = limit.bare →
      filtered rules'.values limit' = filtered rules.values limit := by
    intro limit limit' hSame
    rw [← filtered_bare, hValues, hSame, filtered_bare]
  -- the two sets list the same users
  have hBoth : ∀ userId, (rules.get? userId = none ∧ rules'.get? userId = none) ∨
      ∃ limit limit', rules.get? userId = some limit ∧ rules'.get? userId = some limit' ∧
        limit'.bare = limit.bare := by
    intro userId
    have hGet := get?_bare hBare userId
    cases hOld : rules.get? userId with
    | none =>
      rw [hOld] at hGet
      exact Or.inl ⟨rfl, Option.map_eq_none_iff.mp hGet⟩
    | some limit =>
      rw [hOld] at hGet
      obtain ⟨limit', hNew, hSame⟩ := Option.map_eq_some_iff.mp hGet
      exact Or.inr ⟨limit, limit', rfl, hNew, hSame⟩
  constructor
  · intro hEq userId limit limit' hOld hNew hLimited
    have hMarks := congrFun (congrArg Ruleset.marks hEq) userId
    have hSame : limit'.bare = limit.bare := by
      have hGet := get?_bare hBare userId
      rw [hOld, hNew] at hGet
      exact Option.some.inj hGet
    have hLimited' := (of_bare_eq hSame).1.trans hLimited
    simp only [rulesetOf, hOld, hNew, Option.filter_some, hLimited, hLimited', if_true,
      Option.map_some, Option.some.injEq] at hMarks
    exact hMarks
  · intro hTraffic
    refine Ruleset.ext (funext fun userId => ?_) (funext fun userId => ?_) hQuarantine
    all_goals rcases hBoth userId with ⟨hOld, hNew⟩ | ⟨limit, limit', hOld, hNew, hSame⟩
    · simp only [rulesetOf, hOld, hNew, Option.filter_none, Option.map_none]
    -- the filters of a user in both sets
    · obtain ⟨-, hUp, hDown⟩ := of_bare_eq hSame
      simp only [rulesetOf, hOld, hNew, Option.filter_some, hFiltered hSame]
      split
      · rw [Option.map_some, Option.map_some, hUp, hDown]
      · rfl
    · simp only [rulesetOf, hOld, hNew, Option.filter_none, Option.map_none]
    · simp only [rulesetOf, hOld, hNew, Option.filter_some, (of_bare_eq hSame).1]
      split
      · rename_i hIs
        rw [Option.map_some, Option.map_some, hTraffic userId limit limit' hOld hNew hIs]
      · rfl

end Rulesets

-- ---------------------------------------------------------------------------
-- The two orders
-- ---------------------------------------------------------------------------

section Orders

variable (p : Platform) (shaper : Shaper)

/-- The accounts of a push; a push that is not decoded has none. -/
def pushed (push : Accounts.Push) : List UserAccount :=
  match decodeAll p push.accounts with
  | .ok accounts => accounts
  | .error _     => []

/-- The drivers with the pushed accounts filed by their core. -/
def withPush (drivers : CoreId → Option Driver) (core : CoreId) (push : Accounts.Push) :
    CoreId → Option Driver :=
  Function.update drivers core
    ((drivers core).map (settled p push.host core (pushed p push)))

/-- Traffic depends on the identities the drivers report. -/
theorem trafficOf_congr {k k' : Kernel} (hAddress : k'.address = k.address)
    (hSame : ∀ name id, (k'.identities name).get? id = (k.identities name).get? id) (spec : Raw) :
    trafficOf p k' spec = trafficOf p k spec := by
  have hSources : k'.sourcesOf = k.sourcesOf := by
    funext account
    rw [Kernel.sourcesOf, Kernel.sourcesOf, Kernel.identity?, Kernel.identity?, hSame, hAddress]
  have hUids : k'.uidsOf = k.uidsOf := by
    funext account
    rw [Kernel.uidsOf, Kernel.uidsOf, Kernel.identity?, Kernel.identity?, hSame]
  rw [trafficOf, trafficOf, hSources, hUids]

/-- What a push that succeeds does to the drivers. -/
theorem pushAccounts_drivers {s : Shaped} {core : CoreId} {push : Accounts.Push}
    (hOk : (pushAccounts p s core push).2 = .ok ()) :
    ∃ d d', drivers s.node core = some d ∧
      (syncAccounts p push.host (pushed p push) core).run d = (.ok (), d') ∧
        drivers (pushAccounts p s core push).1.node =
          Function.update (drivers s.node) core (some d') := by
  unfold pushAccounts putAccounts at hOk ⊢
  -- a core that is not installed, or a list that is not decoded, answers with an error
  cases hCore : s.node.cores core with
  | none =>
    rw [hCore] at hOk
    cases hOk
  | some c =>
    have hDriver : drivers s.node core = some c.driver := by
      rw [drivers, hCore]
      rfl
    simp only [hCore, coreAccounts] at hOk ⊢
    unfold pushed
    cases hDecoded : decodeAll p push.accounts with
    | error e =>
      rw [hDecoded] at hOk
      cases hOk
    | ok accounts =>
      cases hRun : (syncAccounts p push.host accounts core).run c.driver with
      | mk result d' =>
        simp only [hDecoded, hRun] at hOk ⊢
        cases result with
        | error e => cases hOk
        | ok u =>
          -- the snapshot that is stored afterwards leaves the drivers as they are
          refine ⟨c.driver, d', hDriver, hRun, funext fun other => ?_⟩
          show ((Function.update s.node.cores core (some _)) other).map Core.driver = _
          by_cases hOther : other = core
          · subst hOther
            rw [Function.update_self, Function.update_self]
            rfl
          · rw [Function.update_of_ne hOther, Function.update_of_ne hOther]
            rfl

/-- After a push that succeeds the drivers report what they would report with
the pushed accounts filed. -/
theorem pushAccounts_traffic {s : Shaped} {core : CoreId} {push : Accounts.Push}
    (hOk : (pushAccounts p s core push).2 = .ok ()) (spec : Raw) :
    trafficOf p (kernelOf p shaper (drivers (pushAccounts p s core push).1.node)) spec =
      trafficOf p (kernelOf p shaper (withPush p (drivers s.node) core push)) spec := by
  obtain ⟨d, d', hDriver, hRun, hDrivers⟩ := pushAccounts_drivers p hOk
  rw [hDrivers]
  have hSame : ∀ name id,
      ((kernelOf p shaper (Function.update (drivers s.node) core (some d'))).identities name).get?
          id =
        ((kernelOf p shaper (withPush p (drivers s.node) core push)).identities name).get? id := by
    intro name id
    simp only [kernelOf]
    cases coreNamed name with
    | none => rfl
    | some other =>
      simp only
      by_cases hOther : other = core
      · subst hOther
        rw [withPush, Function.update_self, Function.update_self, hDriver]
        exact sync_identities p shaper.toResolver other push.host (pushed p push) d () d' hRun id
      · rw [withPush, Function.update_of_ne hOther, Function.update_of_ne hOther]
  refine trafficOf_congr p ?_ hSame spec
  rfl

/-- A push of limits leaves the drivers alone. -/
theorem pushLimits_cores (s : Shaped) (push : LimitsPush) :
    (pushLimits p shaper s push).1.node.cores = s.node.cores := by
  unfold pushLimits putLimits
  simp only
  split <;> rfl

/-- A push of limits that succeeds installs the rule set it makes. -/
theorem pushLimits_ok {s : Shaped} {push : LimitsPush}
    (hOk : (pushLimits p shaper s push).2 = .ok ()) :
    ∃ rules, desired p (kernelOf p shaper (drivers s.node)) push.limits = .ok rules ∧
      (pushLimits p shaper s push).1.rules = rulesetOf rules := by
  unfold pushLimits putLimits apply installed at hOk ⊢
  generalize kernelOf p shaper (drivers s.node) = k at hOk ⊢
  simp only at hOk ⊢
  -- a pass that fails is answered with its text, or raises while the users are counted
  cases hReconcile : reconcile p k push.limits with
  | error text =>
    rw [hReconcile] at hOk
    cases hCount : limitedCount push.limits with
    | error e =>
      rw [hCount] at hOk
      cases hOk
    | ok count =>
      rw [hCount] at hOk
      cases hOk
  | ok users =>
    unfold reconcile at hReconcile
    cases hDesired : desired p k push.limits with
    | error e =>
      rw [hDesired] at hReconcile
      cases hConstruct : k.construct with
      | error text =>
        rw [hConstruct] at hReconcile
        cases hReconcile
      | ok u =>
        rw [hConstruct] at hReconcile
        cases hReconcile
    | ok rules => exact ⟨rules, rfl, rfl⟩

/--
**Either order.** A push of accounts and a push of limits that succeed in both
orders leave the same rule set **if and only if** every user the limits limit
has, by the accounts listed for it, the same addresses and uids in the drivers
as they were and in the drivers with the pushed accounts filed.
-/
theorem order_irrelevant_iff (s : Shaped) (core : CoreId) (accounts : Accounts.Push)
    (limits : LimitsPush)
    (hAccounts : (pushAccounts p s core accounts).2 = .ok ())
    (hThenLimits : (pushLimits p shaper (pushAccounts p s core accounts).1 limits).2 = .ok ())
    (hLimits : (pushLimits p shaper s limits).2 = .ok ()) :
    (pushLimits p shaper (pushAccounts p s core accounts).1 limits).1.rules =
        (pushAccounts p (pushLimits p shaper s limits).1 core accounts).1.rules ↔
      ∀ userId rawId spec, entryFor userId limits.limits = some (rawId, spec) →
        limitsUser spec = true →
          trafficOf p (kernelOf p shaper (withPush p (drivers s.node) core accounts)) spec =
            trafficOf p (kernelOf p shaper (drivers s.node)) spec := by
  obtain ⟨rules, hDesired, hRules⟩ := pushLimits_ok p shaper hLimits
  obtain ⟨rules', hDesired', hRules'⟩ := pushLimits_ok p shaper hThenLimits
  -- the accounts that come last change no rule
  have hKept : (pushAccounts p (pushLimits p shaper s limits).1 core accounts).1.rules =
      rulesetOf rules := hRules
  rw [hKept, hRules', rulesetOf_eq_iff (desired_bare p hDesired hDesired')]
  constructor
  · intro hTraffic userId rawId spec hEntry hLimited
    rcases get?_desired p _ hDesired userId with ⟨hNone, -⟩ | ⟨e, limit, hSome, hGet, hLimit⟩
    · rw [hEntry] at hNone
      cases hNone
    · rw [hEntry] at hSome
      obtain rfl := Option.some.inj hSome
      rcases get?_desired p _ hDesired' userId with
        ⟨hNone, -⟩ | ⟨e', limit', hSome', hGet', hLimit'⟩
      · rw [hEntry] at hNone
        cases hNone
      · rw [hEntry] at hSome'
        obtain rfl := Option.some.inj hSome'
        obtain ⟨hOwn, hIs⟩ := userLimit_ok p _ hLimit
        have hSame := hTraffic userId limit limit' hGet hGet' (hIs.trans hLimited)
        rw [← pushAccounts_traffic p shaper hAccounts, ← (userLimit_ok p _ hLimit').1, hSame, hOwn]
  · intro hSame userId limit limit' hGet hGet' hLimited
    rcases get?_desired p _ hDesired userId with ⟨-, hNone⟩ | ⟨e, found, hEntry, hFound, hLimit⟩
    · rw [hGet] at hNone
      cases hNone
    · rcases get?_desired p _ hDesired' userId with
        ⟨-, hNone⟩ | ⟨e', found', hEntry', hFound', hLimit'⟩
      · rw [hGet'] at hNone
        cases hNone
      · rw [hGet] at hFound
        rw [hGet'] at hFound'
        obtain rfl := Option.some.inj hFound
        obtain rfl := Option.some.inj hFound'
        rw [hEntry] at hEntry'
        obtain rfl := Option.some.inj hEntry'
        obtain ⟨hOwn, hIs⟩ := userLimit_ok p _ hLimit
        rw [(userLimit_ok p _ hLimit').1, hOwn, pushAccounts_traffic p shaper hAccounts]
        exact hSame userId e.1 e.2 hEntry (hIs.symm.trans hLimited)

end Orders

-- ---------------------------------------------------------------------------
-- An account that comes after the limits
-- ---------------------------------------------------------------------------

/-- Addresses are written plainly, and every rule set is taken. -/
def plainShaper : Shaper where
  address   := some
  uid _     := 0
  construct := .ok ()
  install _ := .ok 0
  leaves    := id

/-- A node with a PPTP core that lists no account, and no rules. -/
def pptpNode : Shaped where
  node := install Node.fresh .pptp ⟨[], Roster.empty, [], ⟨[], List.nodup_nil⟩⟩
  rules := ⟨fun _ => none, fun _ => none, none⟩

/-- An account that brings its address. -/
def addressedPush : Accounts.Push where
  accounts := [[("user_id", .num 7), ("username", .str "seven"), ("account_id", .str "a"),
    ("protocol", .str "pptp"), ("settings", .dict [("assigned_ipv4", .str "10.0.0.2")])]]
  replace := true
  host := willingHost
  writable := true

/-- A limit of the user who owns it. -/
def sevenLimited : LimitsPush where
  limits := [("7", .dict [("upload_mbps", .num 5), ("download_mbps", .num 5),
    ("accounts", .dict [("pptp", .list [.str "a"])])])]
  writable := true

/--
The condition at a push of one PPTP account and a limit of user 7, who has that
account.
-/
theorem order_irrelevant_iff_sevenLimited :
    (pushLimits plainPlatform plainShaper
          (pushAccounts plainPlatform pptpNode .pptp addressedPush).1 sevenLimited).1.rules =
        (pushAccounts plainPlatform (pushLimits plainPlatform plainShaper pptpNode sevenLimited).1
          .pptp addressedPush).1.rules ↔
      ∀ userId rawId spec, entryFor userId sevenLimited.limits = some (rawId, spec) →
        limitsUser spec = true →
          trafficOf plainPlatform (kernelOf plainPlatform plainShaper
              (withPush plainPlatform (drivers pptpNode.node) .pptp addressedPush)) spec =
            trafficOf plainPlatform (kernelOf plainPlatform plainShaper
              (drivers pptpNode.node)) spec :=
  order_irrelevant_iff plainPlatform plainShaper pptpNode .pptp addressedPush sevenLimited
    (by rfl) (by rfl) (by rfl)

/-- The account is shaped if the limits come last, and not if they come first. -/
theorem accounts_last_unshaped :
    (pushAccounts plainPlatform pptpNode .pptp addressedPush).2 = .ok () ∧
      (pushLimits plainPlatform plainShaper
          (pushAccounts plainPlatform pptpNode .pptp addressedPush).1 sevenLimited).2 = .ok () ∧
      (pushLimits plainPlatform plainShaper pptpNode sevenLimited).2 = .ok () ∧
      (pushAccounts plainPlatform (pushLimits plainPlatform plainShaper pptpNode sevenLimited).1
          .pptp addressedPush).2 = .ok () ∧
      (pushLimits plainPlatform plainShaper
          (pushAccounts plainPlatform pptpNode .pptp addressedPush).1 sevenLimited).1.rules.marks 7 =
        some ⟨{"10.0.0.2"}, ∅⟩ ∧
      (pushLimits plainPlatform plainShaper
          (pushAccounts plainPlatform pptpNode .pptp addressedPush).1 sevenLimited).1.rules ≠
        (pushAccounts plainPlatform (pushLimits plainPlatform plainShaper pptpNode sevenLimited).1
          .pptp addressedPush).1.rules := by
  have hShaped : (pushLimits plainPlatform plainShaper
      (pushAccounts plainPlatform pptpNode .pptp addressedPush).1 sevenLimited).1.rules.marks 7 =
        some ⟨{"10.0.0.2"}, ∅⟩ := by decide
  have hUnshaped : (pushAccounts plainPlatform
      (pushLimits plainPlatform plainShaper pptpNode sevenLimited).1 .pptp
        addressedPush).1.rules.marks 7 = some ⟨∅, ∅⟩ := by decide
  refine ⟨by rfl, by rfl, by rfl, by rfl, hShaped, fun hSame => ?_⟩
  rw [hSame, hUnshaped] at hShaped
  exact absurd hShaped (by decide)

end ZagrosNode.Bandwidth
