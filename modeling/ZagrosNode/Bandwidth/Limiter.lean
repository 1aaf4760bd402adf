import ZagrosNode.Accounts.UserAccount

/-!
# ZagrosNode — bandwidth limits

The panel pushes a rate per user and core; the node turns the push into a rule
set and installs it. A push is any JSON object: which of its entries can be
read is found out while it is applied.

Everything inside `reconcile` is guarded, but the figures the answer reports
are computed outside that guard, once for each way `reconcile` may end.

What the host contributes is the parameter `Kernel`: what the drivers know of
an account, and whether the limiter starts and takes a rule set.

`desired` goes through the entries in their order and stops at the first that raises;
what stands in its way is decided entry by entry. The `*_ok_iff` lemmas say for each
conversion on the way when it succeeds, and `Applicable` collects these conditions for a
whole push.

* **Truth values.** `int(upload or 0) or int(download or 0)` reads the second rate only
  if the first is zero, `or` takes the other value for an empty text, and a rate that is
  a text counts if `int()` takes it. So whether a push can be applied depends on values
  in places nobody would look at.
* **What guards what.** The rule set is made and installed inside the guard. After it,
  and whatever has become of it, the limited users are counted, and where the
  installation has succeeded the identities are, too; neither is guarded. A driver that
  raises when it is asked counts as one without identities.
* **Values that are passed over.** An entry that is no object, a key that is no integer,
  a core that lists no accounts: no error, and no limit.

Main results:

* `desired_ok_iff` — which pushes make a rule set.
* `apply_ok_iff` — which pushes are applied without an exception.
-/

namespace ZagrosNode.Bandwidth

open ZagrosNode.Lib ZagrosNode.Accounts

/-- `limits`: an entry for each user, filed under the user's id. -/
abbrev Limits := List (String × Json)

-- ---------------------------------------------------------------------------
-- The figures of the answer
-- ---------------------------------------------------------------------------

/-- `int(spec.get(key) or 0)` -/
def rate (spec : Raw) (key : String) : Except PyErr Int :=
  ((Json.getD spec key).or (.num 0)).int

/-- `int(upload or 0) or int(download or 0)`, as a truth value. The second
rate is only read if the first one is zero. -/
def isLimited (spec : Raw) : Except PyErr Bool := do
  let upload ← rate spec "upload_mbps"
  if upload ≠ 0 then .ok true
  else do
    let download ← rate spec "download_mbps"
    .ok (decide (download ≠ 0))

/-- `_limited_count` -/
def limitedCount : Limits → Except PyErr Nat
  | []                      => .ok 0
  | (_, .dict spec) :: rest => do
    let limited ← isLimited spec
    let count ← limitedCount rest
    .ok (if limited then count + 1 else count)
  | _ :: rest               => limitedCount rest

/-- `spec.get("accounts") or {}` -/
def accountsOf (spec : Raw) : Json := (Json.getD spec "accounts").or (.dict [])

/-- `set(accounts)` -/
def coreSet : Json → Except PyErr (List Json)
  | .dict entries => .ok (entries.map fun e => .str e.1)
  | .list xs      =>
    if xs.all Json.hashable then .ok xs else .error ⟨.type, "unhashable type"⟩
  | .str s        => .ok (s.toList.map fun c => .str c.toString)
  | _             => .error ⟨.type, "object is not iterable"⟩

/-- `wanted`: the cores any entry lists accounts of. -/
def wantedCores : Limits → Except PyErr (List Json)
  | []                      => .ok []
  | (_, .dict spec) :: rest => do
    let cores ← coreSet (accountsOf spec)
    let others ← wantedCores rest
    .ok (cores ++ others)
  | _ :: rest               => wantedCores rest

-- ---------------------------------------------------------------------------
-- The host
-- ---------------------------------------------------------------------------

/-- `bandwidth_identities()[account_id]` -/
structure Identity where
  innerSources : List String
  uids         : List Int

structure UserLimit where
  userId            : Int
  username          : String
  uploadMbps        : Int
  downloadMbps      : Int
  innerSources      : List String
  sshUids           : List Int
  softetherAccounts : List String

/-- The host as the limiter meets it. -/
structure Kernel where
  /-- `_identities`; a core that has none, or fails, contributes nothing -/
  identities : String → Dict String Identity
  /-- `str(ipaddress.ip_interface(source).ip)`, `none` where that raises -/
  address    : String → Option String
  /-- `BandwidthLimiter(…)` -/
  construct  : Except String Unit
  /-- `reconcile` behind the desired rule set; the number of users installed -/
  install    : Dict Int UserLimit → Except String Nat

/-- `_identity_map`. Values that are not text name no core. -/
def identityMap (k : Kernel) (limits : Limits) :
    Except PyErr (List (String × Dict String Identity)) := do
  let wanted ← wantedCores limits
  let names := (wanted.filterMap fun | .str s => some s | _ => none).eraseDups
  .ok ((names.map fun name => (name, k.identities name)).filter fun e => !e.2.entries.isEmpty)

-- ---------------------------------------------------------------------------
-- The rule set
-- ---------------------------------------------------------------------------

/-- The addresses and uids of an account's traffic join the limit. -/
def UserLimit.addIdentity (k : Kernel) (limit : UserLimit) (identity : Identity) : UserLimit :=
  { limit with
    innerSources := limit.innerSources ++ identity.innerSources.filterMap k.address
    sshUids := limit.sshUids ++ identity.uids }

/-- The accounts of one core join the limit; a value that is not a list is
passed over. -/
def UserLimit.addAccounts (p : Platform) (k : Kernel) (limit : UserLimit) (core : String) :
    Json → UserLimit
  | .list ids =>
    let named :=
      if core = "softether" then
        { limit with softetherAccounts := limit.softetherAccounts ++ ids.map p.str }
      else limit
    ids.foldl (fun limit id =>
      match (k.identities core).get? (p.str id) with
      | some identity => limit.addIdentity k identity
      | none          => limit) named
  | _ => limit

/-- The limit of one entry. -/
def userLimit (p : Platform) (k : Kernel) (rawId : String) (userId : Int) (spec : Raw) :
    Except PyErr UserLimit := do
  let upload ← rate spec "upload_mbps"
  let download ← rate spec "download_mbps"
  match accountsOf spec with
  | .dict cores =>
    .ok (cores.foldl (fun limit e => limit.addAccounts p k e.1 e.2)
      { userId := userId
        username := p.str ((Json.getD spec "username").or (.str rawId))
        uploadMbps := max 0 upload
        downloadMbps := max 0 download
        innerSources := []
        sshUids := []
        softetherAccounts := [] })
  | _ => .error ⟨.attribute, "object has no attribute 'items'"⟩

/-- One round of the loop of `_desired`: an entry that is no object, or whose
id is no integer, is passed over. -/
def addLimit (p : Platform) (k : Kernel) (rules : Dict Int UserLimit) (e : String × Json) :
    Except PyErr (Dict Int UserLimit) :=
  match e.2, intOfStr e.1 with
  | .dict spec, .ok userId => do
    let limit ← userLimit p k e.1 userId spec
    .ok (rules.set userId limit)
  | _, _ => .ok rules

/-- `_desired` -/
def desired (p : Platform) (k : Kernel) (limits : Limits) : Except PyErr (Dict Int UserLimit) :=
  limits.foldlM (addLimit p k) Dict.empty

/-- `limiter = BandwidthLimiter(…); limiter.reconcile()` -/
def reconcile (p : Platform) (k : Kernel) (limits : Limits) : Except String Nat := do
  k.construct
  let rules ← (desired p k limits).mapError PyErr.text
  k.install rules

-- ---------------------------------------------------------------------------
-- Applying
-- ---------------------------------------------------------------------------

inductive Report
  | failed (error : String) (limitedUsers : Nat)
  | applied (limitedUsers appliedUsers : Nat) (identities : List (String × Nat)) (sources : Nat)

/-- `apply`, once the limits are in memory. -/
def apply (p : Platform) (k : Kernel) (limits : Limits) : Except PyErr Report :=
  match reconcile p k limits with
  | .error text => do
    let count ← limitedCount limits
    .ok (.failed text count)
  | .ok users => do
    let count ← limitedCount limits
    let found ← identityMap k limits
    let sources := (found.flatMap fun e => e.2.values.flatMap Identity.innerSources).length
    .ok (.applied count users (found.map fun e => (e.1, e.2.entries.length)) sources)

-- ---------------------------------------------------------------------------
-- What can be read
-- ---------------------------------------------------------------------------

def RateReads (spec : Raw) (key : String) : Prop := ∃ n, rate spec key = .ok n

/-- The rates of the entry can be counted: the download rate does not matter
where there is an upload rate. -/
def RatesCount (spec : Raw) : Prop :=
  ∃ upload, rate spec "upload_mbps" = .ok upload ∧
    (upload ≠ 0 ∨ RateReads spec "download_mbps")

/-- The value is an object, a text, or a list of values that fit into a set. -/
def iterable : Json → Bool
  | .dict _ => true
  | .str _  => true
  | .list xs => xs.all Json.hashable
  | _ => false

/-- The entry makes a limit. -/
def MakesLimit (spec : Raw) : Prop :=
  RateReads spec "upload_mbps" ∧ RateReads spec "download_mbps" ∧ (accountsOf spec).isDict = true

/-- Every object among the entries has the property. -/
def EverySpec (P : String → Raw → Prop) (limits : Limits) : Prop :=
  ∀ id spec, (id, Json.dict spec) ∈ limits → P id spec

theorem everySpec_nil (P : String → Raw → Prop) : EverySpec P [] :=
  fun _ _ h => absurd h List.not_mem_nil

theorem everySpec_cons_dict {P : String → Raw → Prop} {id : String} {spec : Raw}
    {rest : Limits} :
    EverySpec P ((id, .dict spec) :: rest) ↔ P id spec ∧ EverySpec P rest := by
  unfold EverySpec
  constructor
  · intro h
    exact ⟨h id spec List.mem_cons_self, fun id' spec' hMem =>
      h id' spec' (List.mem_cons_of_mem _ hMem)⟩
  · rintro ⟨hFirst, hRest⟩ id' spec' hMem
    rcases List.mem_cons.mp hMem with hEq | hTail
    · obtain ⟨rfl, hSpec⟩ := Prod.mk.inj hEq
      rw [Json.dict.inj hSpec]
      exact hFirst
    · exact hRest id' spec' hTail

theorem everySpec_cons_other {P : String → Raw → Prop} {id : String} {v : Json} {rest : Limits}
    (h : ∀ spec, v ≠ .dict spec) : EverySpec P ((id, v) :: rest) ↔ EverySpec P rest := by
  unfold EverySpec
  constructor
  · exact fun hAll id' spec' hMem => hAll id' spec' (List.mem_cons_of_mem _ hMem)
  · intro hAll id' spec' hMem
    rcases List.mem_cons.mp hMem with hEq | hTail
    · exact absurd (Prod.mk.inj hEq).2.symm (h spec')
    · exact hAll id' spec' hTail

theorem isLimited_ok_iff (spec : Raw) : (∃ b, isLimited spec = .ok b) ↔ RatesCount spec := by
  unfold isLimited RatesCount RateReads
  cases hUpload : rate spec "upload_mbps" with
  | error e => simp [bind, Except.bind]
  | ok upload =>
    by_cases hZero : upload = 0
    · cases rate spec "download_mbps" with
      | error e => simp [bind, Except.bind, hZero]
      | ok download => simpa [bind, Except.bind, hZero] using em (download = 0)
    · simp [bind, Except.bind, hZero]

theorem limitedCount_ok_iff (limits : Limits) :
    (∃ n, limitedCount limits = .ok n) ↔ EverySpec (fun _ => RatesCount) limits := by
  induction limits using limitedCount.induct with
  | case1 => exact ⟨fun _ => everySpec_nil _, fun _ => ⟨0, rfl⟩⟩
  | case2 id spec rest ih =>
    rw [everySpec_cons_dict, ← isLimited_ok_iff, ← ih, limitedCount]
    cases isLimited spec with
    | error e => simp [bind, Except.bind]
    | ok limited => cases limitedCount rest <;> simp [bind, Except.bind]
  | case3 e rest hOther ih =>
    obtain ⟨id, v⟩ := e
    have hNot : ∀ spec, v ≠ .dict spec := fun spec hEq => hOther id spec (by rw [hEq])
    rw [everySpec_cons_other hNot, ← ih, limitedCount]
    exact fun id' spec' hEq => hOther id' spec' hEq

theorem coreSet_ok_iff (v : Json) : (∃ cores, coreSet v = .ok cores) ↔ iterable v = true := by
  unfold coreSet iterable
  split
  · simp
  · split <;> simp_all
  · simp
  · simp_all

theorem wantedCores_ok_iff (limits : Limits) :
    (∃ cores, wantedCores limits = .ok cores) ↔
      EverySpec (fun _ spec => iterable (accountsOf spec) = true) limits := by
  induction limits using wantedCores.induct with
  | case1 => exact ⟨fun _ => everySpec_nil _, fun _ => ⟨[], rfl⟩⟩
  | case2 id spec rest ih =>
    rw [everySpec_cons_dict, ← coreSet_ok_iff, ← ih, wantedCores]
    cases coreSet (accountsOf spec) with
    | error e => simp [bind, Except.bind]
    | ok cores => cases wantedCores rest <;> simp [bind, Except.bind]
  | case3 e rest hOther ih =>
    obtain ⟨id, v⟩ := e
    have hNot : ∀ spec, v ≠ .dict spec := fun spec hEq => hOther id spec (by rw [hEq])
    rw [everySpec_cons_other hNot, ← ih, wantedCores]
    exact fun id' spec' hEq => hOther id' spec' hEq

theorem userLimit_ok_iff (p : Platform) (k : Kernel) (rawId : String) (userId : Int) (spec : Raw) :
    (∃ limit, userLimit p k rawId userId spec = .ok limit) ↔ MakesLimit spec := by
  unfold userLimit MakesLimit RateReads
  cases rate spec "upload_mbps" with
  | error e => simp [bind, Except.bind]
  | ok upload =>
    cases rate spec "download_mbps" with
    | error e => simp [bind, Except.bind]
    | ok download => cases accountsOf spec <;> simp [bind, Except.bind, Json.isDict]

/--
**Which pushes make a rule set.** Every entry whose id can be read has to make
a limit; an entry under another key is skipped, whatever it holds.
-/
theorem desired_ok_iff (p : Platform) (k : Kernel) (limits : Limits) :
    (∃ rules, desired p k limits = .ok rules) ↔
      EverySpec (fun id spec => (∃ n, intOfStr id = .ok n) → MakesLimit spec) limits := by
  unfold desired
  generalize (Dict.empty : Dict Int UserLimit) = rules
  -- on the entries; what has been made so far does not matter
  induction limits generalizing rules with
  | nil => exact ⟨fun _ => everySpec_nil _, fun _ => ⟨rules, rfl⟩⟩
  | cons e rest ih =>
    obtain ⟨id, v⟩ := e
    rw [List.foldlM_cons]
    by_cases hDict : ∃ spec, v = .dict spec
    · obtain ⟨spec, rfl⟩ := hDict
      rw [everySpec_cons_dict]
      cases hId : intOfStr id with
      | error e =>
        -- a key that is no integer: the entry is passed over
        have hSkip : addLimit p k rules (id, .dict spec) = .ok rules := by
          simp only [addLimit, hId]
        rw [hSkip]
        refine (ih rules).trans ⟨fun hRest => ⟨?_, hRest⟩, And.right⟩
        rintro ⟨n, hEq⟩
        cases hEq
      | ok userId =>
        have hMakes := userLimit_ok_iff p k id userId spec
        cases hLimit : userLimit p k id userId spec with
        | error e =>
          -- the entry makes no limit, and its exception ends the loop
          have hRaise : addLimit p k rules (id, .dict spec) = .error e := by
            simp only [addLimit, hId, hLimit]
            rfl
          have hNot : ¬ MakesLimit spec := by
            rw [← hMakes, hLimit]
            rintro ⟨limit, hEq⟩
            cases hEq
          rw [hRaise]
          refine ⟨?_, fun hAll => absurd (hAll.1 ⟨userId, rfl⟩) hNot⟩
          rintro ⟨rules', hEq⟩
          cases hEq
        | ok limit =>
          have hAdd : addLimit p k rules (id, .dict spec) = .ok (rules.set userId limit) := by
            simp only [addLimit, hId, hLimit]
            rfl
          rw [hAdd]
          exact (ih (rules.set userId limit)).trans
            ⟨fun hRest => ⟨fun _ => hMakes.mp ⟨limit, hLimit⟩, hRest⟩, And.right⟩
    -- a value that is no object is passed over
    · have hNot : ∀ spec, v ≠ .dict spec := fun spec hEq => hDict ⟨spec, hEq⟩
      have hSkip : addLimit p k rules (id, v) = .ok rules := by
        unfold addLimit
        split
        · rename_i spec _ hEq _
          exact absurd hEq (hNot spec)
        · rfl
      rw [everySpec_cons_other hNot, hSkip]
      exact ih rules

-- ---------------------------------------------------------------------------
-- Which pushes are applied
-- ---------------------------------------------------------------------------

/-- The push does not get as far as an installed rule set: the limiter does
not start, an entry under an integer makes no limit, or the host does not take
the rule set. -/
def Refused (p : Platform) (k : Kernel) (limits : Limits) : Prop :=
  (∃ text, k.construct = .error text) ∨
    ¬ EverySpec (fun id spec => (∃ n, intOfStr id = .ok n) → MakesLimit spec) limits ∨
    ∃ rules, desired p k limits = .ok rules ∧ ∃ text, k.install rules = .error text

/-- What a push must meet to be applied without an exception.

* `rates`: the rates of every entry can be counted.
* `cores`: the accounts of every entry can be listed, or the push is refused
  before they are.
-/
structure Applicable (p : Platform) (k : Kernel) (limits : Limits) : Prop where
  rates : EverySpec (fun _ => RatesCount) limits
  cores : Refused p k limits ∨
    EverySpec (fun _ spec => iterable (accountsOf spec) = true) limits

theorem reconcile_error_iff (p : Platform) (k : Kernel) (limits : Limits) :
    (∃ text, reconcile p k limits = .error text) ↔ Refused p k limits := by
  unfold reconcile Refused
  rw [← desired_ok_iff p k limits]
  cases k.construct with
  | error text => simp [bind, Except.bind]
  | ok u =>
    cases desired p k limits with
    | error e => simp [bind, Except.bind, Except.mapError]
    | ok rules => simp [bind, Except.bind, Except.mapError]

theorem identityMap_ok_iff (k : Kernel) (limits : Limits) :
    (∃ found, identityMap k limits = .ok found) ↔
      EverySpec (fun _ spec => iterable (accountsOf spec) = true) limits := by
  rw [← wantedCores_ok_iff, identityMap]
  cases wantedCores limits <;> simp [bind, Except.bind]

/--
**Which pushes are applied without an exception.** Those whose rule set is
made, and those that fail on the way and whose users can at least be counted,
because the failure is then reported.
-/
theorem apply_ok_iff (p : Platform) (k : Kernel) (limits : Limits) :
    (∃ report, apply p k limits = .ok report) ↔ Applicable p k limits := by
  have hRates := limitedCount_ok_iff limits
  have hCores := identityMap_ok_iff k limits
  have hRefused := reconcile_error_iff p k limits
  unfold apply
  cases hReconcile : reconcile p k limits with
  | error text =>
    rw [hReconcile] at hRefused
    have hMet : Applicable p k limits ↔ EverySpec (fun _ => RatesCount) limits :=
      ⟨Applicable.rates, fun h => ⟨h, Or.inl (hRefused.mp ⟨text, rfl⟩)⟩⟩
    rw [hMet, ← hRates]
    cases limitedCount limits <;> simp [bind, Except.bind]
  | ok users =>
    have hTaken : ¬ Refused p k limits := by
      rw [← hRefused, hReconcile]
      rintro ⟨text, hEq⟩
      cases hEq
    have hMet : Applicable p k limits ↔ EverySpec (fun _ => RatesCount) limits ∧
        EverySpec (fun _ spec => iterable (accountsOf spec) = true) limits :=
      ⟨fun h => ⟨h.rates, h.cores.resolve_left hTaken⟩, fun h => ⟨h.1, Or.inr h.2⟩⟩
    rw [hMet, ← hRates, ← hCores]
    cases limitedCount limits with
    | error e => simp [bind, Except.bind]
    | ok count => cases identityMap k limits <;> simp [bind, Except.bind]

end ZagrosNode.Bandwidth
