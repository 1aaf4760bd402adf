import ZagrosNode.Bandwidth.PushOrder
import ZagrosNode.Accounts.Convergence

/-!
# ZagrosNode — limits that cannot be read

A push of limits is stored as it came and read again wherever it is needed.
The entries are checked by the conversions that read them: an entry that is
no object and a key that is no integer are passed over, a rate that is no
number and accounts that are no object raise, and with them the whole pass.

Two questions are asked of a push that has something unreadable in it. One is what it
does to the limits of the others: `Isolated` compares two pushes that agree about one
user and asks for the same limit. The other is whether the node can still report, for
every call of a run; the limits in memory are replaced before they are read, so a push
that cannot be counted spoils the calls after it as well.

`Readable` is the condition of the first question, and it is about the entries alone:
which conversions succeed does not depend on the host. A whole push is refused if one
entry is not readable, whoever it is of.

For the second the state is what `apply` has put into memory. `CallReads` asks for the
rates of the limits a call reads, and for `apply` for what makes it go to its end.

Main results:

* `limit_isolated_iff` — two pushes with the same entries for a user give the
  user the same limit exactly if all entries of both can be read.
* `other_entry_decides` — an entry of another user takes the limit away.
* `limiter_reports_iff` — `apply` and `status` answer every call of a run
  exactly if the rates of the limits in memory can be counted at each.
* `status_raises` — they do not after a push with a rate that is no number.
-/

namespace ZagrosNode.Bandwidth

open ZagrosNode.Lib ZagrosNode.Cores ZagrosNode.Security ZagrosNode.Accounts

-- ---------------------------------------------------------------------------
-- One user's limit
-- ---------------------------------------------------------------------------

/-- A pushed object: its keys are distinct. -/
abbrev Payload := Dict String Json

/-- The payloads have the same entries under the keys that read as the user's
id. -/
def AgreeOn (userId : Int) (p q : Payload) : Prop :=
  ∀ key, intOfStr key = .ok userId → p.get? key = q.get? key

/-- The limits are equal. The addresses, uids and SoftEther accounts of a limit
are sets. -/
structure SameLimit (a b : UserLimit) : Prop where
  userId     : a.userId = b.userId
  username   : a.username = b.username
  upload     : a.uploadMbps = b.uploadMbps
  download   : a.downloadMbps = b.downloadMbps
  traffic    : a.traffic = b.traffic
  softether  : a.softetherAccounts.toFinset = b.softetherAccounts.toFinset

theorem SameLimit.refl (a : UserLimit) : SameLimit a a := ⟨rfl, rfl, rfl, rfl, rfl, rfl⟩

/-- `_desired` gives the user the same limit on both payloads. -/
def Isolated (pl : Platform) (k : Kernel) (userId : Int) (p q : Payload) : Prop :=
  ∃ rules rules', desired pl k p.entries = .ok rules ∧ desired pl k q.entries = .ok rules' ∧
    Option.Rel SameLimit (rules.get? userId) (rules'.get? userId)

/-- Every entry of an integer id makes a limit. -/
def Readable (limits : Limits) : Prop :=
  EverySpec (fun id spec => (∃ n, intOfStr id = .ok n) → MakesLimit spec) limits

/-- The name an entry gives its user. -/
def nameIn (pl : Platform) (e : String × Raw) : String :=
  pl.str ((Json.getD e.2 "username").or (.str e.1))

/-- The SoftEther accounts of an entry. -/
def softIn (pl : Platform) (spec : Raw) : Finset String :=
  match accountsOf spec with
  | .dict cores => (softNamed pl cores).toFinset
  | _           => ∅

/-- Two entries for one user say the same: one name, one pair of rates, and
accounts with the same traffic. -/
structure SaysSame (pl : Platform) (k : Kernel) (e e' : String × Raw) : Prop where
  username  : nameIn pl e = nameIn pl e'
  upload    : (rate e.2 "upload_mbps").map (max 0) = (rate e'.2 "upload_mbps").map (max 0)
  download  : (rate e.2 "download_mbps").map (max 0) = (rate e'.2 "download_mbps").map (max 0)
  traffic   : trafficOf pl k e.2 = trafficOf pl k e'.2
  softether : softIn pl e.2 = softIn pl e'.2

section Isolation

variable {pl : Platform} {k : Kernel} {userId : Int}

/-- What the limit of an entry consists of. -/
theorem userLimit_fields {rawId : String} {spec : Raw} {limit : UserLimit}
    (h : userLimit pl k rawId userId spec = .ok limit) :
    limit.userId = userId ∧ limit.username = nameIn pl (rawId, spec) ∧
      (rate spec "upload_mbps").map (max 0) = .ok limit.uploadMbps ∧
        (rate spec "download_mbps").map (max 0) = .ok limit.downloadMbps ∧
          limit.softetherAccounts.toFinset = softIn pl spec := by
  unfold userLimit at h
  cases hUpload : rate spec "upload_mbps" with
  | error e =>
    rw [hUpload] at h
    cases h
  | ok upload =>
    cases hDownload : rate spec "download_mbps" with
    | error e =>
      rw [hUpload, hDownload] at h
      cases h
    | ok download =>
      rw [hUpload, hDownload] at h
      unfold softIn
      cases hAccounts : accountsOf spec with
      | dict cores =>
        simp only [hAccounts, bind, Except.bind, foldl_addAccounts, List.nil_append] at h
        obtain rfl := Except.ok.inj h
        exact ⟨rfl, rfl, rfl, rfl, rfl⟩
      | _ =>
        simp only [hAccounts, bind, Except.bind] at h
        cases h

/-- The limits of two entries are equal exactly if the entries say the same. -/
theorem sameLimit_iff {e e' : String × Raw} {limit limit' : UserLimit}
    (h : userLimit pl k e.1 userId e.2 = .ok limit)
    (h' : userLimit pl k e'.1 userId e'.2 = .ok limit') :
    SameLimit limit limit' ↔ SaysSame pl k e e' := by
  obtain ⟨hId, hName, hUpload, hDownload, hSoft⟩ := userLimit_fields h
  obtain ⟨hId', hName', hUpload', hDownload', hSoft'⟩ := userLimit_fields h'
  have hTraffic := (userLimit_ok pl k h).1
  have hTraffic' := (userLimit_ok pl k h').1
  constructor
  · intro hSame
    exact
      { username  := by rw [← hName, ← hName', hSame.username]
        upload    := by rw [hUpload, hUpload', hSame.upload]
        download  := by rw [hDownload, hDownload', hSame.download]
        traffic   := by rw [← hTraffic, ← hTraffic', hSame.traffic]
        softether := by rw [← hSoft, ← hSoft', hSame.softether] }
  · intro hSays
    have hUploads := hUpload.symm.trans (hSays.upload.trans hUpload')
    have hDownloads := hDownload.symm.trans (hSays.download.trans hDownload')
    exact
      { userId    := by rw [hId, hId']
        username  := by rw [hName, hName', hSays.username]
        upload    := Except.ok.inj hUploads
        download  := Except.ok.inj hDownloads
        traffic   := by rw [hTraffic, hTraffic', hSays.traffic]
        softether := by rw [hSoft, hSoft', hSays.softether] }

/-- The entry of a user is one of those whose key reads as the user's id. -/
theorem entryFor_some {limits : Limits} {e : String × Raw} (h : entryFor userId limits = some e) :
    (e.1, Json.dict e.2) ∈ limits ∧ intOfStr e.1 = .ok userId := by
  induction limits with
  | nil => cases h
  | cons first rest ih =>
    rw [entryFor_cons] at h
    cases hRest : entryFor userId rest with
    | some last =>
      rw [hRest] at h
      obtain ⟨hMem, hId⟩ := ih (hRest.trans h)
      exact ⟨List.mem_cons_of_mem _ hMem, hId⟩
    | none =>
      obtain ⟨rawId, v⟩ := first
      rw [hRest, Option.none_or] at h
      simp only [entryFor, Option.none_or] at h
      split at h
      · rename_i spec n hId
        by_cases hn : n = userId
        · rw [if_pos hn] at h
          obtain rfl := Option.some.inj h
          exact ⟨List.mem_cons_self, hn ▸ hId⟩
        · rw [if_neg hn] at h
          cases h
      · cases h

theorem entryFor_ne_none {limits : Limits} {key : String} {spec : Raw}
    (hMem : (key, Json.dict spec) ∈ limits) (hId : intOfStr key = .ok userId) :
    entryFor userId limits ≠ none := by
  induction limits with
  | nil => cases hMem
  | cons first rest ih =>
    rw [entryFor_cons]
    intro hNone
    rw [Option.or_eq_none_iff] at hNone
    rcases List.mem_cons.mp hMem with hFirst | hRest
    · rw [← hFirst] at hNone
      simp [entryFor, hId] at hNone
    · exact ih hRest hNone.1

/-- A user with an entry in one of two agreeing payloads has one in the other. -/
theorem AgreeOn.entryFor_none {p q : Payload} (h : AgreeOn userId p q)
    (hNone : entryFor userId p.entries = none) : entryFor userId q.entries = none := by
  cases hEntry : entryFor userId q.entries with
  | none => rfl
  | some e =>
    obtain ⟨hMem, hId⟩ := entryFor_some hEntry
    have hGet : p.get? e.1 = some (.dict e.2) := by
      rw [h e.1 hId]
      exact Dict.mem_entries_iff.mp hMem
    exact absurd hNone (entryFor_ne_none (Dict.mem_entries_iff.mpr hGet) hId)

theorem AgreeOn.symm {p q : Payload} (h : AgreeOn userId p q) : AgreeOn userId q p :=
  fun key hKey => (h key hKey).symm

/-- A user listed under one spelling of the id has the same entry in both. -/
theorem AgreeOn.entryFor_eq {p q : Payload} (h : AgreeOn userId p q)
    (hSpelled : ∀ key key', intOfStr key = .ok userId → intOfStr key' = .ok userId →
      key ∈ p.keys → key' ∈ p.keys → key = key') :
    entryFor userId p.entries = entryFor userId q.entries := by
  cases hEntry : entryFor userId p.entries with
  | none => exact (h.entryFor_none hEntry).symm
  | some e =>
    cases hEntry' : entryFor userId q.entries with
    | none =>
      rw [h.symm.entryFor_none hEntry'] at hEntry
      cases hEntry
    | some e' =>
      obtain ⟨hMem, hId⟩ := entryFor_some hEntry
      obtain ⟨hMem', hId'⟩ := entryFor_some hEntry'
      have hGet := Dict.mem_entries_iff.mp hMem
      have hGet' : p.get? e'.1 = some (.dict e'.2) := by
        rw [h e'.1 hId']
        exact Dict.mem_entries_iff.mp hMem'
      have hKey : e.1 = e'.1 := hSpelled e.1 e'.1 hId hId'
        (Dict.mem_keys_iff.mpr ⟨_, hGet⟩) (Dict.mem_keys_iff.mpr ⟨_, hGet'⟩)
      rw [hKey, hGet'] at hGet
      have hSpec := Json.dict.inj (Option.some.inj hGet)
      rw [Prod.ext hKey hSpec.symm]

/-- **One user's limit.** Payloads with the same entries for a user give the
user one limit exactly if both can be read throughout and, should they end the
user's entries with different ones, those say the same. -/
theorem limit_isolated_iff {p q : Payload} (hAgree : AgreeOn userId p q) :
    Isolated pl k userId p q ↔
      Readable p.entries ∧ Readable q.entries ∧
        ∀ e e', entryFor userId p.entries = some e → entryFor userId q.entries = some e' →
          e ≠ e' → SaysSame pl k e e' := by
  unfold Readable
  rw [← desired_ok_iff pl k, ← desired_ok_iff pl k]
  constructor
  -- both make a rule set, so both can be read throughout
  · rintro ⟨rules, rules', hRules, hRules', hRel⟩
    refine ⟨⟨rules, hRules⟩, ⟨rules', hRules'⟩, ?_⟩
    intro e e' hEntry hEntry' _
    rcases get?_desired pl k hRules userId with ⟨hNone, -⟩ | ⟨e₁, limit, hFirst, hGet, hLimit⟩
    · rw [hNone] at hEntry
      cases hEntry
    rcases get?_desired pl k hRules' userId with ⟨hNone, -⟩ | ⟨e₂, limit', hFirst', hGet', hLimit'⟩
    · rw [hNone] at hEntry'
      cases hEntry'
    obtain rfl := Option.some.inj (hFirst.symm.trans hEntry)
    obtain rfl := Option.some.inj (hFirst'.symm.trans hEntry')
    rw [hGet, hGet'] at hRel
    cases hRel with
    | some hSame => exact (sameLimit_iff hLimit hLimit').mp hSame
  -- the user's limit is that of the last entry under the user's id
  · rintro ⟨⟨rules, hRules⟩, ⟨rules', hRules'⟩, hSays⟩
    refine ⟨rules, rules', hRules, hRules', ?_⟩
    rcases get?_desired pl k hRules userId with ⟨hNone, hGet⟩ | ⟨e, limit, hEntry, hGet, hLimit⟩
    · rcases get?_desired pl k hRules' userId with ⟨-, hGet'⟩ | ⟨e', limit', hEntry', -, -⟩
      · rw [hGet, hGet']
        exact Option.Rel.none
      · rw [hAgree.entryFor_none hNone] at hEntry'
        cases hEntry'
    · rcases get?_desired pl k hRules' userId with ⟨hNone', -⟩ | ⟨e', limit', hEntry', hGet', hLimit'⟩
      · rw [hAgree.symm.entryFor_none hNone'] at hEntry
        cases hEntry
      · rw [hGet, hGet']
        refine Option.Rel.some ?_
        -- the same last entry, or two that say the same
        by_cases hSame : e = e'
        · subst hSame
          rw [Except.ok.inj (hLimit.symm.trans hLimit')]
          exact SameLimit.refl limit'
        · exact (sameLimit_iff hLimit hLimit').mpr (hSays e e' hEntry hEntry' hSame)

end Isolation

/-- A host without cores that takes every rule set. -/
def bareKernel : Kernel where
  identities _ := Dict.empty
  address _    := none
  construct    := .ok ()
  install r    := .ok r.entries.length

/-- The limits of user 7. -/
def sevensLimits : Payload :=
  Dict.ofPairs [("7", .dict [("upload_mbps", .num 5), ("download_mbps", .num 5)])]

/-- The same, with an entry for user 8 whose rate is no number. -/
def spoiledLimits : Payload := sevensLimits.set "8" (.dict [("upload_mbps", .str "abc")])

theorem readable_sevens : Readable sevensLimits.entries := by
  rw [Readable, ← desired_ok_iff plainPlatform bareKernel]
  exact ⟨_, rfl⟩

/-- The limits of user 7 beside themselves. -/
theorem limit_isolated_sevens : Isolated plainPlatform bareKernel 7 sevensLimits sevensLimits := by
  refine (limit_isolated_iff fun _ _ => rfl).mpr ⟨readable_sevens, readable_sevens, ?_⟩
  intro e e' hEntry hEntry' hNe
  exact absurd (Option.some.inj (hEntry.symm.trans hEntry')) hNe

/-- The entry of another user takes the limit of user 7 away. -/
theorem other_entry_decides : AgreeOn 7 sevensLimits spoiledLimits ∧
    ¬ Isolated plainPlatform bareKernel 7 sevensLimits spoiledLimits := by
  constructor
  · intro key hKey
    have hNe : "8" ≠ key := by
      rintro rfl
      exact absurd hKey (by decide)
    rw [spoiledLimits, Dict.get?_set_of_ne _ _ hNe]
  · have hRaises : desired plainPlatform bareKernel spoiledLimits.entries =
        .error invalidLiteral := rfl
    rintro ⟨-, rules, -, hRules, -⟩
    rw [hRaises] at hRules
    cases hRules

-- ---------------------------------------------------------------------------
-- A limiter and the calls it gets
-- ---------------------------------------------------------------------------

/-- `NodeBandwidthLimiter` -/
structure Limiter where
  interface : String
  limits    : Limits
  lastError : Option String

inductive LimiterCall
  /-- `apply(limits)` on a host, with what the limiter has noted as its last
  error once the rule set is installed -/
  | apply (limits : Option Limits) (kernel : Kernel) (noted : Option String)
  | status

structure StatusReport where
  interface    : String
  limitedUsers : Nat
  knownUsers   : Nat
  lastError    : Option String

inductive LimiterAnswer
  | report (report : Report)
  | status (status : StatusReport)

/-- `status` -/
def Limiter.status (s : Limiter) : Except PyErr StatusReport := do
  let limitedUsers ← limitedCount s.limits
  .ok
    { interface    := s.interface
      limitedUsers := limitedUsers
      knownUsers   := s.limits.length
      lastError    := s.lastError }

/-- The limiter after `apply`; the limits are kept whatever becomes of them. -/
def Limiter.applied (p : Platform) (s : Limiter) (limits : Option Limits) (kernel : Kernel)
    (noted : Option String) : Limiter :=
  let limits := limits.getD s.limits
  { s with
    limits := limits
    lastError :=
      match reconcile p kernel limits with
      | .error text => some text
      | .ok _       => noted }

/-- The limiter, call by call. -/
def limiter (p : Platform) : Machine Limiter LimiterCall (Except PyErr LimiterAnswer) where
  step s
    | .apply limits kernel noted =>
      (s.applied p limits kernel noted,
        (apply p kernel (limits.getD s.limits)).map LimiterAnswer.report)
    | .status => (s, s.status.map LimiterAnswer.status)

/-- What a call must meet: the limits it reads, those pushed with it or those in
memory, can be counted, and for `apply` also listed by core if the host takes
them. -/
def CallReads (p : Platform) (s : Limiter) : LimiterCall → Prop
  | .apply limits kernel _ => Applicable p kernel (limits.getD s.limits)
  | .status                => EverySpec (fun _ => RatesCount) s.limits

theorem except_map_ok_iff {ε α β : Type*} {f : α → β} {x : Except ε α} :
    (∃ b, x.map f = .ok b) ↔ ∃ a, x = .ok a := by
  cases x <;> simp [Except.map]

/-- One call is answered exactly if it can read what it needs. -/
theorem limiter_out_ok_iff (p : Platform) (s : Limiter) (call : LimiterCall) :
    (∃ answer, (limiter p).out s call = .ok answer) ↔ CallReads p s call := by
  cases call with
  | apply limits kernel noted =>
    exact except_map_ok_iff.trans (apply_ok_iff p kernel (limits.getD s.limits))
  | status =>
    show (∃ answer, s.status.map LimiterAnswer.status = .ok answer) ↔ _
    rw [except_map_ok_iff, CallReads, ← limitedCount_ok_iff, Limiter.status]
    cases limitedCount s.limits <;> simp [bind, Except.bind]

/--
**Every call of a run is answered** exactly if each of them can read the limits
it finds in memory or is given. The count of the limited users is taken inside
the handler that reports a failure, so a rate that cannot be read raises there
once more, and `status` raises at every later call.
-/
theorem limiter_reports_iff (p : Platform) (s : Limiter) (calls : List LimiterCall) :
    (∀ answer ∈ (limiter p).log s calls, ∃ a, answer = .ok a) ↔
      (limiter p).Along (fun _ => CallReads p) [] s calls := by
  generalize ([] : List (Except PyErr LimiterAnswer)) = h
  induction calls generalizing s h with
  | nil => simp [Machine.Along]
  | cons call rest ih =>
    rw [Machine.log_cons, List.forall_mem_cons, limiter_out_ok_iff, ih]
    rfl

/-- After a push with a rate that is no number, neither `apply` nor `status`
answers. -/
theorem status_raises :
    ¬ ∀ answer ∈ (limiter plainPlatform).log ⟨"eth0", [], none⟩
        [.apply (some spoiledLimits.entries) bareKernel none, .status], ∃ a, answer = .ok a := by
  have hLog : (limiter plainPlatform).log ⟨"eth0", [], none⟩
      [.apply (some spoiledLimits.entries) bareKernel none, .status] =
        [.error invalidLiteral, .error invalidLiteral] := rfl
  intro hAll
  rw [hLog] at hAll
  obtain ⟨a, hAnswer⟩ := hAll (.error invalidLiteral) List.mem_cons_self
  cases hAnswer

end ZagrosNode.Bandwidth
