import ZagrosNode.Jobs.Exclusive

/-!
# ZagrosNode — the bounded history of jobs

The manager forgets the oldest job when the history is full, without looking
at whether it is over. As long as it always is, every job that has a slot can
be looked up, and the list of ids and the table of jobs agree.

The list of ids is the order of creation, newest last, and the table is what a look-up
of a job uses. Forgetting takes the first id of the list and its entry of the table,
finished or not. The heap of the model goes on to have the job, since its task goes on
to run.

A run keeps everything remembered exactly if every submit that creates a job while the
history is full finds its oldest job over; the condition can be read off the state
before the step (`SparesActive`). The equivalence for one step is
`remembered_step_iff`, and that keys are in order and none comes twice is what every
step keeps (`Numbered`).

Main results:

* `remembered_create_iff` — when a new job leaves the history in order.
* `active_remembered_iff` — the same for every run.
* `forgotten_job` — a job that is running and that the manager has forgotten.
-/

namespace ZagrosNode.Jobs

open ZagrosNode.Lib

variable {ω : Type}

-- ---------------------------------------------------------------------------
-- The history
-- ---------------------------------------------------------------------------

/-- Every job that has a slot can be looked up, and the ids kept in order are
those of the table: each once, in the order of their submission, and no more
than the limit. -/
structure Remembered (m : JobManager ω) : Prop where
  active : ∀ {core id}, m.active.get? core = some id → id ∈ m.jobs
  keys   : m.order = m.jobs
  sorted : m.order.Pairwise (· < ·)
  length : m.order.length ≤ m.historyLimit

/-- A submit that creates a job while the history is full finds the oldest
job over. -/
def SparesActive (m : JobManager ω) : Event ω → Prop
  | .submit core .. =>
    m.active.get? core = none → m.order.length = m.historyLimit →
      ∀ id ∈ m.order.head?, ∀ e, m.heap id = some e → terminal e.job.state = true
  | _ => True

/-- What every step keeps. -/
structure Numbered (m : JobManager ω) : Prop where
  coherent : Coherent m
  limit    : 1 ≤ m.historyLimit
  order    : ∀ id ∈ m.order, id < m.fresh

theorem Remembered.nodup {m : JobManager ω} (h : Remembered m) : m.order.Nodup :=
  h.sorted.imp fun hLt => hLt.ne

/-- The ids behind the first `k` are those that are not among them. -/
theorem filter_take {l : List JobId} (h : l.Nodup) (k : Nat) :
    (l.filter fun id => decide (id ∉ l.take k)) = l.drop k := by
  have hTake : ((l.take k).filter fun id => decide (id ∉ l.take k)) = [] := by
    rw [List.filter_eq_nil_iff]
    intro id hId
    simpa using hId
  have hDrop : ((l.drop k).filter fun id => decide (id ∉ l.take k)) = l.drop k := by
    rw [List.filter_eq_self]
    intro id hId
    rw [← List.take_append_drop k l, List.nodup_append] at h
    rw [decide_eq_true_eq]
    exact fun hEarly => h.2.2 id hEarly id hId rfl
  have hSplit := congrArg (List.filter fun id => decide (id ∉ l.take k))
    (List.take_append_drop k l)
  rw [List.filter_append, hTake, hDrop, List.nil_append] at hSplit
  exact hSplit.symm

-- ---------------------------------------------------------------------------
-- A new job
-- ---------------------------------------------------------------------------

/-- The order after a new job: the oldest goes if the history was full. -/
theorem create_order {m : JobManager ω} (hLimit : 1 ≤ m.historyLimit) (h : Remembered m)
    (core action : String) (work : ω) (timeout : Nat) (now : Int) :
    (m.create core action work timeout now).order =
      (if m.order.length = m.historyLimit then m.order.tail else m.order) ++ [m.fresh] := by
  show (m.order ++ [m.fresh]).drop ((m.order ++ [m.fresh]).length - m.historyLimit) = _
  have hLength := h.length
  rw [List.length_append, List.length_singleton]
  by_cases hFull : m.order.length = m.historyLimit
  · rw [if_pos hFull]
    have hOne : m.order.length + 1 - m.historyLimit = 1 := by omega
    rw [hOne]
    cases hOrder : m.order with
    | nil =>
      rw [hOrder, List.length_nil] at hFull
      omega
    | cons first rest => rfl
  · rw [if_neg hFull]
    have hZero : m.order.length + 1 - m.historyLimit = 0 := by omega
    rw [hZero, List.drop_zero]

theorem nodup_append_fresh {m : JobManager ω} (hNumbered : Numbered m) (h : Remembered m) :
    (m.order ++ [m.fresh]).Nodup := by
  rw [List.nodup_append]
  refine ⟨h.nodup, List.nodup_singleton _, fun id hId other hOther => ?_⟩
  rw [List.mem_singleton] at hOther
  rw [hOther]
  exact (hNumbered.order id hId).ne

/-- The table and the order stay in step. -/
theorem create_keys {m : JobManager ω} (hNumbered : Numbered m) (h : Remembered m)
    (core action : String) (work : ω) (timeout : Nat) (now : Int) :
    (m.create core action work timeout now).order =
      (m.create core action work timeout now).jobs := by
  show (m.order ++ [m.fresh]).drop _ = (m.jobs ++ [m.fresh]).filter _
  rw [← h.keys]
  exact (filter_take (nodup_append_fresh hNumbered h) _).symm

/--
**A new job** leaves the history in order exactly if the job it pushes out, if
any, is over. The history holds a fixed number of jobs, and the oldest goes
without a look at its state.
-/
theorem remembered_create_iff {m : JobManager ω} (hNumbered : Numbered m) (h : Remembered m)
    {core : String} (hFree : m.active.get? core = none) (action : String) (work : ω)
    (timeout : Nat) (now : Int) :
    Remembered (m.create core action work timeout now) ↔
      SparesActive m (.submit core action work timeout now) := by
  have hOrder := create_order hNumbered.limit h core action work timeout now
  have hKeys := create_keys hNumbered h core action work timeout now
  constructor
  · intro hAfter _ hFull id hHead e hEntry
    by_contra hOpen
    rw [Bool.not_eq_true] at hOpen
    have hSlot := hNumbered.coherent.active.mpr ⟨e, hEntry, rfl, hOpen⟩
    have hOther : core ≠ e.job.coreId := by
      rintro rfl
      rw [hFree] at hSlot
      cases hSlot
    have hStill : (m.create core action work timeout now).active.get? e.job.coreId = some id := by
      rw [create_active, if_neg hOther]
      exact hSlot
    -- the job that was pushed out still has its slot
    have hMem := hAfter.active hStill
    rw [← hAfter.keys, hOrder, if_pos hFull] at hMem
    cases hList : m.order with
    | nil =>
      rw [hList] at hHead
      cases hHead
    | cons first rest =>
      rw [hList] at hHead hMem
      obtain rfl : first = id := Option.some.inj hHead
      have hNodup := nodup_append_fresh hNumbered h
      rw [hList] at hNodup
      exact (List.nodup_cons.mp hNodup).1 hMem
  · intro hSpares
    refine ⟨fun {other id} hActive => ?_, hKeys, ?_, ?_⟩
    · rw [← hKeys, hOrder]
      rw [create_active] at hActive
      by_cases hCore : core = other
      · rw [if_pos hCore] at hActive
        rw [← Option.some.inj hActive]
        exact List.mem_append_right _ List.mem_cons_self
      · rw [if_neg hCore] at hActive
        have hMem := h.active hActive
        rw [← h.keys] at hMem
        refine List.mem_append_left _ ?_
        by_cases hFull : m.order.length = m.historyLimit
        · rw [if_pos hFull]
          obtain ⟨e, hEntry, -, hOpen⟩ := hNumbered.coherent.active.mp hActive
          cases hList : m.order with
          | nil =>
            rw [hList] at hMem
            cases hMem
          | cons first rest =>
            rw [hList] at hMem
            rcases List.mem_cons.mp hMem with rfl | hRest
            · have hOver := hSpares hFree hFull id (by rw [hList]; rfl) e hEntry
              rw [hOver] at hOpen
              cases hOpen
            · exact hRest
        · rwa [if_neg hFull]
    · rw [hOrder, List.pairwise_append]
      refine ⟨?_, List.pairwise_singleton _ _, fun id hId other hOther => ?_⟩
      · split
        · exact h.sorted.sublist (List.tail_sublist m.order)
        · exact h.sorted
      · rw [List.mem_singleton] at hOther
        rw [hOther]
        refine hNumbered.order id ?_
        split at hId
        · exact List.mem_of_mem_tail hId
        · exact hId
    · show (m.create core action work timeout now).order.length ≤ m.historyLimit
      have hLength := h.length
      have hLimit := hNumbered.limit
      rw [hOrder, List.length_append, List.length_singleton]
      split
      · rw [List.length_tail]
        omega
      · omega

-- ---------------------------------------------------------------------------
-- Every run
-- ---------------------------------------------------------------------------

theorem numbered_step (m : JobManager ω) (e : Event ω) (h : Numbered m) :
    Numbered ((jobMachine ω).next m e) := by
  have hCoherent := coherent_step m e h.coherent
  generalize hNext : (jobMachine ω).next m e = m' at hCoherent ⊢
  have hStepped : Stepped m e m' := hNext ▸ stepped m e
  cases hStepped with
  | idle => exact h
  | started | abandoned | finished => exact ⟨hCoherent, h.limit, h.order⟩
  | created core action work timeout now hFree =>
    refine ⟨hCoherent, h.limit, fun id hId => ?_⟩
    have hMem : id ∈ m.order ++ [m.fresh] := List.mem_of_mem_drop hId
    rcases List.mem_append.mp hMem with hOld | hNew
    · exact Nat.lt_succ_of_lt (h.order id hOld)
    · rw [List.mem_singleton.mp hNew]
      exact Nat.lt_succ_self m.fresh

theorem remembered_step_iff (m : JobManager ω) (e : Event ω) (hNumbered : Numbered m)
    (h : Remembered m) : Remembered ((jobMachine ω).next m e) ↔ SparesActive m e := by
  generalize hNext : (jobMachine ω).next m e = m'
  have hStepped : Stepped m e m' := hNext ▸ stepped m e
  cases hStepped with
  | created core action work timeout now hFree =>
    exact remembered_create_iff hNumbered h hFree action work timeout now
  | started id now job hEntry =>
    exact iff_of_true ⟨h.active, h.keys, h.sorted, h.length⟩ trivial
  | abandoned id job hEntry =>
    exact iff_of_true ⟨h.active, h.keys, h.sorted, h.length⟩ trivial
  | finished id ended now job hEntry =>
    refine iff_of_true ⟨fun {core other} hActive => ?_, h.keys, h.sorted, h.length⟩ trivial
    -- a slot that is left was there before
    have hPop : (m.active.pop job.coreId).get? core = some other := hActive
    rw [Dict.get?_pop] at hPop
    by_cases hCore : core = job.coreId
    · rw [if_pos hCore] at hPop
      cases hPop
    · rw [if_neg hCore] at hPop
      exact h.active hPop
  | idle =>
    refine iff_of_true h ?_
    cases e with
    | submit core action work timeout now =>
      -- a submit that changes nothing found the slot taken
      intro hFree
      have hCreate : (jobMachine ω).next m (.submit core action work timeout now) =
          m.create core action work timeout now := by
        show (m.submit core action work timeout now).1 = _
        rw [JobManager.submit, hFree]
      rw [hCreate] at hNext
      have hFresh : m.fresh + 1 = m.fresh := congrArg JobManager.fresh hNext
      exact absurd hFresh (Nat.succ_ne_self m.fresh)
    | start | abandon | finish => trivial

/--
**No active job is forgotten**, and the history stays in order, throughout a
run **if and only if** in each of its steps a submit that creates a job while
the history is full finds the oldest job over.
-/
theorem active_remembered_iff {historyLimit : Nat} (hLimit : 1 ≤ historyLimit)
    (events : List (Event ω)) :
    (jobMachine ω).Always Remembered (JobManager.init historyLimit) events ↔
      (jobMachine ω).Along (fun _ => SparesActive) [] (JobManager.init historyLimit) events := by
  refine (jobMachine ω).always_iff_along_inv Numbered numbered_step remembered_step_iff ?_ ?_ [] _
  · exact ⟨coherent_init historyLimit, hLimit, fun id hId => absurd hId List.not_mem_nil⟩
  · exact ⟨fun hActive => (by cases hActive), rfl, List.Pairwise.nil, Nat.zero_le _⟩

/-- A job of SSH is running while one of Xray is submitted. -/
def longJob : List (Event Unit) :=
  [.submit "ssh" "install" () 1200 0, .start 0 1, .submit "xray" "start" () 120 2]

/--
The condition along that run: the history of 200 has room, so nothing is pushed
out.
-/
theorem active_remembered_iff_longJob :
    (jobMachine Unit).Always Remembered (JobManager.init 200) longJob ↔
      (jobMachine Unit).Along (fun _ => SparesActive) [] (JobManager.init 200) longJob :=
  active_remembered_iff (by decide) longJob

/-- With room for one job the running one is forgotten, and the next request
for its core finds its id but no job. -/
theorem forgotten_job :
    ¬ (jobMachine Unit).Always Remembered (JobManager.init 1) longJob ∧
      ((jobMachine Unit).exec (JobManager.init 1) longJob).active.get? "ssh" = some 0 ∧
      ((jobMachine Unit).exec (JobManager.init 1) longJob).get 0 = none := by
  have hActive : ((jobMachine Unit).exec (JobManager.init 1) longJob).active.get? "ssh" =
      some 0 := rfl
  have hJobs : ((jobMachine Unit).exec (JobManager.init 1) longJob).jobs = [1] := rfl
  refine ⟨fun hAlways => ?_, hActive, rfl⟩
  have hMem := (hAlways longJob [] (List.append_nil _).symm).active hActive
  rw [hJobs] at hMem
  exact absurd hMem (by decide)

end ZagrosNode.Jobs
