import ZagrosNode.Lib.Machine
import ZagrosNode.Lib.Once
import ZagrosNode.Security.Identity

/-!
# ZagrosNode — is the registration token one-time?

Runs over one data directory: processes start (each start constructs
`NodeIdentityStore` with the hash of its environment, as the agent and
`cli info` do), and the live process registers, revokes and resets. A token is
*spent* while it has been accepted and no `reset_registration` with its hash
came since.

`register` burns the stored hash, but the constructor stores the hash of the
environment whenever it differs from the stored one, and a burned hash does
differ. So the next start with an unchanged environment arms the consumed
token again.

The events of a run are what changes the data directory: starts with any hash in
their environment, registrations with any token, revocations and resets. Each may
find a write that fails or random bytes of any value. The log keeps a mark for each:
that a token was accepted, that a hash was armed, or neither.

The claim that tokens are one-time is `Once` of the log, with accepting as the use
and a reset as the rearming. `TokenInv` ties it to the state: tokens have been
one-time so far, and the hash in the file is the digest of no spent token. All events
but one keep it, whatever they carry. The exception is a start that succeeds on an
existing identity with another hash in its environment; it keeps the invariant
unless that hash belongs to a spent token, and if it does, presenting the token is
one event away (`rearmingStart_breaks`). That gives the equivalence over all runs.

Main results:

* `oneTime_iff_no_rearming_start` — tokens stay one-time in a run exactly when
  no start of the run brings the hash of a spent token.
* `token_accepted_twice` — register, restart, register: the agent accepts one
  token twice.
-/

namespace ZagrosNode.Security

open ZagrosNode.Lib NodeIdentityStore

-- ---------------------------------------------------------------------------
-- Runs over one data directory
-- ---------------------------------------------------------------------------

/-- The data directory and the store of the live process, if there is one. -/
structure Node where
  dir     : DataDir
  process : Option NodeIdentityStore

def Node.fresh : Node := ⟨DataDir.empty, none⟩

inductive Event
  | start (fresh : Fresh) (registrationHash : Option String)
  | register (call : RegisterCall)
  | revoke (now : Int)
  | reset (registrationHash : String) (now : Int)

/-- What a run's log keeps of an event. -/
inductive Mark
  | accepted (token : String)
  | rearmed (hash : String)
  | silent
  deriving DecidableEq

variable (sha : Sha256) (cipher : SecretsCipher)

/-- A process starts; if the constructor raises, the process is gone and a
process that was already serving goes on. -/
def Node.start (n : Node) (fresh : Fresh) (registrationHash : Option String) : Node :=
  match NodeIdentityStore.init fresh registrationHash n.dir with
  | (.ok store, d) => ⟨d, some store⟩
  | (.error _, d)  => ⟨d, n.process⟩

def Node.step (n : Node) : Event → Node × Mark
  | .start fresh registrationHash => (n.start fresh registrationHash, .silent)
  | .register call =>
    match n.process with
    | none       => (n, .silent)
    | some store =>
      match NodeIdentityStore.register sha cipher store call n.dir with
      | (.ok _, d)    => ({ n with dir := d }, .accepted call.token)
      | (.error _, d) => ({ n with dir := d }, .silent)
  | .revoke now =>
    match n.process with
    | none   => (n, .silent)
    | some _ => ({ n with dir := (NodeIdentityStore.revoke now n.dir).2 }, .silent)
  | .reset hash now =>
    match n.process with
    | none   => (n, .silent)
    | some _ =>
      match resetRegistration hash now n.dir with
      | (.ok _, d)    => ({ n with dir := d }, .rearmed hash)
      | (.error _, d) => ({ n with dir := d }, .silent)

def machine : Machine Node Event Mark := ⟨Node.step sha cipher⟩

-- ---------------------------------------------------------------------------
-- One-time tokens
-- ---------------------------------------------------------------------------

def tokenHash (token : String) : String := sha.hexdigest (utf8 token)

def Mark.token? : Mark → Option String
  | .accepted token => some token
  | _               => none

def Mark.Rearms (m : Mark) (token : String) : Prop := m = .rearmed (tokenHash sha token)

/-- No token is accepted twice without a `reset_registration` with its hash in
between. -/
def OneTime (log : List Mark) : Prop := Once Mark.token? (Mark.Rearms sha) log

/-- `hash` belongs to a token that was accepted and not re-armed since. -/
def SpentHash (log : List Mark) (hash : String) : Prop :=
  ∃ token, tokenHash sha token = hash ∧ Spent Mark.token? (Mark.Rearms sha) log token

/-- The event is a start that succeeds on an existing identity whose stored
hash differs from the hash of the environment, and that hash is spent. -/
def RearmingStart (log : List Mark) (n : Node) (ev : Event) : Prop :=
  ∃ fresh hash state, ev = .start fresh (some hash) ∧
    (n.dir.identityKey.getD fresh.localKey).length = 32 ∧
    n.dir.identity = some state ∧ state.registrationTokenHash ≠ hash ∧
    SpentHash sha log hash

variable {sha cipher}

theorem tokenHash_ne_empty (token : String) : tokenHash sha token ≠ "" :=
  hexDigest_ne_empty (sha.isHex _)

theorem spentHash_silent {log : List Mark} {hash : String} :
    SpentHash sha (log ++ [.silent]) hash ↔ SpentHash sha log hash := by
  unfold SpentHash
  simp only [spent_snoc, Mark.token?, Mark.Rearms, reduceCtorEq, false_or, not_false_eq_true,
    and_true]

theorem not_spentHash_rearmed {log : List Mark} {hash : String} :
    ¬ SpentHash sha (log ++ [.rearmed hash]) hash := by
  rintro ⟨token, rfl, hSpent⟩
  rw [spent_snoc] at hSpent
  rcases hSpent with hUsed | ⟨-, hKeep⟩
  · cases hUsed
  · exact hKeep rfl

theorem not_spentHash_empty {log : List Mark} : ¬ SpentHash sha log "" := by
  rintro ⟨token, hEq, -⟩
  exact tokenHash_ne_empty token hEq

theorem oneTime_silent {log : List Mark} : OneTime sha (log ++ [.silent]) ↔ OneTime sha log := by
  rw [OneTime, once_snoc]
  exact ⟨And.left, fun h => ⟨h, by simp [Mark.token?]⟩⟩

theorem oneTime_rearmed {log : List Mark} {hash : String} :
    OneTime sha (log ++ [.rearmed hash]) ↔ OneTime sha log := by
  rw [OneTime, once_snoc]
  exact ⟨And.left, fun h => ⟨h, by simp [Mark.token?]⟩⟩

-- ---------------------------------------------------------------------------
-- What a start does to the stored hash
-- ---------------------------------------------------------------------------

/-- After a start the identity is the one before, or a minted one, or the one
before with the hash of the environment. -/
theorem start_identity (n : Node) (fresh : Fresh) (registrationHash : Option String) :
    (n.start fresh registrationHash).dir.identity = n.dir.identity ∨
      ((n.dir.identityKey.getD fresh.localKey).length = 32 ∧
        (n.start fresh registrationHash).dir.identity =
          some (seedIdentity fresh registrationHash n.dir.identity)) := by
  unfold Node.start NodeIdentityStore.init
  by_cases hLen : (n.dir.identityKey.getD fresh.localKey).length = 32
  · exact Or.inr ⟨hLen, by simp [hLen]⟩
  · exact Or.inl (by simp [hLen])

/-- The hash stored by a start over an existing identity. -/
theorem seedIdentity_hash (fresh : Fresh) (registrationHash : Option String) (state : Identity) :
    (seedIdentity fresh registrationHash (some state)).registrationTokenHash =
        state.registrationTokenHash ∨
      ∃ hash, registrationHash = some hash ∧ state.registrationTokenHash ≠ hash ∧
        (seedIdentity fresh registrationHash (some state)).registrationTokenHash = hash := by
  cases registrationHash with
  | none => exact Or.inl rfl
  | some hash =>
    by_cases h : hash ≠ "" ∧ state.registrationTokenHash ≠ hash
    · exact Or.inr ⟨hash, rfl, h.2, by simp [seedIdentity, h]⟩
    · exact Or.inl (by simp only [seedIdentity, if_neg h])

-- ---------------------------------------------------------------------------
-- The invariant
-- ---------------------------------------------------------------------------

/-- Tokens have been one-time so far, and the stored hash is not spent. -/
structure TokenInv (sha : Sha256) (log : List Mark) (n : Node) : Prop where
  once    : OneTime sha log
  stored  : ∀ state, n.dir.identity = some state →
              ¬ SpentHash sha log state.registrationTokenHash
  missing : n.dir.identity = none → ∀ hash, ¬ SpentHash sha log hash

theorem tokenInv_nil (n : Node) : TokenInv sha [] n where
  once := once_nil
  stored := by
    rintro state - ⟨token, -, hSpent⟩
    exact not_spent_nil token hSpent
  missing := by
    rintro - hash ⟨token, -, hSpent⟩
    exact not_spent_nil token hSpent

/-- A step that leaves the identity file alone and logs nothing. -/
theorem tokenInv_silent {log : List Mark} {n n' : Node} (h : TokenInv sha log n)
    (hId : n'.dir.identity = n.dir.identity) : TokenInv sha (log ++ [.silent]) n' where
  once := oneTime_silent.mpr h.once
  stored := by
    intro state hState
    rw [spentHash_silent]
    exact h.stored state (hId ▸ hState)
  missing := by
    intro hNone hash
    rw [spentHash_silent]
    exact h.missing (hId ▸ hNone) hash

/-- A step that writes the identity file and logs nothing keeps the invariant
if the hash it stores is not spent. -/
theorem tokenInv_write {log : List Mark} {n' : Node} {state : Identity}
    (hOnce : OneTime sha log) (hId : n'.dir.identity = some state)
    (hFresh : ¬ SpentHash sha log state.registrationTokenHash) :
    TokenInv sha (log ++ [.silent]) n' where
  once := oneTime_silent.mpr hOnce
  stored := by
    intro state' hState
    rw [spentHash_silent]
    obtain rfl := Option.some.inj (hId ▸ hState)
    exact hFresh
  missing := by
    intro hNone
    rw [hId] at hNone
    cases hNone

theorem tokenInv_start {log : List Mark} {n : Node} {fresh : Fresh}
    {registrationHash : Option String} (h : TokenInv sha log n)
    (hOk : ¬ RearmingStart sha log n (.start fresh registrationHash)) :
    TokenInv sha (log ++ [.silent]) (n.start fresh registrationHash) := by
  rcases start_identity n fresh registrationHash with hSame | ⟨hLen, hSeed⟩
  · exact tokenInv_silent h hSame
  · refine tokenInv_write h.once hSeed ?_
    cases hId : n.dir.identity with
    | none => exact h.missing hId _
    | some state =>
      rcases seedIdentity_hash fresh registrationHash state with hKept | ⟨hash, rfl, hNe, hNew⟩
      · rw [hKept]
        exact h.stored state hId
      · rw [hNew]
        intro hSpent
        exact hOk ⟨fresh, hash, state, rfl, hLen, hId, hNe, hSpent⟩

theorem tokenInv_register {log : List Mark} {n : Node} {call : RegisterCall}
    (h : TokenInv sha log n) :
    TokenInv sha (log ++ [(n.step sha cipher (.register call)).2])
      (n.step sha cipher (.register call)).1 := by
  cases hProc : n.process with
  | none =>
    simp only [Node.step, hProc]
    exact tokenInv_silent h rfl
  | some store =>
    rcases register_cases sha cipher store call n.dir with ⟨state, hId, hHash, hEq⟩ | ⟨-, e, hEq⟩
    · simp only [Node.step, hProc, hEq]
      refine ⟨?_, ?_, ?_⟩
      · -- the accepted token was not spent: its digest is the stored hash
        refine once_snoc.mpr ⟨h.once, ?_⟩
        intro token hUsed hSpent
        obtain rfl := Option.some.inj hUsed
        exact h.stored state hId ⟨call.token, hHash.symm, hSpent⟩
      · intro state' hState
        obtain rfl := Option.some.inj hState
        exact not_spentHash_empty
      · intro hNone
        cases hNone
    · simp only [Node.step, hProc, hEq]
      exact tokenInv_silent h rfl

theorem tokenInv_revoke (cipher : SecretsCipher) {log : List Mark} {n : Node} {now : Int}
    (h : TokenInv sha log n) :
    TokenInv sha (log ++ [(n.step sha cipher (.revoke now)).2])
      (n.step sha cipher (.revoke now)).1 := by
  cases hProc : n.process with
  | none =>
    simp only [Node.step, hProc]
    exact tokenInv_silent h rfl
  | some store =>
    simp only [Node.step, hProc]
    cases hId : n.dir.identity with
    | none => exact tokenInv_silent h (by simp [NodeIdentityStore.revoke, NodeIdentityStore.read, hId])
    | some state =>
      have hUnspent : ¬ SpentHash sha log (unpair state).registrationTokenHash :=
        h.stored state hId
      refine tokenInv_write h.once ?_ hUnspent
      simp [NodeIdentityStore.revoke, NodeIdentityStore.read, hId, commit]

theorem tokenInv_reset (cipher : SecretsCipher) {log : List Mark} {n : Node} {hash : String}
    {now : Int} (h : TokenInv sha log n) :
    TokenInv sha (log ++ [(n.step sha cipher (.reset hash now)).2])
      (n.step sha cipher (.reset hash now)).1 := by
  cases hProc : n.process with
  | none =>
    simp only [Node.step, hProc]
    exact tokenInv_silent h rfl
  | some store =>
    cases hId : n.dir.identity with
    | none =>
      simp only [Node.step, hProc, resetRegistration, NodeIdentityStore.read, hId]
      exact tokenInv_silent h rfl
    | some state =>
      simp only [Node.step, hProc, resetRegistration, NodeIdentityStore.read, hId]
      refine ⟨oneTime_rearmed.mpr h.once, ?_, ?_⟩
      · intro state' hState
        obtain rfl := Option.some.inj hState
        exact not_spentHash_rearmed
      · intro hNone
        cases hNone

/-- Every event keeps the invariant, a start if it re-arms no spent token. -/
theorem tokenInv_step {log : List Mark} {n : Node} {ev : Event} (h : TokenInv sha log n)
    (hOk : ¬ RearmingStart sha log n ev) :
    TokenInv sha (log ++ [(machine sha cipher).out n ev]) ((machine sha cipher).next n ev) := by
  cases ev with
  | start fresh registrationHash => exact tokenInv_start h hOk
  | register call => exact tokenInv_register h
  | revoke now => exact tokenInv_revoke cipher h
  | reset hash now => exact tokenInv_reset cipher h

-- ---------------------------------------------------------------------------
-- The converse: a re-arming start lets the spent token in
-- ---------------------------------------------------------------------------

/-- After a re-arming start some process is live and the stored hash is the
hash of the environment. -/
theorem start_rearms {n : Node} {fresh : Fresh} {hash : String} {state : Identity}
    (hLen : (n.dir.identityKey.getD fresh.localKey).length = 32)
    (hId : n.dir.identity = some state) (hNe : state.registrationTokenHash ≠ hash)
    (hHash : hash ≠ "") :
    ∃ store state', (n.start fresh (some hash)).process = some store ∧
      (n.start fresh (some hash)).dir.identity = some state' ∧
      state'.registrationTokenHash = hash := by
  simp [Node.start, NodeIdentityStore.init, hLen, hId, seedIdentity, hHash, hNe]

theorem register_step_accepted (call : RegisterCall) {n : Node} {store : NodeIdentityStore}
    {state : Identity} (hProc : n.process = some store) (hId : n.dir.identity = some state)
    (hHash : state.registrationTokenHash = tokenHash sha call.token) :
    (n.step sha cipher (.register call)).2 = .accepted call.token := by
  rcases register_cases sha cipher store call n.dir with ⟨_, -, -, hEq⟩ | ⟨hNo, -⟩
  · simp [Node.step, hProc, hEq]
  · exact absurd hHash (hNo state hId)

/-- A registration call that presents `token`. -/
def presenting (token : String) : RegisterCall :=
  { token := token, panelId := "panel", key := repeatedKey 0, nonce := [], now := 0 }

/-- If a start re-arms a spent token, presenting it right after is accepted. -/
theorem rearmingStart_breaks (cipher : SecretsCipher) {log : List Mark} {n : Node} {ev : Event}
    (h : RearmingStart sha log n ev) :
    ∃ token, ¬ OneTime sha ((log ++ [(machine sha cipher).out n ev]) ++
      [(machine sha cipher).out ((machine sha cipher).next n ev)
        (.register (presenting token))]) := by
  obtain ⟨fresh, hash, state, rfl, hLen, hId, hNe, token, rfl, hSpent⟩ := h
  refine ⟨token, ?_⟩
  obtain ⟨store, state', hProc, hId', hHash⟩ :=
    start_rearms hLen hId hNe (tokenHash_ne_empty token)
  have hOut : (machine sha cipher).out (n.start fresh (some (tokenHash sha token)))
      (.register (presenting token)) = .accepted token :=
    register_step_accepted (presenting token) hProc hId' hHash
  intro hOnce
  have hFresh := (once_snoc.mp hOnce).2 token
    (by rw [show (machine sha cipher).next n (.start fresh (some (tokenHash sha token))) =
          n.start fresh (some (tokenHash sha token)) from rfl, hOut]; rfl)
  apply hFresh
  rw [spent_snoc]
  refine Or.inr ⟨hSpent, ?_⟩
  intro hRearm
  cases hRearm

/--
**One-time tokens.** In a run of starts, registrations, revocations and resets
over one data directory, presenting any token at any point keeps every token
one-time **if and only if** no start of the run brings, over an existing
identity that stores another hash, the hash of a token that was accepted and
not reset since.
-/
theorem oneTime_iff_no_rearming_start (sha : Sha256) (cipher : SecretsCipher) (n : Node)
    (evs : List Event) :
    (machine sha cipher).Along (fun log s ev => ¬ RearmingStart sha log s ev) [] n evs ↔
      OneTime sha ((machine sha cipher).log n evs) ∧
      ∀ pre post, evs = pre ++ post → ∀ call : RegisterCall,
        OneTime sha ((machine sha cipher).log n (pre ++ [.register call])) := by
  constructor
  · intro hAlong
    have hRun : ∀ pre post, evs = pre ++ post →
        TokenInv sha ((machine sha cipher).log n pre) ((machine sha cipher).exec n pre) := by
      rintro pre post rfl
      have hPre := (((machine sha cipher).along_append _ _ _ _ _).mp hAlong).1
      simpa using (machine sha cipher).along_inv (TokenInv sha)
        (fun log s ev hInv hOk => tokenInv_step hInv hOk) (tokenInv_nil n) hPre
    refine ⟨(hRun evs [] (List.append_nil evs).symm).once, ?_⟩
    intro pre post hEq call
    rw [Machine.log_append]
    exact (tokenInv_register (hRun pre post hEq)).once
  · rintro ⟨-, hAll⟩
    rw [Machine.along_iff]
    rintro pre ev post hEq hBad
    obtain ⟨token, hBreak⟩ := rearmingStart_breaks cipher hBad
    apply hBreak
    have hOnce := hAll (pre ++ [ev]) post (by simp [hEq]) (presenting token)
    simpa [Machine.log_append, Machine.exec_append] using hOnce

-- ---------------------------------------------------------------------------
-- The restart that re-arms
-- ---------------------------------------------------------------------------

/-- SHA-256 of `bootstrap-token-0001`, the one token of the run below. -/
def bootstrapDigest : String :=
  "dcac3f09d37fd34c43729c681e14dd4214f61de1b2cb56649da7e027e46d8472"

theorem bootstrapDigest_isHex : IsHexDigest bootstrapDigest := by
  unfold IsHexDigest
  decide

/-- Hash functions that agree with SHA-256 on that token. -/
def bootstrapSha : Sha256 where
  hexdigest _       := bootstrapDigest
  hmacHexdigest _ _ := bootstrapDigest
  isHex _           := bootstrapDigest_isHex
  hmac_isHex _ _    := bootstrapDigest_isHex

def bootstrapFresh : Fresh :=
  { localKey := repeatedKey 7, nodeId := "6e6f64652d30303031" }

/-- The agent starts with the hash of its bootstrap token in the environment,
the panel registers, the agent restarts with the same environment, and the
token is presented again. -/
def restartRun : List Event :=
  [.start bootstrapFresh (some bootstrapDigest), .register (presenting "bootstrap-token-0001"),
    .start bootstrapFresh (some bootstrapDigest), .register (presenting "bootstrap-token-0001")]

theorem restartRun_log :
    (machine bootstrapSha plainCipher).log Node.fresh restartRun =
      [.silent, .accepted "bootstrap-token-0001", .silent, .accepted "bootstrap-token-0001"] := by
  decide

/-- Register, restart, register: both registrations are accepted. -/
theorem token_accepted_twice :
    ¬ OneTime bootstrapSha ((machine bootstrapSha plainCipher).log Node.fresh restartRun) := by
  rw [restartRun_log]
  intro hOnce
  obtain ⟨m, hMem, hRearm⟩ :=
    hOnce [.silent] _ [.silent] _ [] "bootstrap-token-0001" rfl rfl rfl
  rw [List.mem_singleton.mp hMem] at hRearm
  cases hRearm

end ZagrosNode.Security
