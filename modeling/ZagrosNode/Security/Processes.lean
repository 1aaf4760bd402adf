import ZagrosNode.Lib.Replace
import ZagrosNode.Security.OneTimeToken

/-!
# ZagrosNode — two processes on one identity file

The agent and the operator's commands are processes of their own on one data
directory. Each operation of the store reads `identity.json` and may replace it;
the store's lock is one of its own process and keeps nobody else away.

An identity is there as long as the agent runs, and so is the local key: the
commands seal and unseal with the agent's.

An operation is split where another process can come between: after the read of
`identity.json` and before its replacement. The split is that of the general module
on files that are read and then replaced, of which this is an instance: the content
is the identity file, and `Operation.act` says what each operation of the store makes
of the content it has read.

`act_identity` ties the instance to the store: read and replaced at one moment, an
operation leaves the directory and returns the answer that the store's own function
does. The serial run is therefore a run of the store.

Constructions are the operations that surprise. They write if the identity is missing
or its hash is another one, so the commands of an operator, which construct a store
to print what it says, can undo what the agent does at that moment. The two runs at
the end are the two ways.

Main results:

* `act_identity` — an operation nobody interferes with does what the store does.
* `identity_serial` — where every replaced file is still the one that was read,
  the operations have done what they do one after the other, and a signing key
  that was handed out outlasts the constructions that follow.
* `construction_undoes` — a construction that drops a signing key, and one that
  pairs a revoked node again.
-/

namespace ZagrosNode.Security

open ZagrosNode.Lib NodeIdentityStore Replace

-- ---------------------------------------------------------------------------
-- Operations
-- ---------------------------------------------------------------------------

/-- What a process does to the identity file. -/
inductive Operation
  | construct (fresh : Fresh) (registrationHash : Option String)
  | register (call : RegisterCall)
  | revoke (now : Int)
  | resetRegistration (registrationHash : String) (now : Int)

/-- What it returns or raises. -/
inductive Answer
  | done
  | key (key : Key32)
  | failed (e : Failure)

/-- The data directory with this identity file. -/
def dirOf (store : NodeIdentityStore) (file : Option Identity) : DataDir :=
  ⟨some store.localKey.1, file, []⟩

/-- An operation that replaces the file if it returns. -/
def replacing {α : Type} (answer : α → Answer) (r : Except Failure α × DataDir) :
    Answer × Option (Option Identity) :=
  match r with
  | (.ok a, d)    => (answer a, some d.identity)
  | (.error e, _) => (.failed e, none)

section Operations

variable (sha : Sha256) (cipher : SecretsCipher) (store : NodeIdentityStore)

/-- The operation between its read and its replacement. A construction replaces
the file if it is missing, or if it has another hash. -/
def Operation.act : Act (Option Identity) Operation Answer
  | .construct fresh registrationHash, none =>
    (.done, some (some (seedIdentity fresh registrationHash none)))
  | .construct _ none, some _ => (.done, none)
  | .construct _ (some hash), some state =>
    if hash ≠ "" ∧ state.registrationTokenHash ≠ hash then
      (.done, some (some { state with registrationTokenHash := hash }))
    else (.done, none)
  | .register call, file =>
    replacing .key (NodeIdentityStore.register sha cipher store call (dirOf store file))
  | .revoke now, file =>
    replacing (fun _ => .done) (NodeIdentityStore.revoke now (dirOf store file))
  | .resetRegistration registrationHash now, file =>
    replacing (fun _ => .done)
      (NodeIdentityStore.resetRegistration registrationHash now (dirOf store file))

/-- The data directory after the operation of the store. -/
def Operation.dirAfter (d : DataDir) : Operation → DataDir
  | .construct fresh registrationHash         => (init fresh registrationHash d).2
  | .register call                            =>
    (NodeIdentityStore.register sha cipher store call d).2
  | .revoke now                               => (NodeIdentityStore.revoke now d).2
  | .resetRegistration registrationHash now   =>
    (NodeIdentityStore.resetRegistration registrationHash now d).2

/--
**An operation on its own** is that of the store: splitting it into what it
reads and what it replaces the file with has changed nothing about it.
-/
theorem act_identity (op : Operation) (file : Option Identity) :
    (serial (Operation.act sha cipher store)).next file op =
      (op.dirAfter sha cipher store (dirOf store file)).identity := by
  show (Operation.act sha cipher store op file).2.getD file = _
  cases op with
  -- the constructor writes if the hash it is given is another one than it finds
  | construct fresh registrationHash =>
    have hInit : (init fresh registrationHash (dirOf store file)).2.identity =
        some (seedIdentity fresh registrationHash file) := by
      simp [init, dirOf, store.localKey.2]
    rw [Operation.dirAfter, hInit]
    cases file with
    | none => rfl
    | some state =>
      cases registrationHash with
      | none => rfl
      | some hash =>
        unfold Operation.act seedIdentity
        dsimp only
        split <;> rfl
  -- a registration that is refused writes nothing
  | register call =>
    show (replacing .key (register sha cipher store call (dirOf store file))).2.getD file =
      (register sha cipher store call (dirOf store file)).2.identity
    rcases register_cases sha cipher store call (dirOf store file) with
      ⟨state, -, -, hEq⟩ | ⟨-, e, hEq⟩
    · rw [hEq]
      rfl
    · rw [hEq]
      rfl
  | revoke now => cases file <;> rfl
  | resetRegistration registrationHash now => cases file <;> rfl

end Operations

-- ---------------------------------------------------------------------------
-- Runs
-- ---------------------------------------------------------------------------

/-- The operations that have ended in a run have done what they do one after the
other.

* `file`, `answers`: the file and the answers are those of the operations in the
  order in which they ended.
* `key`: a signing key that was handed out is the one of the file as long as only
  constructions have followed.
-/
structure Serial {ι : Type} [DecidableEq ι] (sha : Sha256) (cipher : SecretsCipher)
    (store : NodeIdentityStore) (s : Site (Option Identity) Operation Answer ι)
    (turns : List ι) : Prop where
  file    : ((interleaved (Operation.act sha cipher store)).exec s turns).file =
              (serial (Operation.act sha cipher store)).exec s.file
                ((completed (Operation.act sha cipher store) s turns).map Prod.fst)
  answers : (completed (Operation.act sha cipher store) s turns).map Prod.snd =
              (serial (Operation.act sha cipher store)).log s.file
                ((completed (Operation.act sha cipher store) s turns).map Prod.fst)
  key     : ∀ before call key after,
              completed (Operation.act sha cipher store) s turns =
                before ++ (.register call, .key key) :: after →
              (∀ c ∈ after, ∃ fresh registrationHash, c.1 = .construct fresh registrationHash) →
              signingKey cipher store (dirOf store
                ((interleaved (Operation.act sha cipher store)).exec s turns).file) = .ok (some key)

section Runs

variable {sha : Sha256} {cipher : SecretsCipher} {store : NodeIdentityStore}

/-- A construction leaves the signing key alone. -/
theorem signingKey_construct {file : Option Identity} {key : Key32} (fresh : Fresh)
    (registrationHash : Option String)
    (h : signingKey cipher store (dirOf store file) = .ok (some key)) :
    signingKey cipher store (dirOf store ((serial (Operation.act sha cipher store)).next file
      (.construct fresh registrationHash))) = .ok (some key) := by
  cases file with
  | none => cases h
  | some state =>
    cases registrationHash with
    | none => exact h
    | some hash =>
      show signingKey cipher store (dirOf store ((Operation.act sha cipher store
        (.construct fresh (some hash)) (some state)).2.getD (some state))) = _
      unfold Operation.act
      dsimp only
      split
      · exact h
      · exact h

theorem signingKey_constructs {ops : List Operation} {file : Option Identity} {key : Key32}
    (hOps : ∀ op ∈ ops, ∃ fresh registrationHash, op = .construct fresh registrationHash)
    (h : signingKey cipher store (dirOf store file) = .ok (some key)) :
    signingKey cipher store (dirOf store
      ((serial (Operation.act sha cipher store)).exec file ops)) = .ok (some key) := by
  induction ops generalizing file with
  | nil => exact h
  | cons op rest ih =>
    obtain ⟨⟨fresh, registrationHash, rfl⟩, hRest⟩ := List.forall_mem_cons.mp hOps
    exact ih hRest (signingKey_construct fresh registrationHash h)

/-- A registration that answers with a key leaves it in the file. -/
theorem signingKey_registered {file : Option Identity} {call : RegisterCall} {key : Key32}
    (h : (serial (Operation.act sha cipher store)).out file (.register call) = .key key) :
    signingKey cipher store (dirOf store ((serial (Operation.act sha cipher store)).next file
      (.register call))) = .ok (some key) := by
  have hAnswer : (replacing .key (NodeIdentityStore.register sha cipher store call
      (dirOf store file))).1 = .key key := h
  have hRegister : (NodeIdentityStore.register sha cipher store call (dirOf store file)).1 =
      .ok key := by
    unfold replacing at hAnswer
    split at hAnswer
    · next k d hEq =>
      rw [hEq, Answer.key.inj hAnswer]
    · cases hAnswer
  rw [act_identity]
  exact signingKey_register hRegister

/-- **The identity file of several processes.** In a run in which every replaced
file is still the one that was read, the operations have done what they do one
after the other. -/
theorem identity_serial {ι : Type} [DecidableEq ι]
    {s : Site (Option Identity) Operation Answer ι} {turns : List ι}
    (hIdle : ∀ i, (s.process i).pending = none)
    (hCurrent : (interleaved (Operation.act sha cipher store)).Along (fun _ => Current) [] s
      turns) : Serial sha cipher store s turns := by
  have hMade : Made (Operation.act sha cipher store) s := by
    intro i w hPending
    rw [hIdle i] at hPending
    cases hPending
  obtain ⟨hFile, hAnswers⟩ := serial_of_current hMade hCurrent
  refine ⟨hFile, hAnswers, ?_⟩
  intro before call key after hSplit hAfter
  rw [hSplit, List.map_append, List.map_cons] at hFile hAnswers
  rw [List.map_append, List.map_cons, Machine.log_append, Machine.log_cons] at hAnswers
  have hLength : (before.map Prod.snd).length =
      ((serial (Operation.act sha cipher store)).log s.file (before.map Prod.fst)).length := by
    rw [Machine.length_log, List.length_map, List.length_map]
  obtain ⟨-, hTail⟩ := List.append_inj hAnswers hLength
  have hKey := (List.cons.inj hTail).1
  rw [hFile, Machine.exec_append, Machine.exec_cons]
  refine signingKey_constructs ?_ (signingKey_registered hKey.symm)
  intro op hOp
  obtain ⟨c, hMem, rfl⟩ := List.mem_map.mp hOp
  exact hAfter c hMem

end Runs

-- ---------------------------------------------------------------------------
-- A construction between
-- ---------------------------------------------------------------------------

inductive Side
  | agent | command
  deriving DecidableEq

/-- The hash of another token, in the environment of the command. -/
def environmentDigest : String :=
  "b5bb9d8014a0f9b1d61e21e796d78dccdf1352f23cd32812f4850b878ae4944c"

/-- The agent is to do one thing, and `cli info` constructs the store with the
hash of its environment. -/
def besideInfo (file : Identity) (op : Operation) : Site (Option Identity) Operation Answer Side where
  file    := some file
  process := fun side => match side with
    | .agent   => ⟨[op], none⟩
    | .command => ⟨[.construct bootstrapFresh (some environmentDigest)], none⟩

/-- The agent has its turns between the read and the replacement of the
command. -/
def agentBetween : List Side := [.command, .agent, .agent, .command]

def bootstrapStore : NodeIdentityStore := ⟨repeatedKey 7⟩

/-- An identity that waits for its token. -/
def waiting : Identity :=
  { nodeId := "6e6f64652d30303031", registrationTokenHash := bootstrapDigest, signingKeyEnc := none,
    registeredPanel := none, registeredAt := none }

/-- The same after its registration. -/
def registered : Identity :=
  paired plainCipher bootstrapStore (presenting "bootstrap-token-0001") waiting

abbrev bootstrapAct : Act (Option Identity) Operation Answer :=
  Operation.act bootstrapSha plainCipher bootstrapStore

/--
The agent registers, and `cli info` runs after it: one after the other, as the
turns are.
-/
theorem identity_serial_afterwards :
    Serial bootstrapSha plainCipher bootstrapStore
      (besideInfo waiting (.register (presenting "bootstrap-token-0001")))
      [.agent, .agent, .command, .command] := by
  refine identity_serial (fun side => by cases side <;> rfl) ?_
  exact ⟨current_of_idle rfl, current_after_read rfl, current_of_idle rfl, current_after_read rfl,
    trivial⟩

/-- A signing key that `register` has returned is gone after `cli info`; and a
node that is revoked meanwhile is paired again, which no order of the two would
make it. -/
theorem construction_undoes :
    (completed bootstrapAct (besideInfo waiting (.register (presenting "bootstrap-token-0001")))
        agentBetween =
          [(.register (presenting "bootstrap-token-0001"), .key (repeatedKey 0)),
            (.construct bootstrapFresh (some environmentDigest), .done)] ∧
      signingKey plainCipher bootstrapStore (dirOf bootstrapStore ((interleaved bootstrapAct).exec
        (besideInfo waiting (.register (presenting "bootstrap-token-0001"))) agentBetween).file) =
          .ok none) ∧
    ∀ order : List Operation,
      order.Perm ((completed bootstrapAct (besideInfo registered (.revoke 1)) agentBetween).map
        Prod.fst) →
      ((interleaved bootstrapAct).exec (besideInfo registered (.revoke 1)) agentBetween).file ≠
        (serial bootstrapAct).exec (some registered) order := by
  refine ⟨⟨rfl, rfl⟩, ?_⟩
  intro order hPerm hEq
  -- what is left has a panel; whichever came last, in order there is none
  have hPanel := congrArg (fun file => file.bind Identity.registeredPanel) hEq
  have hTwo : order.Perm [.revoke 1, .construct bootstrapFresh (some environmentDigest)] := hPerm
  obtain ⟨first, last, rfl⟩ := List.length_eq_two.mp hTwo.length_eq
  have hFirst : first = .revoke 1 ∨ first = .construct bootstrapFresh (some environmentDigest) := by
    simpa using hTwo.subset List.mem_cons_self
  rcases hFirst with rfl | rfl
  · obtain rfl := List.singleton_perm_singleton.mp ((List.perm_cons _).mp hTwo)
    have hNone : some "panel" = none := hPanel
    cases hNone
  · obtain rfl := List.singleton_perm_singleton.mp
      ((List.perm_cons _).mp (hTwo.trans (List.Perm.swap _ _ _)))
    have hNone : some "panel" = none := hPanel
    cases hNone

end ZagrosNode.Security
