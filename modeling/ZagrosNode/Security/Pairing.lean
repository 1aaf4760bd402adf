import Mathlib.Data.List.Induction
import ZagrosNode.Security.OneTimeToken

/-!
# ZagrosNode — the pairing as a state machine

What the panel and the operator see of one data directory: a register hands a
key out or is refused, a revoke or a reset forgets the pairing, and a start
leaves it alone. The pairing those answers add up to is the last registration
handed out, unless it was forgotten since.

The implementation keeps no such value. Every operation rewrites the whole of
`identity.json`, the key is in it only sealed under `identity.key` and bound to
the node id, and each new process unseals it with a cipher of its own. The
simulation relation `Tracks` says how the two files encode the abstract
pairing; every event keeps it.

`Reply` is the abstract side: what the callers are told. `current` folds the replies
of a run and is the whole specification, a value of four fields or nothing. On the
other side is a directory with an identity file, a sealed key and a local key, and
processes that come and go.

`Encodes` relates a pairing to an identity file under a local key: no pairing to a
file without a panel and without a key, and a registration to a file that names its
panel, its time, and holds its key sealed with the node id as associated data.
`Tracks` adds the file of the local key and the cipher of the live process. There is
one lemma for each event (`tracks_start` to `tracks_reset`), and `tracks_run` is the
induction.

What a process reads is then read off the relation: unsealing what was sealed under
the same key and id gives the key that was handed out.

Main results:

* `pairing_follows_log` — in every run from a directory without an identity,
  every live process reads exactly the pairing of the answers so far; the
  node id never changes, and a refused registration writes nothing.
* `current_eq_some_iff` — the pairing of a log is its last registration with
  nothing forgotten after it.
-/

namespace ZagrosNode.Security

open ZagrosNode.Lib NodeIdentityStore

-- ---------------------------------------------------------------------------
-- The properties a process reads
-- ---------------------------------------------------------------------------

namespace NodeIdentityStore

/-- `node_id` -/
def nodeId (d : DataDir) : Except Failure String := (read d).map Identity.nodeId

/-- `registered_panel` -/
def registeredPanel (d : DataDir) : Except Failure (Option String) :=
  (read d).map Identity.registeredPanel

/-- `registered_at` -/
def registeredAt (d : DataDir) : Except Failure (Option Int) :=
  (read d).map Identity.registeredAt

end NodeIdentityStore

-- ---------------------------------------------------------------------------
-- The abstract pairing
-- ---------------------------------------------------------------------------

/-- One successful registration: what was handed out, to whom and when. -/
structure Registration where
  key          : Key32
  panelId      : String
  registeredAt : Int
  deriving DecidableEq

/-- What the caller of an event gets back. -/
inductive Reply
  | handedOut (r : Registration)
  | refused
  | forgotten
  | silent
  deriving DecidableEq

/-- The pairing after one more answer. -/
def Reply.after (pairing : Option Registration) : Reply → Option Registration
  | .handedOut r => some r
  | .forgotten   => none
  | .refused     => pairing
  | .silent      => pairing

/-- The pairing that the answers of a run add up to. -/
def current (log : List Reply) : Option Registration := log.foldl Reply.after none

/-- The answer hands a registration out or forgets one. -/
def Reply.Decides : Reply → Prop
  | .handedOut _ => True
  | .forgotten   => True
  | .refused     => False
  | .silent      => False

theorem current_snoc (log : List Reply) (reply : Reply) :
    current (log ++ [reply]) = reply.after (current log) := by
  simp [current]

theorem after_of_not_decides {reply : Reply} (h : ¬ reply.Decides) (pairing : Option Registration) :
    reply.after pairing = pairing := by
  cases reply with
  | handedOut r => exact absurd trivial h
  | forgotten => exact absurd trivial h
  | refused => rfl
  | silent => rfl

/--
**The last registration.** The pairing of a log is `r` exactly when the log
hands `r` out and decides nothing after that. Answers that decide nothing may
stand anywhere in between.
-/
theorem current_eq_some_iff {log : List Reply} {r : Registration} :
    current log = some r ↔
      ∃ pre post, log = pre ++ .handedOut r :: post ∧ ∀ reply ∈ post, ¬ reply.Decides := by
  -- on the end of the log, where the last decision is
  induction log using List.reverseRecOn with
  | nil => simp [current]
  | append_singleton log reply ih =>
    rw [current_snoc]
    constructor
    · intro h
      -- the last answer decides, or the pairing was decided before it
      by_cases hDecides : reply.Decides
      · cases reply with
        | handedOut r' =>
          obtain rfl := Option.some.inj h
          exact ⟨log, [], rfl, by simp⟩
        | forgotten => cases h
        | refused => exact absurd hDecides id
        | silent => exact absurd hDecides id
      · rw [after_of_not_decides hDecides] at h
        obtain ⟨pre, post, rfl, hPost⟩ := ih.mp h
        refine ⟨pre, post ++ [reply], by simp, ?_⟩
        intro reply' hMem
        rcases List.mem_append.mp hMem with hOld | hNew
        · exact hPost reply' hOld
        · obtain rfl := List.mem_singleton.mp hNew
          exact hDecides
    · rintro ⟨pre, post, hEq, hPost⟩
      rcases List.eq_nil_or_concat post with rfl | ⟨post', last, rfl⟩
      · -- the registration is the last answer
        obtain ⟨-, hLast⟩ := List.append_inj' hEq rfl
        obtain rfl := (List.cons.inj hLast).1
        rfl
      · have hSplit : log = pre ++ .handedOut r :: post' ∧ [reply] = [last] := by
          refine List.append_inj' ?_ rfl
          rw [hEq]
          simp
        obtain ⟨hLog, hLast⟩ := hSplit
        obtain rfl := (List.cons.inj hLast).1
        rw [after_of_not_decides (hPost reply (by simp))]
        exact ih.mpr ⟨pre, post', hLog, fun reply' h => hPost reply' (by simp [h])⟩

-- ---------------------------------------------------------------------------
-- The implementation's answers
-- ---------------------------------------------------------------------------

variable (sha : Sha256) (cipher : SecretsCipher)

/-- The answer to an event. Without a live process nobody answers. -/
def Node.reply (n : Node) : Event → Reply
  | .start _ _ => .silent
  | .register call =>
    match n.process with
    | none       => .silent
    | some store =>
      match (NodeIdentityStore.register sha cipher store call n.dir).1 with
      | .ok key  => .handedOut ⟨key, call.panelId, call.now⟩
      | .error _ => .refused
  | .revoke now =>
    match n.process with
    | none   => .silent
    | some _ =>
      match (NodeIdentityStore.revoke now n.dir).1 with
      | .ok _    => .forgotten
      | .error _ => .refused
  | .reset hash now =>
    match n.process with
    | none   => .silent
    | some _ =>
      match (resetRegistration hash now n.dir).1 with
      | .ok _    => .forgotten
      | .error _ => .refused

/-- The runs over one data directory, with the answers they give. -/
def pairings : Machine Node Event Reply where
  step n ev := ((n.step sha cipher ev).1, n.reply sha cipher ev)

-- ---------------------------------------------------------------------------
-- The simulation relation
-- ---------------------------------------------------------------------------

variable {sha cipher}

/-- How an identity file encodes a pairing under the local key. -/
def Encodes (cipher : SecretsCipher) (localKey : Key32) (state : Identity) :
    Option Registration → Prop
  | none   => state.signingKeyEnc = none ∧ state.registeredPanel = none ∧
      state.registeredAt = none
  | some r =>
    (∃ nonce, state.signingKeyEnc =
        some (cipher.encrypt localKey nonce r.key (signingAad state.nodeId))) ∧
      state.registeredPanel = some r.panelId ∧ state.registeredAt = some r.registeredAt

/-- The files of the data directory encode the pairing, and the live process
holds the key of the key file. -/
structure Tracks (cipher : SecretsCipher) (pairing : Option Registration) (n : Node) : Prop where
  live    : ∀ store, n.process = some store →
              n.dir.identityKey = some store.localKey.val ∧ ∃ state, n.dir.identity = some state
  written : ∀ state, n.dir.identity = some state →
              ∃ localKey : Key32, n.dir.identityKey = some localKey.val ∧
                Encodes cipher localKey state pairing
  missing : n.dir.identity = none → pairing = none

/-- A directory without an identity encodes no pairing. -/
theorem tracks_fresh (cipher : SecretsCipher) (keyFile : Option Bytes) (audit : List AuditRow) :
    Tracks cipher (current []) ⟨⟨keyFile, none, audit⟩, none⟩ where
  live _ hNone := by cases hNone
  written _ hNone := by cases hNone
  missing _ := rfl

theorem encodes_hash {localKey : Key32} {state : Identity} {pairing : Option Registration}
    (h : Encodes cipher localKey state pairing) (hash : String) :
    Encodes cipher localKey { state with registrationTokenHash := hash } pairing := by
  cases pairing with
  | none => exact h
  | some r => exact h

theorem encodes_unpair (cipher : SecretsCipher) (localKey : Key32) (state : Identity) :
    Encodes cipher localKey (unpair state) none := ⟨rfl, rfl, rfl⟩

theorem encodes_paired (store : NodeIdentityStore) (call : RegisterCall) (state : Identity) :
    Encodes cipher store.localKey (paired cipher store call state)
      (some ⟨call.key, call.panelId, call.now⟩) :=
  ⟨⟨call.nonce, rfl⟩, rfl, rfl⟩

/-- Whatever a start seeds encodes the pairing that was there. -/
theorem encodes_seed {localKey : Key32} {fresh : Fresh} {registrationHash : Option String}
    {state : Identity} {pairing : Option Registration}
    (h : Encodes cipher localKey state pairing) :
    Encodes cipher localKey (seedIdentity fresh registrationHash (some state)) pairing := by
  cases registrationHash with
  | none => exact h
  | some hash =>
    simp only [seedIdentity]
    split
    · exact encodes_hash h hash
    · exact h

/-- A rewrite of the identity file under the key that is there. -/
theorem tracks_commit {n : Node} {state : Identity} {row : AuditRow} {localKey : Key32}
    {pairing : Option Registration} (hKey : n.dir.identityKey = some localKey.val)
    (hLive : ∀ store, n.process = some store → n.dir.identityKey = some store.localKey.val)
    (hEnc : Encodes cipher localKey state pairing) :
    Tracks cipher pairing { n with dir := commit n.dir state row } where
  live store hProc := ⟨hLive store hProc, state, rfl⟩
  written state' hState := by
    obtain rfl := Option.some.inj hState
    exact ⟨localKey, hKey, hEnc⟩
  missing hNone := by cases hNone

-- ---------------------------------------------------------------------------
-- Every event keeps it
-- ---------------------------------------------------------------------------

theorem tracks_start {pairing : Option Registration} {n : Node} (h : Tracks cipher pairing n)
    (fresh : Fresh) (registrationHash : Option String) :
    Tracks cipher pairing (n.start fresh registrationHash) := by
  unfold Node.start NodeIdentityStore.init
  -- the local key is that of the file, or a fresh one
  by_cases hLen : (n.dir.identityKey.getD fresh.localKey).length = 32
  · simp only [dif_pos hLen]
    refine ⟨?_, ?_, ?_⟩
    · intro store hProc
      obtain rfl := Option.some.inj hProc
      exact ⟨rfl, _, rfl⟩
    · intro state' hState
      obtain rfl := Option.some.inj hState
      refine ⟨⟨n.dir.identityKey.getD fresh.localKey, hLen⟩, rfl, ?_⟩
      cases hId : n.dir.identity with
      | none =>
        rw [h.missing hId]
        exact ⟨rfl, rfl, rfl⟩
      | some state =>
        obtain ⟨localKey, hKey, hEnc⟩ := h.written state hId
        -- an identity that is there is encrypted with the key that is there
        have hSame : (⟨n.dir.identityKey.getD fresh.localKey, hLen⟩ : Key32) = localKey :=
          Subtype.ext (by simp [hKey])
        rw [hSame]
        exact encodes_seed hEnc
    · intro hNone
      cases hNone
  · -- the constructor raises; an identity file has a key of 32 bytes beside it
    simp only [dif_neg hLen]
    have hNone : n.dir.identity = none := by
      cases hId : n.dir.identity with
      | none => rfl
      | some state =>
        obtain ⟨localKey, hKey, -⟩ := h.written state hId
        rw [hKey, Option.getD_some] at hLen
        exact absurd localKey.property hLen
    refine ⟨?_, ?_, h.missing⟩
    · intro store hProc
      obtain ⟨-, state, hState⟩ := h.live store hProc
      rw [hNone] at hState
      cases hState
    · intro state hState
      have hNone' : (none : Option Identity) = some state := hNone ▸ hState
      cases hNone'

theorem tracks_register {pairing : Option Registration} {n : Node}
    (h : Tracks cipher pairing n) (call : RegisterCall) :
    Tracks cipher ((n.reply sha cipher (.register call)).after pairing)
      (n.step sha cipher (.register call)).1 := by
  cases hProc : n.process with
  | none =>
    simp only [Node.step, Node.reply, hProc]
    exact h
  | some store =>
    rcases register_cases sha cipher store call n.dir with ⟨state, -, -, hEq⟩ | ⟨-, e, hEq⟩
    · have hLive : ∀ store', n.process = some store' →
          n.dir.identityKey = some store'.localKey.val := fun s hs => (h.live s hs).1
      have hStep : (n.step sha cipher (.register call)).1 =
          ⟨commit n.dir (paired cipher store call state)
            ⟨call.now, "node.register", [("panel_id", call.panelId)]⟩, n.process⟩ := by
        simp only [Node.step, hProc, hEq]
      have hReply : n.reply sha cipher (.register call) =
          .handedOut ⟨call.key, call.panelId, call.now⟩ := by
        simp only [Node.reply, hProc, hEq]
      rw [hStep, hReply]
      exact tracks_commit (hLive store hProc) hLive (encodes_paired store call state)
    · have hStep : (n.step sha cipher (.register call)).1 = ⟨n.dir, n.process⟩ := by
        simp only [Node.step, hProc, hEq]
      have hReply : n.reply sha cipher (.register call) = .refused := by
        simp only [Node.reply, hProc, hEq]
      rw [hStep, hReply]
      exact h

theorem tracks_revoke {pairing : Option Registration} {n : Node}
    (h : Tracks cipher pairing n) (now : Int) :
    Tracks cipher ((n.reply sha cipher (.revoke now)).after pairing)
      (n.step sha cipher (.revoke now)).1 := by
  cases hProc : n.process with
  | none =>
    simp only [Node.step, Node.reply, hProc]
    exact h
  | some store =>
    obtain ⟨hKey, state, hState⟩ := h.live store hProc
    have hStep : (n.step sha cipher (.revoke now)).1 =
        ⟨commit n.dir (unpair state) ⟨now, "node.revoke", []⟩, n.process⟩ := by
      simp only [Node.step, hProc, NodeIdentityStore.revoke, NodeIdentityStore.read, hState]
    have hReply : n.reply sha cipher (.revoke now) = .forgotten := by
      simp only [Node.reply, hProc, NodeIdentityStore.revoke, NodeIdentityStore.read, hState]
    rw [hStep, hReply]
    exact tracks_commit hKey (fun s hs => (h.live s hs).1)
      (encodes_unpair cipher store.localKey state)

theorem tracks_reset {pairing : Option Registration} {n : Node}
    (h : Tracks cipher pairing n) (hash : String) (now : Int) :
    Tracks cipher ((n.reply sha cipher (.reset hash now)).after pairing)
      (n.step sha cipher (.reset hash now)).1 := by
  cases hProc : n.process with
  | none =>
    simp only [Node.step, Node.reply, hProc]
    exact h
  | some store =>
    obtain ⟨hKey, state, hState⟩ := h.live store hProc
    have hStep : (n.step sha cipher (.reset hash now)).1 =
        ⟨commit n.dir { unpair state with registrationTokenHash := hash }
          ⟨now, "node.reset_registration", []⟩, n.process⟩ := by
      simp only [Node.step, hProc, resetRegistration, NodeIdentityStore.read, hState]
    have hReply : n.reply sha cipher (.reset hash now) = .forgotten := by
      simp only [Node.reply, hProc, resetRegistration, NodeIdentityStore.read, hState]
    rw [hStep, hReply]
    exact tracks_commit hKey (fun s hs => (h.live s hs).1)
      (encodes_hash (encodes_unpair cipher store.localKey state) hash)

/--
**Step.** Every event takes the files to the pairing its answer leaves. An
answer that decides nothing leaves the pairing, whatever else the event has
written.
-/
theorem tracks_step {pairing : Option Registration} {n : Node} (h : Tracks cipher pairing n)
    (ev : Event) :
    Tracks cipher (((pairings sha cipher).out n ev).after pairing)
      ((pairings sha cipher).next n ev) := by
  cases ev with
  | start fresh registrationHash => exact tracks_start h fresh registrationHash
  | register call => exact tracks_register h call
  | revoke now => exact tracks_revoke h now
  | reset hash now => exact tracks_reset h hash now

/--
**Run.** The pairing of the whole log is the one in the files, after any
events. By induction on the events; the log of before is carried along, because
the last decision may lie in it.
-/
theorem tracks_run (sha : Sha256) {log : List Reply} {n : Node}
    (h : Tracks cipher (current log) n) (evs : List Event) :
    Tracks cipher (current (log ++ (pairings sha cipher).log n evs))
      ((pairings sha cipher).exec n evs) := by
  have hStep : ∀ (log : List Reply) (n : Node) (ev : Event), Tracks cipher (current log) n →
      True → Tracks cipher (current (log ++ [(pairings sha cipher).out n ev]))
        ((pairings sha cipher).next n ev) := by
    intro log n ev hTracks _
    rw [current_snoc]
    exact tracks_step hTracks ev
  have hAll : (pairings sha cipher).Along (fun _ _ _ => True) log n evs := by
    rw [Machine.along_iff]
    intros
    trivial
  exact (pairings sha cipher).along_inv (fun log n => Tracks cipher (current log) n) hStep h hAll

-- ---------------------------------------------------------------------------
-- What a live process reads
-- ---------------------------------------------------------------------------

theorem signingKey_of_encodes {store : NodeIdentityStore} {d : DataDir} {state : Identity}
    {pairing : Option Registration} (hId : d.identity = some state)
    (h : Encodes cipher store.localKey state pairing) :
    signingKey cipher store d = .ok (pairing.map Registration.key) := by
  cases pairing with
  | none =>
    obtain ⟨hKey, -, -⟩ := h
    simp [signingKey, NodeIdentityStore.read, hId, hKey]
  | some r =>
    obtain ⟨⟨nonce, hKey⟩, -, -⟩ := h
    have hNe := cipher.encrypt_ne_empty store.localKey nonce r.key (signingAad state.nodeId)
    simp [signingKey, NodeIdentityStore.read, hId, hKey, hNe, cipher.decrypt_encrypt,
      r.key.property]

theorem registered_of_encodes {localKey : Key32} {d : DataDir} {state : Identity}
    {pairing : Option Registration} (hId : d.identity = some state)
    (h : Encodes cipher localKey state pairing) :
    registeredPanel d = .ok (pairing.map Registration.panelId) ∧
      registeredAt d = .ok (pairing.map Registration.registeredAt) := by
  cases pairing with
  | none =>
    obtain ⟨-, hPanel, hAt⟩ := h
    simp [registeredPanel, registeredAt, NodeIdentityStore.read, hId, hPanel, hAt, Except.map]
  | some r =>
    obtain ⟨-, hPanel, hAt⟩ := h
    simp [registeredPanel, registeredAt, NodeIdentityStore.read, hId, hPanel, hAt, Except.map]

/-- What a live process reads where the files encode `pairing`. -/
theorem reads_of_tracks {pairing : Option Registration} {n : Node} (h : Tracks cipher pairing n)
    {store : NodeIdentityStore} (hProc : n.process = some store) :
    signingKey cipher store n.dir = .ok (pairing.map Registration.key) ∧
      registeredPanel n.dir = .ok (pairing.map Registration.panelId) ∧
      registeredAt n.dir = .ok (pairing.map Registration.registeredAt) := by
  obtain ⟨hKey, state, hState⟩ := h.live store hProc
  obtain ⟨localKey, hKey', hEnc⟩ := h.written state hState
  have hSame : store.localKey = localKey :=
    Subtype.ext (Option.some.inj (hKey.symm.trans hKey'))
  exact ⟨signingKey_of_encodes hState (hSame ▸ hEnc), registered_of_encodes hState hEnc⟩

-- ---------------------------------------------------------------------------
-- The node id
-- ---------------------------------------------------------------------------

theorem nodeId_eq_ok_iff {d : DataDir} {id : String} :
    nodeId d = .ok id ↔ ∃ state, d.identity = some state ∧ state.nodeId = id := by
  cases hId : d.identity with
  | none => simp [nodeId, NodeIdentityStore.read, hId, Except.map]
  | some state => simp [nodeId, NodeIdentityStore.read, hId, Except.map]

theorem seedIdentity_nodeId (fresh : Fresh) (registrationHash : Option String)
    (state : Identity) :
    (seedIdentity fresh registrationHash (some state)).nodeId = state.nodeId := by
  cases registrationHash with
  | none => rfl
  | some hash =>
    simp only [seedIdentity]
    split
    · rfl
    · rfl

/-- No event changes the node id. -/
theorem nodeId_step {n : Node} {id : String} (h : nodeId n.dir = .ok id) (ev : Event) :
    nodeId ((pairings sha cipher).next n ev).dir = .ok id := by
  obtain ⟨state, hState, hId⟩ := nodeId_eq_ok_iff.mp h
  refine nodeId_eq_ok_iff.mpr ?_
  show ∃ state', (n.step sha cipher ev).1.dir.identity = some state' ∧ state'.nodeId = id
  cases ev with
  -- a constructor keeps the id of an identity it finds
  | start fresh registrationHash =>
    simp only [Node.step]
    rcases start_identity n fresh registrationHash with hSame | ⟨-, hSeed⟩
    · exact ⟨state, hSame.trans hState, hId⟩
    · rw [hState] at hSeed
      exact ⟨_, hSeed, (seedIdentity_nodeId fresh registrationHash state).trans hId⟩
  -- a registration replaces the pairing in the identity
  | register call =>
    cases hProc : n.process with
    | none => exact ⟨state, by simp only [Node.step, hProc, hState], hId⟩
    | some store =>
      rcases register_cases sha cipher store call n.dir with ⟨state', hId', -, hEq⟩ | ⟨-, e, hEq⟩
      · obtain rfl := Option.some.inj (hState.symm.trans hId')
        exact ⟨paired cipher store call state, by simp only [Node.step, hProc, hEq, commit], hId⟩
      · exact ⟨state, by simp only [Node.step, hProc, hEq, hState], hId⟩
  | revoke now =>
    cases hProc : n.process with
    | none => exact ⟨state, by simp only [Node.step, hProc, hState], hId⟩
    | some store =>
      refine ⟨unpair state, ?_, hId⟩
      simp only [Node.step, hProc, NodeIdentityStore.revoke, NodeIdentityStore.read, hState]
      rfl
  | reset hash now =>
    cases hProc : n.process with
    | none => exact ⟨state, by simp only [Node.step, hProc, hState], hId⟩
    | some store =>
      refine ⟨{ unpair state with registrationTokenHash := hash }, ?_, hId⟩
      simp only [Node.step, hProc, resetRegistration, NodeIdentityStore.read, hState]
      rfl

-- ---------------------------------------------------------------------------
-- The pairing follows the log
-- ---------------------------------------------------------------------------

/--
**The pairing state machine.** Take any run of starts, registrations,
revocations and resets over a data directory that has no identity yet.
Wherever a process is live, its signing key, panel and pairing time are those
of the pairing of the answers so far, and nothing where there is none. The
node id it reads is there, and no continuation of the run changes it. A
registration that is refused leaves the data directory as it was.
-/
theorem pairing_follows_log (sha : Sha256) (cipher : SecretsCipher) (keyFile : Option Bytes)
    (audit : List AuditRow) (evs : List Event) (store : NodeIdentityStore) :
    let run := pairings sha cipher
    let n := run.exec ⟨⟨keyFile, none, audit⟩, none⟩ evs
    let pairing := current (run.log ⟨⟨keyFile, none, audit⟩, none⟩ evs)
    n.process = some store →
      (signingKey cipher store n.dir = .ok (pairing.map Registration.key) ∧
        registeredPanel n.dir = .ok (pairing.map Registration.panelId) ∧
        registeredAt n.dir = .ok (pairing.map Registration.registeredAt)) ∧
      (∃ id, nodeId n.dir = .ok id ∧ ∀ later, nodeId (run.exec n later).dir = .ok id) ∧
      ∀ call e, (NodeIdentityStore.register sha cipher store call n.dir).1 = .error e →
        (NodeIdentityStore.register sha cipher store call n.dir).2 = n.dir := by
  intro run n pairing hProc
  have hTracks : Tracks cipher pairing n :=
    tracks_run sha (tracks_fresh cipher keyFile audit) evs
  refine ⟨reads_of_tracks hTracks hProc, ?_, ?_⟩
  · obtain ⟨-, state, hState⟩ := hTracks.live store hProc
    have hId : nodeId n.dir = .ok state.nodeId := nodeId_eq_ok_iff.mpr ⟨state, hState, rfl⟩
    refine ⟨state.nodeId, hId, ?_⟩
    intro later
    exact run.exec_inv (P := fun n => nodeId n.dir = .ok state.nodeId)
      (fun n ev h => nodeId_step h ev) hId later
  · intro call e hErr
    rcases register_cases sha cipher store call n.dir with ⟨_, -, -, hEq⟩ | ⟨-, _, hEq⟩
    · rw [hEq] at hErr
      cases hErr
    · rw [hEq]

/-- The agent starts, the panel registers, the agent restarts. -/
def registerThenRestart : List Event :=
  [.start bootstrapFresh none, .reset bootstrapDigest 1700000000,
    .register (presenting "bootstrap-token-0001"), .start bootstrapFresh none]

/-- The restarted agent unseals the key that was handed out. -/
theorem pairing_follows_log_restart :
    let n := (pairings bootstrapSha plainCipher).exec Node.fresh registerThenRestart
    current ((pairings bootstrapSha plainCipher).log Node.fresh registerThenRestart) =
        some ⟨repeatedKey 0, "panel", 0⟩ ∧
      signingKey plainCipher ⟨repeatedKey 7⟩ n.dir = .ok (some (repeatedKey 0)) :=
  ⟨by decide,
    (pairing_follows_log bootstrapSha plainCipher none [] registerThenRestart
      ⟨repeatedKey 7⟩ rfl).1.1⟩

end ZagrosNode.Security
