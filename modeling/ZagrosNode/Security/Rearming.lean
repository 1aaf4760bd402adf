import ZagrosNode.Security.Pairing

/-!
# ZagrosNode — does an operator's re-arming last?

`reset_registration` is the operator's way to move a node: forget the panel
and accept a new token. The hash it stores has a second writer. Every
construction of `NodeIdentityStore` with the hash of the environment (the
agent at each start, `cli info`) stores that hash whenever another one is
there, and the hash the operator just stored is another one.

After `reset_registration` with the operator's hash the directory has that hash until
somebody registers. `Between` are the events that may come in the meantime, all of
them on a node whose environment holds one hash `e`; another reset is not among them,
since it starts the question anew.

A construction with the environment's hash replaces the operator's unless the two are
equal. That only matters if some token tells them apart: `Interchangeable` says that
none does, which for a hash function without collisions means that the hashes are
the same. `hashAfter` follows the stored hash through an event, so the state of the
directory need not be followed any further than to its hash.

The condition of the theorem is on the events: no construction with a hash that
matters gets through before the next registration. Both directions are by induction
over the events, the harmful construction being the last step looked at.

Main results:

* `rearming_durable_iff` — between a reset and the next pairing, exactly the
  operator's token is accepted throughout, if and only if no construction
  brings a differing hash of the environment that matters.
* `restart_undoes_reset` — reset, restart of the agent with its unchanged
  environment: the bootstrap token is the accepted one again.
-/

namespace ZagrosNode.Security

open ZagrosNode.Lib NodeIdentityStore

-- ---------------------------------------------------------------------------
-- What happens between a reset and the next pairing
-- ---------------------------------------------------------------------------

/-- `CFG.registration_hash or None` -/
def environmentHash (e : String) : Option String := if e = "" then none else some e

/-- The events of a node whose environment holds the hash `e`, resets apart.
The agent and `cli info` construct the store with that hash, the other
commands without one. -/
inductive Between (e : String) : Event → Prop
  | construct (fresh : Fresh) : Between e (.start fresh (environmentHash e))
  | command (fresh : Fresh) : Between e (.start fresh none)
  | register (call : RegisterCall) : Between e (.register call)
  | revoke (now : Int) : Between e (.revoke now)

variable (sha : Sha256) (cipher : SecretsCipher)

/-- Whoever serves the data directory accepts exactly the tokens with the
digest `h`. -/
def AcceptsOnly (h : String) (n : Node) : Prop :=
  ∀ (store : NodeIdentityStore) (call : RegisterCall),
    (∃ key, (NodeIdentityStore.register sha cipher store call n.dir).1 = .ok key) ↔
      tokenHash sha call.token = h

/-- The hash of the identity file. -/
def Node.storedHash (n : Node) : Option String := n.dir.identity.map Identity.registrationTokenHash

/-- A token is accepted under the stored hash `x` exactly when it would be
under `h`. -/
def Interchangeable (h x : String) : Prop :=
  ∀ token, x = tokenHash sha token ↔ tokenHash sha token = h

/-- The stored hash after an event in which no registration succeeds. -/
def hashAfter (x : String) : Event → String
  | .start _ registrationHash => registrationHash.getD x
  | .reset hash _             => hash
  | .register _               => x
  | .revoke _                 => x

variable {sha cipher}

theorem acceptsOnly_iff {h x : String} {n : Node} (hStored : n.storedHash = some x) :
    AcceptsOnly sha cipher h n ↔ Interchangeable sha h x := by
  obtain ⟨state, hState, hHash⟩ := Option.map_eq_some_iff.mp hStored
  have hRegister : ∀ store call,
      (∃ key, (NodeIdentityStore.register sha cipher store call n.dir).1 = .ok key) ↔
        x = tokenHash sha call.token := by
    intro store call
    rw [register_ok_iff]
    constructor
    · rintro ⟨state', hState', hDigest⟩
      obtain rfl := Option.some.inj (hState.symm.trans hState')
      exact hHash.symm.trans hDigest
    · intro hDigest
      exact ⟨state, hState, hHash.trans hDigest⟩
  constructor
  · intro hAll token
    have hToken := hAll ⟨repeatedKey 0⟩ (presenting token)
    rw [hRegister] at hToken
    exact hToken
  · intro hAll store call
    rw [hRegister]
    exact hAll call.token

theorem interchangeable_self (sha : Sha256) (h : String) : Interchangeable sha h h :=
  fun _ => eq_comm

/-- Two hashes stand for the same tokens exactly when they are equal or
neither is the digest of a token. -/
theorem interchangeable_iff {h x : String} :
    Interchangeable sha h x ↔
      x = h ∨ ∀ token, tokenHash sha token ≠ h ∧ tokenHash sha token ≠ x := by
  constructor
  · intro hAll
    by_cases hEq : x = h
    · exact Or.inl hEq
    · refine Or.inr fun token => ⟨?_, ?_⟩
      · intro hToken
        exact hEq (((hAll token).mpr hToken).trans hToken)
      · intro hToken
        exact hEq (hToken.symm.trans ((hAll token).mp hToken.symm))
  · rintro (rfl | hNone) token
    · exact eq_comm
    · obtain ⟨hNotH, hNotX⟩ := hNone token
      exact ⟨fun hEq => absurd hEq.symm hNotX, fun hEq => absurd hEq hNotH⟩

-- ---------------------------------------------------------------------------
-- The stored hash along a run
-- ---------------------------------------------------------------------------

theorem seedIdentity_storedHash {fresh : Fresh} {registrationHash : Option String}
    {state : Identity} (hNe : registrationHash ≠ some "") :
    (seedIdentity fresh registrationHash (some state)).registrationTokenHash =
      registrationHash.getD state.registrationTokenHash := by
  cases registrationHash with
  | none => rfl
  | some hash =>
    have hHash : hash ≠ "" := fun hEq => hNe (congrArg some hEq)
    by_cases hSame : state.registrationTokenHash = hash
    · simp [seedIdentity, hSame]
    · simp [seedIdentity, hHash, hSame]

theorem between_hash_ne {e : String} {fresh : Fresh} {registrationHash : Option String}
    (h : Between e (.start fresh registrationHash)) : registrationHash ≠ some "" := by
  cases h with
  | construct _ =>
    intro hEq
    by_cases he : e = ""
    · rw [environmentHash, if_pos he] at hEq
      cases hEq
    · rw [environmentHash, if_neg he] at hEq
      exact he (Option.some.inj hEq)
  | command _ =>
    intro hEq
    cases hEq

/--
**Step.** An event between a reset and the next pairing writes the hash it
carries, if it carries one. Only the construction of a store does, and it
writes the environment's over any other.
-/
theorem storedHash_step {e x : String} {pairing : Option Registration} {n : Node} {ev : Event}
    (hTracks : Tracks cipher pairing n) (hStored : n.storedHash = some x) (hEv : Between e ev)
    (hOut : ∀ r, (pairings sha cipher).out n ev ≠ .handedOut r) :
    ((pairings sha cipher).next n ev).storedHash = some (hashAfter x ev) := by
  obtain ⟨state, hState, hHash⟩ := Option.map_eq_some_iff.mp hStored
  show (n.step sha cipher ev).1.storedHash = some (hashAfter x ev)
  cases ev with
  | start fresh registrationHash =>
    obtain ⟨localKey, hKey, -⟩ := hTracks.written state hState
    -- the key is there, so the constructor does not raise
    have hLen : (n.dir.identityKey.getD fresh.localKey).length = 32 := by
      rw [hKey, Option.getD_some]
      exact localKey.property
    have hNew : (n.start fresh registrationHash).dir.identity =
        some (seedIdentity fresh registrationHash (some state)) := by
      simp [Node.start, NodeIdentityStore.init, hLen, hState]
    simp only [Node.step, Node.storedHash, hNew, Option.map_some, hashAfter]
    rw [seedIdentity_storedHash (between_hash_ne hEv), hHash]
  | register call =>
    cases hProc : n.process with
    | none =>
      simp only [Node.step, hProc, hashAfter]
      exact hStored
    | some store =>
      rcases register_cases sha cipher store call n.dir with ⟨_, -, -, hEq⟩ | ⟨-, error, hEq⟩
      · -- the registration would have succeeded
        refine absurd ?_ (hOut ⟨call.key, call.panelId, call.now⟩)
        show n.reply sha cipher (.register call) = _
        simp only [Node.reply, hProc, hEq]
      · simp only [Node.step, hProc, hEq, hashAfter]
        exact hStored
  -- a revocation leaves the hash
  | revoke now =>
    cases hProc : n.process with
    | none =>
      simp only [Node.step, hProc, hashAfter]
      exact hStored
    | some store =>
      simp only [Node.step, hProc, NodeIdentityStore.revoke, NodeIdentityStore.read, hState,
        Node.storedHash, commit, Option.map_some, hashAfter]
      exact congrArg some hHash
  | reset hash now => cases hEv

/-- The hash of the environment, or the one there was. -/
theorem hashAfter_between {e x : String} {ev : Event} (hEv : Between e ev) :
    hashAfter x ev = x ∨ (hashAfter x ev = e ∧ ∃ fresh, ev = .start fresh (some e)) := by
  cases hEv with
  | construct fresh =>
    by_cases he : e = ""
    · rw [environmentHash, if_pos he]
      exact Or.inl rfl
    · rw [environmentHash, if_neg he]
      exact Or.inr ⟨rfl, fresh, rfl⟩
  | command fresh => exact Or.inl rfl
  | register call => exact Or.inl rfl
  | revoke now => exact Or.inl rfl

/-- The state while the operator's hash `h` should be in force: the directory
holds some hash, and the files encode some pairing. -/
def Armed (cipher : SecretsCipher) (n : Node) : Prop :=
  (∃ pairing, Tracks cipher pairing n) ∧ ∃ x, n.storedHash = some x

/-- Along a run that pairs with nobody, exactly the tokens of `h` stay
accepted if and only if every construction with the environment's hash finds
it interchangeable with `h`. -/
theorem acceptsOnly_run {e h : String} {n : Node} {evs : List Event} (hArmed : Armed cipher n)
    (hFirst : AcceptsOnly sha cipher h n) (hEvs : ∀ ev ∈ evs, Between e ev)
    (hLog : ∀ r, .handedOut r ∉ (pairings sha cipher).log n evs) :
    (pairings sha cipher).Always (AcceptsOnly sha cipher h) n evs ↔
      ∀ fresh, .start fresh (some e) ∈ evs → Interchangeable sha h e := by
  -- on the events; the stored hash is known after each
  induction evs generalizing n with
  | nil =>
    constructor
    · rintro - fresh hMem
      cases hMem
    · intro _ pre post hEq
      obtain ⟨rfl, -⟩ := List.append_eq_nil_iff.mp hEq.symm
      exact hFirst
  | cons ev evs ih =>
    have hEv : Between e ev := hEvs ev (by simp)
    have hOut : ∀ r, (pairings sha cipher).out n ev ≠ .handedOut r := by
      intro r hEq
      exact hLog r (by simp [hEq])
    obtain ⟨⟨pairing, hTracks⟩, x, hStored⟩ := hArmed
    have hNext := storedHash_step hTracks hStored hEv hOut
    have hArmed' : Armed cipher ((pairings sha cipher).next n ev) :=
      ⟨⟨_, tracks_step hTracks ev⟩, _, hNext⟩
    have hRest : ∀ ev' ∈ evs, Between e ev' := fun ev' hMem => hEvs ev' (by simp [hMem])
    have hLog' : ∀ r, .handedOut r ∉ (pairings sha cipher).log
        ((pairings sha cipher).next n ev) evs := by
      intro r hMem
      exact hLog r (by simp [hMem])
    rw [Machine.always_cons]
    constructor
    -- the step that writes the environment's hash has the property afterwards
    · rintro ⟨-, hAlways⟩ fresh hMem
      have hSecond := Machine.always_start _ hAlways
      rcases List.mem_cons.mp hMem with rfl | hLater
      · exact (acceptsOnly_iff hNext).mp hSecond
      · exact (ih hArmed' hSecond hRest hLog').mp hAlways fresh hLater
    -- a step leaves the hash, or writes one that is interchangeable
    · intro hAll
      have hSecond : AcceptsOnly sha cipher h ((pairings sha cipher).next n ev) := by
        rw [acceptsOnly_iff hNext]
        rcases hashAfter_between (x := x) hEv with hSame | ⟨hNew, fresh, rfl⟩
        · rw [hSame]
          exact (acceptsOnly_iff hStored).mp hFirst
        · rw [hNew]
          exact hAll fresh (by simp)
      exact ⟨hFirst, (ih hArmed' hSecond hRest hLog').mpr
        fun fresh hMem => hAll fresh (by simp [hMem])⟩

-- ---------------------------------------------------------------------------
-- Durable re-arming
-- ---------------------------------------------------------------------------

/-- The directory of a reset: the operator's hash is stored, and exactly its
token is accepted. -/
theorem armed_reset (sha : Sha256) {n : Node} {pairing : Option Registration}
    (hTracks : Tracks cipher pairing n) (hLive : n.process ≠ none) (h : String) (now : Int) :
    Armed cipher ((pairings sha cipher).next n (.reset h now)) ∧
      ((pairings sha cipher).next n (.reset h now)).storedHash = some h := by
  obtain ⟨store, hProc⟩ := Option.ne_none_iff_exists'.mp hLive
  obtain ⟨-, state, hState⟩ := hTracks.live store hProc
  have hStored : ((pairings sha cipher).next n (.reset h now)).storedHash = some h := by
    show (n.step sha cipher (.reset h now)).1.storedHash = some h
    simp only [Node.step, hProc, resetRegistration, NodeIdentityStore.read, hState,
      Node.storedHash, commit, Option.map_some]
  exact ⟨⟨⟨_, tracks_step hTracks _⟩, h, hStored⟩, hStored⟩

/--
**Durable re-arming.** A run over a fresh data directory reaches a live
process, which resets the registration to the hash `h`. As long as
only constructions of the store under an environment with the hash `e`,
registrations that fail and revocations follow, exactly the tokens with digest
`h` are accepted in every state **if and only if** no construction brings `e`,
or `e` equals `h`, or no token has either digest.
-/
theorem rearming_durable_iff (sha : Sha256) (cipher : SecretsCipher) (keyFile : Option Bytes)
    (audit : List AuditRow) (before after : List Event) (h e : String) (now : Int)
    (hLive : ((pairings sha cipher).exec ⟨⟨keyFile, none, audit⟩, none⟩ before).process ≠ none)
    (hAfter : ∀ ev ∈ after, Between e ev)
    (hUnpaired : ∀ r, .handedOut r ∉ (pairings sha cipher).log
      ((pairings sha cipher).exec ⟨⟨keyFile, none, audit⟩, none⟩ (before ++ [.reset h now])) after) :
    (pairings sha cipher).Always (AcceptsOnly sha cipher h)
        ((pairings sha cipher).exec ⟨⟨keyFile, none, audit⟩, none⟩ (before ++ [.reset h now]))
        after ↔
      ((∀ fresh, .start fresh (some e) ∉ after) ∨ e = h ∨
        ∀ token, tokenHash sha token ≠ h ∧ tokenHash sha token ≠ e) := by
  have hTracks := tracks_run sha (tracks_fresh cipher keyFile audit) before
  obtain ⟨hArmed, hStored⟩ := armed_reset sha hTracks hLive h now
  rw [Machine.exec_append, Machine.exec_cons, Machine.exec_nil] at hUnpaired ⊢
  rw [acceptsOnly_run hArmed ((acceptsOnly_iff hStored).mpr (interchangeable_self sha h)) hAfter
    hUnpaired]
  constructor
  · intro hAll
    by_cases hStart : ∃ fresh, .start fresh (some e) ∈ after
    · obtain ⟨fresh, hMem⟩ := hStart
      exact Or.inr (interchangeable_iff.mp (hAll fresh hMem))
    · exact Or.inl fun fresh hMem => hStart ⟨fresh, hMem⟩
  · rintro (hNone | hSame) fresh hMem
    · exact absurd hMem (hNone fresh)
    · exact interchangeable_iff.mpr hSame

-- ---------------------------------------------------------------------------
-- The restart that undoes a reset
-- ---------------------------------------------------------------------------

/-- SHA-256 of `operator-token-0002`. -/
def operatorDigest : String :=
  "440276d74f508dd9e4d1f434ed3f29c0cfc8babaeef1e8512cd4d5568c1606a6"

theorem operatorDigest_isHex : IsHexDigest operatorDigest := by
  unfold IsHexDigest
  decide

/-- Hash functions that agree with SHA-256 on `bootstrap-token-0001` and on
`operator-token-0002`. -/
def operatorSha : Sha256 where
  hexdigest b       := if b = utf8 "bootstrap-token-0001" then bootstrapDigest else operatorDigest
  hmacHexdigest _ _ := operatorDigest
  isHex b           := by
    split
    · exact bootstrapDigest_isHex
    · exact operatorDigest_isHex
  hmac_isHex _ _    := operatorDigest_isHex

/-- The agent starts with the hash of its bootstrap token in the environment,
and the operator resets the registration to the hash of a new token. -/
def resetRun : List Event :=
  [.start bootstrapFresh (some bootstrapDigest), .reset operatorDigest 1700000000]

/-- The agent restarts with its unchanged environment. -/
def restartAfterReset : List Event := [.start bootstrapFresh (some bootstrapDigest)]

/-- The condition applied to that restart: it brings another hash. -/
theorem rearming_durable_iff_restart :
    (pairings operatorSha plainCipher).Always (AcceptsOnly operatorSha plainCipher operatorDigest)
        ((pairings operatorSha plainCipher).exec Node.fresh resetRun) restartAfterReset ↔
      ((∀ fresh, .start fresh (some bootstrapDigest) ∉ restartAfterReset) ∨
        bootstrapDigest = operatorDigest ∨
        ∀ token, tokenHash operatorSha token ≠ operatorDigest ∧
          tokenHash operatorSha token ≠ bootstrapDigest) :=
  rearming_durable_iff operatorSha plainCipher none []
    [.start bootstrapFresh (some bootstrapDigest)] restartAfterReset operatorDigest bootstrapDigest
    1700000000 (by decide)
    (by
      intro ev hMem
      obtain rfl := List.mem_singleton.mp hMem
      exact Between.construct bootstrapFresh)
    (by
      intro r hMem
      cases List.mem_singleton.mp hMem)

theorem restartAfterReset_storedHash :
    ((pairings operatorSha plainCipher).exec Node.fresh (resetRun ++ restartAfterReset)).storedHash =
      some bootstrapDigest := by
  decide

/-- Reset, restart: the bootstrap token is accepted again, not the operator's. -/
theorem restart_undoes_reset :
    ¬ (pairings operatorSha plainCipher).Always (AcceptsOnly operatorSha plainCipher operatorDigest)
      ((pairings operatorSha plainCipher).exec Node.fresh resetRun) restartAfterReset := by
  intro hAlways
  have hLast := hAlways restartAfterReset [] (by simp)
  rw [← Machine.exec_append, acceptsOnly_iff restartAfterReset_storedHash] at hLast
  have hBootstrap : tokenHash operatorSha "bootstrap-token-0001" = bootstrapDigest := if_pos rfl
  have hSame : bootstrapDigest = operatorDigest :=
    hBootstrap.symm.trans ((hLast "bootstrap-token-0001").mp hBootstrap.symm)
  exact absurd hSame (by decide)

end ZagrosNode.Security
