import ZagrosNode.Lib.JsonRead
import ZagrosNode.Lib.Outcome
import ZagrosNode.Lib.Volume
import ZagrosNode.Security.OneTimeToken

/-!
# ZagrosNode — registrations that fail half way

`register` reads `identity.json`, moves the paired identity into its place, and
then appends a line to `audit.jsonl`. Its caller learns the key from what it
returns, so a call that raises after the move has paired the node with a key
that nobody received, and has burned the token.

The files hold JSON texts, and the identity is whatever object the text is.

The typed store takes an identity to be a record with five fields. The file holds a
JSON text, which may be any object or none, and `_read` asks little of it. Here the
identity is the object; `Holds` says when it is that of a typed identity, and
`register_typed` that the two models agree on such a file where no operation fails.

A plan is what a registration is going to do to files once its checks have passed:
the part file, its mode, the move, and then the line of the audit log, all of it as
effects on a volume. `Fault` lets one operation fail, after any part of its effects.
The call then raises, and the files are those after the effects up to the failure.

What a registration has left is looked at through the functions that read it: the
tokens that are accepted, the key in force, and the answer a panel would get. That
is `Untouched`. Everything before the move leaves it, everything after does not.

Main results:

* `plan_ok_iff` — which calls get as far as writing.
* `register_typed` — without failures this is the registration on the fields of
  the identity.
* `atomic_iff` — when a registration that raises has left everything as it was.
* `answer_atomic_iff` — the same for the request of the panel.
* `audit_failure_burns_token` — one that has not.
-/

namespace ZagrosNode.Security.Registering

open ZagrosNode.Lib JsonText Volume
open NodeIdentityStore (invalidToken missingIdentity signingAad sealSigningKey RegisterCall)

-- ---------------------------------------------------------------------------
-- The files
-- ---------------------------------------------------------------------------

inductive StoreFile
  /-- `identity.json` -/
  | identity
  /-- `identity.part` -/
  | identityPart
  /-- `audit.jsonl` -/
  | audit
  deriving DecidableEq, Repr

abbrev StoreDir := Volume StoreFile Char

/-- What a store is built on: floats, `str` of a value that is no text, the hash
functions and the sealing of keys. -/
structure Env where
  floats : Floats
  str    : Json → String
  sha    : Sha256
  cipher : SecretsCipher

variable (env : Env)

/-- `str(v)` -/
def Env.text : Json → String
  | .str s => s
  | v      => env.str v

/-- `_read` -/
def readState (dir : StoreDir) : Except Failure JsonEntries :=
  match dir .identity with
  | none      => .error missingIdentity
  | some file =>
    match loads env.floats file.content with
    | .error e            => .error (.py e)
    | .ok (.dict entries) => .ok entries
    | .ok _               => .error (.py ⟨.attribute, "object has no attribute 'get'"⟩)

/-- `str(state.get("registration_token_hash") or "")` -/
def storedHash (state : JsonEntries) : String :=
  env.text ((Json.getD state "registration_token_hash").or (.str ""))

/-- The check of the token. -/
def checkToken (state : JsonEntries) (token : String) : Except Failure Unit :=
  let expected := storedHash env state
  let actual := env.sha.hexdigest (utf8 token)
  if expected = "" then .error invalidToken
  else
    match compareDigest expected actual with
    | .error e  => .error (.py e)
    | .ok false => .error invalidToken
    | .ok true  => .ok ()

/-- The identity after the registration. -/
def pairedState (self : NodeIdentityStore) (call : RegisterCall) (state : JsonEntries) :
    Except Failure JsonEntries :=
  let burned := assocSet "registration_token_hash" (.str "") state
  match Json.get? burned "node_id" with
  | none        => .error (.py ⟨.key, "'node_id'"⟩)
  | some nodeId =>
    let sealing := assocSet "signing_key_enc"
      (.str (sealSigningKey env.cipher self call.nonce call.key (env.text nodeId))) burned
    .ok (assocSet "registered_at" (.num call.now)
      (assocSet "registered_panel" (.str call.panelId) sealing))

/-- A line of the audit log. Its time is the one that was written into the
identity before, so it can be written. -/
def auditLine (call : RegisterCall) : List Char :=
  text env.floats (sorted (.dict [("ts", .num call.now), ("action", .str "node.register"),
    ("detail", .dict [("panel_id", .str call.panelId)])])) ++ ['\n']

/-- What a registration does to files: `_write`, then `audit`. -/
structure Plan where
  write : List (Effect StoreFile Char)
  audit : List (Effect StoreFile Char)

def Plan.effects (plan : Plan) : List (Effect StoreFile Char) := plan.write ++ plan.audit

/-- The plan of writing an identity. -/
def planOf (call : RegisterCall) (json : List Char) : Plan where
  write := store .identityPart .identity (json ++ ['\n']) 0o600
  audit := appendTo .audit (auditLine env call) ++ [.chmod .audit 0o600]

/-- `register` up to its first write. -/
def registerPlan (self : NodeIdentityStore) (call : RegisterCall) (dir : StoreDir) :
    Except Failure Plan := do
  let state ← readState env dir
  checkToken env state call.token
  let paired ← pairedState env self call state
  let json ← (dumps env.floats (.dict paired)).mapError .py
  .ok (planOf env call json)

/-- The one file operation that fails, if one does. -/
inductive Fault
  | nowhere
  /-- reading `identity.json` -/
  | reading
  /-- the write, `chmod`, `os.replace` or `open` after the first `n` effects -/
  | after (n : Nat)
  /-- reading `identity.json` again for the answer to the panel -/
  | readingBack

def fileError : Failure := .py ⟨.os, "Input/output error"⟩

/-- `register` -/
def register (self : NodeIdentityStore) (call : RegisterCall) (fault : Fault) (dir : StoreDir) :
    Except Failure Key32 × StoreDir :=
  match fault, registerPlan env self call dir with
  | .reading, _             => (.error fileError, dir)
  | _, .error e             => (.error e, dir)
  | .nowhere, .ok plan      => (.ok call.key, runAll dir plan.effects)
  | .readingBack, .ok plan  => (.ok call.key, runAll dir plan.effects)
  | .after n, .ok plan      =>
    if n < plan.effects.length then (.error fileError, stopped dir plan.effects n)
    else (.ok call.key, runAll dir plan.effects)

/-- `node_id` -/
def nodeId (dir : StoreDir) : Except Failure String := do
  let state ← readState env dir
  match Json.get? state "node_id" with
  | none   => .error (.py ⟨.key, "'node_id'"⟩)
  | some v => .ok (env.text v)

/-- `POST /v1/register` over TLS: the node id and the key of the answer. -/
def answer (self : NodeIdentityStore) (call : RegisterCall) (fault : Fault) (dir : StoreDir) :
    Except Failure (String × Key32) × StoreDir :=
  match register env self call fault dir, fault with
  | (.error (.security text), dir), _ => (.error (.http 401 text), dir)
  | (.error e, dir), _                => (.error e, dir)
  | (.ok _, dir), .readingBack        => (.error fileError, dir)
  | (.ok key, dir), _                 => ((nodeId env dir).map fun id => (id, key), dir)

/-- `signing_key` -/
def signingKey (self : NodeIdentityStore) (dir : StoreDir) : Except Failure (Option Key32) := do
  let state ← readState env dir
  let value := Json.getD state "signing_key_enc"
  if !value.truthy then .ok none
  else
    match Json.get? state "node_id" with
    | none        => .error (.security "node signing key cannot be unsealed")
    | some nodeId =>
      match env.cipher.decrypt self.localKey (env.text value) (signingAad (env.text nodeId)) with
      | .error _ => .error (.security "node signing key cannot be unsealed")
      | .ok key  =>
        if h : key.length = 32 then .ok (some ⟨key, h⟩)
        else .error (.security "node signing key has invalid length")

variable {env} {self : NodeIdentityStore} {call : RegisterCall} {dir other : StoreDir}

-- ---------------------------------------------------------------------------
-- What a registration writes
-- ---------------------------------------------------------------------------

theorem readState_congr (h : dir .identity = other .identity) :
    readState env dir = readState env other := by
  unfold readState
  rw [h]

theorem registerPlan_congr (h : dir .identity = other .identity) :
    registerPlan env self call dir = registerPlan env self call other := by
  unfold registerPlan
  rw [readState_congr h]

theorem signingKey_congr (h : dir .identity = other .identity) :
    signingKey env self dir = signingKey env self other := by
  unfold signingKey
  rw [readState_congr h]

/-- A token is accepted exactly if its digest is the stored hash. -/
theorem checkToken_ok_iff {state : JsonEntries} {token : String} :
    checkToken env state token = .ok () ↔
      storedHash env state = env.sha.hexdigest (utf8 token) := by
  have hHex := env.sha.isHex (utf8 token)
  unfold checkToken
  dsimp only
  by_cases hHash : storedHash env state = env.sha.hexdigest (utf8 token)
  · have hNe : storedHash env state ≠ "" := hHash ▸ hexDigest_ne_empty hHex
    have hCompare :
        compareDigest (storedHash env state) (env.sha.hexdigest (utf8 token)) = .ok true :=
      NodeIdentityStore.compareDigest_ok_true.mpr
        ⟨hHash ▸ hexDigest_ascii hHex, hexDigest_ascii hHex, hHash⟩
    rw [if_neg hNe, hCompare]
    exact iff_of_true rfl hHash
  · refine iff_of_false (fun h => ?_) hHash
    split at h
    · cases h
    · split at h
      · cases h
      · cases h
      · rename_i hCompare
        exact hHash (NodeIdentityStore.compareDigest_ok_true.mp hCompare).2.2

/-- **The calls that get as far as writing**: the identity is an object with a
node id whose hash is the digest of the token, and the paired one can be
written. -/
theorem plan_ok_iff {plan : Plan} :
    registerPlan env self call dir = .ok plan ↔
      ∃ state paired json, readState env dir = .ok state ∧
        storedHash env state = env.sha.hexdigest (utf8 call.token) ∧
        pairedState env self call state = .ok paired ∧
        dumps env.floats (.dict paired) = .ok json ∧ plan = planOf env call json := by
  unfold registerPlan
  simp only [bind_ok_iff, mapError_ok_iff]
  constructor
  · rintro ⟨state, hRead, ⟨⟩, hToken, paired, hPaired, json, hDumps, hPlan⟩
    exact ⟨state, paired, json, hRead, checkToken_ok_iff.mp hToken, hPaired, hDumps,
      (Except.ok.inj hPlan).symm⟩
  · rintro ⟨state, paired, json, hRead, hHash, hPaired, hDumps, rfl⟩
    exact ⟨state, hRead, (), checkToken_ok_iff.mpr hHash, paired, hPaired, json, hDumps, rfl⟩

-- ---------------------------------------------------------------------------
-- The identity that is written
-- ---------------------------------------------------------------------------

/-- The identity is read as it was written. -/
theorem tidy_readState {state : JsonEntries} (h : readState env dir = .ok state) :
    EntriesTidy env.floats state := by
  unfold readState at h
  split at h
  · cases h
  · split at h
    · cases h
    · rename_i entries hLoads
      obtain rfl := Except.ok.inj h
      cases tidy_of_loads hLoads with
      | dict _ hKeys hValues => exact ⟨hKeys, hValues⟩
    · cases h

/-- What the registration sets. -/
theorem pairedState_ok {state paired : JsonEntries}
    (h : pairedState env self call state = .ok paired) :
    ∃ blob, paired = assocSet "registered_at" (.num call.now)
      (assocSet "registered_panel" (.str call.panelId) (assocSet "signing_key_enc" (.str blob)
        (assocSet "registration_token_hash" (.str "") state))) := by
  unfold pairedState at h
  dsimp only at h
  split at h
  · cases h
  · exact ⟨_, (Except.ok.inj h).symm⟩

theorem node_of_paired {state paired : JsonEntries}
    (h : pairedState env self call state = .ok paired) :
    ∃ v, Json.get? paired "node_id" = some v := by
  unfold pairedState at h
  dsimp only at h
  split at h
  · cases h
  · rename_i v hNode
    rw [Json.get?_assocSet] at hNode
    rw [← Except.ok.inj h]
    simp only [Json.get?_assocSet]
    exact ⟨v, hNode⟩

theorem tidy_paired {state paired : JsonEntries} {json : List Char}
    (hState : EntriesTidy env.floats state) (hPaired : pairedState env self call state = .ok paired)
    (hDumps : dumps env.floats (.dict paired) = .ok json) : Tidy env.floats (.dict paired) := by
  obtain ⟨blob, rfl⟩ := pairedState_ok hPaired
  have hWritable : writable (.num call.now) = true := by
    by_contra hLong
    rw [dumps, if_neg] at hDumps
    · cases hDumps
    · intro hAll
      rw [writable, writableEntries_eq, List.all_eq_true] at hAll
      refine hLong (hAll ("registered_at", .num call.now) (assocGet?_mem ?_))
      rw [assocGet?_set, if_pos rfl]
  rw [writable] at hWritable
  have hNow : Tidy env.floats (.num call.now) := .num _ (of_decide_eq_true hWritable)
  have hEntries := entriesTidy_assocSet (entriesTidy_assocSet (entriesTidy_assocSet
    (entriesTidy_assocSet hState "registration_token_hash" (.str ""))
      "signing_key_enc" (.str blob)) "registered_panel" (.str call.panelId)) "registered_at" hNow
  exact .dict _ hEntries.1 hEntries.2

/-- The entries as they are read back. -/
def inOrder (entries : JsonEntries) : JsonEntries :=
  (entries.map fun e => (e.1, sorted e.2)).insertionSort byKey

/-- The token that was burned. -/
theorem storedHash_paired {state paired : JsonEntries}
    (hPaired : pairedState env self call state = .ok paired) (hKeys : (paired.map Prod.fst).Nodup) :
    storedHash env (inOrder paired) = "" := by
  obtain ⟨blob, rfl⟩ := pairedState_ok hPaired
  unfold storedHash inOrder
  rw [Json.getD_eq, get?_sorted hKeys]
  simp only [Json.get?_assocSet]
  rfl

/-- Once it is in place, the paired identity is what is read. -/
theorem readState_of_content {json : List Char} {mode : Nat} {entries : JsonEntries}
    (h : dir .identity = some ⟨json ++ ['\n'], mode⟩)
    (hLoads : loads env.floats json = .ok (.dict entries)) :
    readState env dir = .ok entries := by
  unfold readState
  rw [h]
  dsimp only
  rw [loads_append_space hLoads rfl]

-- ---------------------------------------------------------------------------
-- Where a registration stops
-- ---------------------------------------------------------------------------

theorem length_effects (plan : Plan) :
    plan.effects.length = plan.write.length + plan.audit.length :=
  List.length_append

/-- Until the move, the identity is the one before. -/
theorem identity_of_write {json : List Char} {n : Nat}
    (hn : n < (planOf env call json).write.length) :
    stopped dir (planOf env call json).effects n .identity = dir .identity := by
  rw [Plan.effects, stopped_append, if_pos hn]
  exact stopped_store hn (by decide)

/-- From the move on, it is the paired one. -/
theorem identity_of_audit {json : List Char} {n : Nat}
    (hn : (planOf env call json).write.length ≤ n) :
    stopped dir (planOf env call json).effects n .identity = some ⟨json ++ ['\n'], 0o600⟩ := by
  have hAudit : ∀ e ∈ (planOf env call json).audit, ¬ e.Touches .identity := by
    intro e he hTouch
    rcases List.mem_append.mp he with he | he
    · exact absurd (Effect.touches_appendTo he hTouch)
        (show StoreFile.identity ≠ StoreFile.audit by decide)
    · obtain rfl := List.mem_singleton.mp he
      exact absurd hTouch (show StoreFile.identity ≠ StoreFile.audit by decide)
  rw [Plan.effects, stopped_append, if_neg (by omega), stopped_of_not_touched hAudit]
  exact runAll_store (show StoreFile.identityPart ≠ .identity by decide) .identity

/-- What is read once the identity has been moved into place. -/
theorem readState_of_stored {state paired : JsonEntries} {json : List Char} {n : Nat}
    (hRead : readState env dir = .ok state) (hPaired : pairedState env self call state = .ok paired)
    (hDumps : dumps env.floats (.dict paired) = .ok json)
    (hn : (planOf env call json).write.length ≤ n) :
    readState env (stopped dir (planOf env call json).effects n) = .ok (inOrder paired) ∧
      storedHash env (inOrder paired) = "" ∧
      Json.get? (inOrder paired) "node_id" = (Json.get? paired "node_id").map sorted := by
  have hTidy := tidy_paired (tidy_readState hRead) hPaired hDumps
  have hLoads := loads_dumps hTidy hDumps
  rw [sorted_dict] at hLoads
  cases hTidy with
  | dict _ hKeys _ =>
    exact ⟨readState_of_content (identity_of_audit hn) hLoads, storedHash_paired hPaired hKeys,
      get?_sorted hKeys "node_id"⟩

-- ---------------------------------------------------------------------------
-- Registrations that raise
-- ---------------------------------------------------------------------------

/-- A registration without a failing operation returns a key. -/
def Registers (env : Env) (self : NodeIdentityStore) (call : RegisterCall)
    (dir : StoreDir) : Prop :=
  ∃ key, (register env self call .nowhere dir).1 = .ok key

/-- Nothing has come of it: the identity is the one before, the same tokens are
accepted, and the same key is in force. -/
structure Untouched (env : Env) (self : NodeIdentityStore) (before after : StoreDir) : Prop where
  identity : after .identity = before .identity
  tokens   : ∀ call, Registers env self call after ↔ Registers env self call before
  key      : signingKey env self after = signingKey env self before

theorem registers_iff :
    Registers env self call dir ↔ ∃ plan, registerPlan env self call dir = .ok plan := by
  unfold Registers register
  cases registerPlan env self call dir with
  | error e => exact iff_of_false (fun ⟨_, h⟩ => by cases h) fun ⟨_, h⟩ => by cases h
  | ok plan => exact iff_of_true ⟨call.key, rfl⟩ ⟨plan, rfl⟩

/-- All of it depends on the identity alone. -/
theorem untouched_of_identity (h : other .identity = dir .identity) :
    Untouched env self dir other := by
  refine ⟨h, fun call => ?_, signingKey_congr h⟩
  rw [registers_iff, registers_iff, registerPlan_congr h]

/-- The token is accepted, and an operation on the audit log fails. -/
def AuditFails (env : Env) (self : NodeIdentityStore) (call : RegisterCall) (fault : Fault)
    (dir : StoreDir) : Prop :=
  ∃ plan n, registerPlan env self call dir = .ok plan ∧ fault = .after n ∧
    plan.write.length ≤ n ∧ n < plan.write.length + plan.audit.length

/-- What a registration with a failing operation leaves. -/
theorem register_after {plan : Plan} {n : Nat} (hPlan : registerPlan env self call dir = .ok plan)
    (hn : n < plan.effects.length) :
    register env self call (.after n) dir = (.error fileError, stopped dir plan.effects n) := by
  unfold register
  rw [hPlan]
  exact if_pos hn

/-- The operations on the audit log find the token burned. -/
theorem burned_of_stored {plan : Plan} {n : Nat} (hPlan : registerPlan env self call dir = .ok plan)
    (hStored : plan.write.length ≤ n) : stopped dir plan.effects n .identity ≠ dir .identity := by
  intro hSame
  obtain ⟨state, paired, json, hRead, hHash, hPaired, hDumps, rfl⟩ := plan_ok_iff.mp hPlan
  obtain ⟨hNew, hBurned, -⟩ := readState_of_stored hRead hPaired hDumps hStored
  rw [readState_congr hSame, hRead] at hNew
  rw [← Except.ok.inj hNew] at hBurned
  exact hexDigest_ne_empty (env.sha.isHex (utf8 call.token)) (hHash ▸ hBurned)

/-- A failing audit log leaves the paired identity. -/
theorem burned_of_auditFails {fault : Fault} (h : AuditFails env self call fault dir) :
    (register env self call fault dir).1 = .error fileError ∧
      (register env self call fault dir).2 .identity ≠ dir .identity := by
  obtain ⟨plan, n, hPlan, rfl, hStored, hShort⟩ := h
  rw [register_after hPlan (by rw [length_effects]; exact hShort)]
  exact ⟨rfl, burned_of_stored hPlan hStored⟩

/--
**Registrations that raise.** For every content of the files, every token and
panel, and every single file operation that fails: a registration that raises
leaves the identity as it was, with the same tokens accepted and the same key
in force, **if and only if** it is not so that the token is accepted and the
operation that fails is one on the audit log.
-/
theorem atomic_iff (env : Env) (self : NodeIdentityStore) (call : RegisterCall) (fault : Fault)
    (dir : StoreDir) :
    (∀ e, (register env self call fault dir).1 = .error e →
        Untouched env self dir (register env self call fault dir).2) ↔
      ¬ AuditFails env self call fault dir := by
  constructor
  · intro h hFails
    obtain ⟨hRaised, hChanged⟩ := burned_of_auditFails hFails
    obtain ⟨hSame, -, -⟩ := h fileError hRaised
    exact hChanged hSame
  -- the plan raises, or no operation fails before the file is in place, or the audit does
  · intro hFine e hRaised
    unfold register at hRaised ⊢
    cases hPlan : registerPlan env self call dir with
    | error e' =>
      cases fault with
      | nowhere | reading | after | readingBack => exact untouched_of_identity rfl
    | ok plan =>
      cases fault with
      | reading => exact untouched_of_identity rfl
      | nowhere | readingBack =>
        rw [hPlan] at hRaised
        cases hRaised
      | after n =>
        rw [hPlan] at hRaised
        dsimp only at hRaised ⊢
        by_cases hShort : n < plan.effects.length
        · rw [if_pos hShort]
          obtain ⟨state, paired, json, -, -, -, -, rfl⟩ := plan_ok_iff.mp hPlan
          refine untouched_of_identity (identity_of_write ?_)
          by_contra hStored
          rw [length_effects] at hShort
          exact hFine ⟨_, n, hPlan, rfl, by omega, hShort⟩
        · rw [if_neg hShort] at hRaised
          cases hRaised

-- ---------------------------------------------------------------------------
-- The answer to the panel
-- ---------------------------------------------------------------------------

/-- A registration that returns has done all of its plan. -/
theorem register_ok {fault : Fault} {key : Key32}
    (h : (register env self call fault dir).1 = .ok key) :
    ∃ plan, registerPlan env self call dir = .ok plan ∧
      register env self call fault dir = (.ok call.key, runAll dir plan.effects) := by
  unfold register at h ⊢
  cases hPlan : registerPlan env self call dir with
  | error e =>
    rw [hPlan] at h
    cases fault with
    | nowhere | reading | after | readingBack => cases h
  | ok plan =>
    rw [hPlan] at h
    refine ⟨plan, rfl, ?_⟩
    cases fault with
    | nowhere | readingBack => rfl
    | reading => cases h
    | after n =>
      dsimp only at h ⊢
      by_cases hShort : n < plan.effects.length
      · rw [if_pos hShort] at h
        cases h
      · rw [if_neg hShort]

theorem answer_of_error {fault : Fault} {e : Failure} {after : StoreDir}
    (h : register env self call fault dir = (.error e, after)) :
    ∃ e', answer env self call fault dir = (.error e', after) := by
  unfold answer
  rw [h]
  cases e with
  | security text => exact ⟨_, rfl⟩
  | http status detail => exact ⟨_, rfl⟩
  | py e => exact ⟨_, rfl⟩

/-- The node id is there to be read back. -/
theorem nodeId_of_registered {plan : Plan} (hPlan : registerPlan env self call dir = .ok plan) :
    ∃ id, nodeId env (runAll dir plan.effects) = .ok id := by
  obtain ⟨state, paired, json, hRead, -, hPaired, hDumps, rfl⟩ := plan_ok_iff.mp hPlan
  have hLength := length_effects (planOf env call json)
  obtain ⟨hNew, -, hNode⟩ := readState_of_stored hRead hPaired hDumps
    (show (planOf env call json).write.length ≤ (planOf env call json).effects.length by omega)
  rw [stopped_of_length_le (Nat.le_refl _)] at hNew
  obtain ⟨v, hGet⟩ := node_of_paired hPaired
  unfold nodeId
  rw [hNew]
  refine ⟨env.text (sorted v), ?_⟩
  simp only [bind, Except.bind, hNode, hGet, Option.map_some]

/-- **Answers the panel does not get.** For the request there is one more
failure after which a key is in force that nobody received: that of reading the
node id for the answer. -/
theorem answer_atomic_iff (fault : Fault) :
    (∀ e, (answer env self call fault dir).1 = .error e →
        Untouched env self dir (answer env self call fault dir).2) ↔
      ¬ (AuditFails env self call fault dir ∨
        Registers env self call dir ∧ fault = .readingBack) := by
  cases hResult : (register env self call fault dir).1 with
  -- the registration has raised: reading the node id is not reached
  | error e =>
    obtain ⟨e', hAnswer⟩ := answer_of_error (Prod.ext hResult rfl)
    have hBack : ¬ (Registers env self call dir ∧ fault = .readingBack) := by
      rintro ⟨hRegisters, rfl⟩
      obtain ⟨plan, hPlan⟩ := registers_iff.mp hRegisters
      unfold register at hResult
      rw [hPlan] at hResult
      cases hResult
    rw [hAnswer, or_iff_left hBack, ← atomic_iff]
    exact ⟨fun h _ _ => h e' rfl, fun h _ _ => h e hResult⟩
  -- the registration has succeeded, and the key is in force before the answer is made
  | ok key =>
    obtain ⟨plan, hPlan, hRegister⟩ := register_ok hResult
    have hAudit : ¬ AuditFails env self call fault dir := by
      intro hFails
      rw [(burned_of_auditFails hFails).1] at hResult
      cases hResult
    have hRegisters : Registers env self call dir := registers_iff.mpr ⟨plan, hPlan⟩
    rw [or_iff_right hAudit]
    unfold answer
    rw [hRegister]
    by_cases hBack : fault = .readingBack
    · subst hBack
      refine iff_of_false (fun h => ?_) fun h => h ⟨hRegisters, rfl⟩
      obtain ⟨hSame, -, -⟩ := h fileError rfl
      have hLength := length_effects plan
      -- every effect of the registration is done when the reading fails
      have hBurned := burned_of_stored hPlan (show plan.write.length ≤ plan.effects.length by omega)
      rw [stopped_of_length_le (Nat.le_refl _)] at hBurned
      exact hBurned hSame
    · refine iff_of_true (fun e h => ?_) fun h => hBack h.2
      obtain ⟨id, hNode⟩ := nodeId_of_registered hPlan
      cases fault with
      | readingBack => exact absurd rfl hBack
      | nowhere | reading | after =>
        dsimp only at h
        rw [hNode] at h
        cases h

-- ---------------------------------------------------------------------------
-- Identities with their fields
-- ---------------------------------------------------------------------------

/-- The object of an identity, as `json.loads` returns it. -/
def identityEntries (s : Identity) : JsonEntries :=
  [("node_id", .str s.nodeId),
    ("registered_at", (s.registeredAt.map Json.num).getD .null),
    ("registered_panel", (s.registeredPanel.map Json.str).getD .null),
    ("registration_token_hash", .str s.registrationTokenHash),
    ("signing_key_enc", (s.signingKeyEnc.map Json.str).getD .null)]

/-- The file is that of the identity. -/
def Holds (env : Env) (dir : StoreDir) (d : DataDir) : Prop :=
  ∃ s, d.identity = some s ∧ readState env dir = .ok (identityEntries s)

theorem storedHash_typed (s : Identity) :
    storedHash env (identityEntries s) = s.registrationTokenHash := by
  show env.text ((Json.str s.registrationTokenHash).or (.str "")) = s.registrationTokenHash
  unfold Json.or
  by_cases hEmpty : s.registrationTokenHash = ""
  · rw [hEmpty]
    rfl
  · have hTruthy : (Json.str s.registrationTokenHash).truthy = true := bne_iff_ne.mpr hEmpty
    rw [if_pos hTruthy]
    rfl

theorem pairedState_typed (s : Identity) :
    pairedState env self call (identityEntries s) =
      .ok (identityEntries (NodeIdentityStore.paired env.cipher self call s)) := rfl

theorem inOrder_typed (s : Identity) : inOrder (identityEntries s) = identityEntries s := by
  have hValues : (identityEntries s).map (fun e => (e.1, sorted e.2)) = identityEntries s := by
    obtain ⟨_, _, enc, panel, at_⟩ := s
    cases enc <;> cases panel <;> cases at_ <;> rfl
  have hKeys : ["node_id", "registered_at", "registered_panel", "registration_token_hash",
      "signing_key_enc"].Pairwise (· ≤ ·) := by decide
  have hSorted : (identityEntries s).Pairwise byKey :=
    hKeys.of_map Prod.fst fun _ _ h => h
  unfold inOrder
  rw [hValues, hSorted.insertionSort_eq]

theorem dumps_typed (hNow : call.now.natAbs < 10 ^ maxStrDigits) (s : Identity) :
    ∃ json, dumps env.floats
      (.dict (identityEntries (NodeIdentityStore.paired env.cipher self call s))) = .ok json := by
  refine ⟨_, if_pos ?_⟩
  simp [identityEntries, NodeIdentityStore.paired, writable, writableEntries, hNow]

/-- The registration on the fields, by the check of the token. -/
theorem register_fields {d : DataDir} {s : Identity} (h : d.identity = some s) :
    NodeIdentityStore.register env.sha env.cipher self call d =
      match checkToken env (identityEntries s) call.token with
      | .error e => (.error e, d)
      | .ok _    =>
        (.ok call.key, NodeIdentityStore.commit d (NodeIdentityStore.paired env.cipher self call s)
          ⟨call.now, "node.register", [("panel_id", call.panelId)]⟩) := by
  unfold NodeIdentityStore.register NodeIdentityStore.read checkToken
  rw [h, storedHash_typed]
  dsimp only
  by_cases hEmpty : s.registrationTokenHash = ""
  · rw [if_pos hEmpty, if_pos hEmpty]
  · rw [if_neg hEmpty, if_neg hEmpty]
    cases compareDigest s.registrationTokenHash (env.sha.hexdigest (utf8 call.token)) with
    | error e => rfl
    | ok equal => cases equal <;> rfl

/--
**Without failures** this is the registration on the fields of the identity: it
returns the same, and leaves the file of the identity it leaves. So the file
operations are those of the function the other results are about.
-/
theorem register_typed {d : DataDir} (h : Holds env dir d)
    (hNow : call.now.natAbs < 10 ^ maxStrDigits) :
    (register env self call .nowhere dir).1 =
        (NodeIdentityStore.register env.sha env.cipher self call d).1 ∧
      Holds env (register env self call .nowhere dir).2
        (NodeIdentityStore.register env.sha env.cipher self call d).2 := by
  obtain ⟨s, hIdentity, hRead⟩ := h
  rw [register_fields hIdentity]
  cases hCheck : checkToken env (identityEntries s) call.token with
  -- the token is checked on the same fields either way
  | error e =>
    have hPlan : registerPlan env self call dir = .error e := by
      unfold registerPlan
      simp only [bind, Except.bind, hRead, hCheck]
    unfold register
    rw [hPlan]
    exact ⟨rfl, s, hIdentity, hRead⟩
  | ok =>
    -- the number that is written has few enough digits to be read again
    obtain ⟨json, hDumps⟩ := @dumps_typed env self call hNow s
    have hPlan : registerPlan env self call dir = .ok (planOf env call json) :=
      plan_ok_iff.mpr ⟨identityEntries s, _, json, hRead, checkToken_ok_iff.mp hCheck,
        pairedState_typed s, hDumps, rfl⟩
    have hLength := length_effects (planOf env call json)
    obtain ⟨hNew, -, -⟩ := readState_of_stored hRead (pairedState_typed s) hDumps
      (show (planOf env call json).write.length ≤ (planOf env call json).effects.length by omega)
    rw [stopped_of_length_le (Nat.le_refl _), inOrder_typed] at hNew
    unfold register
    rw [hPlan]
    exact ⟨rfl, _, rfl, hNew⟩

-- ---------------------------------------------------------------------------
-- An audit log that cannot be written
-- ---------------------------------------------------------------------------

def sampleEnv : Env where
  floats :=
    { repr := fun _ => "0.5".toList
      parse := fun _ => .finite (1 / 2)
      parse_repr := fun _ _ _ h => ⟨by decide, h⟩ }
  str _  := ""
  sha    := bootstrapSha
  cipher := plainCipher

/-- The identity of a node that waits for its panel. -/
def armedIdentity : Identity where
  nodeId := "6e6f64652d30303031"
  registrationTokenHash := bootstrapDigest
  signingKeyEnc := none
  registeredPanel := none
  registeredAt := none

def armedDir : StoreDir
  | .identity => some
      ⟨text sampleEnv.floats (.dict (identityEntries armedIdentity)) ++ ['\n'], 0o600⟩
  | _         => none

/-- The numbers of effects of the write and of the audit line. -/
def planSizes : Except Failure Plan → Option (Nat × Nat)
  | .ok plan => some (plan.write.length, plan.audit.length)
  | .error _ => none

theorem auditFails_of_sizes {write audit : Nat}
    (h : planSizes (registerPlan env self call dir) = some (write, audit)) (hAudit : 0 < audit) :
    AuditFails env self call (.after write) dir := by
  cases hPlan : registerPlan env self call dir with
  | error e =>
    rw [hPlan] at h
    cases h
  | ok plan =>
    rw [hPlan] at h
    obtain ⟨hWrite, hLines⟩ := Prod.mk.inj (Option.some.inj h)
    exact ⟨plan, write, hPlan, rfl, by omega, by omega⟩

/-- `audit.jsonl` cannot be opened: the token is burned, and the key that is in
force was returned to nobody. -/
theorem audit_failure_burns_token :
    ¬ ∀ e, (register sampleEnv ⟨repeatedKey 7⟩ (presenting "bootstrap-token-0001") (.after 335)
          armedDir).1 = .error e →
        Untouched sampleEnv ⟨repeatedKey 7⟩ armedDir (register sampleEnv ⟨repeatedKey 7⟩
          (presenting "bootstrap-token-0001") (.after 335) armedDir).2 := by
  intro hAtomic
  have hSizes : planSizes (registerPlan sampleEnv ⟨repeatedKey 7⟩
      (presenting "bootstrap-token-0001") armedDir) = some (335, 72) := by decide +kernel
  obtain ⟨hRaised, hChanged⟩ := burned_of_auditFails (auditFails_of_sizes hSizes (by decide))
  obtain ⟨hSame, -, -⟩ := hAtomic fileError hRaised
  exact hChanged hSame

end ZagrosNode.Security.Registering
