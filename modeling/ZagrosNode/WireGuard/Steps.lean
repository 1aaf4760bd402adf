import ZagrosNode.WireGuard.Replayed
import ZagrosNode.WireGuard.Apply

/-!
# ZagrosNode — what the parts of an apply do

A call changes a kernel interface, a key file or nothing, so the driver's memory
is what the code between the awaits makes it. For each part of an apply: what
holds at its awaits and after it, from what holds before.

`surroundings` gives every call its answers. Whether an interface is up is changed by
two calls only, `down` and `up`, which do their work if they return and may or may not
have done it if they raise or are cancelled. What a call that was carried out has left
of an interface is `said`, and `hear` puts it over what there was before; a list of
calls with the worlds they left thus has a last word about every interface (`upAfter`).

The parts of an apply are described with the rules of `Lib/Co.lean`. `Still` is kept by
every call, `Near` by those that leave the interfaces alone, and a lemma about a part
has three places to fill: what holds at its awaits, where it raises, and where it
returns. An account is `Provisioned` or not yet `Touched`, so that the loop over the
accounts can be followed one by one.

Main results:

* `answers_still` — a call leaves the memory and the recorded state alone.
* `answers_hear`, `foldl_hear` — whether an interface is up is what the last call
  about it has left.
* `along_provideServerKeys`, `along_provision` — server keys and accounts.
* `along_bringUp`, `along_status` — interfaces.
-/

namespace ZagrosNode.WireGuard

open ZagrosNode.Lib ZagrosNode.Cores ZagrosNode.Accounts Co
open ZagrosNode.Drivers (Lang)

-- ---------------------------------------------------------------------------
-- Calls
-- ---------------------------------------------------------------------------

namespace World

def setUp (b : Backend) (v : Bool) (s : World) : World :=
  { s with up := Function.update s.up b.interface v }

def setKeyFile (b : Backend) (v : Option String) (s : World) : World :=
  { s with keyFile := Function.update s.keyFile b v }

end World

/-- How a call can be answered. `is_running` does not raise, a `down` or `up` that
returns has done its work, and one that raises may have done any of it. -/
def Call.Answers (s : World) (r : Except DriverError Unit) (s' : World) : Call → Prop
  | .lock                        => r = .ok () ∧ s' = s
  | .isRunning _                 => r = .ok () ∧ s' = s
  | .down b                      => ∃ v, s' = s.setUp b v ∧ (r = .ok () → v = false)
  | .up b _                      => ∃ v, s' = s.setUp b v ∧ (r = .ok () → v = true)
  | .writeServerPrivateKey b key =>
    ∃ v, s' = s.setKeyFile b v ∧ (v = some key ∨ v = s.keyFile b) ∧ (r = .ok () → v = some key)
  | .ensureServerKeys b          =>
    ∃ v, s' = s.setKeyFile b v ∧ (s.keyFile b ≠ none → v = s.keyFile b) ∧ (r = .ok () → v ≠ none)
  | _                            => s' = s

/-- The request's timeout is the cancellation. -/
def surroundings : Surroundings World DriverError Stop where
  answers stop s r s' := stop.call.Answers s r s'
  cancelled := .timeout

/-- The call changes no interface and no file. -/
def Call.readsOnly : Call → Bool
  | .down _ | .up _ _ | .writeServerPrivateKey _ _ | .ensureServerKeys _ => false
  | _                                                                    => true

/-- The call changes no interface. -/
def Call.leavesUp : Call → Bool
  | .down _ | .up _ _ => false
  | _                 => true

/-- The memory and the recorded state are as they were. -/
structure Still (s s' : World) : Prop where
  memory   : s'.memory = s.memory
  recorded : s'.recorded = s.recorded

theorem Still.refl (s : World) : Still s s := ⟨rfl, rfl⟩

theorem Still.trans {s s' s'' : World} (h : Still s s') (h' : Still s' s'') : Still s s'' :=
  ⟨h'.memory.trans h.memory, h'.recorded.trans h.recorded⟩

theorem still_setUp (b : Backend) (v : Bool) (s : World) : Still s (s.setUp b v) := ⟨rfl, rfl⟩

theorem still_setKeyFile (b : Backend) (v : Option String) (s : World) :
    Still s (s.setKeyFile b v) := ⟨rfl, rfl⟩

theorem answers_still {c : Call} {s s' : World} {r : Except DriverError Unit}
    (h : c.Answers s r s') : Still s s' := by
  cases c with
  | lock | isRunning b => exact h.2 ▸ Still.refl s
  | down b | up b file =>
    obtain ⟨v, rfl, -⟩ := h
    exact still_setUp b v s
  | writeServerPrivateKey b key | ensureServerKeys b =>
    obtain ⟨v, rfl, -⟩ := h
    exact still_setKeyFile b v s
  | waitReady | publicFromPrivate | generateKeypair | generatePreshared | version | metrics
  | onlineDevices | dump | saveState | emit => exact h ▸ Still.refl s

theorem surroundings_still {stop : Stop} {s s' : World} {r : Except DriverError Unit}
    (h : surroundings.answers stop s r s') : Still s s' := answers_still h

theorem answers_same {c : Call} {s s' : World} {r : Except DriverError Unit}
    (hReads : c.readsOnly = true) (h : c.Answers s r s') : s' = s := by
  cases c with
  | lock | isRunning b => exact h.2
  | down | up | writeServerPrivateKey | ensureServerKeys => cases hReads
  | waitReady | publicFromPrivate | generateKeypair | generatePreshared | version | metrics
  | onlineDevices | dump | saveState | emit => exact h

/-- Neither are the interfaces changed. -/
structure Near (s s' : World) : Prop extends Still s s' where
  up : s'.up = s.up

theorem Near.refl (s : World) : Near s s := ⟨Still.refl s, rfl⟩

theorem Near.trans {s s' s'' : World} (h : Near s s') (h' : Near s' s'') : Near s s'' :=
  ⟨h.toStill.trans h'.toStill, h'.up.trans h.up⟩

theorem near_setKeyFile (b : Backend) (v : Option String) (s : World) : Near s (s.setKeyFile b v) :=
  ⟨still_setKeyFile b v s, rfl⟩

theorem answers_near {c : Call} {s s' : World} {r : Except DriverError Unit}
    (hLeaves : c.leavesUp = true) (h : c.Answers s r s') : Near s s' := by
  cases c with
  | lock | isRunning b => exact h.2 ▸ Near.refl s
  | down | up => cases hLeaves
  | writeServerPrivateKey b key | ensureServerKeys b =>
    obtain ⟨v, rfl, -⟩ := h
    exact near_setKeyFile b v s
  | waitReady | publicFromPrivate | generateKeypair | generatePreshared | version | metrics
  | onlineDevices | dump | saveState | emit => exact h ▸ Near.refl s

-- ---------------------------------------------------------------------------
-- Interfaces and calls
-- ---------------------------------------------------------------------------

/-- What a call that was carried out has left of an interface, if it was about it. -/
def said (interface : String) (e : Stop × World) : Option Bool :=
  match e.1.call with
  | .down b => if b.interface = interface then some (e.2.up interface) else none
  | .up b _ => if b.interface = interface then some (e.2.up interface) else none
  | _       => none

/-- The interfaces after one more call. -/
def hear (up : String → Bool) (e : Stop × World) : String → Bool :=
  fun interface => (said interface e).getD (up interface)

/-- Whether an interface is up after these calls: the last one about it decides. -/
def upAfter (up : String → Bool) (calls : List (Stop × World)) (interface : String) : Bool :=
  (calls.filterMap (said interface)).getLast?.getD (up interface)

theorem foldl_hear (up : String → Bool) (calls : List (Stop × World)) :
    calls.foldl hear up = upAfter up calls := by
  induction calls generalizing up with
  | nil => rfl
  | cons e rest ih =>
    rw [List.foldl_cons, ih]
    funext interface
    unfold upAfter hear
    cases hSaid : said interface e with
    | none => rw [List.filterMap_cons_none hSaid, Option.getD_none]
    | some found =>
      rw [List.filterMap_cons_some hSaid, List.getLast?_cons, Option.getD_some, Option.getD_some]

/-- A call changes the interface it is about, and no other. -/
theorem answers_hear {stop : Stop} {s s' : World} {r : Except DriverError Unit}
    (h : surroundings.answers stop s r s') : s'.up = hear s.up (stop, s') := by
  obtain ⟨place, c⟩ := stop
  have hAnswer : c.Answers s r s' := h
  have hSet : ∀ (b : Backend) (v : Bool) (interface : String),
      (s.setUp b v).up interface =
        (if b.interface = interface then some ((s.setUp b v).up interface) else none).getD
          (s.up interface) := by
    intro b v interface
    by_cases hSame : b.interface = interface
    · rw [if_pos hSame]
      rfl
    · rw [if_neg hSame]
      exact Function.update_of_ne (Ne.symm hSame) v s.up
  cases c with
  | down b | up b file =>
    obtain ⟨v, rfl, -⟩ := hAnswer
    exact funext (hSet b v)
  | lock | isRunning b | writeServerPrivateKey b key | ensureServerKeys b | waitReady
  | publicFromPrivate | generateKeypair | generatePreshared | version | metrics | onlineDevices
  | dump | saveState | emit => exact (answers_near rfl hAnswer).up

-- ---------------------------------------------------------------------------
-- Small parts
-- ---------------------------------------------------------------------------

section Parts

variable {t : Studio} {lang : Lang} {α : Type} {P : Stop → World → Prop}
  {E : DriverError → World → Prop} {A : α → World → Prop} {s : World} {place : Place}

/-- A call that only reads. -/
theorem along_reads {c : Call} (hReads : c.readsOnly = true) {B : Unit → World → Prop}
    (hHere : P ⟨place, c⟩ s) (hE : ∀ e, E e s) (hB : B () s) :
    (await ⟨place, c⟩ : Way Unit).Along surroundings P E B s :=
  Along.await hHere (fun e _ hAnswer => answers_same hReads hAnswer ▸ hE e)
    fun _ hAnswer => answers_same hReads hAnswer ▸ hB

theorem along_reads_bind {c : Call} (hReads : c.readsOnly = true) {g : Unit → Way α}
    (hHere : P ⟨place, c⟩ s) (hE : ∀ e, E e s) (hGoes : (g ()).Along surroundings P E A s) :
    (await ⟨place, c⟩ >>= g).Along surroundings P E A s :=
  along_bind.mpr (along_reads hReads hHere hE hGoes)

theorem along_isRunning {b : Backend} {B : Bool → World → Prop} (hHere : P ⟨place, .isRunning b⟩ s)
    (hB : B (s.up b.interface) s) : (isRunning place b).Along surroundings P E B s :=
  Along.await_bind hHere (fun e _ hAnswer => by cases hAnswer.1)
    fun _ hAnswer => hAnswer.2 ▸ hB

theorem along_backendOf_bind {row : Settings} {g : Backend → Way α} (hE : ∀ e, E e s)
    (hGoes : ∀ b, s.memory.backends.get? (tagOf lang row) = some b →
      (g b).Along surroundings P E A s) :
    (backendOf lang row >>= g).Along surroundings P E A s := by
  rw [along_bind, backendOf, along_get_bind]
  cases hGet : s.memory.backends.get? (tagOf lang row) with
  | none => exact hE _
  | some b => exact hGoes b hGet

theorem along_onlyIf {condition : Prop} [Decidable condition] {body : Way Unit}
    {B : Unit → World → Prop} (hDo : condition → body.Along surroundings P E B s)
    (hNot : ¬ condition → B () s) : (onlyIf condition body).Along surroundings P E B s := by
  unfold onlyIf
  split
  · next h => exact hDo h
  · next h => exact hNot h

/-- A call that changes no interface. -/
theorem along_near {c : Call} (hLeaves : c.leavesUp = true) {B : Unit → World → Prop}
    (hHere : P ⟨place, c⟩ s) (hE : ∀ e s', Near s s' → E e s') (hB : ∀ s', Near s s' → B () s') :
    (await ⟨place, c⟩ : Way Unit).Along surroundings P E B s :=
  Along.await hHere (fun e s' hAnswer => hE e s' (answers_near hLeaves hAnswer))
    fun s' hAnswer => hB s' (answers_near hLeaves hAnswer)

theorem along_ensureServerKeys {b : Backend} {B : String × String → World → Prop}
    (hHere : P ⟨place, .ensureServerKeys b⟩ s) (hE : ∀ e s', Near s s' → E e s')
    (hB : ∀ pair s', Near s s' → B pair s') :
    (ensureServerKeys t place b).Along surroundings P E B s := by
  unfold ensureServerKeys
  rw [along_bind]
  refine along_near rfl hHere hE fun s' hNear => ?_
  rw [along_get_bind]
  cases s'.keyFile b with
  | none => exact hE _ s' hNear
  | some key =>
    dsimp only
    cases t.publicFromPrivate key with
    | error e => exact hE e s' hNear
    | ok other => exact hB _ s' hNear

end Parts

-- ---------------------------------------------------------------------------
-- Server keys
-- ---------------------------------------------------------------------------

/-- One turn of the loop over the inbounds adds the pair of its row. -/
theorem along_provideServerKeys {t : Studio} {P : Stop → World → Prop}
    {E : DriverError → World → Prop} {B : Unit → World → Prop} {s : World}
    {old : Dict String (String × String)} {inbound : Json × Settings}
    (hHere : ∀ c s', c.leavesUp = true → Near s s' → P ⟨.keys, c⟩ s')
    (hE : ∀ e s', Near s s' → E e s')
    (hB : ∀ pair s', Near s s' → B () (s'.putServerKeys (tagOf t.lang inbound.2) pair)) :
    (provideServerKeys t old inbound).Along surroundings P E B s := by
  unfold provideServerKeys serverKeysFor
  refine along_backendOf_bind (fun e => hE e s (Near.refl s)) fun b _ => ?_
  rw [along_bind]
  split
  · exact hB _ s (Near.refl s)
  · split
    · exact along_ensureServerKeys (hHere _ s rfl (Near.refl s)) hE hB
    · rw [along_bind]
      refine along_near rfl (hHere _ s rfl (Near.refl s)) hE fun s₁ h₁ => ?_
      refine Along.lift_bind (fun e _ => hE e s₁ h₁) fun other _ => ?_
      rw [along_bind]
      exact along_near rfl (hHere _ s₁ rfl h₁) (fun e s₂ h₂ => hE e s₂ (h₁.trans h₂))
        fun s₂ h₂ => hB _ s₂ (h₁.trans h₂)

-- ---------------------------------------------------------------------------
-- Accounts
-- ---------------------------------------------------------------------------

/-- The settings are those of an account that has been provided for. -/
def Provisioned (t : Studio) (ls : Listeners) (settings : Settings) : Prop :=
  ∃ account chain roster,
    provisionKeys t.platform t.tools ls chain roster account = .ok settings

/-- At most the account `id` is not as it was. -/
structure Touched (id : String) (s s' : World) : Prop where
  desired    : s'.memory.desired = s.memory.desired
  backends   : s'.memory.backends = s.memory.backends
  serverKeys : s'.memory.serverKeys = s.memory.serverKeys
  ids        : s'.memory.roster.ids = s.memory.roster.ids
  others     : ∀ other, other ≠ id →
    s'.memory.roster.table.get? other = s.memory.roster.table.get? other
  recorded   : s'.recorded = s.recorded
  up         : s'.up = s.up

theorem Touched.refl (id : String) (s : World) : Touched id s s :=
  ⟨rfl, rfl, rfl, rfl, fun _ _ => rfl, rfl, rfl⟩

section Accounts

variable {t : Studio} {ls : Listeners} {s s' : World} {id : String}
  {account account' : UserAccount} {settings : Settings} {granted : List Listener}

theorem get?_putAccount (hId : account.accountId = id) :
    (s.putAccount account).memory.roster.table.get? id = some account :=
  hId ▸ Dict.get?_set_self _ _ _

theorem Touched.put (h : Touched id s s') (hGet : s'.memory.roster.table.get? id = some account')
    (hId : account.accountId = id) : Touched id s (s'.putAccount account) := by
  have hMem : account.accountId ∈ s'.memory.roster.table.entries.map Prod.fst := by
    rw [hId]
    exact Dict.mem_keys_iff.mpr ⟨account', hGet⟩
  refine ⟨h.desired, h.backends, h.serverKeys, ?_, fun other hOther => ?_, h.recorded, h.up⟩
  · rw [← h.ids]
    show (assocSet account.accountId account s'.memory.roster.table.entries).map Prod.fst = _
    rw [assocSet_keys, if_pos hMem]
    rfl
  · rw [← h.others other hOther]
    exact Dict.get?_set_of_ne _ _ (hId ▸ Ne.symm hOther)

/-- An account that has been provided for has its identity, -/
theorem Provisioned.identified (h : Provisioned t ls settings) :
    (isSet settings "private_key" && isSet settings "public_key") = true := by
  obtain ⟨account, chain, roster, h⟩ := h
  obtain ⟨hValid, granted, -, hSettings, -⟩ := provisionKeys_ok h
  have hSame : ∀ key, "address" ≠ key → "inbound_addresses" ≠ key → "preshared_key" ≠ key →
      isSet settings key = isSet (withKeypair t.tools account) key := by
    intro key hAddress hTable hPreshared
    refine isSet_of_getD_eq ?_
    rw [hSettings key hAddress hTable, keyed, getD_withPreshared hPreshared]
  have hPrivate : isSet (withKeypair t.tools account) "private_key" = true := by
    unfold withKeypair
    split
    · rename_i hBoth
      exact (Bool.and_eq_true_iff.mp hBoth).1
    · rw [isSet, Json.getD_assocSet_of_ne (by decide), Json.getD_assocSet_self]
      simpa [Json.truthy] using t.keypair_ne_empty account
  rw [hSame _ (by decide) (by decide) (by decide), hSame _ (by decide) (by decide) (by decide),
    hPrivate, isSet_publicKey hValid]
  rfl

/-- and a preshared key where it is granted an inbound that uses them. -/
theorem Provisioned.preshared (h : Provisioned t ls settings)
    (hGranted : grantedListeners t.platform ls settings = .ok granted) :
    (granted.any Listener.usePresharedKeys && !isSet settings "preshared_key") = false := by
  obtain ⟨account, chain, roster, h⟩ := h
  obtain ⟨-, granted', hGranted', hSettings, -⟩ := provisionKeys_ok h
  have hSame : grantedListeners t.platform ls settings =
      grantedListeners t.platform ls account.settings := by
    refine grantedListeners_congr ?_ ?_
    · rw [hSettings _ (by decide) (by decide), getD_keyed (by decide) (by decide) (by decide)]
    · rw [hSettings _ (by decide) (by decide), getD_keyed (by decide) (by decide) (by decide)]
  obtain rfl : granted' = granted := by
    rw [hGranted, hGranted'] at hSame
    exact (Except.ok.inj hSame).symm
  cases hAny : granted'.any Listener.usePresharedKeys with
  | false => rfl
  | true =>
    obtain ⟨l, hl, hUse⟩ := List.any_eq_true.mp hAny
    have hSet := (@presharedKey_keyed t.platform t.tools account _ _ hl hUse).1
    rw [isSet_of_getD_eq (hSettings "preshared_key" (by decide) (by decide)), hSet]
    rfl

variable {P : Stop → World → Prop} {E : DriverError → World → Prop} {B : Unit → World → Prop}
  {place : Place}

/--
**Accounts.** An account is provided for, or left alone if it has been; at an
await it has not been. The state is described by what it is not: at most this
one account is not as it was.
-/
theorem along_provideAddresses {keyed : UserAccount} {s₁ : World}
    (hListeners : listenersOf t.lang s.memory.desired = .ok ls)
    (hTouched : Touched id s s₁) (hGet : s₁.memory.roster.table.get? id = some keyed)
    (hAccount : account.accountId = id) (hKeyed : keyed.accountId = id)
    (hSettings : keyed.settings = withKeypair t.tools account)
    (hValid : isValidKey (t.platform.str (Json.getD keyed.settings "public_key")).toList = true)
    (hSame : Provisioned t ls account.settings → s₁ = s ∧ keyed = account)
    (hHere : ∀ c s' account', c.leavesUp = true → Touched id s s' →
      s'.memory.roster.table.get? id = some account' → ¬ Provisioned t ls account'.settings →
        ¬ Provisioned t ls account.settings → P ⟨place, c⟩ s')
    (hE : ∀ e s', Touched id s s' → (Provisioned t ls account.settings → s' = s) → E e s')
    (hB : ∀ s' account', Touched id s s' → s'.memory.roster.table.get? id = some account' →
      Provisioned t ls account'.settings → B () s') :
    (provideAddresses t place account keyed).Along surroundings P E B s₁ := by
  unfold provideAddresses
  rw [along_get_bind, hTouched.desired, hListeners]
  refine Along.lift_bind (fun e h => by cases h) fun _ hEq => ?_
  obtain rfl := Except.ok.inj hEq
  refine Along.lift_bind (fun e _ => hE e s₁ hTouched fun h => (hSame h).1)
    fun granted hGranted => ?_
  have hGranted' : grantedListeners t.platform ls account.settings = .ok granted := by
    rw [← hGranted, hSettings, granted_withKeypair]
  -- what is left to do for the account once it has its preshared key
  have hRest : ∀ complete s₂, Touched id s s₂ → (Provisioned t ls account.settings → s₂ = s) →
      (∃ found, s₂.memory.roster.table.get? id = some found) → complete.accountId = id →
      complete.settings = WireGuard.keyed t.tools account granted →
      (get >>= fun s => lift (addressed t ls s.chain s.memory.roster complete granted) >>=
        fun settings => modify (World.putAccount { complete with settings := settings }) :
          Way Unit).Along surroundings P E B s₂ := by
    rintro complete s₂ h₂ hSame₂ ⟨found, hFound⟩ hId hComplete
    rw [along_get_bind]
    refine Along.lift_bind (fun e _ => hE e s₂ h₂ hSame₂) fun settings hAddressed => ?_
    have hProvisioned : Provisioned t ls settings := by
      refine ⟨account, s₂.chain, s₂.memory.roster, ?_⟩
      rw [provisionKeys_eq (hSettings ▸ hValid) hGranted', ← hComplete, hAccount, ← hId]
      exact hAddressed
    exact hB _ _ (h₂.put hFound hId) (get?_putAccount hId) hProvisioned
  have hComplete : (withPreshared t.tools account granted keyed.settings) =
      WireGuard.keyed t.tools account granted := by
    rw [hSettings]
    rfl
  rw [along_bind]
  unfold providePreshared
  dsimp only
  split
  · rename_i hNeeded
    have hNot : ¬ Provisioned t ls keyed.settings := by
      intro hProvisioned
      rw [hProvisioned.preshared hGranted] at hNeeded
      cases hNeeded
    have hNot' : ¬ Provisioned t ls account.settings := by
      intro hProvisioned
      exact hNot ((hSame hProvisioned).2 ▸ hProvisioned)
    rw [along_bind]
    refine along_reads rfl (hHere _ s₁ keyed rfl hTouched hGet hNot hNot')
      (fun e => hE e s₁ hTouched fun h => absurd h hNot') ?_
    rw [along_modify_bind]
    exact hRest _ _ (hTouched.put hGet hKeyed) (fun h => absurd h hNot')
      ⟨_, get?_putAccount hKeyed⟩ hKeyed hComplete
  · exact hRest _ s₁ hTouched (fun h => (hSame h).1) ⟨_, hGet⟩ hKeyed hComplete

theorem along_provision (hListeners : listenersOf t.lang s.memory.desired = .ok ls)
    (hGet : s.memory.roster.table.get? id = some account)
    (hHere : ∀ c s' account', c.leavesUp = true → Touched id s s' →
      s'.memory.roster.table.get? id = some account' → ¬ Provisioned t ls account'.settings →
        ¬ Provisioned t ls account.settings → P ⟨place, c⟩ s')
    (hE : ∀ e s', Touched id s s' → (Provisioned t ls account.settings → s' = s) → E e s')
    (hB : ∀ s' account', Touched id s s' → s'.memory.roster.table.get? id = some account' →
      Provisioned t ls account'.settings → B () s') :
    (provision t place id).Along surroundings P E B s := by
  have hId : account.accountId = id := s.memory.roster.keyed hGet
  unfold provision
  rw [along_get_bind, hGet]
  dsimp only
  rw [along_bind]
  unfold provideKeypair
  split
  -- an identity: nothing is awaited for it, and the settings are still those pushed
  · rename_i hBoth
    have hSettings : account.settings = withKeypair t.tools account := by
      rw [withKeypair, if_pos hBoth]
    show (if _ then _ else _ : Way Unit).Along surroundings P E B s
    split
    · rename_i hValid
      exact along_provideAddresses hListeners (Touched.refl id s) hGet hId hId hSettings hValid
        (fun _ => ⟨rfl, rfl⟩) hHere hE hB
    · exact hE _ s (Touched.refl id s) fun _ => rfl
  -- no identity: it is awaited, and the account is not provided for meanwhile
  · rename_i hMissing
    have hNot : ¬ Provisioned t ls account.settings := fun h => hMissing h.identified
    rw [along_bind]
    refine along_reads rfl (hHere _ s account rfl (Touched.refl id s) hGet hNot hNot)
      (fun e => hE e s (Touched.refl id s) fun _ => rfl) ?_
    rw [along_modify_bind]
    have hPut : Touched id s
        (s.putAccount { account with settings := withKeypair t.tools account }) :=
      (Touched.refl id s).put hGet hId
    show (if _ then _ else _ : Way Unit).Along surroundings P E B _
    split
    · rename_i hValid
      exact along_provideAddresses hListeners hPut (get?_putAccount hId) hId hId rfl hValid
        (fun h => absurd h hNot) hHere hE hB
    · exact hE _ _ hPut fun h => absurd h hNot

end Accounts

-- ---------------------------------------------------------------------------
-- Interfaces
-- ---------------------------------------------------------------------------

section Interfaces

variable {t : Studio} {P : Stop → World → Prop} {E : DriverError → World → Prop}
  {B : Unit → World → Prop} {place undoing : Place} {s s₁ : World}

theorem exists_of_forall₂ {α β : Type} {R : α → β → Prop} {xs : List α} {ys : List β}
    (h : List.Forall₂ R xs ys) {x : α} (hx : x ∈ xs) : ∃ y ∈ ys, R x y := by
  induction h with
  | nil => cases hx
  | cons hFirst _ ih =>
    rcases List.mem_cons.mp hx with rfl | hRest
    · exact ⟨_, List.mem_cons_self, hFirst⟩
    · obtain ⟨y, hy, hR⟩ := ih hRest
      exact ⟨y, List.mem_cons_of_mem _ hy, hR⟩

theorem along_repairChainAddress (hE : ∀ e, E e s) (hB : ∀ s', Near s s' → B () s') :
    (repairChainAddress t).Along surroundings P E B s := by
  unfold repairChainAddress
  rw [along_get_bind]
  cases s.chain with
  | none => exact hB s (Near.refl s)
  | some peer =>
    refine Along.lift_bind (fun e _ => hE e) fun ls _ => ?_
    exact Along.lift_bind (fun e _ => hE e) fun peer _ => hB _ ⟨⟨rfl, rfl⟩, rfl⟩

theorem along_cleanUp {started : List Backend} (hStill : Still s₁ s)
    (hHere : ∀ c s', Still s₁ s' → P ⟨place, c⟩ s') (hE : ∀ e s', Still s₁ s' → E e s')
    (hB : ∀ s', Still s₁ s' → B () s') :
    (cleanUp place started).Along surroundings P E B s := by
  have hLoop : (cleanUp place started).Along surroundings P E (fun _ s' => Still s₁ s') s := by
    refine Along.forEach (fun _ s' => Still s₁ s') (fun _ b _ _ s₂ h₂ => ?_) hStill
    rw [along_guarded]
    refine Along.await (hHere _ s₂ h₂) (fun e s' hAnswer => ?_)
      fun s' hAnswer => h₂.trans (surroundings_still hAnswer)
    split
    · exact h₂.trans (surroundings_still hAnswer)
    · exact hE e s' (h₂.trans (surroundings_still hAnswer))
  exact hLoop.mono (fun _ _ => id) (fun _ _ => id) fun _ => hB

theorem setUp_up {b b' : Backend} (h : s.up b'.interface = true) :
    (s.setUp b true).up b'.interface = true := by
  show Function.update s.up b.interface true b'.interface = true
  by_cases hSame : b'.interface = b.interface
  · rw [hSame, Function.update_self]
  · rwa [Function.update_of_ne hSame]

/--
**Interfaces.** If all rows have been brought up, their backends are up, and so
are those that were. If one fails, those started so far are taken down again,
and memory has not been touched.
-/
theorem along_bringUp {started : List Backend} {rows : List Settings} (hStill : Still s₁ s)
    (hUp : ∀ b ∈ started, s.up b.interface = true)
    (hHere : ∀ c s', Still s₁ s' → P ⟨place, c⟩ s' ∧ P ⟨undoing, c⟩ s')
    (hE : ∀ e s', Still s₁ s' → E e s')
    (hB : ∀ s', Still s₁ s' → (∀ b ∈ started, s'.up b.interface = true) →
      (∀ row ∈ rows, ∀ b, s₁.memory.backends.get? (tagOf t.lang row) = some b →
        s'.up b.interface = true) → B () s') :
    (bringUp t place undoing started rows).Along surroundings P E B s := by
  -- on the rows that are left; `started` are those that are up
  induction rows generalizing started s with
  | nil => exact hB s hStill hUp fun row hRow => absurd hRow List.not_mem_nil
  | cons row rest ih =>
    -- any failure of a turn takes down what was started, and then goes on
    have hUndo : ∀ (started : List Backend) (A : Backend → World → Prop) (e : DriverError) s',
        Still s₁ s' → if e.isException then (cleanUp undoing started >>= fun _ => raise e :
          Way Backend).Along surroundings P E A s' else E e s' := by
      intro started A e s' h'
      split
      · rw [along_bind]
        exact along_cleanUp h' (fun c s'' h'' => (hHere c s'' h'').2) hE fun s'' h'' => hE e s'' h''
      · exact hE e s' h'
    unfold bringUp
    dsimp only
    rw [along_bind, along_guarded]
    -- the file is rendered, the interface brought up, and its state asked for
    refine along_backendOf_bind (fun e => hUndo started _ e s hStill) fun b hGet => ?_
    rw [along_get_bind]
    refine Along.lift_bind (fun e _ => hUndo started _ e s hStill) fun file _ => ?_
    rw [along_bind]
    refine Along.await (hHere _ s hStill).1
      (fun e s' hAnswer => hUndo started _ e s' (hStill.trans (surroundings_still hAnswer))) ?_
    rintro s' ⟨v, rfl, hTrue⟩
    obtain rfl := hTrue rfl
    have hStill' : Still s₁ (s.setUp b true) := hStill.trans (still_setUp b true s)
    -- the new one is up, and it is put in front of the others
    have hUp' : ∀ b' ∈ b :: started, (s.setUp b true).up b'.interface = true := by
      rw [List.forall_mem_cons]
      refine ⟨?_, fun b' hb' => setUp_up (hUp b' hb')⟩
      show Function.update s.up b.interface true b.interface = true
      rw [Function.update_self]
    show (Co.bind _ _).Along surroundings P E B _
    refine along_bind.mpr (along_guarded.mpr ?_)
    refine along_reads_bind rfl (hHere _ _ hStill').1
      (fun e => hUndo (b :: started) _ e _ hStill') ?_
    -- the rest takes none of them down again
    refine ih hStill' hUp' fun s' h' hStarted hRest => hB s' h' ?_ ?_
    · exact fun b' hb' => hStarted b' (List.mem_cons_of_mem b hb')
    · rw [List.forall_mem_cons]
      refine ⟨fun b' hb' => ?_, hRest⟩
      rw [hStill.memory] at hGet
      obtain rfl := Option.some.inj (hGet.symm.trans hb')
      exact hStarted b List.mem_cons_self

theorem along_restore {row : Settings} (hStill : Still s₁ s)
    (hHere : ∀ c s', Still s₁ s' → P ⟨.rollback, c⟩ s') (hE : ∀ e s', Still s₁ s' → E e s')
    (hB : ∀ s', Still s₁ s' → B () s') : (restore t row).Along surroundings P E B s := by
  -- what goes wrong with one row is logged, and the next row is tried
  have hCaught : ∀ (e : DriverError) s', Still s₁ s' →
      if e.isException then (pure () : Way Unit).Along surroundings P E B s' else E e s' := by
    intro e s' h'
    split
    · exact hB s' h'
    · exact hE e s' h'
  unfold restore
  refine along_backendOf_bind (fun e => hE e s hStill) fun b _ => ?_
  dsimp only
  rw [along_guarded, along_bind]
  refine along_isRunning (hHere _ s hStill) ?_
  split
  -- it is up already
  · exact hB s hStill
  · rw [along_get_bind]
    refine Along.lift_bind (fun e _ => hCaught e s hStill) fun file _ => ?_
    rw [along_bind]
    refine Along.await (hHere _ s hStill)
      (fun e s' hAnswer => hCaught e s' (hStill.trans (surroundings_still hAnswer)))
      fun s' hAnswer => ?_
    have hStill' := hStill.trans (surroundings_still hAnswer)
    exact along_reads rfl (hHere _ s' hStill') (fun e => hCaught e s' hStill') (hB s' hStill')

/-- A look at the driver changes nothing; if it finds it running, all its
interfaces are up. -/
theorem along_status {A : CoreState → World → Prop}
    (hHere : ∀ c, c.readsOnly = true → P ⟨place, c⟩ s) (hE : ∀ e, E e s)
    (hA : ∀ state, (state = .running → ∀ row ∈ s.memory.desired.listeners,
      ∃ b, s.memory.backends.get? (tagOf t.lang row) = some b ∧ s.up b.interface = true) →
        A state s) : (status t place).Along surroundings P E A s := by
  unfold status
  rw [along_get_bind, along_bind]
  refine (Along.mapList (fun s' => s' = s) (fun row up => ∃ b,
    s.memory.backends.get? (tagOf t.lang row) = some b ∧ up = s.up b.interface) ?_ rfl).mono
      (fun _ _ => id) (fun _ _ => id) ?_
  -- one question for each row, answered by the interface as it is
  · rintro row - _ rfl
    refine along_backendOf_bind hE fun b hGet => ?_
    exact along_isRunning (hHere _ rfl) ⟨rfl, b, hGet, rfl⟩
  · rintro found s' ⟨hSame, hFound⟩
    rw [hSame]
    refine along_reads_bind rfl (hHere _ rfl) hE ?_
    rw [along_bind]
    -- running means that every one of the answers was yes
    have hState : A (if found.all id then .running else if found.any id then .error else .stopped)
        s := by
      refine hA _ fun hRunning row hRow => ?_
      have hAll : found.all id = true := by
        by_contra hNot
        rw [if_neg hNot] at hRunning
        split at hRunning <;> cases hRunning
      obtain ⟨up, hMem, b, hGet, hEq⟩ := exists_of_forall₂ hFound hRow
      exact ⟨b, hGet, hEq ▸ List.all_eq_true.mp hAll up hMem⟩
    -- the calls that follow only read
    refine along_onlyIf (fun _ => ?_) fun _ => hState
    refine along_reads_bind rfl (hHere _ rfl) hE ?_
    refine along_reads_bind rfl (hHere _ rfl) hE ?_
    exact along_reads rfl (hHere _ rfl) hE hState

end Interfaces

end ZagrosNode.WireGuard
