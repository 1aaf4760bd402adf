import ZagrosNode.Accounts.Convergence

/-!
# ZagrosNode — is every account accepted or refused?

`_to_user_account` is to answer every JSON value with a record or with a 422. The
checks written out in it do. Two exceptions pass them: `int()` of an infinite float
is an `OverflowError`, which the clause around it does not name, and the validation
library raises its own where the record is built, around which there is no clause: for
an optional field it cannot convert, and for a text with a lone surrogate in it.

The list is decoded as a whole before the driver or the snapshot is touched, so an
entry that raises, with whatever, stops the push.

The proof goes along the checks. `settled_bind` takes a check that settles out of the
sequence and leaves the rest under what the check has found; only `int()` of the user id
and the validation of the record do not settle by themselves, and these two are the
condition. What they ask is stated on the pushed entry (`InfiniteId`, `Valid`), with the
checks before the validation as a hypothesis (`Checked`), since it is not reached
otherwise.

Main results:

* `rejected_untouched` — a push with an entry that raises touches nothing.
* `total_iff` — which values are accepted or refused with a 422.
* `infinite_id_escapes` — a user id of `Infinity` is neither.
-/

namespace ZagrosNode.Accounts

open ZagrosNode.Lib ZagrosNode.Cores ZagrosNode.Security

-- ---------------------------------------------------------------------------
-- The outcomes of one entry
-- ---------------------------------------------------------------------------

def Is422 : Failure → Prop
  | .http status _       => status = 422
  | .security _ | .py _ => False

/-- A result, or a 422. -/
def Settled {α : Type} : Except Failure α → Prop
  | .ok _    => True
  | .error e => Is422 e

/-- `user_id` is an infinity. -/
def InfiniteId (raw : Raw) : Prop :=
  Json.get? raw "user_id" = some (.float .inf) ∨ Json.get? raw "user_id" = some (.float .negInf)

/-- A text field has a length between 1 and `bound`. -/
def Fits (p : Platform) (raw : Raw) (field : String) (bound : Nat) : Prop :=
  1 ≤ (p.text (Json.getD raw field)).length ∧ (p.text (Json.getD raw field)).length ≤ bound

/-- The entry passes the checks that are written out. -/
structure Checked (p : Platform) (raw : Raw) : Prop where
  userId    : (userIdOf raw).toBool = true
  username  : Fits p raw "username" 128
  accountId : Fits p raw "account_id" 256
  protocol  : Fits p raw "protocol" 64
  settings  : ((Json.getD raw "settings").or (.dict [])).isDict = true

/-- What the validation of the record asks of the entry: Unicode in its three texts
and in the keys of its settings, and two optional fields that convert. -/
structure Valid (p : Platform) (raw : Raw) : Prop where
  username  : p.unicode (p.text (Json.getD raw "username")) = true
  accountId : p.unicode (p.text (Json.getD raw "account_id")) = true
  protocol  : p.unicode (p.text (Json.getD raw "protocol")) = true
  keys      : ∀ settings, settingsOf raw = .ok settings → ∀ e ∈ settings, p.unicode e.1 = true
  optional  : p.validate (Json.getD raw "expire_at") (Json.getD raw "data_limit_bytes") = .ok ()

/-- What a value that is an object must meet to be accepted or refused. -/
def Conforms (p : Platform) : Json → Prop
  | .dict raw => ¬ InfiniteId raw ∧ (Checked p raw → Valid p raw)
  | _         => True

variable {p : Platform} {raw : Raw} {α β : Type}

/-- After a check that settles, it is the rest that has to. -/
theorem settled_bind {x : Except Failure α} (hx : Settled x) (f : α → Except Failure β) :
    Settled (x >>= f) ↔ ∀ a, x = .ok a → Settled (f a) := by
  cases x with
  | ok a => exact ⟨fun h a' hEq => Except.ok.inj hEq ▸ h, fun h => h a rfl⟩
  | error e => exact iff_of_true (show Is422 e from hx) fun a hEq => by cases hEq

theorem userIdOf_settled : Settled (userIdOf raw) ↔ ¬ InfiniteId raw := by
  unfold userIdOf InfiniteId
  cases hGet : Json.get? raw "user_id" with
  | none => exact iff_of_true rfl (by simp)
  | some v =>
    cases v with
    | null | bool b | num n | list xs | dict entries => exact iff_of_true (by trivial) (by simp)
    | str s =>
      have hText : (Json.str s).int = intOfStr s := rfl
      refine iff_of_true ?_ (by simp)
      dsimp only
      rw [hText]
      cases hInt : intOfStr s with
      | ok n => exact trivial
      | error e =>
        dsimp only
        rw [intOfStr_error hInt]
        rfl
    | float x =>
      cases x with
      | finite q | nan => exact iff_of_true (by trivial) (by simp)
      | inf | negInf => exact iff_of_false id (by simp)

theorem checkedText_iff {field complaint : String} {bound : Nat} :
    Settled (checkedText p raw field bound complaint) ∧
      ((∃ text, checkedText p raw field bound complaint = .ok text) ↔ Fits p raw field bound) := by
  unfold checkedText Fits
  dsimp only
  split
  · next h => exact ⟨trivial, iff_of_true ⟨_, rfl⟩ h⟩
  · next h => exact ⟨rfl, iff_of_false (fun ⟨_, hEq⟩ => by cases hEq) h⟩

theorem settingsOf_iff :
    Settled (settingsOf raw) ∧ ((∃ settings, settingsOf raw = .ok settings) ↔
      ((Json.getD raw "settings").or (.dict [])).isDict = true) := by
  unfold settingsOf
  cases (Json.getD raw "settings").or (.dict []) with
  | dict entries => exact ⟨trivial, iff_of_true ⟨_, rfl⟩ rfl⟩
  | null | bool b | num n | float x | str s | list xs =>
    exact ⟨rfl, iff_of_false (fun ⟨_, hEq⟩ => by cases hEq) Bool.false_ne_true⟩

/-- The record is built and validated. -/
def built (p : Platform) (raw : Raw) (userId : Int) (username accountId protocol : String)
    (settings : Settings) : Except Failure UserAccount :=
  match p.validateRecord username accountId protocol settings (Json.getD raw "expire_at")
    (Json.getD raw "data_limit_bytes") with
  | .error e => .error (.py e)
  | .ok ()   =>
    .ok
      { userId := userId
        username := username
        accountId := accountId
        protocol := protocol
        enabled := enabledOf raw
        expireAt := Json.getD raw "expire_at"
        dataLimitBytes := Json.getD raw "data_limit_bytes"
        settings := settings }

theorem toUserAccount_dict (p : Platform) (raw : Raw) :
    toUserAccount p (.dict raw) = (do
      let userId ← userIdOf raw
      let username ← checkedText p raw "username" 128 "account 'username' must be 1–128 characters"
      let accountId ←
        checkedText p raw "account_id" 256 "account 'account_id' must be 1–256 characters"
      let protocol ← checkedText p raw "protocol" 64 "account 'protocol' must be 1–64 characters"
      let settings ← settingsOf raw
      built p raw userId username accountId protocol settings) := rfl

/-- Building settles exactly where the validation accepts. -/
theorem built_settled {n : Int} {username accountId protocol : String} {settings : Settings} :
    Settled (built p raw n username accountId protocol settings) ↔
      p.validateRecord username accountId protocol settings (Json.getD raw "expire_at")
        (Json.getD raw "data_limit_bytes") = .ok () := by
  unfold built
  cases p.validateRecord username accountId protocol settings (Json.getD raw "expire_at")
    (Json.getD raw "data_limit_bytes") with
  | ok u => exact iff_of_true trivial rfl
  | error e => exact iff_of_false id fun hEq => by cases hEq

theorem validateRecord_ok {username accountId protocol : String} {settings : Settings}
    {expireAt dataLimitBytes : Json} :
    p.validateRecord username accountId protocol settings expireAt dataLimitBytes = .ok () ↔
      (p.unicode username = true ∧ p.unicode accountId = true ∧ p.unicode protocol = true ∧
        ∀ e ∈ settings, p.unicode e.1 = true) ∧ p.validate expireAt dataLimitBytes = .ok () := by
  unfold Platform.validateRecord
  by_cases hTexts : (p.unicode username && p.unicode accountId && p.unicode protocol
      && settings.all (fun e => p.unicode e.1)) = true
  · rw [if_pos hTexts]
    simp only [Bool.and_eq_true, List.all_eq_true, and_assoc] at hTexts
    exact ⟨fun h => ⟨hTexts, h⟩, fun h => h.2⟩
  · rw [if_neg hTexts]
    simp only [Bool.and_eq_true, List.all_eq_true, and_assoc] at hTexts
    exact iff_of_false (fun hEq => by cases hEq) fun h => hTexts h.1

/--
**One entry.** It settles unless its id is infinite, or it passes the checks
and not the validation. The checks come first and answer 422 themselves, so
what the validation would say of an entry they reject does not matter.
-/
theorem settled_iff (p : Platform) (v : Json) : Settled (toUserAccount p v) ↔ Conforms p v := by
  cases v with
  | null | bool b | num n | float x | str s | list xs => exact iff_of_true rfl trivial
  | dict raw =>
    rw [toUserAccount_dict]
    by_cases hInfinite : InfiniteId raw
    · refine iff_of_false (fun h => ?_) fun h => h.1 hInfinite
      have hNot := mt userIdOf_settled.mp (not_not.mpr hInfinite)
      cases hId : userIdOf raw with
      | ok n => exact hNot (hId ▸ trivial)
      | error e =>
        rw [hId] at h hNot
        exact hNot h
    · rw [settled_bind (userIdOf_settled.mpr hInfinite)]
      simp only [settled_bind checkedText_iff.1, settled_bind settingsOf_iff.1, built_settled]
      constructor
      · intro h
        refine ⟨hInfinite, fun hChecked => ?_⟩
        obtain ⟨n, hId⟩ : ∃ n, userIdOf raw = .ok n := by
          have hBool := hChecked.userId
          cases hId : userIdOf raw with
          | ok n => exact ⟨n, rfl⟩
          | error e =>
            rw [hId] at hBool
            cases hBool
        obtain ⟨username, hUsername⟩ := checkedText_iff.2.mpr hChecked.username
        obtain ⟨accountId, hAccountId⟩ := checkedText_iff.2.mpr hChecked.accountId
        obtain ⟨protocol, hProtocol⟩ := checkedText_iff.2.mpr hChecked.protocol
        obtain ⟨settings, hSettings⟩ := settingsOf_iff.2.mpr hChecked.settings
        have hBuilt := h n hId username hUsername accountId hAccountId protocol hProtocol settings
          hSettings
        -- what was checked is what is validated
        obtain ⟨⟨hUser, hAccount, hProto, hKeys⟩, hOptional⟩ := validateRecord_ok.mp hBuilt
        rw [(checkedText_ok hUsername).1] at hUser
        rw [(checkedText_ok hAccountId).1] at hAccount
        rw [(checkedText_ok hProtocol).1] at hProto
        refine ⟨hUser, hAccount, hProto, fun settings' hSettings' => ?_, hOptional⟩
        obtain rfl := Except.ok.inj (hSettings.symm.trans hSettings')
        exact hKeys
      · rintro ⟨-, h⟩ n hId username hUsername accountId hAccountId protocol hProtocol settings
          hSettings
        have hValid := h ⟨by rw [hId]; rfl, checkedText_iff.2.mp ⟨_, hUsername⟩,
          checkedText_iff.2.mp ⟨_, hAccountId⟩, checkedText_iff.2.mp ⟨_, hProtocol⟩,
          settingsOf_iff.2.mp ⟨_, hSettings⟩⟩
        rw [validateRecord_ok, (checkedText_ok hUsername).1, (checkedText_ok hAccountId).1,
          (checkedText_ok hProtocol).1]
        exact ⟨⟨hValid.username, hValid.accountId, hValid.protocol, hValid.keys settings hSettings⟩,
          hValid.optional⟩

-- ---------------------------------------------------------------------------
-- A push
-- ---------------------------------------------------------------------------

/-- An entry that raises makes the decoding of its list raise. -/
theorem decodeAll_error {raws : List Raw} {e : Failure} (hMem : raw ∈ raws)
    (h : toUserAccount p (.dict raw) = .error e) : ∃ e', decodeAll p raws = .error e' := by
  induction raws with
  | nil => cases hMem
  | cons first rest ih =>
    unfold decodeAll at ih ⊢
    rw [List.mapM_cons]
    cases hFirst : toUserAccount p (.dict first) with
    | error e' => exact ⟨e', rfl⟩
    | ok account =>
      have hRest : raw ∈ rest := by
        rcases List.mem_cons.mp hMem with rfl | hRest
        · rw [h] at hFirst
          cases hFirst
        · exact hRest
      obtain ⟨e', hError⟩ := ih hRest
      exact ⟨e', by rw [hError]; rfl⟩

/--
**A rejected entry.** Neither the driver nor the snapshot sees the push: the
whole list is decoded before the first of the two is touched, so one bad entry
keeps all of them away.
-/
theorem rejected_untouched {core : CoreId} {s : Site} {push : Push} {e : Failure}
    (hMem : raw ∈ push.accounts) (h : toUserAccount p (.dict raw) = .error e) :
    (coreAccounts p core s push).1 = s := by
  obtain ⟨e', hError⟩ := decodeAll_error hMem h
  rw [coreAccounts, hError]

/-- The value is answered with a record or a 422, and a push with it as an entry
that is rejected leaves driver and snapshot alone. -/
structure Total (p : Platform) (v : Json) : Prop where
  settled   : Settled (toUserAccount p v)
  untouched : ∀ raw e, v = .dict raw → toUserAccount p v = .error e →
    ∀ core (s : Site) (push : Push), raw ∈ push.accounts → (coreAccounts p core s push).1 = s

/--
**Accounts.** For every JSON value, the validation answers with a record or a 422
and keeps rejected pushes away, **if and only if** the value is no object, or its
`user_id` is not an infinity and the validation of the record accepts it where the
checks before it pass.
-/
theorem total_iff (p : Platform) (v : Json) : Total p v ↔ Conforms p v := by
  constructor
  · exact fun h => (settled_iff p v).mp h.settled
  · intro h
    refine ⟨(settled_iff p v).mpr h, ?_⟩
    rintro raw e rfl hError core s push hMem
    exact rejected_untouched hMem hError

/-- **An infinite id.** It is answered with `OverflowError`. -/
theorem infinite_id_escapes :
    toUserAccount plainPlatform (.dict [("user_id", .float .inf), ("username", .str "a"),
        ("account_id", .str "a"), ("protocol", .str "vless")]) =
      .error (.py ⟨.overflow, "cannot convert float infinity to integer"⟩) ∧
    ¬ Total plainPlatform (.dict [("user_id", .float .inf), ("username", .str "a"),
        ("account_id", .str "a"), ("protocol", .str "vless")]) :=
  ⟨rfl, fun h => h.settled⟩

end ZagrosNode.Accounts
