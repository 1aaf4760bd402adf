import ZagrosNode.Lib.Double
import ZagrosNode.Bans.Coverage

/-!
# ZagrosNode — what a ban list drops

The script turns rows into elements: each address once, in the set of its
family, with the longest of its rows' remaining times. A remaining time is an
integer number of seconds, taken from a double, and at least one.

The chain drops a packet if its source is an element that has not lapsed and
its destination a port of its transport.

`wholeSeconds` is `int(delta.total_seconds())`: a quotient of microseconds as a double,
and its integer part. Up to 2 ** 34 seconds the double is exact enough for the integer
part to be that of the true quotient (`wholeSeconds_eq`); at the end of the calendar it
is not, which is the last result.

`Enforces` says what the table is for, in terms of rows: which packets it drops, and
when. The proof goes row by row through the groups of `_script`: an address has the
longest time of all rows that denote it, in whatever spelling. Rows that are not valid
contribute nothing. What lasts longer than `s` seconds is then a statement about one
address (`groupRows_lasts`).

Main results:

* `wholeSeconds_eq` — the seconds of a remaining time below 2 ** 34 of them.
* `script_enforces` — which packets a table drops, and how exactly its elements
  lapse with the rows they stand for.
* `forever_outlasts` — a row that expires at the end of the calendar stands for
  a second more than is left.
-/

namespace ZagrosNode.Bans

open ZagrosNode.Lib Coverage

-- ---------------------------------------------------------------------------
-- The standard library
-- ---------------------------------------------------------------------------

/-- `int(delta.total_seconds())`, of a distance in microseconds. -/
def wholeSeconds : Int → Int
  | .ofNat us   => truncDouble us 1000000
  | .negSucc us => -truncDouble (us + 1) 1000000

/-- The text of an address is a spelling of it. -/
def Library.Canonical (lib : Library) : Prop :=
  ∀ text address, lib.ipAddress text = .ok address → lib.ipAddress address.text = .ok address

/-- The library with its own division. -/
def Library.withSeconds (lib : Library) : Library :=
  { lib with wholeSeconds := ZagrosNode.Bans.wholeSeconds }

-- ---------------------------------------------------------------------------
-- Rows
-- ---------------------------------------------------------------------------

/-- The row names the address, in whatever spelling. -/
def Denotes (lib : Library) (row : Row) (source : Address) : Prop :=
  ∃ v, field row "ip" = .ok v ∧ lib.ipAddress (lib.str v) = .ok source

/-- The row expires so many microseconds after `now`. -/
def Left (lib : Library) (now : Int) (row : Row) (us : Int) : Prop :=
  ∃ expires, expiry lib row = .ok expires ∧ us = expires - now

/-- The row has a valid address and expires after `now`. -/
def Valid (lib : Library) (now : Int) (row : Row) : Prop :=
  (∃ source, Denotes lib row source) ∧ ∃ us, Left lib now row us ∧ 0 < us

/-- The table drops a packet from the address to the port, `s` seconds after it
was loaded. -/
def Table.DropsAfter (t : Table) (source : Address) (udp : Bool) (port : Int) (s : ℚ) : Prop :=
  ∃ τ : Int, t.banned source.version6 source.text = some τ ∧ s < τ ∧ port ∈ t.ports udp

/-- The port is one of those of its transport. -/
def Served (tcp udp : Finset Int) (isUdp : Bool) (port : Int) : Prop :=
  port ∈ if isUdp then udp else tcp

/-- The table enforces the rows.

* `drops`: it drops what comes from a row's address to a port, as long as the
  whole seconds of the row's remaining time, or one.
* `floor`: below 2 ** 34 seconds the whole seconds are the remaining time,
  rounded down.
* `latest`: of several rows for one address the one that expires last decides.
* `notEarly`: nothing is let through a second or more before a row expires.
* `notLate`: nothing is dropped after the rows have expired and a second has
  passed, if less than 2 ** 34 seconds were left of them.
-/
structure Enforces (lib : Library) (bans : List Row) (tcp udp : Finset Int) (now : Int)
    (t : Table) : Prop where
  drops    : ∀ source isUdp port s, t.DropsAfter source isUdp port s ↔
               Served tcp udp isUdp port ∧ ∃ row ∈ bans, Denotes lib row source ∧
                 ∃ us, Left lib now row us ∧ s < max 1 (wholeSeconds us)
  floor    : ∀ row ∈ bans, ∀ us, Left lib now row us → us < 2 ^ 34 * 1000000 →
               wholeSeconds us = us / 1000000
  latest   : ∀ source isUdp port s, ∀ row ∈ bans, Denotes lib row source →
               ∀ us, Left lib now row us →
                 (∀ other ∈ bans, Denotes lib other source →
                   ∀ us', Left lib now other us' → us' ≤ us) →
                 (t.DropsAfter source isUdp port s ↔
                   Served tcp udp isUdp port ∧ s < max 1 (wholeSeconds us))
  notEarly : ∀ source isUdp port (s : ℚ), ∀ row ∈ bans, Denotes lib row source →
               ∀ us, Left lib now row us → s ≤ us / 1000000 - 1 →
                 Served tcp udp isUdp port → t.DropsAfter source isUdp port s
  notLate  : ∀ source isUdp port (s : ℚ), t.DropsAfter source isUdp port s →
               (∀ row ∈ bans, Denotes lib row source → ∀ us, Left lib now row us →
                 us < 2 ^ 34 * 1000000) →
               ∃ row ∈ bans, Denotes lib row source ∧
                 ∃ us, Left lib now row us ∧ s < max 1 ((us : ℚ) / 1000000)

-- ---------------------------------------------------------------------------
-- Whole seconds
-- ---------------------------------------------------------------------------

theorem wholeSeconds_natCast (us : Nat) : wholeSeconds (us : Int) = truncDouble us 1000000 := rfl

/--
**Whole seconds.** With less than 2 ** 34 seconds left they are the seconds
that have begun to count down, rounded down: the quotient of the floating-point
division is then close enough to the exact one not to reach the next whole
number.
-/
theorem wholeSeconds_eq {us : Int} (hPos : 0 ≤ us) (hSmall : us < 2 ^ 34 * 1000000) :
    wholeSeconds us = us / 1000000 := by
  obtain ⟨n, rfl⟩ := Int.eq_ofNat_of_zero_le hPos
  have hQuotient : n / 1000000 < 2 ^ 34 := by omega
  have hLog : Nat.log 2 (n / 1000000) < 34 := by
    by_cases hZero : n / 1000000 = 0
    · rw [hZero, Nat.log_zero_right]
      decide
    · exact Nat.log_lt_of_lt_pow hZero hQuotient
  have hScale : 2 ^ 19 ≤ doubleScale n 1000000 :=
    Nat.pow_le_pow_right (by decide) (by omega)
  rw [wholeSeconds_natCast, truncDouble_eq (by decide) (by omega)]
  rfl

theorem le_wholeSeconds {us : Int} (hPos : 0 ≤ us) : us / 1000000 ≤ wholeSeconds us := by
  obtain ⟨n, rfl⟩ := Int.eq_ofNat_of_zero_le hPos
  rw [wholeSeconds_natCast]
  exact_mod_cast le_truncDouble n 1000000

theorem wholeSeconds_mono {us us' : Int} (hPos : 0 ≤ us) (h : us ≤ us') :
    wholeSeconds us ≤ wholeSeconds us' := by
  obtain ⟨n, rfl⟩ := Int.eq_ofNat_of_zero_le hPos
  obtain ⟨n', rfl⟩ := Int.eq_ofNat_of_zero_le (le_trans hPos h)
  rw [wholeSeconds_natCast, wholeSeconds_natCast]
  exact_mod_cast truncDouble_mono (by decide) (by exact_mod_cast h)

/-- The last whole second is less than a second before the end. -/
theorem lt_wholeSeconds {us : Int} {s : ℚ} (hPos : 0 ≤ us) (h : s ≤ us / 1000000 - 1) :
    s < wholeSeconds us := by
  have hFloor : ((us / 1000000 : Int) : ℚ) ≤ wholeSeconds us := by
    exact_mod_cast le_wholeSeconds hPos
  have hSplit : us = 1000000 * (us / 1000000) + us % 1000000 := (Int.mul_ediv_add_emod us _).symm
  have hMod : us % 1000000 < 1000000 := Int.emod_lt_of_pos us (by decide)
  have hUpper : us < 1000000 * (us / 1000000) + 1000000 := by omega
  have hUpper : (us : ℚ) < 1000000 * ((us / 1000000 : Int) : ℚ) + 1000000 := by
    exact_mod_cast hUpper
  have hDiv : (us : ℚ) / 1000000 < ((us / 1000000 : Int) : ℚ) + 1 := by
    rw [div_lt_iff₀ (by norm_num)]
    linarith
  linarith

-- ---------------------------------------------------------------------------
-- Elements
-- ---------------------------------------------------------------------------

section Elements

variable {lib : Library} {now : Int}

theorem addressOf_iff (hLib : lib.Canonical) {row : Row} {source : Address} :
    addressOf lib row = .ok source ↔ Denotes lib row source := by
  unfold addressOf Denotes
  cases hField : field row "ip" with
  | error e => simp [bind, Except.bind]
  | ok v =>
    cases hIp : lib.ipAddress (lib.str v) with
    | error e => simp [bind, Except.bind, hIp]
    | ok ip =>
      have hAgain := hLib _ _ hIp
      simp [bind, Except.bind, hIp, hAgain]

/-- One row is grouped under its address. -/
theorem groupRows_cons {g : Groups} {row : Row} {rest : List Row} {source : Address}
    {expires : Int} (hSource : addressOf lib row = .ok source)
    (hExpires : expiry lib row = .ok expires) :
    groupRows lib now g (row :: rest) =
      groupRows lib now
        (g.add source.version6 source.text (max 1 (lib.wholeSeconds (expires - now)))) rest := by
  unfold addressOf at hSource
  unfold expiry at hExpires
  rw [groupRows]
  -- both texts of the row were read, and the address is read once more from its own text
  cases hField : field row "ip" with
  | error e =>
    rw [hField] at hSource
    cases hSource
  | ok v =>
    cases hIp : lib.ipAddress (lib.str v) with
    | error e =>
      simp [hField, hIp, bind, Except.bind] at hSource
    | ok ip =>
      cases hAgain : lib.ipAddress ip.text with
      | error e =>
        simp [hField, hIp, hAgain, bind, Except.bind] at hSource
      | ok again =>
        simp only [hField, hIp, hAgain, bind, Except.bind, Except.ok.injEq] at hSource
        subst hSource
        cases hUntil : field row "expires_at" with
        | error e =>
          rw [hUntil] at hExpires
          cases hExpires
        | ok value =>
          have hTime : parseTime lib value = .ok expires := by
            rw [hUntil] at hExpires
            exact hExpires
          simp only [hIp, hTime, hAgain, bind, Except.bind]

/-- The element of the address lasts longer than `s` seconds. -/
def Lasts (g : Groups) (source : Address) (s : ℚ) : Prop :=
  ∃ τ : Int, (elements g source.version6).get? source.text = some τ ∧ s < τ

theorem lasts_add {g : Groups} {own source : Address} {seconds : Int} {s : ℚ}
    (hSeconds : 1 ≤ seconds) :
    Lasts (g.add own.version6 own.text seconds) source s ↔
      Lasts g source s ∨ own = source ∧ s < seconds := by
  -- one element changes, that of the address, in the set of its family
  have hElements : (elements (g.add own.version6 own.text seconds) source.version6).get?
      source.text =
        if own = source then
          some (max (((elements g source.version6).get? source.text).getD 0) seconds)
        else (elements g source.version6).get? source.text := by
    obtain ⟨text, version6⟩ := own
    obtain ⟨text', version6'⟩ := source
    by_cases hText : text = text'
    · subst hText
      cases version6 <;> cases version6' <;> simp [Groups.add, elements]
    · have hNe : Address.mk text version6 ≠ ⟨text', version6'⟩ := by
        intro hEq
        exact hText (congrArg Address.text hEq)
      rw [if_neg hNe]
      cases version6 <;> cases version6' <;> simp [Groups.add, elements, Dict.get?_set, hText]
  unfold Lasts
  rw [hElements]
  -- the longer of two times stands
  by_cases hOwn : own = source
  · rw [if_pos hOwn]
    cases hGet : (elements g source.version6).get? source.text with
    | none =>
      have hMax : max ((none : Option Int).getD 0) seconds = seconds := by
        rw [Option.getD_none]
        omega
      rw [hMax]
      simp [hOwn]
    | some τ => simp [hOwn, Int.cast_max]
  · rw [if_neg hOwn]
    simp [hOwn]

/--
**The elements** last as long as the longest of their rows. The fold keeps the
later of the two ends where a source is banned twice, and a row that has less
than a second left gets a whole one.
-/
theorem groupRows_lasts {rows : List Row} {g : Groups}
    (hRows : ∀ row ∈ rows, ∃ source expires, addressOf lib row = .ok source ∧
      expiry lib row = .ok expires) :
    ∃ g', groupRows lib now g rows = .ok g' ∧ ∀ source s, Lasts g' source s ↔
      Lasts g source s ∨ ∃ row ∈ rows, addressOf lib row = .ok source ∧
        ∃ us, Left lib now row us ∧ s < (max 1 (lib.wholeSeconds us) : Int) := by
  induction rows generalizing g with
  | nil => exact ⟨g, rfl, by simp⟩
  | cons first rest ih =>
    obtain ⟨own, expires, hSource, hExpires⟩ := hRows first List.mem_cons_self
    obtain ⟨g', hRun, hLasts⟩ := ih
      (g := g.add own.version6 own.text (max 1 (lib.wholeSeconds (expires - now))))
      fun row hRow => hRows row (List.mem_cons_of_mem first hRow)
    refine ⟨g', by rw [groupRows_cons hSource hExpires, hRun], ?_⟩
    intro source s
    have hFirst : (own = source ∧ s < (max 1 (lib.wholeSeconds (expires - now)) : Int)) ↔
        addressOf lib first = .ok source ∧
          ∃ us, Left lib now first us ∧ s < (max 1 (lib.wholeSeconds us) : Int) := by
      unfold Left
      rw [hSource, hExpires]
      simp
    rw [hLasts, lasts_add (le_max_left 1 _), hFirst]
    simp only [List.mem_cons, or_and_right, exists_or, exists_eq_left, or_assoc]

end Elements

-- ---------------------------------------------------------------------------
-- The table
-- ---------------------------------------------------------------------------

section Tables

variable {lib : Library} {bans : List Row} {tcp udp : Finset Int} {now : Int}

theorem Left.unique {row : Row} {us us' : Int} (h : Left lib now row us)
    (h' : Left lib now row us') : us = us' := by
  obtain ⟨expires, hExpires, rfl⟩ := h
  obtain ⟨expires', hExpires', rfl⟩ := h'
  rw [Except.ok.inj (hExpires.symm.trans hExpires')]

variable (tcp udp) in
/-- The script of valid rows, by what it drops. -/
theorem script_drops (hLib : lib.Canonical) (hRows : ∀ row ∈ bans, Valid lib now row) :
    ∃ t, script lib.withSeconds bans tcp udp now = .ok t ∧
      ∀ source isUdp port s, t.DropsAfter source isUdp port s ↔
        Served tcp udp isUdp port ∧ ∃ row ∈ bans, Denotes lib row source ∧
          ∃ us, Left lib now row us ∧ s < max 1 (wholeSeconds us) := by
  -- valid rows have an address and a time, so the script goes through
  have hGroup : ∀ row ∈ bans, ∃ source expires,
      addressOf lib.withSeconds row = .ok source ∧ expiry lib.withSeconds row = .ok expires := by
    intro row hRow
    obtain ⟨⟨source, hSource⟩, us, ⟨expires, hExpires, -⟩, -⟩ := hRows row hRow
    exact ⟨source, expires, (addressOf_iff hLib).mpr hSource, hExpires⟩
  obtain ⟨g, hRun, hLasts⟩ := @groupRows_lasts lib.withSeconds now bans ⟨.empty, .empty⟩ hGroup
  refine ⟨⟨g.v4.get?, g.v6.get?, tcp, udp⟩, by rw [script, hRun]; rfl, ?_⟩
  intro source isUdp port s
  -- to be dropped for longer is to have an element that lasts longer
  have hElement : (∃ τ : Int, (Table.mk g.v4.get? g.v6.get? tcp udp).banned source.version6
      source.text = some τ ∧ s < τ) ↔ Lasts g source s := by
    unfold Lasts Table.banned elements
    cases source.version6 <;> rfl
  have hPorts : port ∈ (Table.mk g.v4.get? g.v6.get? tcp udp).ports isUdp ↔
      Served tcp udp isUdp port := Iff.rfl
  -- before the first row nothing lasts
  have hEmpty : ¬ Lasts ⟨.empty, .empty⟩ source s := by
    have hNone : (elements ⟨.empty, .empty⟩ source.version6).get? source.text = none := by
      unfold elements
      split
      · rfl
      · rfl
    rintro ⟨τ, hGet, -⟩
    rw [hNone] at hGet
    cases hGet
  have hRow : ∀ row, addressOf lib.withSeconds row = .ok source ↔ Denotes lib row source :=
    fun row => addressOf_iff hLib
  have hElements := hLasts source s
  rw [← hElement] at hElements
  constructor
  · rintro ⟨τ, hBanned, hLt, hPort⟩
    refine ⟨hPorts.mp hPort, ?_⟩
    obtain ⟨row, hMem, hSource, us, hLeft, hSeconds⟩ :=
      (hElements.mp ⟨τ, hBanned, hLt⟩).resolve_left hEmpty
    exact ⟨row, hMem, (hRow row).mp hSource, us, hLeft, hSeconds⟩
  · rintro ⟨hPort, row, hMem, hSource, us, hLeft, hSeconds⟩
    obtain ⟨τ, hBanned, hLt⟩ :=
      hElements.mpr (Or.inr ⟨row, hMem, (hRow row).mpr hSource, us, hLeft, hSeconds⟩)
    exact ⟨τ, hBanned, hLt, hPorts.mpr hPort⟩

/--
**What a ban list drops.** Of rows with valid addresses that expire after `now`
the script makes a table that enforces them: a packet to a managed port is
dropped as long as some row bans its source, counted in whole seconds and for
one second at least.
-/
theorem script_enforces (hLib : lib.Canonical) (hRows : ∀ row ∈ bans, Valid lib now row) :
    ∃ t, script lib.withSeconds bans tcp udp now = .ok t ∧ Enforces lib bans tcp udp now t := by
  obtain ⟨t, hScript, hDrops⟩ := script_drops tcp udp hLib hRows
  -- a row that expires after `now` has some time left
  have hPositive : ∀ row ∈ bans, ∀ us, Left lib now row us → 0 < us := by
    intro row hRow us hLeft
    obtain ⟨-, us', hLeft', hPos⟩ := hRows row hRow
    rwa [hLeft.unique hLeft']
  refine ⟨t, hScript, hDrops, ?_, ?_, ?_, ?_⟩
  · intro row hRow us hLeft hSmall
    exact wholeSeconds_eq (le_of_lt (hPositive row hRow us hLeft)) hSmall
  -- the last row of an address decides how long it is dropped
  · intro source isUdp port s row hRow hSource us hLeft hLast
    rw [hDrops]
    refine and_congr_right fun _ => ?_
    constructor
    · rintro ⟨other, hOther, hSource', us', hLeft', hLt⟩
      have hLe := hLast other hOther hSource' us' hLeft'
      have hSeconds := wholeSeconds_mono (le_of_lt (hPositive other hOther us' hLeft')) hLe
      have hMax : max 1 (wholeSeconds us') ≤ max 1 (wholeSeconds us) := max_le_max_left 1 hSeconds
      exact lt_of_lt_of_le hLt (by exact_mod_cast hMax)
    · intro hLt
      exact ⟨row, hRow, hSource, us, hLeft, hLt⟩
  -- no row is lifted more than a second early
  · intro source isUdp port s row hRow hSource us hLeft hEarly hPort
    rw [hDrops]
    refine ⟨hPort, row, hRow, hSource, us, hLeft, ?_⟩
    have hLt := lt_wholeSeconds (le_of_lt (hPositive row hRow us hLeft)) hEarly
    have hMax : wholeSeconds us ≤ max 1 (wholeSeconds us) := le_max_right 1 _
    exact lt_of_lt_of_le hLt (by exact_mod_cast hMax)
  -- and none lasts longer than its time, but for a minimum of one second
  · intro source isUdp port s hDrop hShort
    obtain ⟨-, row, hRow, hSource, us, hLeft, hLt⟩ := (hDrops source isUdp port s).mp hDrop
    refine ⟨row, hRow, hSource, us, hLeft, lt_of_lt_of_le hLt ?_⟩
    have hPos := le_of_lt (hPositive row hRow us hLeft)
    have hWhole := wholeSeconds_eq hPos (hShort row hRow hSource us hLeft)
    rw [hWhole, Int.cast_max, Int.cast_one]
    refine max_le_max_left 1 ?_
    rw [le_div_iff₀ (by norm_num)]
    have hFloor : us / 1000000 * 1000000 ≤ us := Int.ediv_mul_le us (by decide)
    exact_mod_cast hFloor

end Tables

-- ---------------------------------------------------------------------------
-- The end of the calendar
-- ---------------------------------------------------------------------------

/-- One address, and a clock that reads every time as the last microsecond of the
calendar. -/
def lastInstantLibrary : Library where
  str           := fun v => match v with
    | .str s => s
    | _      => ""
  fromisoformat := fun _ => .ok ⟨253402300799999999, some 0⟩
  ipAddress     := fun s =>
    if s = "203.0.113.1" then .ok ⟨"203.0.113.1", false⟩ else .error ⟨.value, "not an address"⟩
  wholeSeconds  := fun span => span.tdiv 1000000

theorem canonical_lastInstant : lastInstantLibrary.Canonical := by
  intro text address h
  by_cases hText : text = "203.0.113.1"
  · have hAddress : address = ⟨"203.0.113.1", false⟩ := by
      simpa [lastInstantLibrary, hText] using h.symm
    rw [hAddress]
    rfl
  · simp [lastInstantLibrary, hText] at h

def lastInstantRow : Row :=
  [("ip", .str "203.0.113.1"), ("expires_at", .str "9999-12-31T23:59:59.999999Z")]

/-- The first instant of 2026, in microseconds. -/
def newYear : Int := 1767225600000000

theorem left_lastInstant {us : Int} :
    Left lastInstantLibrary newYear lastInstantRow us ↔ us = 251635075199999999 := by
  constructor
  · intro h
    exact h.unique ⟨253402300799999999, rfl, rfl⟩
  · rintro rfl
    exact ⟨253402300799999999, rfl, rfl⟩

theorem valid_lastInstant : Valid lastInstantLibrary newYear lastInstantRow :=
  ⟨⟨⟨"203.0.113.1", false⟩, .str "203.0.113.1", rfl, rfl⟩, 251635075199999999,
    left_lastInstant.mpr rfl, by decide⟩

/-- A row that expires with the last instant of the calendar, on the first of 2026. -/
theorem script_enforces_lastInstant :
    ∃ t, script lastInstantLibrary.withSeconds [lastInstantRow] {443} ∅ newYear = .ok t ∧
      Enforces lastInstantLibrary [lastInstantRow] {443} ∅ newYear t :=
  script_enforces canonical_lastInstant fun row hRow => by
    rw [List.mem_singleton.mp hRow]
    exact valid_lastInstant

theorem wholeSeconds_lastInstant : wholeSeconds 251635075199999999 = 251635075200 := by
  have hLog : Nat.log 2 (251635075199999999 / 1000000) = 37 :=
    Nat.log_eq_of_pow_le_of_lt_pow (by decide) (by decide)
  have hScale : doubleScale 251635075199999999 1000000 = 32768 := by
    rw [doubleScale, hLog]
    rfl
  show ((truncDouble 251635075199999999 1000000 : Nat) : Int) = _
  rw [truncDouble, hScale]
  rfl

/-- 251635075199 whole seconds and most of another are left of the row, and half
a second after the last whole one the table still drops. -/
theorem forever_outlasts :
    ¬ ∀ t, script lastInstantLibrary.withSeconds [lastInstantRow] {443} ∅ newYear = .ok t →
      ∀ source isUdp port s, t.DropsAfter source isUdp port s ↔
        Served {443} ∅ isUdp port ∧ ∃ row ∈ [lastInstantRow],
          Denotes lastInstantLibrary row source ∧ ∃ us, Left lastInstantLibrary newYear row us ∧
            s < (max 1 (us / 1000000) : Int) := by
  have hRows : ∀ row ∈ [lastInstantRow], Valid lastInstantLibrary newYear row := by
    intro row hRow
    rw [List.mem_singleton.mp hRow]
    exact valid_lastInstant
  obtain ⟨t, hScript, hDrops⟩ := script_drops {443} ∅ canonical_lastInstant hRows
  intro hClaim
  have hServed : Served {443} ∅ false 443 := Finset.mem_singleton_self 443
  have hDrop : t.DropsAfter ⟨"203.0.113.1", false⟩ false 443 (251635075199 + 1 / 2) := by
    rw [hDrops]
    refine ⟨hServed, lastInstantRow, List.mem_singleton_self _,
      ⟨.str "203.0.113.1", rfl, rfl⟩, 251635075199999999, left_lastInstant.mpr rfl, ?_⟩
    rw [wholeSeconds_lastInstant]
    norm_num
  obtain ⟨-, row, hRow, -, us, hLeft, hLt⟩ := (hClaim t hScript _ _ _ _).mp hDrop
  rw [List.mem_singleton.mp hRow, left_lastInstant] at hLeft
  rw [hLeft] at hLt
  norm_num at hLt

end ZagrosNode.Bans
