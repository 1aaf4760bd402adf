import ZagrosNode.Lib.Object
import ZagrosNode.Bans.Semantics

/-!
# ZagrosNode — closing the connections of banned addresses

After a push of bans was projected the handler asks the drivers to close the
connections of its addresses, and then drops their conntrack entries. The
addresses it hands on are the texts of the rows, expired ones included, and a
driver that raises ends both loops.

`terminate` has two loops, over cores and over addresses, and counts what a driver says
it has closed. `Closing` keeps the calls that were made beside the result, since a raise
ends the loops and the calls before it were made nevertheless.

The texts of the rows and the addresses they name are two things. `Denotes` joins them:
a row has a text, the text is a spelling of an address, and the projection bans the
address. That expired rows count for disconnecting and not for banning is where the two
sets differ; the equivalence says that nothing else is in the way but a call that
raises.

`Library` is the address library. The one thing assumed of it, `FalsyRejected`, is that
it takes no false value for an address.

Main results:

* `terminateEach_ok_iff`, `mem_terminateEach_invoked` — when the drivers' loop ends, and
  which calls it has made then.
* `disconnects_iff` — exactly the banned addresses are disconnected if no call
  raises and every expired row names an address that is banned.
* `expired_disconnected` — an expired row disconnects its address.
-/

namespace ZagrosNode.Bans

open ZagrosNode.Lib Coverage

-- ---------------------------------------------------------------------------
-- The handler
-- ---------------------------------------------------------------------------

/-- `{str(row.get("ip")) for row in bans if row.get("ip")}`, in the order of the
rows. -/
def ipTexts (lib : Library) (bans : List Row) : List String :=
  (bans.filter fun row => (Json.getD row "ip").truthy).map fun row => lib.str (Json.getD row "ip")

/-- The cores with their `terminate_source_ip`, where the driver offers it. -/
structure Drivers where
  cores     : List String
  terminate : String → Option (String → Except PyErr Int)

/-- A loop over calls: the calls it made, and what it returns or raises. -/
structure Closing where
  invoked : List (String × String)
  result  : Except PyErr Int

/-- `for ip in ips: closed += int(await operation(ip) or 0)` -/
def closeEach (operation : String → Except PyErr Int) (core : String) : List String → Closing
  | []         => ⟨[], .ok 0⟩
  | ip :: rest =>
    match operation ip with
    | .error e => ⟨[(core, ip)], .error e⟩
    | .ok n    =>
      let others := closeEach operation core rest
      ⟨(core, ip) :: others.invoked, others.result.map (n + ·)⟩

/-- The loop of `terminate` over the cores. -/
def terminateEach (d : Drivers) (ips : List String) : List String → Closing
  | []           => ⟨[], .ok 0⟩
  | core :: rest =>
    match d.terminate core with
    | none           => terminateEach d ips rest
    | some operation =>
      let own := closeEach operation core ips
      match own.result with
      | .error _ => own
      | .ok n    =>
        let others := terminateEach d ips rest
        ⟨own.invoked ++ others.invoked, others.result.map (n + ·)⟩

/-- `terminate` -/
def terminate (d : Drivers) (ips : List String) : Closing := terminateEach d ips d.cores

/-- What a push does besides the projection: the calls of `terminate_source_ip`,
and the addresses `drop_conntrack` is called with, if it is. -/
structure Disconnection where
  invoked   : List (String × String)
  conntrack : Option (List String)

/-- `apply_ip_bans`. `ips` is the set of the texts, in the order it is gone
through. -/
def applyIpBans (lib : Library) (renew nft : Bool) (p : Push) (reply : Reply)
    (kernel : Option Table) (d : Drivers) (ips : List String) : Option Table × Disconnection :=
  match apply lib renew nft p reply kernel with
  | (table, .ok _) =>
    let closing := terminate d ips
    (table, ⟨closing.invoked, match closing.result with
      | .ok _    => some ips
      | .error _ => none⟩)
  | (table, _)     => (table, ⟨[], none⟩)

-- ---------------------------------------------------------------------------
-- Who is to be disconnected
-- ---------------------------------------------------------------------------

/-- No false value is spelled like an address. -/
def Library.FalsyRejected (lib : Library) : Prop :=
  ∀ v : Json, v.truthy = false → ∃ e, lib.ipAddress (lib.str v) = .error e

/-- The row has not expired. -/
def Unexpired (lib : Library) (now : Int) (row : Row) : Prop := ∃ us, Left lib now row us ∧ 0 < us

/-- The address has an unexpired row. -/
def Banned (lib : Library) (now : Int) (bans : List Row) (source : Address) : Prop :=
  ∃ row ∈ bans, Denotes lib row source ∧ Unexpired lib now row

/-- The texts name the banned addresses and nothing else. -/
def NamesBanned (lib : Library) (now : Int) (bans : List Row) (texts : List String) : Prop :=
  (∀ text ∈ texts, ∃ source, lib.ipAddress text = .ok source ∧ Banned lib now bans source) ∧
    ∀ source, Banned lib now bans source → ∃ text ∈ texts, lib.ipAddress text = .ok source

/-- Every core that offers it is called for exactly the banned addresses, no
other core is, and conntrack entries are dropped for the same addresses. -/
structure Disconnects (lib : Library) (p : Push) (d : Drivers) (o : Disconnection) : Prop where
  cores     : ∀ core text, (core, text) ∈ o.invoked →
                core ∈ d.cores ∧ (d.terminate core).isSome
  addresses : ∀ core ∈ d.cores, (d.terminate core).isSome →
                NamesBanned lib p.now p.bans ((o.invoked.filter fun c => c.1 = core).map Prod.snd)
  conntrack : ∃ texts, o.conntrack = some texts ∧ NamesBanned lib p.now p.bans texts

-- ---------------------------------------------------------------------------
-- The loops
-- ---------------------------------------------------------------------------

section Loops

variable {operation : String → Except PyErr Int} {core : String} {d : Drivers}
  {ips cores : List String}

theorem except_map_error_iff {ε α β : Type*} {f : α → β} {x : Except ε α} :
    (∃ e, x.map f = .error e) ↔ ∃ e, x = .error e := by
  cases x <;> simp [Except.map]

variable (core) in
/-- A core's calls end if none of them raises, and have all been made then. -/
theorem closeEach_ok (h : ∀ ip ∈ ips, ∃ n, operation ip = .ok n) :
    (∃ n, (closeEach operation core ips).result = .ok n) ∧
      (closeEach operation core ips).invoked = ips.map fun ip => (core, ip) := by
  induction ips with
  | nil => exact ⟨⟨0, rfl⟩, rfl⟩
  | cons ip rest ih =>
    obtain ⟨n, hFirst⟩ := h ip List.mem_cons_self
    obtain ⟨⟨m, hResult⟩, hInvoked⟩ := ih fun other hOther => h other (List.mem_cons_of_mem ip hOther)
    rw [closeEach, hFirst]
    refine ⟨⟨n + m, ?_⟩, ?_⟩
    · show (closeEach operation core rest).result.map (n + ·) = _
      rw [hResult]
      rfl
    · show (core, ip) :: (closeEach operation core rest).invoked = _
      rw [hInvoked]
      rfl

variable (core) in
theorem closeEach_error {ip : String} (hMem : ip ∈ ips) {e : PyErr}
    (h : operation ip = .error e) : ∃ e, (closeEach operation core ips).result = .error e := by
  induction ips with
  | nil => cases hMem
  | cons first rest ih =>
    rw [closeEach]
    cases hFirst : operation first with
    | error e' => exact ⟨e', rfl⟩
    | ok n =>
      have hRest : ip ∈ rest := by
        rcases List.mem_cons.mp hMem with rfl | hRest
        · rw [h] at hFirst
          cases hFirst
        · exact hRest
      exact except_map_error_iff.mpr (ih hRest)

/-- No call raises. -/
def Answers (d : Drivers) (ips cores : List String) : Prop :=
  ∀ core ∈ cores, ∀ operation, d.terminate core = some operation →
    ∀ ip ∈ ips, ∃ n, operation ip = .ok n

theorem answers_cons : Answers d ips (core :: cores) ↔
    (∀ operation, d.terminate core = some operation → ∀ ip ∈ ips, ∃ n, operation ip = .ok n) ∧
      Answers d ips cores := List.forall_mem_cons

/--
**The loop over the cores** ends exactly if no call raises. It has no handler
of its own, so the first driver that raises keeps all later ones from being
asked.
-/
theorem terminateEach_ok_iff :
    (∃ n, (terminateEach d ips cores).result = .ok n) ↔ Answers d ips cores := by
  -- on the cores; one that does not offer the operation is passed over
  induction cores with
  | nil => exact ⟨fun _ _ h => absurd h List.not_mem_nil, fun _ => ⟨0, rfl⟩⟩
  | cons core rest ih =>
    rw [answers_cons, terminateEach]
    cases hOffer : d.terminate core with
    | none =>
      rw [ih]
      simp
    | some operation =>
      by_cases hOwn : ∀ ip ∈ ips, ∃ n, operation ip = .ok n
      · obtain ⟨⟨n, hResult⟩, -⟩ := closeEach_ok core hOwn
        simp only [hResult]
        have hRest : (∃ m, (terminateEach d ips rest).result.map (n + ·) = .ok m) ↔
            Answers d ips rest := by
          rw [← ih]
          cases (terminateEach d ips rest).result <;> simp [Except.map]
        rw [hRest]
        constructor
        · intro hAnswers
          refine ⟨?_, hAnswers⟩
          intro operation' hEq
          obtain rfl := Option.some.inj hEq
          exact hOwn
        · intro h
          exact h.2
      -- a call that raises ends both loops
      · refine iff_of_false ?_ fun h => hOwn (h.1 operation rfl)
        push Not at hOwn
        obtain ⟨ip, hMem, hRaises⟩ := hOwn
        obtain ⟨e, hError⟩ : ∃ e, operation ip = .error e := by
          cases hCall : operation ip with
          | error e => exact ⟨e, rfl⟩
          | ok n => exact absurd hCall (hRaises n)
        obtain ⟨e', hResult⟩ := closeEach_error core hMem hError
        simp only [hResult]
        rintro ⟨n, hOk⟩
        cases hOk

/-- A loop that ends has called every core that offers it for every address. -/
theorem mem_terminateEach_invoked (h : Answers d ips cores) {core text : String} :
    (core, text) ∈ (terminateEach d ips cores).invoked ↔
      (core ∈ cores ∧ (d.terminate core).isSome) ∧ text ∈ ips := by
  induction cores with
  | nil => simp [terminateEach]
  | cons first rest ih =>
    obtain ⟨hOwn, hRest⟩ := answers_cons.mp h
    rw [terminateEach, List.mem_cons, or_and_right, or_and_right, ← ih hRest]
    cases hOffer : d.terminate first with
    | none =>
      refine (or_iff_right ?_).symm
      rintro ⟨⟨rfl, hSome⟩, -⟩
      rw [hOffer] at hSome
      cases hSome
    | some operation =>
      obtain ⟨⟨n, hResult⟩, hInvoked⟩ := closeEach_ok first (hOwn operation hOffer)
      simp only [hResult, hInvoked, List.mem_append, List.mem_map, Prod.mk.injEq]
      refine or_congr_left ?_
      constructor
      · rintro ⟨ip, hIp, rfl, rfl⟩
        exact ⟨⟨rfl, by rw [hOffer]; rfl⟩, hIp⟩
      · rintro ⟨⟨rfl, -⟩, hIp⟩
        exact ⟨text, hIp, rfl, rfl⟩

end Loops

-- ---------------------------------------------------------------------------
-- The addresses
-- ---------------------------------------------------------------------------

section Addresses

variable {lib : Library} {renew nft : Bool} {p : Push} {reply : Reply} {kernel : Option Table}
  {d : Drivers} {ips : List String}

theorem field_ok_iff {row : Row} {v : Json} : field row "ip" = .ok v ↔ Json.get? row "ip" = some v := by
  unfold field
  cases Json.get? row "ip" <;> simp

/-- A row that names an address has its text among those of the set. -/
theorem mem_ipTexts_of_denotes (hFalsy : lib.FalsyRejected) {row : Row} {source : Address}
    (hRow : row ∈ p.bans) (h : Denotes lib row source) :
    lib.str (Json.getD row "ip") ∈ ipTexts lib p.bans ∧
      lib.ipAddress (lib.str (Json.getD row "ip")) = .ok source := by
  obtain ⟨v, hField, hIp⟩ := h
  have hGet : Json.getD row "ip" = v := by
    rw [Json.getD_eq, field_ok_iff.mp hField]
    rfl
  have hTruthy : v.truthy = true := by
    by_contra hFalse
    rw [Bool.not_eq_true] at hFalse
    obtain ⟨e, hError⟩ := hFalsy v hFalse
    rw [hError] at hIp
    cases hIp
  rw [hGet]
  exact ⟨List.mem_map.mpr ⟨row, List.mem_filter.mpr ⟨hRow, by rwa [hGet]⟩, by rw [hGet]⟩, hIp⟩

/-- A push that is applied has read every row, and the addresses of those that
have not expired. -/
theorem applied_rows (hLib : lib.Canonical) {n : Nat}
    (h : (apply lib renew nft p reply kernel).2 = .ok n) {row : Row} (hRow : row ∈ p.bans)
    (hUnexpired : Unexpired lib p.now row) : ∃ source, Denotes lib row source := by
  unfold apply at h
  cases hNft : nft with
  | false =>
    rw [hNft] at h
    cases h
  | true =>
    rw [hNft, if_pos rfl] at h
    cases hActive : p.active lib with
    | error e =>
      rw [hActive] at h
      cases h
    | ok active =>
      simp only [hActive, Push.finish] at h
      obtain ⟨us, ⟨expires, hExpires, rfl⟩, hPos⟩ := hUnexpired
      -- the row has not expired, so `apply` has kept it
      have hMem : row ∈ active :=
        (mem_activeBans hActive row).mpr ⟨hRow, expires, hExpires, by omega⟩
      have hSome : active ≠ [] := List.ne_nil_of_mem hMem
      cases hScript : script lib active p.tcp p.udp p.now with
      | error e =>
        simp [Push.transaction, hSome, hScript, bind, Except.bind] at h
      -- the script has read its address
      | ok t =>
        obtain ⟨source, hSource, -⟩ := (script_spec hScript).1 row hMem
        exact ⟨source, (addressOf_iff hLib).mp hSource⟩

/-- The texts of the set name the banned addresses exactly if those of the
expired rows do. -/
theorem namesBanned_iff (hLib : lib.Canonical) (hFalsy : lib.FalsyRejected) {n : Nat}
    (hApplied : (apply lib renew nft p reply kernel).2 = .ok n)
    (hIps : ∀ text, text ∈ ips ↔ text ∈ ipTexts lib p.bans) :
    NamesBanned lib p.now p.bans ips ↔
      ∀ row ∈ p.bans, (Json.getD row "ip").truthy = true → ¬ Unexpired lib p.now row →
        ∃ source, lib.ipAddress (lib.str (Json.getD row "ip")) = .ok source ∧
          Banned lib p.now p.bans source := by
  constructor
  · rintro ⟨hOnly, -⟩ row hRow hTruthy -
    exact hOnly _ ((hIps _).mpr
      (List.mem_map.mpr ⟨row, List.mem_filter.mpr ⟨hRow, hTruthy⟩, rfl⟩))
  · intro hExpired
    constructor
    · intro text hText
      obtain ⟨row, hMem, rfl⟩ := List.mem_map.mp ((hIps text).mp hText)
      obtain ⟨hRow, hTruthy⟩ := List.mem_filter.mp hMem
      by_cases hUnexpired : Unexpired lib p.now row
      · obtain ⟨source, hSource⟩ := applied_rows hLib hApplied hRow hUnexpired
        have hIp := (mem_ipTexts_of_denotes hFalsy hRow hSource).2
        exact ⟨source, hIp, row, hRow, hSource, hUnexpired⟩
      · exact hExpired row hRow hTruthy hUnexpired
    · rintro source ⟨row, hRow, hSource, -⟩
      obtain ⟨hText, hIp⟩ := mem_ipTexts_of_denotes hFalsy hRow hSource
      exact ⟨_, (hIps _).mpr hText, hIp⟩

/-- **Who is disconnected.** An applied push disconnects exactly the banned
addresses, on every core that offers it and in conntrack, if and only if no
driver raises and every expired row with an address names a banned one. -/
theorem disconnects_iff (hLib : lib.Canonical) (hFalsy : lib.FalsyRejected) {n : Nat}
    (hApplied : (apply lib renew nft p reply kernel).2 = .ok n)
    (hIps : ∀ text, text ∈ ips ↔ text ∈ ipTexts lib p.bans) :
    Disconnects lib p d (applyIpBans lib renew nft p reply kernel d ips).2 ↔
      (∀ core ∈ d.cores, ∀ operation, d.terminate core = some operation →
          ∀ text ∈ ipTexts lib p.bans, ∃ n, operation text = .ok n) ∧
        ∀ row ∈ p.bans, (Json.getD row "ip").truthy = true → ¬ Unexpired lib p.now row →
          ∃ source, lib.ipAddress (lib.str (Json.getD row "ip")) = .ok source ∧
            Banned lib p.now p.bans source := by
  -- the set of texts is gone through in some order, and in any it is the same calls
  have hAnswers : (∀ core ∈ d.cores, ∀ operation, d.terminate core = some operation →
      ∀ text ∈ ipTexts lib p.bans, ∃ n, operation text = .ok n) ↔ Answers d ips d.cores := by
    unfold Answers
    simp only [hIps]
  -- an applied push goes on to `terminate`, and then to conntrack
  have hOutcome : (applyIpBans lib renew nft p reply kernel d ips).2 =
      ⟨(terminate d ips).invoked, match (terminate d ips).result with
        | .ok _    => some ips
        | .error _ => none⟩ := by
    unfold applyIpBans
    cases hApply : apply lib renew nft p reply kernel with
    | mk table report =>
      rw [hApply] at hApplied
      obtain rfl : report = .ok n := hApplied
      rfl
  rw [hAnswers, ← namesBanned_iff hLib hFalsy hApplied hIps, hOutcome]
  constructor
  -- conntrack was called, so no driver has raised
  · intro hDisconnects
    obtain ⟨texts, hTexts, hNames⟩ := hDisconnects.conntrack
    cases hResult : (terminate d ips).result with
    | error e =>
      simp only [hResult] at hTexts
      cases hTexts
    | ok closed =>
      simp only [hResult, Option.some.injEq] at hTexts
      subst hTexts
      exact ⟨terminateEach_ok_iff.mp ⟨closed, hResult⟩, hNames⟩
  -- every core that offers it is called for every text
  · rintro ⟨hAnswer, hNames⟩
    obtain ⟨closed, hResult⟩ := terminateEach_ok_iff.mpr hAnswer
    have hInvoked (core text : String) := @mem_terminateEach_invoked d ips _ hAnswer core text
    refine
      { cores := fun core text hMem => ((hInvoked core text).mp hMem).1
        addresses := ?_
        conntrack := ⟨ips, ?_, hNames⟩ }
    · intro core hCore hOffers
      have hTexts : ∀ text, text ∈ (((terminate d ips).invoked.filter
          fun c => c.1 = core).map Prod.snd) ↔ text ∈ ips := by
        intro text
        rw [List.mem_map]
        constructor
        · rintro ⟨⟨core', text'⟩, hMem, rfl⟩
          rw [List.mem_filter] at hMem
          exact ((hInvoked core' text').mp hMem.1).2
        · intro hText
          refine ⟨(core, text), List.mem_filter.mpr ⟨?_, decide_eq_true rfl⟩, rfl⟩
          exact (hInvoked core text).mpr ⟨⟨hCore, hOffers⟩, hText⟩
      unfold NamesBanned
      simp only [hTexts]
      exact hNames
    · have hTerminate : (terminate d ips).result = .ok closed := hResult
      rw [hTerminate]

end Addresses

-- ---------------------------------------------------------------------------
-- An expired row
-- ---------------------------------------------------------------------------

/-- One address, and a clock that reads every time as the end of its first
minute. -/
def firstMinuteLibrary : Library :=
  { lastInstantLibrary with fromisoformat := fun _ => .ok ⟨60000000, some 0⟩ }

theorem canonical_firstMinute : firstMinuteLibrary.Canonical := canonical_lastInstant

theorem falsyRejected_firstMinute : firstMinuteLibrary.FalsyRejected := by
  intro v hFalse
  have hText : firstMinuteLibrary.str v = "" := by
    cases v with
    | str s =>
      show s = ""
      simpa [Json.truthy] using hFalse
    | _ => rfl
  rw [hText]
  exact ⟨⟨.value, "not an address"⟩, rfl⟩

/-- The row of a push so many microseconds after the start of the clock. -/
def firstMinutePush (now : Int) : Push :=
  ⟨[[("ip", .str "203.0.113.1"), ("expires_at", .str "1970-01-01T00:01:00Z")]], {443}, ∅, now⟩

/-- sing-box offers the operation and closes one connection. -/
def singboxDrivers : Drivers := ⟨["singbox", "wireguard"], fun core =>
  if core = "singbox" then some fun _ => .ok 1 else none⟩

theorem unexpired_firstMinute {now : Int} {row : Row} (hRow : row ∈ (firstMinutePush 0).bans) :
    Unexpired firstMinuteLibrary now row ↔ now < 60000000 := by
  obtain rfl := List.mem_singleton.mp hRow
  constructor
  · rintro ⟨us, ⟨expires, hExpires, rfl⟩, hPos⟩
    obtain rfl : 60000000 = expires := Except.ok.inj hExpires
    omega
  · intro hNow
    exact ⟨60000000 - now, ⟨60000000, rfl, rfl⟩, by omega⟩

/--
One row with a minute left: its address is disconnected, from sing-box and in
conntrack.
-/
theorem disconnects_iff_firstMinute :
    Disconnects firstMinuteLibrary (firstMinutePush 0) singboxDrivers
      (applyIpBans firstMinuteLibrary false true (firstMinutePush 0) ⟨true, ""⟩ none
        singboxDrivers ["203.0.113.1"]).2 := by
  have hIps : ∀ text, text ∈ ["203.0.113.1"] ↔
      text ∈ ipTexts firstMinuteLibrary (firstMinutePush 0).bans := fun _ => Iff.rfl
  refine (disconnects_iff canonical_firstMinute falsyRejected_firstMinute (n := 1) rfl hIps).mpr
    ⟨?_, ?_⟩
  · intro core hCore operation hOffer text hText
    have hSingbox : core = "singbox" := by
      by_contra hOther
      simp [singboxDrivers, hOther] at hOffer
    obtain rfl : (fun _ => .ok 1) = operation := by simpa [singboxDrivers, hSingbox] using hOffer
    exact ⟨1, rfl⟩
  · intro row hRow hTruthy hExpired
    have hLate := mt (unexpired_firstMinute hRow).mpr hExpired
    exact absurd (by decide) hLate

/-- Two minutes after the start of the clock nobody is banned any more, and
sing-box is asked to close the connections of the address. -/
theorem expired_disconnected :
    (apply firstMinuteLibrary false true (firstMinutePush 120000000) ⟨true, ""⟩ none).2 = .ok 0 ∧
      (∀ source, ¬ Banned firstMinuteLibrary 120000000 (firstMinutePush 120000000).bans source) ∧
      ¬ Disconnects firstMinuteLibrary (firstMinutePush 120000000) singboxDrivers
        (applyIpBans firstMinuteLibrary false true (firstMinutePush 120000000) ⟨true, ""⟩ none
          singboxDrivers ["203.0.113.1"]).2 := by
  have hNobody : ∀ source,
      ¬ Banned firstMinuteLibrary 120000000 (firstMinutePush 120000000).bans source := by
    rintro source ⟨row, hRow, -, hUnexpired⟩
    have hEarly := (unexpired_firstMinute hRow).mp hUnexpired
    omega
  refine ⟨rfl, hNobody, ?_⟩
  intro hDisconnects
  have hNames := hDisconnects.addresses "singbox" List.mem_cons_self rfl
  obtain ⟨source, -, hBanned⟩ := hNames.1 "203.0.113.1" (List.mem_singleton_self _)
  exact hNobody source hBanned

end ZagrosNode.Bans
