import ZagrosNode.State.Store

/-!
# ZagrosNode — settings left in the clear

A `cores.json` from before sealing has its settings in the clear, and the first
load is to seal them. Which settings count is decided twice: `_read` takes the
plaintext of a record whose `settings_enc` is missing or empty, while the migration
looks for a record that has `settings` and no key `settings_enc`, empty or not.
Plaintext beside such a key is read but not found, and stays in the file unless
another record makes the load rewrite all of them.

`load` reads the file and, if some record has plaintext that is to be sealed, writes
all records back. Both decisions look at the same file entry and test different
things: `settings_enc` is *falsy* for the one and *absent* for the other. The model
keeps the two tests apart as the source has them.

After a load that returns, the file models the map it returned (`Models`), whether it
wrote or not: a file it did not rewrite reads the same. So every later load and every
restart gives the same map as long as nobody saves, by induction over the calls that
only read. Whether plaintext is left is a question about the one load, and the
equivalence is by cases on whether a record asks for the rewriting and whether one
has plaintext.

Main results:

* `loads_again` — what a load returns, every later load returns.
* `migrated_iff` — a load leaves no plaintext exactly if a record has plaintext and
  no `settings_enc`, or no record has plaintext.
* `empty_seal_stays` — plaintext beside an empty `settings_enc` stays.
-/

namespace ZagrosNode.State

open ZagrosNode.Lib Op

variable {V : Type} {aead : Aead} {json : JsonText V} {key : Key} {s s' : Store V}
  {value : Dict String (CoreRecord V)}

-- ---------------------------------------------------------------------------
-- What a migration is for
-- ---------------------------------------------------------------------------

/-- The file has the record. -/
def Store.Has (s : Store V) (core : String) (r : FileRecord V) : Prop :=
  s.disk.entries.get? core = some (.record r)

/-- No record has settings in the clear. -/
def Store.Sealed (s : Store V) : Prop := ∀ core r, s.Has core r → r.settings = none

/-- A record has settings in the clear and no key `settings_enc`. -/
def Store.HasPlain (s : Store V) : Prop :=
  ∃ core r, s.Has core r ∧ r.settings.isSome ∧ r.settingsEnc = none

/-- The call only reads. -/
def StoreEvent.Reads : StoreEvent V → Prop
  | .load _ | .restart _ => True
  | .save .. | .remove .. => False

/-- The call is a load that returns the records, or a restart that succeeds. -/
def Answer.Gives (records : String → Option (CoreRecord V)) : Answer V → Prop
  | .done          => True
  | .loaded others => others = records
  | .raised _      => False

variable (aead json) in
/-- What a load that returned `value` has done to the store. -/
structure Migrated (s : Store V) (value : Dict String (CoreRecord V)) (s' : Store V) : Prop where
  noPlaintext : s'.Sealed
  stable      : ∀ later : List (StoreEvent V), (∀ e ∈ later, e.Reads) →
    ∀ answer ∈ (storeMachine aead json).log s' later, answer.Gives value.get?
  /-- Sealed settings still unseal to what they did. -/
  kept        : ∀ core r blob settings, s.Has core r → r.settingsEnc = some blob → blob ≠ "" →
    decryptJson aead json s.key blob (coreAad core) = .ok settings →
      ∃ r' blob', s'.Has core r' ∧ r'.settingsEnc = some blob' ∧
        decryptJson aead json s'.key blob' (coreAad core) = .ok settings

-- ---------------------------------------------------------------------------
-- One load
-- ---------------------------------------------------------------------------

theorem any_plain_iff : s.disk.entries.values.any FileEntry.plain = true ↔ s.HasPlain := by
  rw [List.any_eq_true]
  constructor
  · rintro ⟨entry, hMem, hPlain⟩
    obtain ⟨⟨core, entry⟩, hEntry, rfl⟩ := List.mem_map.mp hMem
    cases entry with
    | other => cases hPlain
    | record r =>
      obtain ⟨hSettings, hEnc⟩ := Bool.and_eq_true_iff.mp hPlain
      exact ⟨core, r, Dict.mem_entries_iff.mp hEntry, hSettings, Option.isNone_iff_eq_none.mp hEnc⟩
  · rintro ⟨core, r, hHas, hSettings, hEnc⟩
    refine ⟨.record r, List.mem_map.mpr ⟨(core, .record r), Dict.mem_entries_iff.mpr hHas, rfl⟩, ?_⟩
    exact Bool.and_eq_true_iff.mpr ⟨hSettings, Option.isNone_iff_eq_none.mpr hEnc⟩

theorem run_load (h : read aead json s = .ok value) (nonces : String → Nonce) :
    (load aead json nonces).run s =
      if s.disk.entries.values.any FileEntry.plain then
        (write aead json nonces value >>= fun _ => pure value).run s
      else (.ok value, s) := by
  rw [load, run_get_bind, h]
  show (if s.disk.entries.values.any FileEntry.plain then
    write aead json nonces value >>= fun _ => pure value else pure value : Op (Store V) PyErr _).run
      s = _
  split <;> rfl

/-- A load reads, and rewrites what it read where the file has plaintext. -/
theorem load_cases {nonces : String → Nonce}
    (h : (load aead json nonces).run s = (.ok value, s')) :
    read aead json s = .ok value ∧
      ((s.HasPlain ∧ (write aead json nonces value).run s = (.ok (), s')) ∨
        (¬ s.HasPlain ∧ s' = s)) := by
  cases hRead : read aead json s with
  -- a record that cannot be read ends the load before anything is written
  | error e =>
    rw [load, run_get_bind, hRead] at h
    cases h
  | ok records =>
    rw [run_load hRead] at h
    -- the file is rewritten only where some record has plaintext
    by_cases hPlain : s.HasPlain
    · rw [if_pos (any_plain_iff.mpr hPlain), run_bind] at h
      cases hWrite : (write aead json nonces records).run s with
      | mk result s'' =>
        rw [hWrite] at h
        cases result with
        | error e => cases h
        | ok u =>
          obtain ⟨rfl, rfl⟩ := h
          exact ⟨rfl, Or.inl ⟨hPlain, hWrite⟩⟩
    · rw [if_neg (mt any_plain_iff.mp hPlain)] at h
      obtain ⟨rfl, rfl⟩ := h
      exact ⟨rfl, Or.inr ⟨hPlain, rfl⟩⟩

/-- A record of the file, in what a read returns. -/
theorem read_record (h : read aead json s = .ok value) {core : String} {r : FileRecord V}
    (hHas : s.Has core r) :
    ∃ record, readRecord aead json s.key core r = .ok record ∧ value.get? core = some record := by
  obtain ⟨entry, hEntry⟩ := Dict.traverse_ok_iff.mp ⟨value, h⟩ core (.record r) hHas
  have hGet := Dict.get?_of_traverse h core
  rw [show s.disk.entries.get? core = some (.record r) from hHas, Option.bind_some, hEntry] at hGet
  rw [readEntry] at hEntry
  cases hRecord : readRecord aead json s.key core r with
  | error e =>
    rw [hRecord] at hEntry
    cases hEntry
  | ok record =>
    rw [hRecord] at hEntry
    obtain rfl := Except.ok.inj hEntry
    exact ⟨record, rfl, hGet⟩

/-- Records that could be written have texts, and the file then has exactly
them. -/
theorem models_of_write {nonces : String → Nonce} (hSaved : s.disk.key = some s.key.val)
    (h : (write aead json nonces value).run s = (.ok (), s')) :
    Models aead json s.key s' value.get? := by
  have hTexts : ∀ core record, value.get? core = some record →
      ∃ text, json.dumps record.settings = .ok text := by
    intro core record hGet
    rw [write, run_get_bind] at h
    cases hSeal : value.traverse (sealRecord aead json s.key nonces) with
    | error e =>
      rw [hSeal] at h
      cases h
    | ok entries =>
      obtain ⟨entry, hEntry⟩ := Dict.traverse_ok_iff.mp ⟨entries, hSeal⟩ core record hGet
      cases hText : json.dumps record.settings with
      | ok text => exact ⟨text, rfl⟩
      | error e =>
        rw [sealRecord, (encryptJson_error_iff aead json).mpr hText] at hEntry
        cases hEntry
  obtain ⟨s'', hWrite, hModels⟩ := write_models nonces rfl hSaved hTexts
  rw [h] at hWrite
  obtain ⟨-, rfl⟩ := Prod.mk.inj hWrite
  exact hModels

-- ---------------------------------------------------------------------------
-- Later loads
-- ---------------------------------------------------------------------------

/-- Calls that only read answer alike, one after the other. -/
theorem log_gives {records : String → Option (CoreRecord V)} (J : Store V → Prop)
    (hStep : ∀ s e, J s → e.Reads → ((storeMachine aead json).out s e).Gives records ∧
      J ((storeMachine aead json).next s e)) {later : List (StoreEvent V)}
    (hReads : ∀ e ∈ later, e.Reads) (h : J s) :
    ∀ answer ∈ (storeMachine aead json).log s later, answer.Gives records := by
  induction later generalizing s with
  | nil => exact fun answer hAnswer => absurd hAnswer List.not_mem_nil
  | cons e rest ih =>
    obtain ⟨hGives, hNext⟩ := hStep s e h (hReads e List.mem_cons_self)
    intro answer hAnswer
    rw [Machine.log_cons] at hAnswer
    rcases List.mem_cons.mp hAnswer with rfl | hRest
    · exact hGives
    · exact ih (fun e he => hReads e (List.mem_cons_of_mem _ he)) hNext answer hRest

/-- A file of sealed records answers with them. -/
theorem gives_of_models {records : String → Option (CoreRecord V)}
    (h : Models aead json key s records) {e : StoreEvent V} (hReads : e.Reads) :
    ((storeMachine aead json).out s e).Gives records ∧
      Models aead json key ((storeMachine aead json).next s e) records := by
  obtain ⟨hOut, hNext⟩ := answers_step h e
  rw [hOut]
  cases e with
  | load nonces => exact ⟨rfl, hNext⟩
  | restart random => exact ⟨trivial, hNext⟩
  | save core state enabled settings nonces => exact hReads.elim
  | remove core nonces => exact hReads.elim

/-- The process that starts over a store finds what was there. -/
theorem init_again (hSaved : s.disk.key = some s.key.val) (random : Key) :
    init s.disk random = .ok s := by
  obtain ⟨⟨cores, bytes⟩, key⟩ := s
  obtain rfl : bytes = some key.val := hSaved
  exact dif_pos key.property

/-- A file without plaintext to migrate stays as it is. -/
theorem gives_of_read (hSaved : s.disk.key = some s.key.val) (hRead : read aead json s = .ok value)
    (hPlain : ¬ s.HasPlain) {e : StoreEvent V} (hReads : e.Reads) :
    ((storeMachine aead json).out s e).Gives value.get? ∧
      (storeMachine aead json).next s e = s := by
  cases e with
  | load nonces =>
    have hRun : (load aead json nonces).run s = (.ok value, s) := by
      rw [run_load hRead, if_neg (mt any_plain_iff.mp hPlain)]
    unfold Machine.out Machine.next
    simp only [storeMachine, hRun]
    exact ⟨rfl, rfl⟩
  | restart random =>
    unfold Machine.out Machine.next
    simp only [storeMachine, init_again hSaved random]
    exact ⟨trivial, trivial⟩
  | save core state enabled settings nonces => exact hReads.elim
  | remove core nonces => exact hReads.elim

/--
**Loading again.** What a load returns, every later load returns, as long as
only loads and restarts come between: after the first the file is settled, and
no load writes it again.
-/
theorem loads_again {nonces : String → Nonce} (hSaved : s.disk.key = some s.key.val)
    (h : (load aead json nonces).run s = (.ok value, s')) {later : List (StoreEvent V)}
    (hReads : ∀ e ∈ later, e.Reads) :
    ∀ answer ∈ (storeMachine aead json).log s' later, answer.Gives value.get? := by
  obtain ⟨hRead, ⟨-, hWrite⟩ | ⟨hPlain, rfl⟩⟩ := load_cases h
  · exact log_gives (fun s => Models aead json _ s value.get?)
      (fun s e hModels hReads => gives_of_models hModels hReads) hReads
      (models_of_write hSaved hWrite)
  · refine log_gives (fun s => s = s') (fun s e hSame hReads => ?_) hReads rfl
    rw [hSame]
    exact gives_of_read hSaved hRead hPlain hReads

-- ---------------------------------------------------------------------------
-- The migration
-- ---------------------------------------------------------------------------

/-- Sealed settings are in what a load returns, and so in what it seals anew. -/
theorem kept_of_models (hRead : read aead json s = .ok value)
    (hModels : Models aead json s.key s' value.get?) {core blob : String} {r : FileRecord V}
    {settings : V} (hHas : s.Has core r) (hBlob : r.settingsEnc = some blob) (hNe : blob ≠ "")
    (hOpen : decryptJson aead json s.key blob (coreAad core) = .ok settings) :
    ∃ r' blob', s'.Has core r' ∧ r'.settingsEnc = some blob' ∧
      decryptJson aead json s'.key blob' (coreAad core) = .ok settings := by
  obtain ⟨record, hRecord, hGet⟩ := read_record hRead hHas
  have hSettings : record.settings = settings := by
    simp only [readRecord, hBlob, if_neg hNe, hOpen, Except.map, Except.ok.injEq] at hRecord
    rw [← hRecord]
  have hEntry := hModels.records core
  rw [hGet] at hEntry
  cases hFile : s'.disk.entries.get? core with
  | none =>
    rw [hFile] at hEntry
    exact hEntry.elim
  | some entry =>
    rw [hFile] at hEntry
    obtain ⟨nonce, blob', hSealed, rfl⟩ := hEntry
    refine ⟨_, blob', hFile, rfl, ?_⟩
    rw [hModels.key_eq, ← hSettings]
    exact decrypt_encrypt aead json hSealed

theorem sealed_of_models {records : String → Option (CoreRecord V)}
    (h : Models aead json key s records) : s.Sealed := by
  intro core r hHas
  obtain ⟨record, -, nonce, blob, -, hEntry⟩ := h.entry hHas
  obtain rfl : r = _ := FileEntry.record.inj hEntry
  rfl

/--
**The migration.** A load that returned has left no plaintext, later loads return
what it returned, and sealed settings still unseal to the same, **if and only if**
some record had plaintext and no key `settings_enc`, or no record had plaintext at
all.
-/
theorem migrated_iff (aead : Aead) (json : JsonText V) (disk : Disk V) (random : Key)
    (nonces : String → Nonce) (s s' : Store V) (value : Dict String (CoreRecord V))
    (hInit : init disk random = .ok s)
    (hLoad : (load aead json nonces).run s = (.ok value, s')) :
    Migrated aead json s value s' ↔ s.HasPlain ∨ s.Sealed := by
  -- the key on disk is the one in use, whether it was there or was made
  have hSaved : s.disk.key = some s.key.val := by
    unfold init at hInit
    dsimp only at hInit
    split at hInit
    · obtain rfl := Except.ok.inj hInit
      rfl
    · cases hInit
  obtain ⟨hRead, hCases⟩ := load_cases hLoad
  -- later loads are the same whatever else reads in between
  have hStable := fun later (hReads : ∀ e ∈ later, StoreEvent.Reads e) =>
    loads_again hSaved hLoad hReads
  rcases hCases with ⟨hPlain, hWrite⟩ | ⟨hPlain, rfl⟩
  -- some record had plaintext: everything was sealed again from what was read
  · have hModels := models_of_write hSaved hWrite
    refine iff_of_true ⟨sealed_of_models hModels, hStable, ?_⟩ (Or.inl hPlain)
    exact fun core r blob settings => kept_of_models hRead hModels
  -- none had, so nothing was written, and what is plaintext now was before
  · constructor
    · exact fun h => Or.inr h.noPlaintext
    · intro h
      refine ⟨h.resolve_left hPlain, hStable, ?_⟩
      exact fun core r blob settings hHas hBlob _ hOpen => ⟨r, blob, hHas, hBlob, hOpen⟩

-- ---------------------------------------------------------------------------
-- One record
-- ---------------------------------------------------------------------------

/-- The objects `{}` and `{"port":1}`. -/
def JsonText.port : JsonText Bool where
  empty := false
  dumps given := .ok (if given then "\x7b\"port\":1\x7d".toList.map fun c => c.toNat.toUInt8
    else [0x7b, 0x7d])
  loads text :=
    if text = [0x7b, 0x7d] then .ok (some false)
    else if text = "\x7b\"port\":1\x7d".toList.map fun c => c.toNat.toUInt8 then .ok (some true)
    else .error ⟨.value, "Expecting value"⟩
  loads_dumps := by
    intro given text hText
    cases given <;> rw [← Except.ok.inj hText] <;> rfl
  dumps_empty := ⟨_, rfl⟩

theorem zeroKey_length : (List.replicate 32 (0 : UInt8)).length = 32 := rfl

def zeroKey : Key := ⟨List.replicate 32 0, zeroKey_length⟩

/-- A file in which SSH has the settings `{"port":1}` in the clear. -/
def plainSsh (settingsEnc : Option String) : Disk Bool :=
  ⟨some (.object (Dict.ofPairs [("ssh", .record ⟨none, none, settingsEnc, some true⟩)])),
    some zeroKey.val⟩

/-- What the file says. -/
def sshRecords : Dict String (CoreRecord Bool) :=
  Dict.ofPairs [("ssh", ⟨"installed", true, true⟩)]

/--
**An empty `settings_enc`.** The settings beside it are read and stay in the
clear: the record is not rewritten because the key is there, and read as
plaintext because its value is empty.
-/
theorem empty_seal_stays :
    init (plainSsh (some "")) zeroKey = .ok ⟨plainSsh (some ""), zeroKey⟩ ∧
      (load Aead.tagged JsonText.port zeroNonces).run ⟨plainSsh (some ""), zeroKey⟩ =
        (.ok sshRecords, ⟨plainSsh (some ""), zeroKey⟩) ∧
      ¬ Migrated Aead.tagged JsonText.port ⟨plainSsh (some ""), zeroKey⟩ sshRecords
        ⟨plainSsh (some ""), zeroKey⟩ := by
  refine ⟨rfl, rfl, fun h => ?_⟩
  have hNone := h.noPlaintext "ssh" ⟨none, none, some "", some true⟩ rfl
  cases hNone

/-- Without one they are sealed. -/
theorem migrated_plainSsh :
    Migrated Aead.tagged JsonText.port ⟨plainSsh none, zeroKey⟩ sshRecords
      ((load Aead.tagged JsonText.port zeroNonces).run ⟨plainSsh none, zeroKey⟩).2 :=
  (migrated_iff Aead.tagged JsonText.port (plainSsh none) zeroKey zeroNonces
    ⟨plainSsh none, zeroKey⟩ _ sshRecords rfl rfl).mpr
      (Or.inl ⟨"ssh", ⟨none, none, none, some true⟩, rfl, rfl, rfl⟩)

end ZagrosNode.State
