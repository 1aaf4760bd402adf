import ZagrosNode.Cores.Manager
import ZagrosNode.Lib.Machine
import ZagrosNode.State.Cipher

/-!
# ZagrosNode — the core state store

`NodeCoreStateStore` keeps one record per core in `cores.json`: lifecycle
state, enabled flag, and the settings, sealed with the core's id as associated
data. Every save unseals the whole file, changes one record and seals all of
them anew. The process may end between two calls; what it finds afterwards is
the file and the data key beside it.

Over the store stands a map from core ids to records that knows nothing of
files, and the store is shown to answer every run of calls as the map does.

A save reads the whole file, unseals every record, changes one and seals all of them
again, with a new nonce for each. It can fail in the middle of all that, and then it
must not have written: `write` seals first and writes the file once. Which failures
there are is kept in the answers, with the class and text of the source.

Between the map and the file stands the relation `Models`: the file has the records of
the map in the order of the map, each sealed under its core's associated data with the
data key of memory and disk, plaintext nowhere. A new process finds the key file and
the same records. The simulation is one lemma for each call (`answers_save`,
`answers_remove`, `answers_load`, `answers_restart`) over that relation, and
`log_eq_of_simulation` gives the run.

Two facts come with it: a call leaves the records of other cores as they are, and a
blob that is moved by hand to the record of another core is not opened there.

Main results:

* `answers_step` — a call of the store and the same call of the map.
* `store_is_map` — the store answers as the map, leaves other cores alone, and
  does not open a blob under another core's id.
-/

namespace ZagrosNode.State

open ZagrosNode.Lib Op
open ZagrosNode.Cores (CoreState)

-- ---------------------------------------------------------------------------
-- Data
-- ---------------------------------------------------------------------------

/-- A core's facts with the settings unsealed. -/
structure CoreRecord (V : Type) where
  state    : String
  enabled  : Bool
  settings : V

/-- A record of `cores.json`; any key may be missing. -/
structure FileRecord (V : Type) where
  state       : Option String
  enabled     : Option Bool
  settingsEnc : Option String
  settings    : Option V

inductive FileEntry (V : Type)
  | record (r : FileRecord V)
  /-- a value that is no object -/
  | other

inductive Content (V : Type)
  | object (entries : Dict String (FileEntry V))
  | other

/-- `cores.json` and `state.key`. -/
structure Disk (V : Type) where
  cores : Option (Content V)
  key   : Option (List UInt8)

/-- The store of one process. -/
structure Store (V : Type) where
  disk : Disk V
  key  : Key

/-- `f"node-core:{core_id}".encode("utf-8")` -/
def coreAad (core : String) : List UInt8 := ("node-core:" ++ core).toUTF8.data.toList

variable {V : Type} (aead : Aead) (json : JsonText V)

-- ---------------------------------------------------------------------------
-- `_read` and `_write`
-- ---------------------------------------------------------------------------

/-- The entries of the file: none if it is missing or holds no object. -/
def Disk.entries (d : Disk V) : Dict String (FileEntry V) :=
  match d.cores with
  | some (.object entries) => entries
  | _                      => Dict.empty

def readRecord (key : Key) (core : String) (r : FileRecord V) : Except PyErr (CoreRecord V) :=
  let settings : Except PyErr V :=
    match r.settingsEnc with
    | some blob =>
      if blob = "" then .ok (r.settings.getD json.empty)
      else decryptJson aead json key blob (coreAad core)
    | none      => .ok (r.settings.getD json.empty)
  settings.map fun settings =>
    ⟨r.state.getD CoreState.installed.value, r.enabled.getD true, settings⟩

def readEntry (key : Key) (core : String) : FileEntry V → Except PyErr (Option (CoreRecord V))
  | .record r => (readRecord aead json key core r).map some
  | .other    => .ok none

/-- `_read` -/
def read (s : Store V) : Except PyErr (Dict String (CoreRecord V)) :=
  s.disk.entries.traverse (readEntry aead json s.key)

def sealedRecord (record : CoreRecord V) (blob : String) : FileEntry V :=
  .record ⟨some record.state, some record.enabled, some blob, none⟩

def sealRecord (key : Key) (nonces : String → Nonce) (core : String) (record : CoreRecord V) :
    Except PyErr (Option (FileEntry V)) :=
  (encryptJson aead json key (nonces core) record.settings (coreAad core)).map fun blob =>
    some (sealedRecord record blob)

def Store.withFile (s : Store V) (entries : Dict String (FileEntry V)) : Store V :=
  { s with disk := { s.disk with cores := some (.object entries) } }

/-- `_write`: nothing is written unless every record can be sealed. -/
def write (nonces : String → Nonce) (value : Dict String (CoreRecord V)) : Op (Store V) PyErr Unit := do
  let s ← get
  let entries ← lift (value.traverse (sealRecord aead json s.key nonces))
  modify fun s => s.withFile entries

-- ---------------------------------------------------------------------------
-- The calls
-- ---------------------------------------------------------------------------

/-- A record with settings in the clear and no sealed ones. -/
def FileEntry.plain : FileEntry V → Bool
  | .record r => r.settings.isSome && r.settingsEnc.isNone
  | .other    => false

/-- `load`: plaintext left from before sealing is rewritten sealed. -/
def load (nonces : String → Nonce) : Op (Store V) PyErr (Dict String (CoreRecord V)) := do
  let s ← get
  let value ← lift (read aead json s)
  if s.disk.entries.values.any FileEntry.plain then
    write aead json nonces value
  pure value

/-- The record a save leaves: settings that are not given stay. -/
def nextRecord (previous : Option (CoreRecord V)) (state : CoreState) (enabled : Bool)
    (settings : Option V) : CoreRecord V :=
  ⟨state.value, enabled, settings.getD (previous.elim json.empty CoreRecord.settings)⟩

def saveState (core : String) (state : CoreState) (enabled : Bool) (settings : Option V)
    (nonces : String → Nonce) : Op (Store V) PyErr Unit := do
  let s ← get
  let value ← lift (read aead json s)
  write aead json nonces
    (value.set core (nextRecord json (value.get? core) state enabled settings))

def remove (core : String) (nonces : String → Nonce) : Op (Store V) PyErr Unit := do
  let s ← get
  let value ← lift (read aead json s)
  write aead json nonces (value.pop core)

/-- `__init__`: the data key is made once and read ever after. -/
def init (disk : Disk V) (random : Key) : Except PyErr (Store V) :=
  let bytes := disk.key.getD random.val
  if h : bytes.length = 32 then .ok ⟨{ disk with key := some bytes }, ⟨bytes, h⟩⟩
  else .error ⟨.value, "node state.key must contain exactly 32 bytes"⟩

-- ---------------------------------------------------------------------------
-- Runs
-- ---------------------------------------------------------------------------

/-- A call, or a restart of the process; with each the random bytes it draws. -/
inductive StoreEvent (V : Type)
  | save (core : String) (state : CoreState) (enabled : Bool) (settings : Option V)
      (nonces : String → Nonce)
  | remove (core : String) (nonces : String → Nonce)
  | load (nonces : String → Nonce)
  | restart (random : Key)

inductive Answer (V : Type)
  | done
  | loaded (records : String → Option (CoreRecord V))
  | raised (e : PyErr)

/-- How a call ends: with the state it leaves, and its answer. -/
def outcome {α : Type} (f : α → Answer V) : Except PyErr α × Store V → Store V × Answer V
  | (.ok a, s)    => (s, f a)
  | (.error e, s) => (s, .raised e)

def storeMachine : Machine (Store V) (StoreEvent V) (Answer V) where
  step s
    | .save core state enabled settings nonces =>
      outcome (fun _ => .done) ((saveState aead json core state enabled settings nonces).run s)
    | .remove core nonces => outcome (fun _ => .done) ((remove aead json core nonces).run s)
    | .load nonces        => outcome (fun d => .loaded d.get?) ((load aead json nonces).run s)
    | .restart random     =>
      match init s.disk random with
      | .ok s'   => (s', .done)
      | .error e => (s, .raised e)

/-- The store of the first process on an empty disk. -/
def Store.first (key : Key) : Store V := ⟨⟨none, some key.val⟩, key⟩

theorem init_first (random : Key) :
    init (⟨none, none⟩ : Disk V) random = .ok (Store.first random) := by
  unfold init
  rw [dif_pos (show ((none : Option (List UInt8)).getD random.val).length = 32 from random.property)]
  rfl

/-- The text of the settings a save is given, if it is given any. -/
def givenText : Option V → Except PyErr (List UInt8)
  | none          => .ok []
  | some settings => json.dumps settings

/-- A map from core ids to records under the same calls. A save fails where
the settings it is given have no text, and then changes nothing. -/
def mapMachine : Machine (String → Option (CoreRecord V)) (StoreEvent V) (Answer V) where
  step m
    | .save core state enabled settings _ =>
      match givenText json settings with
      | .ok _    =>
        (Function.update m core (some (nextRecord json (m core) state enabled settings)), .done)
      | .error e => (m, .raised e)
    | .remove core _ => (Function.update m core none, .done)
    | .load _        => (m, .loaded m)
    | .restart _     => (m, .done)

-- ---------------------------------------------------------------------------
-- The records of a file
-- ---------------------------------------------------------------------------

/-- The entry is the record, sealed under the core's id. -/
def SealedAs (key : Key) (core : String) (entry : FileEntry V) (record : CoreRecord V) : Prop :=
  ∃ nonce blob, encryptJson aead json key nonce record.settings (coreAad core) = .ok blob ∧
    entry = sealedRecord record blob

/-- The file has exactly the records of the map, under the key that the store
has in memory and on disk. -/
structure Models (key : Key) (s : Store V) (m : String → Option (CoreRecord V)) : Prop where
  key_eq  : s.key = key
  saved   : s.disk.key = some key.val
  records : ∀ core, match s.disk.entries.get? core, m core with
    | some entry, some record => SealedAs aead json key core entry record
    | none, none              => True
    | _, _                    => False

variable {aead json} {key : Key} {s : Store V} {m : String → Option (CoreRecord V)}

theorem coreAad_inj {a b : String} (h : coreAad a = coreAad b) : a = b := by
  have hBytes : ("node-core:" ++ a).toUTF8 = ("node-core:" ++ b).toUTF8 :=
    ByteArray.ext (Array.ext' h)
  exact (String.append_right_inj "node-core:").mp (String.toByteArray_inj.mp hBytes)

theorem readEntry_sealed {core : String} {entry : FileEntry V} {record : CoreRecord V}
    (h : SealedAs aead json key core entry record) :
    readEntry aead json key core entry = .ok (some record) := by
  obtain ⟨nonce, blob, hBlob, rfl⟩ := h
  have hOpen : decryptJson aead json key blob (coreAad core) = .ok record.settings :=
    decrypt_encrypt aead json hBlob
  have hNonempty : blob ≠ "" := encryptJson_ne_empty aead json hBlob
  simp only [readEntry, sealedRecord, readRecord, if_neg hNonempty, hOpen]
  rfl

theorem Models.entry (h : Models aead json key s m) {core : String} {entry : FileEntry V}
    (hEntry : s.disk.entries.get? core = some entry) :
    ∃ record, m core = some record ∧ SealedAs aead json key core entry record := by
  have hRecord := h.records core
  rw [hEntry] at hRecord
  cases hCore : m core with
  | none => simp only [hCore] at hRecord
  | some record =>
    simp only [hCore] at hRecord
    exact ⟨record, rfl, hRecord⟩

/-- Reading the file gives the map. -/
theorem read_models (h : Models aead json key s m) :
    ∃ value, read aead json s = .ok value ∧ value.get? = m := by
  -- every entry of the file opens under its own core
  have hEntries : ∀ core entry, s.disk.entries.get? core = some entry →
      ∃ record, m core = some record ∧ readEntry aead json s.key core entry = .ok (some record) := by
    intro core entry hEntry
    obtain ⟨record, hCore, hSealed⟩ := h.entry hEntry
    rw [h.key_eq]
    exact ⟨record, hCore, readEntry_sealed hSealed⟩
  obtain ⟨value, hRead, hGet⟩ := Dict.traverse_ok (f := readEntry aead json s.key)
    fun core entry hEntry =>
      have ⟨record, _, hOk⟩ := hEntries core entry hEntry
      ⟨some record, hOk⟩
  -- the two maps have the same cores
  refine ⟨value, hRead, funext fun core => ?_⟩
  rw [hGet]
  cases hEntry : s.disk.entries.get? core with
  | none =>
    have hRecord := h.records core
    rw [hEntry] at hRecord
    cases hCore : m core with
    | none => rfl
    | some record => simp only [hCore] at hRecord
  | some entry =>
    obtain ⟨record, hCore, hOk⟩ := hEntries core entry hEntry
    rw [hCore, Option.bind_some, hOk]
    rfl

/-- The records of the file have texts. -/
theorem Models.text (h : Models aead json key s m) {core : String} {record : CoreRecord V}
    (hCore : m core = some record) : ∃ text, json.dumps record.settings = .ok text := by
  have hRecord := h.records core
  rw [hCore] at hRecord
  cases hEntry : s.disk.entries.get? core with
  | none => simp only [hEntry] at hRecord
  | some entry =>
    simp only [hEntry] at hRecord
    obtain ⟨nonce, blob, hBlob, -⟩ := hRecord
    cases hText : json.dumps record.settings with
    | ok text => exact ⟨text, rfl⟩
    | error e =>
      rw [(encryptJson_error_iff aead json).mpr hText] at hBlob
      cases hBlob

/-- Writing records that all have texts leaves a file of these records. -/
theorem write_models (nonces : String → Nonce) {value : Dict String (CoreRecord V)}
    (hKey : s.key = key) (hSaved : s.disk.key = some key.val)
    (hTexts : ∀ core record, value.get? core = some record →
      ∃ text, json.dumps record.settings = .ok text) :
    ∃ s', (write aead json nonces value).run s = (.ok (), s') ∧ Models aead json key s' value.get? := by
  -- sealing fails only for settings that have no text
  have hSeal : ∀ core record, value.get? core = some record → ∃ blob,
      encryptJson aead json key (nonces core) record.settings (coreAad core) = .ok blob := by
    intro core record hGet
    obtain ⟨text, hText⟩ := hTexts core record hGet
    rw [encryptJson, hText]
    exact ⟨_, rfl⟩
  -- each record is sealed with a nonce of its own, for its own core
  obtain ⟨entries, hWritten, hGet⟩ := Dict.traverse_ok (f := sealRecord aead json key nonces)
    fun core record hRecord => by
      obtain ⟨blob, hBlob⟩ := hSeal core record hRecord
      rw [sealRecord, hBlob]
      exact ⟨_, rfl⟩
  refine ⟨s.withFile entries, ?_, hKey, hSaved, fun core => ?_⟩
  · rw [write, run_get_bind, hKey, hWritten]
    rfl
  · show match entries.get? core, value.get? core with
      | some entry, some record => SealedAs aead json key core entry record
      | none, none              => True
      | _, _                    => False
    rw [hGet]
    cases hRecord : value.get? core with
    | none => trivial
    | some record =>
      obtain ⟨blob, hBlob⟩ := hSeal core record hRecord
      rw [Option.bind_some, sealRecord, hBlob]
      exact ⟨nonces core, blob, hBlob, rfl⟩

/-- A record without a text keeps the whole file as it is. -/
theorem write_raises (nonces : String → Nonce) {value : Dict String (CoreRecord V)} {core : String}
    {record : CoreRecord V} {e : PyErr} (hRecord : value.get? core = some record)
    (hNoText : json.dumps record.settings = .error e)
    (hOthers : ∀ other r, value.get? other = some r → other ≠ core →
      ∃ text, json.dumps r.settings = .ok text) :
    (write aead json nonces value).run s = (.error e, s) := by
  have hRaise : sealRecord aead json s.key nonces core record = .error e := by
    rw [sealRecord, (encryptJson_error_iff aead json).mpr hNoText]
    rfl
  have hTraverse : value.traverse (sealRecord aead json s.key nonces) = .error e := by
    refine Dict.traverse_error (fun other r hGet => ?_) hRecord hRaise
    by_cases hOther : other = core
    · subst hOther
      rw [Option.some.inj (hGet.symm.trans hRecord)]
      exact Or.inr hRaise
    · obtain ⟨text, hText⟩ := hOthers other r hGet hOther
      refine Or.inl ?_
      rw [sealRecord, encryptJson, hText]
      exact ⟨_, rfl⟩
  rw [write, run_get_bind, hTraverse]
  rfl

-- ---------------------------------------------------------------------------
-- Steps
-- ---------------------------------------------------------------------------

variable (aead json key) in
/-- The store ends in a state of the map's next state, with the map's answer. -/
def AnswersAs (s : Store V) (m : String → Option (CoreRecord V)) (e : StoreEvent V) : Prop :=
  (storeMachine aead json).out s e = (mapMachine json).out m e ∧
    Models aead json key ((storeMachine aead json).next s e) ((mapMachine json).next m e)

theorem answers_save (h : Models aead json key s m) (core : String) (state : CoreState)
    (enabled : Bool) (settings : Option V) (nonces : String → Nonce) :
    AnswersAs aead json key s m (.save core state enabled settings nonces) := by
  obtain ⟨value, hRead, hValue⟩ := read_models h
  let record := nextRecord json (m core) state enabled settings
  let saved := value.set core record
  have hSaved : saved.get? = Function.update m core (some record) := by
    funext other
    rw [Dict.get?_set, hValue, Function.update_apply]
    exact if_congr eq_comm rfl rfl
  have hRun : (saveState aead json core state enabled settings nonces).run s =
      (write aead json nonces saved).run s := by
    rw [saveState, run_get_bind, hRead]
    show (write aead json nonces
      (value.set core (nextRecord json (value.get? core) state enabled settings))).run s = _
    rw [hValue]
  have hOthers : ∀ other r, saved.get? other = some r → other ≠ core →
      ∃ text, json.dumps r.settings = .ok text := by
    intro other r hGet hOther
    rw [hSaved, Function.update_of_ne hOther] at hGet
    exact h.text hGet
  have hHere : saved.get? core = some record := Dict.get?_set_self value core record
  unfold AnswersAs Machine.out Machine.next
  simp only [storeMachine, mapMachine, hRun]
  cases hGiven : givenText json settings with
  | ok given =>
    have hText : ∃ text, json.dumps record.settings = .ok text := by
      cases settings with
      | some v => exact ⟨given, hGiven⟩
      | none =>
        -- settings that stay were written before, or are `{}`
        cases hPrevious : m core with
        | none =>
          simp only [record, hPrevious]
          exact json.dumps_empty
        | some previous =>
          have hText := h.text hPrevious
          simp only [record, hPrevious]
          exact hText
    have hTexts : ∀ other r, saved.get? other = some r →
        ∃ text, json.dumps r.settings = .ok text := by
      intro other r hGet
      by_cases hOther : other = core
      · subst hOther
        rw [← Option.some.inj (hHere.symm.trans hGet)]
        exact hText
      · exact hOthers other r hGet hOther
    obtain ⟨s', hWrite, hModels⟩ := write_models nonces h.key_eq h.saved hTexts
    rw [hWrite]
    exact ⟨rfl, hSaved ▸ hModels⟩
  | error e =>
    have hNoText : json.dumps record.settings = .error e := by
      cases settings with
      | none => cases hGiven
      | some v => exact hGiven
    rw [write_raises nonces hHere hNoText hOthers]
    exact ⟨rfl, h⟩

theorem answers_remove (h : Models aead json key s m) (core : String) (nonces : String → Nonce) :
    AnswersAs aead json key s m (.remove core nonces) := by
  obtain ⟨value, hRead, hValue⟩ := read_models h
  have hPopped : (value.pop core).get? = Function.update m core none := by
    funext other
    rw [Dict.get?_pop, hValue, Function.update_apply]
  have hTexts : ∀ other r, (value.pop core).get? other = some r →
      ∃ text, json.dumps r.settings = .ok text := by
    intro other r hGet
    rw [hPopped, Function.update_apply] at hGet
    by_cases hOther : other = core
    · rw [if_pos hOther] at hGet
      cases hGet
    · rw [if_neg hOther] at hGet
      exact h.text hGet
  obtain ⟨s', hWrite, hModels⟩ := write_models nonces h.key_eq h.saved hTexts
  have hRun : (remove aead json core nonces).run s = (.ok (), s') := by
    rw [remove, run_get_bind, hRead]
    exact hWrite
  unfold AnswersAs Machine.out Machine.next
  simp only [storeMachine, mapMachine, hRun]
  exact ⟨rfl, hPopped ▸ hModels⟩

theorem answers_load (h : Models aead json key s m) (nonces : String → Nonce) :
    AnswersAs aead json key s m (.load nonces) := by
  obtain ⟨value, hRead, hValue⟩ := read_models h
  -- every record is sealed, so there is no plaintext to rewrite
  have hSealed : s.disk.entries.values.any FileEntry.plain = false := by
    rw [List.any_eq_false]
    intro entry hEntry
    obtain ⟨⟨core, entry⟩, hMem, rfl⟩ := List.mem_map.mp hEntry
    obtain ⟨record, -, nonce, blob, -, rfl⟩ := h.entry (Dict.mem_entries_iff.mp hMem)
    simp [sealedRecord, FileEntry.plain]
  have hRun : (load aead json nonces).run s = (.ok value, s) := by
    rw [load, run_get_bind, hRead, hSealed]
    rfl
  unfold AnswersAs Machine.out Machine.next
  simp only [storeMachine, mapMachine, hRun, outcome, hValue]
  exact ⟨trivial, h⟩

/-- The next process reads the key the first one made. -/
theorem answers_restart (h : Models aead json key s m) (random : Key) :
    AnswersAs aead json key s m (.restart random) := by
  have hInit : init s.disk random = .ok s := by
    have hBytes : s.disk.key.getD random.val = s.key.val := by
      rw [h.saved, h.key_eq]
      rfl
    have hLength : (s.disk.key.getD random.val).length = 32 := by
      rw [hBytes]
      exact s.key.property
    have hStore : (⟨{ s.disk with key := some (s.disk.key.getD random.val) },
        ⟨s.disk.key.getD random.val, hLength⟩⟩ : Store V) = s := by
      have hKey : (⟨s.disk.key.getD random.val, hLength⟩ : Key) = s.key := Subtype.ext hBytes
      rw [hKey, hBytes, h.key_eq, ← h.saved, ← h.key_eq]
    unfold init
    rw [dif_pos hLength, hStore]
  unfold AnswersAs Machine.out Machine.next
  simp only [storeMachine, mapMachine, hInit]
  exact ⟨trivial, h⟩

theorem answers_step (h : Models aead json key s m) (e : StoreEvent V) :
    AnswersAs aead json key s m e := by
  cases e with
  | save core state enabled settings nonces => exact answers_save h core state enabled settings nonces
  | remove core nonces => exact answers_remove h core nonces
  | load nonces => exact answers_load h nonces
  | restart random => exact answers_restart h random

-- ---------------------------------------------------------------------------
-- Runs of the store
-- ---------------------------------------------------------------------------

variable (aead json)

/-- What reading the file now would give. -/
def Store.records (s : Store V) : String → Option (CoreRecord V) :=
  match read aead json s with
  | .ok value => value.get?
  | .error _  => fun _ => none

/-- The core a call is about. -/
def StoreEvent.core? : StoreEvent V → Option String
  | .save core _ _ _ _ | .remove core _ => some core
  | .load _ | .restart _ => none

/-- The sealed settings in a core's record. -/
def Store.blob? (s : Store V) (core : String) : Option String :=
  match s.disk.entries.get? core with
  | some (.record r) => r.settingsEnc
  | _                => none

/-- The same store with one record of the file replaced by hand. -/
def Store.withRecord (s : Store V) (core : String) (r : FileRecord V) : Store V :=
  s.withFile (s.disk.entries.set core (.record r))

variable {aead json}

theorem models_first (key : Key) : Models aead json key (Store.first key) fun _ => none :=
  ⟨rfl, rfl, fun _ => trivial⟩

theorem Models.records_eq (h : Models aead json key s m) : s.records aead json = m := by
  obtain ⟨value, hRead, hValue⟩ := read_models h
  rw [Store.records, hRead]
  exact hValue

/-- The map leaves other cores alone. -/
theorem map_frame (m : String → Option (CoreRecord V)) (e : StoreEvent V) {other : String}
    (hOther : e.core? ≠ some other) : (mapMachine json).next m e other = m other := by
  cases e with
  | save core state enabled settings nonces =>
    have hNe : other ≠ core := fun hEq => hOther (congrArg some hEq.symm)
    unfold Machine.next
    simp only [mapMachine]
    split
    · exact Function.update_of_ne hNe _ m
    · rfl
  | remove core nonces =>
    have hNe : other ≠ core := fun hEq => hOther (congrArg some hEq.symm)
    exact Function.update_of_ne hNe _ m
  | load nonces => rfl
  | restart random => rfl

/-- No blob of a core opens in the record of another one. -/
theorem load_moved (h : Models aead json key s m) {a b : String} (hNe : a ≠ b) {blob : String}
    (hBlob : ∃ nonce value, encryptJson aead json key nonce value (coreAad a) = .ok blob)
    {r : FileRecord V} (hRecord : r.settingsEnc = some blob) (nonces : String → Nonce) :
    (load aead json nonces).run (s.withRecord b r) =
      (.error failedAuthentication, s.withRecord b r) := by
  obtain ⟨nonce, value, hSealed⟩ := hBlob
  have hAad : coreAad a ≠ coreAad b := fun hEq => hNe (coreAad_inj hEq)
  -- the core is part of what the seal is about
  have hRaise : readEntry aead json key b (.record r) = .error failedAuthentication := by
    have hOpen := decrypt_other aead json hSealed hAad
    have hNonempty : blob ≠ "" := encryptJson_ne_empty aead json hSealed
    simp only [readEntry, readRecord, hRecord, if_neg hNonempty, hOpen]
    rfl
  have hRead : read aead json (s.withRecord b r) = .error failedAuthentication := by
    show (s.disk.entries.set b (.record r)).traverse (readEntry aead json s.key) = _
    rw [h.key_eq]
    -- the other entries open as before, and this one ends the load
    refine Dict.traverse_error (fun core entry hGet => ?_) (Dict.get?_set_self _ b _) hRaise
    by_cases hCore : b = core
    · subst hCore
      rw [Dict.get?_set_self] at hGet
      rw [← Option.some.inj hGet]
      exact Or.inr hRaise
    · rw [Dict.get?_set_of_ne _ _ hCore] at hGet
      obtain ⟨record, -, hEntry⟩ := h.entry hGet
      exact Or.inl ⟨_, readEntry_sealed hEntry⟩
  rw [load, run_get_bind, hRead]
  rfl

theorem Models.blob (h : Models aead json key s m) {core blob : String}
    (hBlob : s.blob? core = some blob) :
    ∃ nonce value, encryptJson aead json key nonce value (coreAad core) = .ok blob := by
  unfold Store.blob? at hBlob
  cases hEntry : s.disk.entries.get? core with
  | none =>
    rw [hEntry] at hBlob
    cases hBlob
  | some entry =>
    obtain ⟨record, -, nonce, stored, hStored, rfl⟩ := h.entry hEntry
    rw [hEntry] at hBlob
    obtain rfl : stored = blob := Option.some.inj hBlob
    exact ⟨nonce, record.settings, hStored⟩

/--
**The store is a map.** After any run of saves, removals, loads and restarts,
the store has answered as a map from core ids to records; the next call
changes no other core's record; and a blob that was in one core's record at
any time makes every later load fail if it is put into another core's record.
-/
theorem store_is_map (aead : Aead) (json : JsonText V) (key : Key) (events : List (StoreEvent V)) :
    let M := storeMachine aead json
    let s := M.exec (Store.first key) events
    M.log (Store.first key) events = (mapMachine json).log (fun _ => none) events ∧
      (∀ e other, StoreEvent.core? e ≠ some other →
        (M.next s e).records aead json other = s.records aead json other) ∧
      ∀ (a b blob : String) (later : List (StoreEvent V)) (r : FileRecord V) nonces,
        s.blob? a = some blob → a ≠ b → r.settingsEnc = some blob →
          ((load aead json nonces).run ((M.exec s later).withRecord b r)).1 =
            .error failedAuthentication := by
  intro M s
  have hStep : ∀ (s : Store V) m e, Models aead json key s m → AnswersAs aead json key s m e :=
    fun s m e h => answers_step h e
  have hRun := Machine.log_eq_of_simulation hStep (models_first key) events
  obtain ⟨hLog, hModels⟩ := hRun
  refine ⟨hLog, fun e other hOther => ?_, fun a b blob later r nonces hBlob hNe hRecord => ?_⟩
  · have hNext := (answers_step hModels e).2
    rw [hNext.records_eq, hModels.records_eq]
    exact map_frame _ e hOther
  · have hLater := (Machine.log_eq_of_simulation hStep hModels later).2
    rw [load_moved hLater hNe (hModels.blob hBlob) hRecord nonces]

/-- The JSON objects without members. -/
def JsonText.unit : JsonText Unit where
  empty := ()
  dumps := fun _ => .ok [0x7b, 0x7d]
  loads text := if text = [0x7b, 0x7d] then .ok (some ()) else .error ⟨.value, "Expecting value"⟩
  loads_dumps := by
    intro v text hText
    rw [← Except.ok.inj hText, if_pos rfl]
  dumps_empty := ⟨_, rfl⟩

def zeroNonces : String → Nonce := fun _ => ⟨List.replicate 12 0, rfl⟩

/-- SSH is saved. -/
def savedSsh : Store Unit :=
  (storeMachine Aead.tagged JsonText.unit).exec (Store.first ⟨List.replicate 32 0, rfl⟩)
    [.save "ssh" .running true none zeroNonces]

/-- Its settings in another core's record. -/
theorem store_is_map_savedSsh :
    ((load Aead.tagged JsonText.unit zeroNonces).run
      (savedSsh.withRecord "xray" ⟨none, none, savedSsh.blob? "ssh", none⟩)).1 =
        .error failedAuthentication := by
  have hSome : (savedSsh.blob? "ssh").isSome = true := rfl
  obtain ⟨blob, hBlob⟩ := Option.isSome_iff_exists.mp hSome
  have hMap := store_is_map Aead.tagged JsonText.unit ⟨List.replicate 32 0, rfl⟩
    [.save "ssh" .running true none zeroNonces]
  have hLoad := hMap.2.2 "ssh" "xray" blob [] ⟨none, none, some blob, none⟩ zeroNonces hBlob
    (by decide) rfl
  rw [Machine.exec_nil] at hLoad
  rw [hBlob]
  exact hLoad

end ZagrosNode.State
