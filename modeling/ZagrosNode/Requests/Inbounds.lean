import ZagrosNode.Lib.Object
import ZagrosNode.Requests.Materialized

/-!
# ZagrosNode — answers to a pushed document

`PUT /v1/cores/{core}/inbounds` turns what goes wrong into answers of its own:
403 and 404 for the core, 422 for the material of an Xray document, 504 and 409
for the apply. Around `_materialize_xray_tls` only value errors are caught, and
its loops ask `streamSettings` and `tlsSettings` for a `get` and `inbounds` and
`certificates` for their items without looking at what these are. Nor is an
`OSError` a value error: the certificate directory is a setting, so a file may
be where it should be made, and a directory where a file should go.

The operations of `materializeXrayTls` are those of a disk that takes them all;
here the call ends at the first one that is refused. Which one that is depends
on the document alone, since no operation makes a directory.

* **Odd shapes.** `Part` is what the loops come to, in order: a value they ask for a
  method it does not have, or a certificate entry. A part stops the loops if it is odd
  or if a file of its pair cannot be written (`Part.Stops`).
* **First come.** Whether an odd part is reached depends on the parts before it: a bad
  certificate entry ends the loops with a value error, and that one is answered with
  422. `Stumble` says that a stopping part is reached with none before it.
* **The disk.** The certificate directory is resolved and made before the loops, and the
  files go through four places for each pair. Which operations are refused is a property
  of the disk before the call (`Upload.Blocked`), since the call makes no directory and
  moves only what it has written.
* **After the apply** the answer counts the inbounds. A driver that has returned has
  gone over them, so the count cannot fail.

`Trips` puts the ways together in which an exception gets through.

Main results:

* `plans_eq_map` — what the loops check are the parts of the document, in its
  order.
* `returned_counts` — an apply that returned has gone over the inbounds, which
  then have a length.
* `uncaught_materialize_iff` — when an exception gets through from the material.
* `answers_cleanly_iff` — which documents end in an answer of the call's own.
* `textSettings_escapes` — a document that does not.
-/

namespace ZagrosNode.Requests

open ZagrosNode.Lib Op
open ZagrosNode.Cores (CoreId)

-- ---------------------------------------------------------------------------
-- The apply
-- ---------------------------------------------------------------------------

/-- How an apply fails. -/
inductive Failure
  /-- `asyncio.TimeoutError` -/
  | timedOut
  /-- any other exception, with its text -/
  | raised (text : String)

/-- The texts of the drivers that host no empty document. -/
def emptyText : CoreId → Option String
  | .xray      => some ("the xray studio document must carry at least ONE inbound — " ++
      "xray cannot boot an empty listener set (legacy validation).")
  | .openvpn   => some ("an openvpn core needs at least ONE inbound — the studio " ++
      "document carries none.")
  | .ssh       => some ("an ssh core needs at least ONE inbound — the studio document " ++
      "carries none.")
  | .wireguard =>
    some "a wireguard core needs at least ONE inbound; the Studio document is empty."
  | .softether => some ("an empty SoftEther feature set disconnects every client — " ++
      "keep at least one feature inbound.")
  | .singBox   => none
  | .pptp      => none

/-- A driver's `apply_studio_document` up to the first inbound: what it raises
about the value of `inbounds` itself. -/
def readInbounds (core : CoreId) (document : JsonObject) : Option Failure :=
  let inbounds := Json.getD document "inbounds"
  match core, inbounds with
  | .xray, .list _ =>
    if inbounds.truthy then none else (emptyText core).map .raised
  | .xray, _       => (emptyText core).map .raised
  | .pptp, .list rows =>
    if 1 < rows.length then
      some (.raised "PPTP has one fixed TCP/1723 listener; multiple inbounds are unsupported")
    else none
  | .pptp, _       =>
    if inbounds.truthy then some (.raised "PPTP inbounds must be an array") else none
  | _, .list _     => if inbounds.truthy then none else (emptyText core).map .raised
  | _, .dict _     => if inbounds.truthy then none else (emptyText core).map .raised
  | _, .str _      => if inbounds.truthy then none else (emptyText core).map .raised
  | _, _           =>
    if inbounds.truthy then some (.raised "object is not iterable")
    else (emptyText core).map .raised

/-- The agent a document is pushed to. -/
structure Agent where
  site         : Site
  /-- `core_manager.list_cores()` -/
  listed       : CoreId → Bool
  /-- `core_manager.get("xray").settings` -/
  xraySettings : JsonObject
  /-- `copy.deepcopy` gets through a document within the recursion limit -/
  copyable     : JsonObject → Bool
  /-- how the apply ends before the driver is asked, if it does -/
  before       : CoreId → Option Failure
  /-- how it ends from the first inbound on, if it fails -/
  later        : CoreId → JsonObject → Option Failure

/-- `core_manager.apply_studio_document` within its two minutes; `none` if it
returns. -/
def Agent.apply (agent : Agent) (core : CoreId) (document : JsonObject) : Option Failure :=
  ((agent.before core).or (readInbounds core document)).or (agent.later core document)

-- ---------------------------------------------------------------------------
-- The call
-- ---------------------------------------------------------------------------

/-- How a call ends. -/
inductive Answer
  | ok (inboundCount : Nat)
  /-- `HTTPException` -/
  | http (status : Nat) (detail : String)
  /-- another exception, which the server answers with 500 -/
  | escaped (e : PyErr)
  deriving DecidableEq

/-- The answer, and whether a document was applied before it. -/
structure Ending where
  answer  : Answer
  applied : Bool
  deriving DecidableEq

/-- What `_authorize_core` raises. -/
def Refusal.answer (site : Site) : Refusal → Answer
  | .notAllowlisted core     =>
    .http 403 ("core '" ++ core ++ "' is not in the node allowlist")
  | .noDriver core           =>
    .http 404 ("core '" ++ core.name ++ "' has no driver in this image")
  | .notAllowed core unknown =>
    .http 422 ("settings are not allowlisted for " ++ core.name ++ ": " ++ ", ".intercalate unknown)
  | .outside key             =>
    .http 422 ("setting '" ++ key ++ "' must remain under " ++ String.ofList site.coreRoot)
  | .unresolved              => .escaped ⟨.os, "Symlink loop"⟩

def Failure.answer : Failure → Answer
  | .timedOut    => .http 504 "inbound apply timed out"
  | .raised text => .http 409 text

/-- `len(v)` -/
def len : Json → Except PyErr Nat
  | .list xs      => .ok xs.length
  | .dict entries => .ok entries.length
  | .str s        => .ok s.length
  | _             => .error ⟨.type, "object has no len()"⟩

/-- `len(body.document.get("inbounds") or [])` -/
def countInbounds (document : JsonObject) : Except PyErr Nat :=
  len ((Json.getD document "inbounds").or (.list []))

/-- The system does not take an operation. A file may always be given a mode. -/
def FileOp.refused (fs : Fs) : FileOp → Bool
  | .write place _    => fs.blocked place
  | .chmod _ _        => false
  | .replace _ target => fs.blocked target

/-- `IsADirectoryError`, or what the system refused with. -/
def refusedError : PyErr := ⟨.os, "the operation was refused"⟩

def tooDeep : PyErr := ⟨.recursion, "maximum recursion depth exceeded"⟩

/-- `_materialize_xray_tls` on this agent's disk. The document is copied after
the certificate directory was made, and the first operation that is refused ends
the call, before anything the loops would have come to later. -/
def xrayDocument (agent : Agent) (call : Call) (document : JsonObject) : Except PyErr JsonObject :=
  match prepare call agent.site agent.xraySettings with
  | .error e => .error e
  | .ok _    =>
    if agent.copyable document then
      match (materializeXrayTls call agent.site agent.xraySettings document).2.find?
          (FileOp.refused agent.site.fs) with
      | some _ => .error refusedError
      | none   => (materializeXrayTls call agent.site agent.xraySettings document).1
    else .error tooDeep

/-- The document a core is to apply. -/
def toApply (agent : Agent) (call : Call) (document : JsonObject) :
    CoreId → Except PyErr JsonObject
  | .xray => xrayDocument agent call document
  | _     => .ok document

/-- `core_inbounds`, after the core was found. -/
def pushDocument (agent : Agent) (call : Call) (core : CoreId) (document : JsonObject) : Ending :=
  if !call.material.entries.isEmpty && core != .xray then
    ⟨.http 422 "file material is supported only for Xray TLS sync", false⟩
  else
    match toApply agent call document core with
    | .error e => ⟨if e.isValueError then .http 422 e.text else .escaped e, false⟩
    | .ok prepared =>
      match agent.apply core prepared with
      | some failure => ⟨failure.answer, false⟩
      | none         =>
        match countInbounds document with
        | .ok n    => ⟨.ok n, true⟩
        | .error e => ⟨.escaped e, true⟩

/-- `core_inbounds` -/
def coreInbounds (agent : Agent) (call : Call) (name : String) (document : JsonObject) : Ending :=
  match authorizeCore agent.site name [] with
  | .error refusal => ⟨refusal.answer agent.site, false⟩
  | .ok _          =>
    match (allowlisted name).filter agent.listed with
    | none      => ⟨.http 404 ("core '" ++ name ++ "' is not installed"), false⟩
    | some core => pushDocument agent call core document

-- ---------------------------------------------------------------------------
-- The parts of a document
-- ---------------------------------------------------------------------------

/-- What the loops come to. -/
inductive Part
  /-- a value of another shape than they expect -/
  | misshapen (e : PyErr)
  /-- a certificate entry of an inbound with this tag -/
  | entry (tag : Json) (pair : JsonObject)

def partsIn (key : String) (parts : Json → List Part) (entries : JsonObject) : List Part :=
  if (Json.getD entries key).truthy then parts (Json.getD entries key) else []

def partsDict (parts : JsonObject → List Part) : Json → List Part
  | .dict entries => parts entries
  | _             => [.misshapen notADict]

def partsInbound (inbound : JsonObject) : List Part :=
  partsIn "streamSettings" (partsDict (partsIn "tlsSettings" (partsDict (partsIn "certificates"
    (ofList (ofDict fun pair => [.entry (Json.getD inbound "tag") pair])))))) inbound

def partsInbounds : Json → List Part
  | .list inbounds => inbounds.flatMap (ofDict partsInbound)
  | .dict _        => []
  | .str _         => []
  | _              => [.misshapen ⟨.type, "object is not iterable"⟩]

/-- The parts of a document in the order the loops come to them. -/
def parts (document : JsonObject) : List Part := partsIn "inbounds" partsInbounds document

/-- What the loops make of a part. -/
def Part.plan (call : Call) : Part → Plan
  | .misshapen e    => .error e
  | .entry tag pair => planOf call tag pair

variable {call : Call}

theorem plansIn_map {key : String} {plans : Json → List Plan} {parts : Json → List Part}
    (h : ∀ v, plans v = (parts v).map (Part.plan call)) (entries : JsonObject) :
    plansIn key plans entries = (partsIn key parts entries).map (Part.plan call) := by
  unfold plansIn partsIn
  split
  · exact h _
  · rfl

theorem plansDict_map {plans : JsonObject → List Plan} {parts : JsonObject → List Part}
    (h : ∀ entries, plans entries = (parts entries).map (Part.plan call)) (v : Json) :
    plansDict plans v = (partsDict parts v).map (Part.plan call) := by
  cases v with
  | dict entries => exact h entries
  | null | bool | num | float | str | list => rfl

theorem ofDict_map {plans : JsonObject → List Plan} {parts : JsonObject → List Part}
    (h : ∀ entries, plans entries = (parts entries).map (Part.plan call)) (v : Json) :
    ofDict plans v = (ofDict parts v).map (Part.plan call) := by
  cases v with
  | dict entries => exact h entries
  | null | bool | num | float | str | list => rfl

theorem flatMap_map {plans : Json → List Plan} {parts : Json → List Part}
    (h : ∀ v, plans v = (parts v).map (Part.plan call)) (xs : List Json) :
    xs.flatMap plans = (xs.flatMap parts).map (Part.plan call) := by
  rw [List.map_flatMap]
  exact congrArg (xs.flatMap ·) (funext h)

theorem ofList_map {plans : Json → List Plan} {parts : Json → List Part}
    (h : ∀ v, plans v = (parts v).map (Part.plan call)) (v : Json) :
    ofList plans v = (ofList parts v).map (Part.plan call) := by
  cases v with
  | list xs => exact flatMap_map h xs
  | null | bool | num | float | str | dict => rfl

theorem plansInbound_map (inbound : JsonObject) :
    plansInbound call inbound = (partsInbound inbound).map (Part.plan call) :=
  have hEntry : ∀ pair, [planOf call (Json.getD inbound "tag") pair] =
      [Part.entry (Json.getD inbound "tag") pair].map (Part.plan call) := fun _ => rfl
  plansIn_map (plansDict_map (plansIn_map (plansDict_map (plansIn_map
    (ofList_map (ofDict_map hEntry)))))) inbound

theorem plansInbounds_map (v : Json) :
    plansInbounds call v = (partsInbounds v).map (Part.plan call) := by
  cases v with
  | list inbounds => exact flatMap_map (ofDict_map plansInbound_map) inbounds
  | null | bool | num | float | str | dict => rfl

/-- What the loops check are the parts of the document. -/
theorem plans_eq_map (document : JsonObject) :
    plans call document = (parts document).map (Part.plan call) :=
  plansIn_map plansInbounds_map document

-- ---------------------------------------------------------------------------
-- The first part that stops the loops
-- ---------------------------------------------------------------------------

/-- The exception of the first check that fails. -/
def firstError : List Plan → Option PyErr
  | []               => none
  | .ok _ :: rest    => firstError rest
  | .error e :: _    => some e

/-- The loops raise what the first failing check raises. -/
theorem raised_loop {dir : List Name} (ps : List Plan) (w : Work) :
    raised ((forEach (perform dir) ps).run w).1 = firstError ps := by
  induction ps generalizing w with
  | nil => rfl
  | cons p rest ih =>
    cases p with
    | error e => rfl
    | ok used =>
      cases used with
      | none => exact ih w
      | some u => exact ih _

/-- `validate_pem_pair` returns or raises a `CertificateError`, which becomes a
value error. -/
def PemErrors (lib : Library) : Prop :=
  ∀ now certPem keyPem context e,
    validatePemPair lib now certPem keyPem context = .error e → e.isValueError = true

theorem planOf_error {tag : Json} {pair : JsonObject} {e : PyErr} (hPem : PemErrors call.lib)
    (h : planOf call tag pair = .error e) : e.isValueError = true := by
  unfold planOf at h
  dsimp only at h
  split at h
  · cases h
  split at h
  · cases h
    rfl
  split at h
  · cases h
    rfl
  split at h
  · cases h
    rfl
  · cases h
    rfl
  · rename_i certPem keyPem _ _
    cases hCheck : validatePemPair call.lib call.now certPem keyPem (inboundContext call tag) with
    | error e' =>
      rw [hCheck] at h
      cases h
      exact hPem _ _ _ _ _ hCheck
    | ok cert =>
      rw [hCheck] at h
      cases h

/-- The exceptions about a shape are no value errors. -/
def Part.Odd : Part → Prop
  | .misshapen e => e.isValueError = false
  | .entry _ _   => True

theorem odd_partsIn {key : String} {parts : Json → List Part}
    (h : ∀ v, ∀ p ∈ parts v, p.Odd) (entries : JsonObject) :
    ∀ p ∈ partsIn key parts entries, p.Odd := by
  unfold partsIn
  split
  · exact h _
  · exact fun p hp => absurd hp List.not_mem_nil

theorem odd_partsDict {parts : JsonObject → List Part} (h : ∀ entries, ∀ p ∈ parts entries, p.Odd)
    (v : Json) : ∀ p ∈ partsDict parts v, p.Odd := by
  cases v with
  | dict entries => exact h entries
  | null | bool | num | float | str | list =>
    intro p hp
    obtain rfl := List.mem_singleton.mp hp
    rfl

theorem odd_ofDict {parts : JsonObject → List Part} (h : ∀ entries, ∀ p ∈ parts entries, p.Odd)
    (v : Json) : ∀ p ∈ ofDict parts v, p.Odd := by
  cases v with
  | dict entries => exact h entries
  | null | bool | num | float | str | list => exact fun p hp => absurd hp List.not_mem_nil

theorem odd_flatMap {parts : Json → List Part} (h : ∀ v, ∀ p ∈ parts v, p.Odd) (xs : List Json) :
    ∀ p ∈ xs.flatMap parts, p.Odd := by
  intro p hp
  obtain ⟨v, -, hIn⟩ := List.mem_flatMap.mp hp
  exact h v p hIn

theorem odd_ofList {parts : Json → List Part} (h : ∀ v, ∀ p ∈ parts v, p.Odd) (v : Json) :
    ∀ p ∈ ofList parts v, p.Odd := by
  cases v with
  | list xs => exact odd_flatMap h xs
  | null | bool | num | float | str | dict => exact fun p hp => absurd hp List.not_mem_nil

theorem odd_partsInbound (inbound : JsonObject) : ∀ p ∈ partsInbound inbound, p.Odd := by
  have hEntry : ∀ pair, ∀ p ∈ [Part.entry (Json.getD inbound "tag") pair], p.Odd := by
    intro pair p hp
    obtain rfl := List.mem_singleton.mp hp
    trivial
  exact odd_partsIn (odd_partsDict (odd_partsIn (odd_partsDict (odd_partsIn
    (odd_ofList (odd_ofDict hEntry)))))) inbound

theorem odd_parts (document : JsonObject) : ∀ p ∈ parts document, p.Odd := by
  refine odd_partsIn (fun v => ?_) document
  cases v with
  | list inbounds => exact odd_flatMap (odd_ofDict odd_partsInbound) inbounds
  | str | dict => exact fun p hp => absurd hp List.not_mem_nil
  | null | bool | num | float =>
    intro p hp
    obtain rfl := List.mem_singleton.mp hp
    rfl

/-- One of the four places that the two files of a pair go through takes no
file. -/
def Upload.Blocked (fs : Fs) (dir : List Name) (u : Upload) : Prop :=
  ∃ name ∈ [u.certName, u.keyName],
    fs.blocked (partOf dir name) = true ∨ fs.blocked (dir ++ [name]) = true

theorem blocked_iff {fs : Fs} {dir : List Name} {u : Upload} :
    (∃ op ∈ u.ops dir, op.refused fs = true) ↔ u.Blocked fs dir := by
  simp [Upload.ops, store, FileOp.refused, Upload.Blocked, or_assoc]

/-- The loops get no further than this part: a value of another shape than they
expect, or an entry with a good pair that cannot be written. -/
def Part.Stops (call : Call) (fs : Fs) (dir : List Name) : Part → Prop
  | .misshapen _    => True
  | .entry tag pair => ∃ u, planOf call tag pair = .ok (some u) ∧ u.Blocked fs dir

/-- The loops come to a part they get no further than, with every certificate
entry before it found good or using no reference. -/
def Stumble (call : Call) (fs : Fs) (dir : List Name) (ps : List Part) : Prop :=
  ∃ before p after, ps = before ++ p :: after ∧ p.Stops call fs dir ∧
    ∀ q ∈ before, ∃ used, q.plan call = .ok used

variable {fs : Fs} {dir : List Name}

theorem stumble_cons_iff {p : Part} {ps : List Part} :
    Stumble call fs dir (p :: ps) ↔
      p.Stops call fs dir ∨ (∃ used, p.plan call = .ok used) ∧ Stumble call fs dir ps := by
  constructor
  · rintro ⟨before, q, after, hSplit, hStops, hBefore⟩
    cases before with
    | nil =>
      obtain ⟨rfl, -⟩ := List.cons.inj hSplit
      exact Or.inl hStops
    | cons q' before =>
      obtain ⟨rfl, hRest⟩ := List.cons.inj hSplit
      exact Or.inr ⟨hBefore p List.mem_cons_self, before, q, after, hRest, hStops,
        fun r hr => hBefore r (List.mem_cons_of_mem p hr)⟩
  · rintro (hStops | ⟨hFirst, before, q, after, rfl, hStops, hBefore⟩)
    · exact ⟨[], p, ps, rfl, hStops, fun q hq => absurd hq List.not_mem_nil⟩
    · refine ⟨p :: before, q, after, rfl, hStops, fun r hr => ?_⟩
      rcases List.mem_cons.mp hr with rfl | hr
      · exact hFirst
      · exact hBefore r hr

/-- The exception is not caught around `_materialize_xray_tls`. -/
def Uncaught (e : Option PyErr) : Prop := ∃ err, e = some err ∧ err.isValueError = false

theorem not_uncaught_none : ¬ Uncaught none := fun ⟨_, hNone, _⟩ => by cases hNone

theorem uncaught_some_iff {e : PyErr} : Uncaught (some e) ↔ e.isValueError = false :=
  ⟨fun ⟨_, hSame, hOther⟩ => Option.some.inj hSame ▸ hOther, fun h => ⟨e, rfl, h⟩⟩

/-- What ends the loops: the first failing check, or the first pair with an
operation that is refused, whichever comes first. -/
def loopError (fs : Fs) (dir : List Name) : List Plan → Option PyErr
  | []                   => none
  | .error e :: _        => some e
  | .ok none :: rest     => loopError fs dir rest
  | .ok (some u) :: rest =>
    if ((u.ops dir).find? (FileOp.refused fs)).isSome then some refusedError
    else loopError fs dir rest

/-- The operations the loops came to, and what ended them. -/
theorem loop_refused (ps : List Plan) (w : Work) :
    ∃ ops, ((forEach (perform dir) ps).after w).ops = w.ops ++ ops ∧
      loopError fs dir ps =
        if (ops.find? (FileOp.refused fs)).isSome then some refusedError else firstError ps := by
  induction ps generalizing w with
  | nil => exact ⟨[], (List.append_nil _).symm, rfl⟩
  | cons p rest ih =>
    cases p with
    | error e => exact ⟨[], (List.append_nil _).symm, rfl⟩
    | ok used =>
      cases used with
      | none => exact ih w
      | some u =>
        obtain ⟨ops, hOps, hEnd⟩ := ih ⟨w.consumed ++ [String.ofList u.certName,
          String.ofList u.keyName], w.ops ++ u.ops dir⟩
        refine ⟨u.ops dir ++ ops, hOps.trans (List.append_assoc _ _ _), ?_⟩
        rw [loopError, hEnd, List.find?_append]
        -- a refused operation of this pair comes before those of the rest
        cases (u.ops dir).find? (FileOp.refused fs) <;> rfl

theorem uncaught_loop_iff (hPem : PemErrors call.lib) {ps : List Part} (hOdd : ∀ p ∈ ps, p.Odd) :
    Uncaught (loopError fs dir (ps.map (Part.plan call))) ↔ Stumble call fs dir ps := by
  induction ps with
  | nil =>
    refine iff_of_false not_uncaught_none ?_
    rintro ⟨before, p, after, hSplit, -⟩
    cases before <;> cases hSplit
  | cons p rest ih =>
    have hRest := ih fun q hq => hOdd q (List.mem_cons_of_mem p hq)
    rw [stumble_cons_iff, List.map_cons]
    cases p with
    | misshapen e =>
      -- of the shapes only, and so no value error
      have hShape : e.isValueError = false := hOdd _ List.mem_cons_self
      exact iff_of_true ⟨e, rfl, hShape⟩ (Or.inl trivial)
    | entry tag pair =>
      show Uncaught (loopError fs dir (planOf call tag pair :: _)) ↔
        (∃ u, planOf call tag pair = .ok (some u) ∧ u.Blocked fs dir) ∨
          (∃ used, planOf call tag pair = .ok used) ∧ _
      cases hPlan : planOf call tag pair with
      | error e =>
        -- a failed check is a value error, which the call turns into a 422
        rw [loopError, uncaught_some_iff, planOf_error hPem hPlan]
        simp
      | ok used =>
        cases used with
        | none =>
          rw [loopError, hRest]
          simp
        | some u =>
          have hBlocked : ((u.ops dir).find? (FileOp.refused fs)).isSome = true ↔
              u.Blocked fs dir := by
            rw [← blocked_iff, List.find?_isSome]
          rw [loopError]
          by_cases h : u.Blocked fs dir
          · rw [if_pos (hBlocked.mpr h)]
            exact iff_of_true (uncaught_some_iff.mpr rfl) (Or.inl ⟨u, rfl, h⟩)
          · rw [if_neg (mt hBlocked.mp h), hRest]
            simp [h]

-- ---------------------------------------------------------------------------
-- The whole of `_materialize_xray_tls`
-- ---------------------------------------------------------------------------

theorem raised_effect {σ α : Type} (x : Op σ PyErr α) (s : σ) :
    raised ((effect x).run s).1 = raised (x.run s).1 := by
  unfold effect
  rw [Op.run_bind]
  cases x.run s with
  | mk result s' => cases result <;> rfl

/-- The check for unused uploads raises value errors, so what gets through is
what the loops raised. -/
theorem uncaught_materializeIn_iff {document : JsonObject} {w : Work} :
    Uncaught (raised ((materializeIn call dir document).run w).1) ↔
      Uncaught (firstError (plans call document)) := by
  have hLoop : raised ((inField "inbounds" (inInbounds call dir) document).run w).1 =
      firstError (plans call document) := by
    rw [← raised_effect, materialize_effect, raised_loop]
  rw [← hLoop]
  unfold materializeIn
  rw [Op.run_bind]
  cases (inField "inbounds" (inInbounds call dir) document).run w with
  | mk result w' =>
    cases result with
    | error e => rfl
    | ok prepared =>
      refine iff_of_false (fun h => ?_) not_uncaught_none
      obtain ⟨e, hRaised, hOther⟩ := h
      simp only [Op.run_get_bind] at hRaised
      split at hRaised
      · cases hRaised
      · obtain rfl := Option.some.inj hRaised
        cases hOther

/-- The uploads pass the checks before the loops. -/
def UploadsPass (call : Call) : Prop :=
  call.material.entries.length ≤ fileLimit ∧
    ∃ total, checkMaterial call call.material.entries = .ok total ∧ total ≤ totalBytes

/-- A loop of symlinks. -/
def Looped (site : Site) (text : List Char) : Prop :=
  site.fs.resolve text = none ∧ text.contains '\x00' = false

/-- One of the two directories is a loop of symlinks. -/
def DirsLooped (call : Call) (site : Site) (settings : JsonObject) : Prop :=
  Looped site (certDirText call site settings) ∨
    (site.fs.resolve (certDirText call site settings)).isSome = true ∧ Looped site site.coreRoot

theorem checkMaterial_error {uploads : List (String × String)} {e : PyErr}
    (h : checkMaterial call uploads = .error e) : e.isValueError = true := by
  induction uploads with
  | nil => cases h
  | cons entry rest ih =>
    obtain ⟨name, value⟩ := entry
    rw [checkMaterial] at h
    split at h
    · split at h
      · cases hRest : checkMaterial call rest with
        | error e' =>
          rw [hRest] at h
          cases h
          exact ih hRest
        | ok total =>
          rw [hRest] at h
          cases h
      · cases h
        rfl
    · cases h
      rfl

theorem resolvePath_error {site : Site} {text : List Char} (h : site.fs.resolve text = none) :
    ∃ e, resolvePath site text = .error e ∧ (e.isValueError = false ↔ Looped site text) := by
  unfold resolvePath Looped
  rw [h]
  cases text.contains '\x00' with
  | true => exact ⟨_, rfl, by simp [PyErr.isValueError]⟩
  | false => exact ⟨_, rfl, by simp [PyErr.isValueError]⟩

/-- The checks of the uploads alone. -/
theorem prepare_of_not_pass {call : Call} {site : Site} {settings : JsonObject}
    (h : ¬ UploadsPass call) :
    ∃ e, prepare call site settings = .error e ∧ e.isValueError = true := by
  unfold prepare
  by_cases hCount : fileLimit < call.material.entries.length
  · exact ⟨_, if_pos hCount, rfl⟩
  · rw [if_neg hCount]
    cases hTotal : checkMaterial call call.material.entries with
    | error e => exact ⟨e, rfl, checkMaterial_error hTotal⟩
    | ok total =>
      have hLarge : totalBytes < total := by
        by_contra hSmall
        exact h ⟨by omega, total, hTotal, by omega⟩
      exact ⟨_, if_pos hLarge, rfl⟩

/-- Once the uploads passed, the certificate directory decides. -/
theorem prepare_of_pass {call : Call} {site : Site} {settings : JsonObject}
    (h : UploadsPass call) : prepare call site settings = certDir call site settings := by
  obtain ⟨hCount, total, hTotal, hSmall⟩ := h
  have hFew : ¬ fileLimit < call.material.entries.length := by omega
  have hFits : ¬ totalBytes < total := by omega
  unfold prepare
  rw [if_neg hFew, hTotal]
  exact if_neg hFits

/-- The certificate directory is there to be written to, or an exception says
why not; the caller does not catch the one about a loop of symlinks nor the one
of `mkdir`. -/
theorem certDir_cases (call : Call) (site : Site) (settings : JsonObject) :
    (∃ e, certDir call site settings = .error e ∧
        (e.isValueError = false ↔ DirsLooped call site settings ∨
          ∃ dir, CertDirAt call site settings dir ∧ site.fs.makeDirs dir = false) ∧
        ∀ dir, CertDirAt call site settings dir → site.fs.makeDirs dir = false) ∨
      ∃ dir, certDir call site settings = .ok dir ∧ CertDirAt call site settings dir ∧
        site.fs.makeDirs dir = true ∧ ¬ DirsLooped call site settings := by
  unfold certDir
  cases hDir : site.fs.resolve (certDirText call site settings) with
  | none =>
    -- the setting denotes no place: a loop of links, or a null byte
    obtain ⟨e, hError, hLoop⟩ := resolvePath_error hDir
    have hNowhere : ∀ dir, ¬ CertDirAt call site settings dir := by
      rintro dir ⟨root, -, hSome, -⟩
      rw [hDir] at hSome
      cases hSome
    rw [hError]
    refine Or.inl ⟨e, rfl, hLoop.trans ⟨fun h => Or.inl (Or.inl h), ?_⟩,
      fun dir h => absurd h (hNowhere dir)⟩
    rintro ((hLooped | ⟨hSome, -⟩) | ⟨dir, hAt, -⟩)
    · exact hLooped
    · rw [hDir] at hSome
      cases hSome
    · exact absurd hAt (hNowhere dir)
  | some dir =>
    rw [resolvePath_ok hDir]
    have hNotLooped : ¬ Looped site (certDirText call site settings) := by
      rintro ⟨hNone, -⟩
      rw [hDir] at hNone
      cases hNone
    -- the core root is resolved after it, and can be a loop as well
    cases hRoot : site.fs.resolve site.coreRoot with
    | none =>
      obtain ⟨e, hError, hLoop⟩ := resolvePath_error hRoot
      have hNowhere : ∀ dir, ¬ CertDirAt call site settings dir := by
        rintro dir ⟨root, hSome, -⟩
        rw [hRoot] at hSome
        cases hSome
      rw [hError]
      refine Or.inl ⟨e, rfl,
        hLoop.trans ⟨fun h => Or.inl (Or.inr ⟨by rw [hDir]; rfl, h⟩), ?_⟩,
        fun dir h => absurd h (hNowhere dir)⟩
      rintro (h | ⟨dir', hAt, -⟩)
      · exact (h.resolve_left hNotLooped).2
      · exact absurd hAt (hNowhere dir')
    | some root =>
      rw [resolvePath_ok hRoot]
      have hNoLoop : ¬ DirsLooped call site settings := by
        rintro (hLooped | ⟨-, hNone, -⟩)
        · exact hNotLooped hLooped
        · rw [hRoot] at hNone
          cases hNone
      show (∃ e, (if Fs.inside root dir then _ else _) = _ ∧ _) ∨
        ∃ dir', (if Fs.inside root dir then _ else _) = _ ∧ _
      -- the check against the root, and then the directory is made
      by_cases hInside : Fs.inside root dir = true
      · have hAt : CertDirAt call site settings dir :=
          ⟨root, hRoot, hDir, Fs.inside_iff.mp hInside⟩
        rw [if_pos hInside]
        cases hMade : site.fs.makeDirs dir with
        | true => exact Or.inr ⟨dir, rfl, hAt, hMade, hNoLoop⟩
        | false =>
          refine Or.inl ⟨notMade dir, rfl, iff_of_true rfl (Or.inr ⟨dir, hAt, hMade⟩), ?_⟩
          rintro dir' hAt'
          exact hAt.unique hAt' ▸ hMade
      -- outside the root: a value error, and nothing is made
      · have hNowhere : ∀ dir', ¬ CertDirAt call site settings dir' := by
          rintro dir' ⟨root', hRoot', hDir', hBelow⟩
          obtain rfl := Option.some.inj (hRoot.symm.trans hRoot')
          obtain rfl := Option.some.inj (hDir.symm.trans hDir')
          exact hInside (Fs.inside_iff.mpr hBelow)
        rw [if_neg hInside]
        refine Or.inl ⟨_, rfl, iff_of_false (fun h => by cases h) ?_,
          fun dir' h => absurd h (hNowhere dir')⟩
        rintro (h | ⟨dir', hAt, -⟩)
        · exact hNoLoop h
        · exact hNowhere dir' hAt

/-- The Xray settings, the disk and the document let an exception through: a
directory is a loop of symlinks, or the certificate directory is where it may be
and then cannot be made, or the document cannot be copied, or the loops
stumble. -/
def Trips (agent : Agent) (call : Call) (document : JsonObject) : Prop :=
  DirsLooped call agent.site agent.xraySettings ∨
    ∃ dir, CertDirAt call agent.site agent.xraySettings dir ∧
      (agent.site.fs.makeDirs dir = false ∨ agent.copyable document = false ∨
        Stumble call agent.site.fs dir (parts document))

/-- The loops and what follows them, where the disk may refuse. -/
theorem uncaught_written_iff (hPem : PemErrors call.lib) (document : JsonObject) :
    Uncaught (raised (
        match ((materializeIn call dir document).run ⟨[], []⟩).2.ops.find?
            (FileOp.refused fs) with
        | some _ => .error refusedError
        | none   => ((materializeIn call dir document).run ⟨[], []⟩).1)) ↔
      Stumble call fs dir (parts document) := by
  obtain ⟨ops, hOps, hEnd⟩ := @loop_refused fs dir (plans call document) ⟨[], []⟩
  rw [← uncaught_loop_iff hPem (odd_parts document), ← plans_eq_map, hEnd]
  have hSame : ((materializeIn call dir document).run ⟨[], []⟩).2.ops = ops := by
    rw [← List.nil_append ops]
    exact (materializeIn_ops call document ⟨[], []⟩).trans hOps
  rw [hSame]
  cases ops.find? (FileOp.refused fs) with
  | some op => rfl
  | none => exact uncaught_materializeIn_iff

/-- When an exception gets through. -/
theorem uncaught_materialize_iff (agent : Agent) (document : JsonObject)
    (hPem : PemErrors call.lib) :
    Uncaught (raised (xrayDocument agent call document)) ↔
      UploadsPass call ∧ Trips agent call document := by
  unfold xrayDocument
  by_cases hPass : UploadsPass call
  · simp only [hPass, true_and]
    have hPrepare := @prepare_of_pass call agent.site agent.xraySettings hPass
    -- the directory cannot be had, or the call goes on to the document
    rcases certDir_cases call agent.site agent.xraySettings with
      ⟨e, hError, hEscape, hNotMade⟩ | ⟨dir, hOk, hAt, hMade, hNoLoop⟩
    · rw [hPrepare, hError]
      show Uncaught (some e) ↔ _
      rw [uncaught_some_iff, hEscape]
      constructor
      · rintro (hLoop | ⟨dir, hAt, hMade⟩)
        · exact Or.inl hLoop
        · exact Or.inr ⟨dir, hAt, Or.inl hMade⟩
      · rintro (hLoop | ⟨dir, hAt, -⟩)
        · exact Or.inl hLoop
        · exact Or.inr ⟨dir, hAt, hNotMade dir hAt⟩
    -- with the directory there, the copy or the loops are left
    · have hTrips : Trips agent call document ↔
          agent.copyable document = false ∨ Stumble call agent.site.fs dir (parts document) := by
        constructor
        · rintro (hLoop | ⟨dir', hAt', hTrip⟩)
          · exact absurd hLoop hNoLoop
          · obtain rfl := hAt.unique hAt'
            rw [hMade] at hTrip
            exact hTrip.resolve_left Bool.noConfusion
        · exact fun h => Or.inr ⟨dir, hAt, Or.inr h⟩
      rw [hTrips]
      unfold materializeXrayTls
      rw [hPrepare, hOk]
      cases hCopy : agent.copyable document with
      | false => exact iff_of_true (uncaught_some_iff.mpr rfl) (Or.inl rfl)
      | true => exact (uncaught_written_iff hPem document).trans (by simp)
  -- the uploads are checked first, and all their errors are value errors
  · obtain ⟨e, hError, hValue⟩ := @prepare_of_not_pass call agent.site agent.xraySettings hPass
    rw [hError]
    refine iff_of_false (fun h => ?_) fun h => hPass h.1
    rw [uncaught_some_iff.mp h] at hValue
    cases hValue

/-- A document that comes back from the material has its entries rewritten. -/
theorem xrayDocument_ok {agent : Agent} {document prepared : JsonObject}
    (h : xrayDocument agent call document = .ok prepared) :
    ∃ dir, prepared = mapEntries (renamed call dir) document := by
  unfold xrayDocument materializeXrayTls at h
  cases hPrepare : prepare call agent.site agent.xraySettings with
  | error e =>
    rw [hPrepare] at h
    cases h
  | ok dir =>
    rw [hPrepare] at h
    dsimp only at h
    split at h
    · split at h
      · cases h
      · have hRun : (materializeIn call dir document).run ⟨[], []⟩ = (.ok prepared, _) :=
          Prod.ext h rfl
        exact ⟨dir, (materializeIn_ok hRun).1⟩
    · cases h

-- ---------------------------------------------------------------------------
-- The answer
-- ---------------------------------------------------------------------------

/-- A driver that got to the first inbound was given something that has a
length. -/
theorem countInbounds_of_read {core : CoreId} {document : JsonObject}
    (h : readInbounds core document = none) : ∃ n, countInbounds document = .ok n := by
  have hFalsy : (Json.getD document "inbounds").truthy = false →
      ∃ n, countInbounds document = .ok n := by
    intro hFalsy
    unfold countInbounds Json.or
    rw [hFalsy]
    exact ⟨0, rfl⟩
  by_cases hTruthy : (Json.getD document "inbounds").truthy = true
  · unfold countInbounds Json.or
    rw [if_pos hTruthy]
    unfold readInbounds at h
    dsimp only at h
    cases hValue : Json.getD document "inbounds" with
    | list xs => exact ⟨_, rfl⟩
    | dict entries => exact ⟨_, rfl⟩
    | str s => exact ⟨_, rfl⟩
    | null | bool | num | float =>
      rw [hValue] at h hTruthy
      cases core <;> simp [hTruthy, emptyText] at h
  · exact hFalsy (Bool.not_eq_true _ ▸ hTruthy)

/-- The material leaves a list of inbounds a list. -/
theorem countInbounds_of_mapEntries {f : Json → JsonObject → JsonObject} {document : JsonObject}
    (h : readInbounds .xray (mapEntries f document) = none) :
    ∃ n, countInbounds document = .ok n := by
  unfold mapEntries mapIn at h
  cases hGet : Json.get? document "inbounds" with
  | none =>
    rw [hGet] at h
    exact countInbounds_of_read h
  | some v =>
    rw [hGet] at h
    have hValue : Json.getD document "inbounds" = v := by rw [Json.getD_eq, hGet]; rfl
    unfold readInbounds at h
    rw [Json.getD_assocSet_self] at h
    unfold countInbounds
    rw [hValue]
    cases v with
    | list xs =>
      cases xs with
      | nil => exact ⟨0, rfl⟩
      | cons x xs => exact ⟨_, rfl⟩
    | null | bool | num | float | str | dict => cases h

/-- The answer is the call's own: success after the document was applied, or
one of the five errors. -/
def Clean (ending : Ending) : Prop :=
  (∃ n, ending = ⟨.ok n, true⟩) ∨
    ∃ status detail, ending.answer = .http status detail ∧ status ∈ [403, 404, 409, 422, 504]

theorem returned_counts {agent : Agent} {call : Call} {core : CoreId}
    {document prepared : JsonObject} (hPrepared : toApply agent call document core = .ok prepared)
    (hReturned : agent.apply core prepared = none) : ∃ n, countInbounds document = .ok n := by
  have hRead : readInbounds core prepared = none := by
    unfold Agent.apply at hReturned
    exact (Option.or_eq_none_iff.mp (Option.or_eq_none_iff.mp hReturned).1).2
  cases core with
  | xray =>
    obtain ⟨dir, rfl⟩ := xrayDocument_ok hPrepared
    exact countInbounds_of_mapEntries hRead
  | openvpn | pptp | singBox | softether | ssh | wireguard =>
    obtain rfl : document = prepared := Except.ok.inj hPrepared
    exact countInbounds_of_read hRead

theorem clean_http {status : Nat} (detail : String) (applied : Bool)
    (h : status ∈ [403, 404, 409, 422, 504]) : Clean ⟨.http status detail, applied⟩ :=
  Or.inr ⟨status, detail, rfl, h⟩

theorem clean_failure (failure : Failure) : Clean ⟨failure.answer, false⟩ := by
  cases failure with
  | timedOut => exact clean_http _ _ (by decide)
  | raised text => exact clean_http _ _ (by decide)

theorem not_clean_escaped (e : PyErr) (applied : Bool) : ¬ Clean ⟨.escaped e, applied⟩ := by
  rintro (⟨n, h⟩ | ⟨status, detail, h, -⟩) <;> cases h

/-- A core that was found answers cleanly unless an exception gets through. -/
theorem clean_push_iff (agent : Agent) (call : Call) (core : CoreId) (document : JsonObject) :
    Clean (pushDocument agent call core document) ↔
      ¬ (core = .xray ∧ Uncaught (raised (xrayDocument agent call document))) := by
  unfold pushDocument
  -- material for a core that takes none is refused
  by_cases hMaterial : (!call.material.entries.isEmpty && core != .xray) = true
  · rw [if_pos hMaterial]
    refine iff_of_true (clean_http _ _ (by decide)) ?_
    rintro ⟨rfl, -⟩
    simp at hMaterial
  · rw [if_neg hMaterial]
    cases hPrepared : toApply agent call document core with
    -- only Xray's document is prepared before the apply
    | error e =>
      cases core with
      | xray =>
        have hRaised : xrayDocument agent call document = .error e := hPrepared
        rw [hRaised, raised, uncaught_some_iff]
        dsimp only
        cases e.isValueError with
        | true => exact iff_of_true (clean_http _ _ (by decide)) (by simp)
        | false => exact iff_of_false (not_clean_escaped _ _) (by simp)
      | openvpn | pptp | singBox | softether | ssh | wireguard => cases hPrepared
    -- the apply answers, and what it has gone over can be counted
    | ok prepared =>
      refine iff_of_true ?_ ?_
      · dsimp only
        cases hApply : agent.apply core prepared with
        | some failure => exact clean_failure failure
        | none =>
          obtain ⟨n, hCount⟩ := returned_counts hPrepared hApply
          dsimp only
          rw [hCount]
          exact Or.inl ⟨n, rfl⟩
      · rintro ⟨rfl, hUncaught⟩
        have hReturned : xrayDocument agent call document = .ok prepared := hPrepared
        rw [hReturned] at hUncaught
        exact not_uncaught_none hUncaught

/-- The Xray core takes the document, the uploads pass their checks, and an
exception gets through. -/
def Escapes (agent : Agent) (call : Call) (name : String) (document : JsonObject) : Prop :=
  name = "xray" ∧ agent.site.available .xray = true ∧ agent.listed .xray = true ∧
    UploadsPass call ∧ Trips agent call document

/--
**Clean answers.** For every core, every document and every material, whatever
the agent holds and however the apply goes: the call answers success after the
document was applied, or raises an `HTTPException` with one of its own five
statuses, **if and only if** no exception gets through from the material of an
Xray document. The answer itself never fails once the document was applied.
-/
theorem answers_cleanly_iff (agent : Agent) (call : Call) (name : String) (document : JsonObject)
    (hPem : PemErrors call.lib) :
    Clean (coreInbounds agent call name document) ↔ ¬ Escapes agent call name document := by
  unfold coreInbounds authorizeCore
  cases hName : allowlisted name with
  -- the core has no name of a core, is not available, or is not installed
  | none =>
    refine iff_of_true (clean_http _ _ (by decide)) ?_
    rintro ⟨rfl, -⟩
    cases hName
  | some core =>
    have hCore : core.name = name := by simpa using List.find?_some hName
    dsimp only
    cases hAvailable : agent.site.available core with
    | false =>
      refine iff_of_true (clean_http _ _ (by decide)) ?_
      rintro ⟨rfl, hXray, -⟩
      obtain rfl : CoreId.xray = core := Option.some.inj hName
      rw [hAvailable] at hXray
      cases hXray
    | true =>
      show Clean (match (some core).filter agent.listed with
        | none      => ⟨.http 404 ("core '" ++ name ++ "' is not installed"), false⟩
        | some core => pushDocument agent call core document) ↔ _
      cases hListed : agent.listed core with
      | false =>
        rw [Option.filter_some, hListed]
        refine iff_of_true (clean_http _ _ (by decide)) ?_
        rintro ⟨rfl, -, hXray, -⟩
        obtain rfl : CoreId.xray = core := Option.some.inj hName
        rw [hListed] at hXray
        cases hXray
      | true =>
        rw [Option.filter_some, hListed]
        -- past the checks the answer is that of the push
        show Clean (pushDocument agent call core document) ↔ _
        rw [clean_push_iff, uncaught_materialize_iff agent document hPem]
        unfold Escapes
        rw [not_iff_not]
        constructor
        · rintro ⟨rfl, hEscape⟩
          exact ⟨hCore.symm, hAvailable, hListed, hEscape⟩
        · rintro ⟨rfl, -, -, hEscape⟩
          exact ⟨Option.some.inj (hName.symm.trans rfl), hEscape⟩

-- ---------------------------------------------------------------------------
-- A text where an object is expected
-- ---------------------------------------------------------------------------

/-- An agent whose cores take what they are given. -/
def sampleAgent : Agent where
  site         := sampleSite
  listed       := fun _ => true
  xraySettings := []
  copyable     := fun _ => true
  before       := fun _ => none
  later        := fun _ _ => none

def textSettings : JsonObject :=
  [("inbounds", .list [.dict [("tag", .str "in"), ("streamSettings", .str "tls")]])]

/-- The one pair the library knows may have expired, and nothing else is wrong
with it. -/
theorem pemErrors_sampleLibrary : PemErrors sampleLibrary := by
  intro now certPem keyPem context e h
  unfold validatePemPair at h
  change (if (4948665048000000 - now) / day ≤ 0 then _ else _) = _ at h
  split at h
  · cases h
    rfl
  · cases h

/-- A document with one certificate entry that uses no reference. -/
theorem answers_plainDocument :
    Clean (coreInbounds sampleAgent (sampleCall (.ofPairs [])) "xray" (sampleDocument [])) := by
  refine (answers_cleanly_iff sampleAgent (sampleCall (.ofPairs [])) "xray" (sampleDocument [])
    pemErrors_sampleLibrary).mpr ?_
  rintro ⟨-, -, -, -, hLooped | ⟨dir, -, hMade | hCopy | ⟨before, p, after, hParts, hStops, -⟩⟩⟩
  · rcases hLooped with ⟨hNone, -⟩ | ⟨-, hNone, -⟩ <;> revert hNone <;> decide +kernel
  · obtain ⟨above, -, -, hOther | ⟨-, hRefused⟩⟩ := Fs.makeDirs_eq_false_iff _ |>.mp hMade
    · cases hOther
    · cases hRefused
  · cases hCopy
  · have hMem : p ∈ parts (sampleDocument []) := by
      rw [hParts]
      exact List.mem_append_right before List.mem_cons_self
    obtain rfl : p = .entry (.str "in") [] := List.mem_singleton.mp hMem
    obtain ⟨u, hPlan, -⟩ := hStops
    cases hPlan

/-- An inbound whose `streamSettings` is a text ends the call with an
`AttributeError`. -/
theorem textSettings_escapes :
    coreInbounds sampleAgent (sampleCall (.ofPairs [])) "xray" textSettings =
        ⟨.escaped notADict, false⟩ ∧
      ¬ Clean (coreInbounds sampleAgent (sampleCall (.ofPairs [])) "xray" textSettings) := by
  have hEscaped : coreInbounds sampleAgent (sampleCall (.ofPairs [])) "xray" textSettings =
      ⟨.escaped notADict, false⟩ := by
    decide +kernel
  refine ⟨hEscaped, ?_⟩
  rw [hEscaped]
  exact not_clean_escaped notADict false

end ZagrosNode.Requests
