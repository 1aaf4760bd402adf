import ZagrosNode.OpenVpn.Management

/-!
# ZagrosNode — every handshake is answered

What OpenVPN prints, in its own terms: handshakes with their environment,
notices with and without one, responses to commands. Between handshakes no
request is pending, so that the environment of a notice is nobody's, and a
handshake is answered at the end of its own block, with its own environment,
by the handler there is at that time.

The statement compares two texts: the lines of a run (`Item.events`) and the
answers that are due at its handshakes (`due`), which says nothing about how lines
are routed. The proofs follow the structure of an item. A header leaves exactly its
own request pending and active (`Holding`), a variable is filed with it, the end of
the block answers it and leaves nothing pending (`Idle`), and while nothing is
pending a line that is no header changes nothing (`feedLine_idle`).

`Item` is the grammar of what OpenVPN prints; a run is a list of items, and `events` are
its lines. A handshake has its two ids, its variables, and the end of the block. A
notice may have an environment too, as that of a client that has connected does, and its
variables must not be taken for those of a handshake.

The configuration lines of a decision must not have a line break in them. `authorize`
refuses such a line with an exception after it has written some of the answer, and the
thread that reads the channel ends there; `Clean` excludes it.

Main results:

* `run_items` — a run of items from an idle reader to an idle one.

* `answered_exactly` — the answers of a run are those of its handshakes, each
  once and in order.
* `stream_answered` — so they are from the bytes, however the channel cuts them.
-/

namespace ZagrosNode.OpenVpn

open ZagrosNode.Lib

-- ---------------------------------------------------------------------------
-- What OpenVPN prints
-- ---------------------------------------------------------------------------

/-- The variables of an environment, and the end of the block. -/
def envLines (env : List (Line × Line)) : List Line :=
  env.map (fun e => '>' :: (envTag ++ (e.1 ++ '=' :: e.2))) ++ ['>' :: (envTag ++ "END".toList)]

inductive Item
  | handshake (reauth : Bool) (cid kid : Int) (env : List (Line × Line))
  /-- `ESTABLISHED`, `DISCONNECT`, `ADDRESS`, `INFO`, … -/
  | notice (body : Line) (env : Option (List (Line × Line)))
  | response (line : Line)
  /-- the panel's side: another handler, or other accounts behind it -/
  | handler (h : Option AuthHandler)

def headerTag (reauth : Bool) : Line := if reauth then reauthTag else connectTag

def headerLine (reauth : Bool) (cid kid : Int) : Line :=
  '>' :: (headerTag reauth ++ (intChars cid ++ ',' :: intChars kid))

def Item.events : Item → List Event
  | .handshake reauth cid kid env =>
    .line (headerLine reauth cid kid) :: (envLines env).map .line
  | .notice body none       => [.line ('>' :: body)]
  | .notice body (some env) => .line ('>' :: body) :: (envLines env).map .line
  | .response line          => [.line line]
  | .handler h              => [.handler h]

/-- A line without its end has no line break in it. -/
def oneLine (line : Line) : Bool := decide ('\n' ∉ line ∧ '\r' ∉ line)

/-- No decision of the handler pushes a configuration line with a line break. -/
def Clean (handler : Option AuthHandler) : Prop :=
  ∀ h ∈ handler, ∀ r v, h r = some v → ∀ line ∈ (v.decided denied).configLines, oneLine line = true

/-- The ids are short enough for `int()`, no name of a variable has an equals
sign in it, a notice is no handshake, and a response is no notice. -/
def Item.WellFormed : Item → Prop
  | .handshake _ cid kid env =>
    cid.natAbs < 10 ^ maxStrDigits ∧ kid.natAbs < 10 ^ maxStrDigits ∧ ∀ e ∈ env, '=' ∉ e.1
  | .notice body _ =>
    connectTag.isPrefixOf body = false ∧ reauthTag.isPrefixOf body = false
  | .response line => line.head? ≠ some '>'
  | .handler h     => Clean h

/-- The request of a complete handshake. -/
def requestOf (reauth : Bool) (cid kid : Int) (env : List (Line × Line)) : AuthRequest :=
  ⟨cid, kid, reauth, Dict.ofPairs env⟩

/-- The answer that is due at the item, and the handler from there on. -/
def Item.due (handler : Option AuthHandler) : Item → List Answer × Option AuthHandler
  | .handshake reauth cid kid env =>
    let r := requestOf reauth cid kid env
    ([⟨r, decisionFor handler r⟩], handler)
  | .notice _ _ => ([], handler)
  | .response _ => ([], handler)
  | .handler h  => ([], h)

/-- The answers that are due: each handshake's, by the handler of its time. -/
def due : Option AuthHandler → List Item → List Answer
  | _, []               => []
  | handler, item :: rest => (item.due handler).1 ++ due (item.due handler).2 rest

-- ---------------------------------------------------------------------------
-- Reading a header and a variable
-- ---------------------------------------------------------------------------

theorem comma_not_mem_intChars (n : Int) : ',' ∉ intChars n := by
  have hNat : ∀ m : Nat, ',' ∉ natChars m := by
    intro m hMem
    rw [natChars_eq] at hMem
    obtain ⟨d, hd, hEq⟩ := List.mem_map.mp hMem
    have hLt := natDigits_lt hd
    interval_cases d <;> exact absurd hEq (by decide)
  cases n with
  | ofNat m => exact hNat m
  | negSucc m =>
    intro hMem
    rcases List.mem_cons.mp hMem with hEq | hDigits
    · exact absurd hEq (by decide)
    · exact hNat (m + 1) hDigits

theorem headerIds_header (reauth : Bool) {cid kid : Int} (hCid : cid.natAbs < 10 ^ maxStrDigits)
    (hKid : kid.natAbs < 10 ^ maxStrDigits) :
    headerIds (headerTag reauth ++ (intChars cid ++ ',' :: intChars kid)) = some (cid, kid) := by
  have hTag : ∃ word : Line, ',' ∉ word ∧ headerTag reauth = word ++ [','] := by
    cases reauth
    · exact ⟨"CLIENT:CONNECT".toList, by decide, rfl⟩
    · exact ⟨"CLIENT:REAUTH".toList, by decide, rfl⟩
  obtain ⟨word, hWord, hTag⟩ := hTag
  have hSplit : splitSep ',' (headerTag reauth ++ (intChars cid ++ ',' :: intChars kid)) =
      [word, intChars cid, intChars kid] := by
    rw [hTag, List.append_assoc, List.singleton_append, splitSep_append_sep, splitSep_append_sep,
      splitSep_of_not_mem hWord, splitSep_of_not_mem (comma_not_mem_intChars cid),
      splitSep_of_not_mem (comma_not_mem_intChars kid)]
    rfl
  rw [headerIds, hSplit]
  simp only [List.intercalate_singleton, intOfChars_intChars hCid, intOfChars_intChars hKid]

theorem partitionEq_append {name : Line} (h : '=' ∉ name) (value : Line) :
    partitionEq (name ++ '=' :: value) = (name, value) := by
  have hName : ∀ c ∈ name, decide (c ≠ '=') = true := by
    intro c hc
    exact decide_eq_true fun hEq => h (hEq ▸ hc)
  unfold partitionEq
  rw [List.takeWhile_append_of_pos hName, List.dropWhile_append_of_pos hName]
  simp

-- ---------------------------------------------------------------------------
-- Routing the lines of a block
-- ---------------------------------------------------------------------------

/-- No request is pending. -/
def Idle (c : Client) : Prop := c.pending = Dict.empty

/-- Exactly this request is pending, and active. -/
structure Holding (c : Client) (r : AuthRequest) : Prop where
  pending : c.pending = Dict.empty.set r.cid r
  active  : c.activeCid = some r.cid

theorem active?_of_holding {c : Client} {r : AuthRequest} (h : Holding c r) :
    c.active? = some r := by
  rw [Client.active?, h.active, h.pending, Option.bind_some, Dict.get?_set_self]

theorem active?_of_idle {c : Client} (h : Idle c) : c.active? = none := by
  unfold Client.active?
  rw [h]
  cases c.activeCid <;> rfl

theorem unfile_of_idle {c : Client} (h : Idle c) (cid : Int) : c.unfile cid = c := by
  have hPop : c.pending.pop cid = c.pending := by
    rw [h]
    rfl
  rw [Client.unfile, hPop]

theorem set_set_single (cid : Int) (r r' : AuthRequest) :
    ((Dict.empty.set cid r).set cid r' : Dict Int AuthRequest) = Dict.empty.set cid r' := by
  refine Dict.ext ?_
  show assocSet cid r' [(cid, r)] = [(cid, r')]
  rw [assocSet, if_pos rfl]

theorem pop_single (cid : Int) (r : AuthRequest) :
    ((Dict.empty.set cid r).pop cid : Dict Int AuthRequest) = Dict.empty := by
  refine Dict.ext ?_
  show [(cid, r)].filter (fun e => decide (e.1 ≠ cid)) = []
  simp

/-- While no request is pending, nothing but a header changes that. -/
theorem feedLine_idle {c : Client} (h : Idle c) {body : Line}
    (hConnect : connectTag.isPrefixOf body = false) (hReauth : reauthTag.isPrefixOf body = false) :
    c.feedLine ('>' :: body) = (c, none, none) := by
  have hActive := active?_of_idle h
  -- nothing is pending, so there is nothing to take out or to set
  have hPop : c.popActive = c := by
    unfold Client.popActive
    cases c.activeCid with
    | none     => rfl
    | some cid => exact unfile_of_idle h cid
  have hSet : ∀ payload, c.setVariable payload = c := by
    intro payload
    unfold Client.setVariable
    rw [hActive]
    cases c.activeCid <;> rfl
  -- the line is no header: the rest of the cases find no request
  show c.handleEvent body = _
  unfold Client.handleEvent
  rw [hConnect, hReauth]
  simp only [Bool.false_eq_true, if_false]
  split
  · cases goneId body with
    | none     => rfl
    | some cid => exact congrArg (·, none, none) (unfile_of_idle h cid)
  · split
    · split
      · unfold Client.complete
        rw [hActive]
        exact congrArg (·, none, none) hPop
      · rw [hSet]
    · rfl

theorem feedLine_header (c : Client) (h : Idle c) (reauth : Bool) {cid kid : Int}
    (hCid : cid.natAbs < 10 ^ maxStrDigits) (hKid : kid.natAbs < 10 ^ maxStrDigits) :
    ∃ c', c.feedLine (headerLine reauth cid kid) = (c', none, none) ∧
      Holding c' (requestOf reauth cid kid []) ∧ c'.handler = c.handler := by
  have hRouted : c.feedLine (headerLine reauth cid kid) =
      c.header reauth (headerTag reauth ++ (intChars cid ++ ',' :: intChars kid)) := by
    cases reauth
    · show c.handleEvent (connectTag ++ _) = _
      unfold Client.handleEvent
      rw [List.isPrefixOf_iff_prefix.mpr (List.prefix_append connectTag _)]
      rfl
    · show c.handleEvent (reauthTag ++ _) = _
      have hNot : ∀ rest, connectTag.isPrefixOf (reauthTag ++ rest) = false := fun _ => rfl
      unfold Client.handleEvent
      rw [hNot, List.isPrefixOf_iff_prefix.mpr (List.prefix_append reauthTag _)]
      rfl
  rw [hRouted, Client.header, headerIds_header reauth hCid hKid]
  refine ⟨_, rfl, ⟨?_, rfl⟩, rfl⟩
  show c.pending.set cid _ = _
  rw [h]
  rfl

/-- An `ENV` line, whatever it says, is routed as one. -/
theorem handleEvent_env (c : Client) (payload : Line) :
    c.handleEvent (envTag ++ payload) =
      if payload = "END".toList then c.complete else (c.setVariable payload, none, none) := by
  have hConnect : connectTag.isPrefixOf (envTag ++ payload) = false := rfl
  have hReauth : reauthTag.isPrefixOf (envTag ++ payload) = false := rfl
  have hDisconnect : disconnectTag.isPrefixOf (envTag ++ payload) = false := rfl
  have hEnv : envTag.isPrefixOf (envTag ++ payload) = true :=
    List.isPrefixOf_iff_prefix.mpr (List.prefix_append envTag payload)
  unfold Client.handleEvent
  rw [hConnect, hReauth, hDisconnect, hEnv]
  simp only [Bool.false_eq_true, if_false, if_true, List.drop_left]

theorem feedLine_variable {c : Client} {r : AuthRequest} (h : Holding c r) {name : Line}
    (hName : '=' ∉ name) (value : Line) :
    ∃ c', c.feedLine ('>' :: (envTag ++ (name ++ '=' :: value))) = (c', none, none) ∧
      Holding c' { r with env := r.env.set name value } ∧ c'.handler = c.handler := by
  have hEq : '=' ∈ name ++ '=' :: value := by simp
  have hEnd : name ++ '=' :: value ≠ "END".toList := by
    intro hSame
    rw [hSame] at hEq
    exact absurd hEq (by decide)
  show ∃ c', c.handleEvent (envTag ++ (name ++ '=' :: value)) = _ ∧ _
  rw [handleEvent_env, if_neg hEnd, Client.setVariable, h.active, active?_of_holding h]
  simp only [hEq, if_true, partitionEq_append hName]
  refine ⟨_, rfl, ⟨?_, h.active⟩, rfl⟩
  show c.pending.set r.cid _ = _
  rw [h.pending, set_set_single]

theorem feedLine_end {c : Client} {r : AuthRequest} (h : Holding c r) :
    ∃ c', c.feedLine ('>' :: (envTag ++ "END".toList)) =
        (c', some ⟨r, decisionFor c.handler r⟩, Answer.raised ⟨r, decisionFor c.handler r⟩) ∧
      Idle c' ∧ c'.handler = c.handler := by
  show ∃ c', c.handleEvent (envTag ++ "END".toList) = _ ∧ _
  rw [handleEvent_env, if_pos rfl, Client.complete, active?_of_holding h, Client.popActive,
    h.active]
  refine ⟨_, rfl, ?_, rfl⟩
  show c.pending.pop r.cid = _
  rw [h.pending, pop_single]

-- ---------------------------------------------------------------------------
-- Clean decisions
-- ---------------------------------------------------------------------------

theorem sendConfig_clean {lines : List Line} (h : ∀ line ∈ lines, oneLine line = true) :
    (sendConfig lines).2 = none := by
  induction lines with
  | nil => rfl
  | cons line lines ih =>
    have hLine : ¬ ('\n' ∈ line ∨ '\r' ∈ line) := by
      have hOne := h line (by simp)
      rw [oneLine, decide_eq_true_eq] at hOne
      exact not_or.mpr hOne
    rw [sendConfig, if_neg hLine]
    exact ih fun other hOther => h other (List.mem_cons_of_mem line hOther)

theorem raised_of_clean {handler : Option AuthHandler} (h : Clean handler) (r : AuthRequest) :
    Answer.raised ⟨r, decisionFor handler r⟩ = none := by
  have hLines : ∀ line ∈ (decisionFor handler r).configLines, oneLine line = true := by
    cases handler with
    | none => exact fun line hLine => absurd hLine List.not_mem_nil
    | some f =>
      cases hVerdict : f r with
      | none =>
        rw [decisionFor, hVerdict]
        exact fun line hLine => absurd hLine List.not_mem_nil
      | some v =>
        rw [decisionFor, hVerdict]
        exact h f rfl r v hVerdict
  unfold Answer.raised authorize
  simp only
  split
  · split
    · rfl
    · exact sendConfig_clean hLines
  · rfl

-- ---------------------------------------------------------------------------
-- Runs
-- ---------------------------------------------------------------------------

/-- The answers of a run. -/
def answered (s : Reader) (es : List Event) : List Answer := (readerMachine.log s es).filterMap id

theorem answered_append (s : Reader) (es fs : List Event) :
    answered s (es ++ fs) = answered s es ++ answered (readerMachine.exec s es) fs := by
  rw [answered, Machine.log_append, List.filterMap_append]
  rfl

/-- A line that ends in no exception, before others. -/
theorem run_line {c c' : Client} {line : Line} {o : Option Answer}
    (h : c.feedLine line = (c', o, none)) (es : List Event) :
    readerMachine.exec ⟨c, true⟩ (.line line :: es) = readerMachine.exec ⟨c', true⟩ es ∧
      answered ⟨c, true⟩ (.line line :: es) = o.toList ++ answered ⟨c', true⟩ es := by
  have hStep : readerMachine.step ⟨c, true⟩ (.line line) = (⟨c', true⟩, o) := by
    show Reader.feed ⟨c, true⟩ line = _
    rw [Reader.feed, if_pos rfl, h]
    rfl
  have hNext : readerMachine.next ⟨c, true⟩ (.line line) = ⟨c', true⟩ := congrArg Prod.fst hStep
  have hOut : readerMachine.out ⟨c, true⟩ (.line line) = o := congrArg Prod.snd hStep
  refine ⟨by rw [Machine.exec_cons, hNext], ?_⟩
  rw [answered, Machine.log_cons, hNext, hOut]
  cases o <;> rfl

/-- The block of a handshake: its own environment, then its answer. -/
theorem run_env {env : List (Line × Line)} (hNames : ∀ e ∈ env, '=' ∉ e.1) {c : Client}
    {r : AuthRequest} (h : Holding c r) (hClean : Clean c.handler) :
    ∃ c', readerMachine.exec ⟨c, true⟩ ((envLines env).map .line) = ⟨c', true⟩ ∧
      answered ⟨c, true⟩ ((envLines env).map .line) =
        [⟨{ r with env := r.env.setAll env },
          decisionFor c.handler { r with env := r.env.setAll env }⟩] ∧
      Idle c' ∧ c'.handler = c.handler := by
  induction env generalizing c r with
  | nil =>
    obtain ⟨c', hFeed, hIdle, hHandler⟩ := feedLine_end h
    rw [raised_of_clean hClean] at hFeed
    obtain ⟨hExec, hAnswered⟩ := run_line hFeed []
    exact ⟨c', hExec, hAnswered, hIdle, hHandler⟩
  | cons e env ih =>
    obtain ⟨c', hFeed, hHolding, hHandler⟩ := feedLine_variable h (hNames e (by simp)) e.2
    obtain ⟨hExec, hAnswered⟩ := run_line hFeed ((envLines env).map .line)
    rw [← hHandler] at hClean
    obtain ⟨c'', hRest, hAnswers, hIdle, hSame⟩ :=
      ih (fun other hOther => hNames other (List.mem_cons_of_mem e hOther)) hHolding hClean
    rw [hHandler] at hAnswers
    exact ⟨c'', hExec.trans hRest, hAnswered.trans hAnswers, hIdle, hSame.trans hHandler⟩

/-- Notices while no request is pending. -/
theorem run_idle {lines : List Line} {c : Client} (h : Idle c)
    (hLines : ∀ body ∈ lines,
      connectTag.isPrefixOf body = false ∧ reauthTag.isPrefixOf body = false) :
    readerMachine.exec ⟨c, true⟩ (lines.map fun body => .line ('>' :: body)) = ⟨c, true⟩ ∧
      answered ⟨c, true⟩ (lines.map fun body => .line ('>' :: body)) = [] := by
  induction lines with
  | nil => exact ⟨rfl, rfl⟩
  | cons body lines ih =>
    obtain ⟨hConnect, hReauth⟩ := hLines body (by simp)
    obtain ⟨hExec, hAnswered⟩ := run_line (feedLine_idle h hConnect hReauth)
      (lines.map fun body => .line ('>' :: body))
    obtain ⟨hRest, hNone⟩ := ih fun other hOther => hLines other (List.mem_cons_of_mem body hOther)
    exact ⟨hExec.trans hRest, hAnswered.trans hNone⟩

/-- The lines of an environment, as bodies of notices. -/
theorem envLines_eq (env : List (Line × Line)) :
    ∃ bodies : List Line, (envLines env).map Event.line =
        (bodies.map fun body => Event.line ('>' :: body)) ∧
      ∀ body ∈ bodies, connectTag.isPrefixOf body = false ∧ reauthTag.isPrefixOf body = false := by
  refine ⟨env.map (fun e => envTag ++ (e.1 ++ '=' :: e.2)) ++ [envTag ++ "END".toList], ?_, ?_⟩
  · simp [envLines, Function.comp_def]
  · intro body hBody
    rcases List.mem_append.mp hBody with hVariable | hEnd
    · obtain ⟨e, -, rfl⟩ := List.mem_map.mp hVariable
      exact ⟨rfl, rfl⟩
    · rw [List.mem_singleton] at hEnd
      subst hEnd
      exact ⟨rfl, rfl⟩

/-- One item: its answer, and no request pending after it. -/
theorem run_item {c : Client} (h : Idle c) (hClean : Clean c.handler) {item : Item}
    (hItem : item.WellFormed) :
    ∃ c', readerMachine.exec ⟨c, true⟩ item.events = ⟨c', true⟩ ∧
      answered ⟨c, true⟩ item.events = (item.due c.handler).1 ∧
      Idle c' ∧ c'.handler = (item.due c.handler).2 ∧ Clean c'.handler := by
  cases item with
  -- a header, its variables, and the end of the block
  | handshake reauth cid kid env =>
    obtain ⟨hCid, hKid, hNames⟩ := hItem
    obtain ⟨c', hFeed, hHolding, hHandler⟩ := feedLine_header c h reauth hCid hKid
    rw [← hHandler] at hClean
    obtain ⟨c'', hExec, hAnswers, hIdle, hSame⟩ := run_env hNames hHolding hClean
    obtain ⟨hFirst, hNone⟩ := run_line hFeed ((envLines env).map .line)
    refine ⟨c'', hFirst.trans hExec, ?_, hIdle, hSame.trans hHandler, by rwa [hSame]⟩
    rw [← hHandler]
    exact hNone.trans hAnswers
  -- its environment is nobody's
  | notice body env =>
    obtain ⟨hConnect, hReauth⟩ := hItem
    cases env with
    | none =>
      obtain ⟨hExec, hAnswered⟩ := run_line (feedLine_idle h hConnect hReauth) []
      exact ⟨c, hExec, hAnswered, h, rfl, hClean⟩
    | some env =>
      obtain ⟨bodies, hBodies, hQuiet⟩ := envLines_eq env
      obtain ⟨hExec, hAnswered⟩ := run_line (feedLine_idle h hConnect hReauth)
        ((envLines env).map .line)
      rw [hBodies] at hExec hAnswered
      obtain ⟨hRest, hNone⟩ := run_idle h hQuiet
      rw [Item.events, hBodies]
      exact ⟨c, hExec.trans hRest, hAnswered.trans hNone, h, rfl, hClean⟩
  -- no line of a response begins as an event does
  | response line =>
    have hFeed : c.feedLine line = ({ c with
        response := c.response ++ [line]
        awaiting := c.awaiting && !Client.ends line }, none, none) := by
      cases line with
      | nil => rfl
      | cons first rest =>
        have hFirst : first ≠ '>' := fun hEq => hItem (by rw [hEq]; rfl)
        unfold Client.feedLine
        split
        · next hLine => exact absurd (List.cons.inj hLine).1 hFirst
        · rfl
    obtain ⟨hExec, hAnswered⟩ := run_line hFeed []
    exact ⟨_, hExec, hAnswered, h, rfl, hClean⟩
  | handler f => exact ⟨_, rfl, rfl, h, rfl, hItem⟩

/--
**A run of items** from an idle reader: the answers that are due, and an idle
reader again. The induction is on the items, and the handler is carried along.
-/
theorem run_items {items : List Item} (h : ∀ item ∈ items, item.WellFormed) {c : Client}
    (hIdle : Idle c) (hClean : Clean c.handler) :
    ∃ c', readerMachine.exec ⟨c, true⟩ (items.flatMap Item.events) = ⟨c', true⟩ ∧
      answered ⟨c, true⟩ (items.flatMap Item.events) = due c.handler items ∧ Idle c' := by
  induction items generalizing c with
  | nil => exact ⟨c, rfl, rfl, hIdle⟩
  | cons item items ih =>
    obtain ⟨c', hExec, hAnswered, hIdle', hHandler, hClean'⟩ :=
      run_item hIdle hClean (h item (by simp))
    obtain ⟨c'', hRest, hAnswers, hEnd⟩ :=
      ih (fun other hOther => h other (List.mem_cons_of_mem item hOther)) hIdle' hClean'
    refine ⟨c'', ?_, ?_, hEnd⟩
    · rw [List.flatMap_cons, Machine.exec_append, hExec, hRest]
    · rw [List.flatMap_cons, answered_append, hExec, hAnswered, hAnswers, due, hHandler]

/-- What OpenVPN prints is answered handshake by handshake: each once, at the
end of its own block, with its own environment and by the handler of that time.
The reader is alive at the end, and no request pending. -/
theorem answered_exactly {items : List Item} (h : ∀ item ∈ items, item.WellFormed) :
    answered Reader.fresh (items.flatMap Item.events) = due none items ∧
      (readerMachine.exec Reader.fresh (items.flatMap Item.events)).alive = true ∧
      Idle (readerMachine.exec Reader.fresh (items.flatMap Item.events)).client := by
  obtain ⟨c', hExec, hAnswered, hIdle⟩ :=
    run_items h (c := Client.fresh) rfl fun f hf => by cases hf
  refine ⟨hAnswered, congrArg Reader.alive hExec, ?_⟩
  rw [show Reader.fresh = ⟨Client.fresh, true⟩ from rfl, hExec]
  exact hIdle

/-- Accepts one user, and pushes an address. -/
def onlyAnna : AuthHandler := fun r =>
  if r.env.get? "username".toList = some "anna".toList then
    some (.decision ⟨true, ["ifconfig-push 10.8.0.2 255.255.255.0".toList], denied⟩)
  else some (.plain false)

def twoHandshakes : List Item :=
  [.handler (some onlyAnna), .notice "INFO:ready".toList none,
    .handshake false 0 1 [("username".toList, "anna".toList)],
    .notice "CLIENT:ESTABLISHED,0".toList (some [("username".toList, "anna".toList)]),
    .response "SUCCESS: client-auth command succeeded".toList,
    .handshake true 0 1 [("username".toList, "bert".toList)]]

theorem clean_onlyAnna : Clean (some onlyAnna) := by
  rintro h ⟨⟩ r v hVerdict line hLine
  unfold onlyAnna at hVerdict
  split at hVerdict
  · cases hVerdict
    rw [Verdict.decided, List.mem_singleton] at hLine
    subst hLine
    decide
  · cases hVerdict
    exact absurd hLine List.not_mem_nil

/--
One handshake is accepted and given its address, the next one denied, and each
is answered once.
-/
theorem two_handshakes_answered :
    (answered Reader.fresh (twoHandshakes.flatMap Item.events)).flatMap Answer.lines =
      ["client-auth 0 1".toList, "ifconfig-push 10.8.0.2 255.255.255.0".toList, "END".toList,
        "client-deny 0 1 \"denied\"".toList] := by
  have hSmall : (1 : Int).natAbs < 10 ^ maxStrDigits := Nat.one_lt_pow (by decide) (by decide)
  have hZero : (0 : Int).natAbs < 10 ^ maxStrDigits := Nat.pow_pos (by decide)
  have hItems : ∀ item ∈ twoHandshakes, item.WellFormed := by
    intro item hItem
    simp only [twoHandshakes, List.mem_cons, List.not_mem_nil, or_false] at hItem
    rcases hItem with rfl | rfl | rfl | rfl | rfl | rfl
    · exact clean_onlyAnna
    · exact ⟨rfl, rfl⟩
    · exact ⟨hZero, hSmall, by decide⟩
    · exact ⟨rfl, rfl⟩
    · exact fun hHead => absurd hHead (by decide)
    · exact ⟨hZero, hSmall, by decide⟩
  rw [(answered_exactly hItems).1]
  rfl

-- ---------------------------------------------------------------------------
-- From the bytes
-- ---------------------------------------------------------------------------

/-- The loop over the complete lines of the stream is a run of the reader. -/
theorem foldl_feed (decode : List UInt8 → Line) (raws : List (List UInt8)) (s : Reader)
    (before : List Answer) :
    raws.foldl (fun (s : Reader × List Answer) raw =>
        ((s.1.feed (toLine decode raw)).1, s.2 ++ (s.1.feed (toLine decode raw)).2.toList))
        (s, before) =
      (readerMachine.exec s (raws.map fun raw => .line (toLine decode raw)),
        before ++ answered s (raws.map fun raw => .line (toLine decode raw))) := by
  induction raws generalizing s before with
  | nil => simp [answered]
  | cons raw rest ih =>
    have hFirst : answered s (.line (toLine decode raw) ::
        rest.map fun raw => .line (toLine decode raw)) =
        (s.feed (toLine decode raw)).2.toList ++
          answered (s.feed (toLine decode raw)).1
            (rest.map fun raw => .line (toLine decode raw)) := by
      have hOut : readerMachine.out s (.line (toLine decode raw)) =
          (s.feed (toLine decode raw)).2 := rfl
      rw [answered, Machine.log_cons, hOut]
      cases (s.feed (toLine decode raw)).2 <;> rfl
    rw [List.foldl_cons, ih, List.map_cons, hFirst, List.append_assoc]
    rfl

/-- A client with a handler, that has read nothing yet. -/
def Reader.withHandler (handler : Option AuthHandler) : Reader :=
  ⟨{ Client.fresh with handler := handler }, true⟩

/--
**From the bytes.** OpenVPN prints well-formed items, as bytes that decode to their lines,
each with a line feed behind it and none in it. However these bytes are cut into chunks,
`_read_loop` answers every handshake, once and in order, and is still running.
-/
theorem stream_answered (decode : List UInt8 → Line) {handler : Option AuthHandler}
    (hClean : Clean handler) {items : List Item} (hItems : ∀ item ∈ items, item.WellFormed)
    {raws : List (List UInt8)} (hLf : ∀ raw ∈ raws, 10 ∉ raw)
    (hLines : (raws.map fun raw => Event.line (toLine decode raw)) = items.flatMap Item.events)
    {chunks : List (List UInt8)} (hBytes : chunks.flatten = raws.flatMap fun raw => raw ++ [10]) :
    (readLoop decode (Reader.withHandler handler, []) chunks).1.2 = due handler items ∧
      (readLoop decode (Reader.withHandler handler, []) chunks).1.1.alive = true := by
  obtain ⟨c', hExec, hAnswered, -⟩ :=
    run_items hItems (c := { Client.fresh with handler := handler }) rfl hClean
  -- one chunk with all of the bytes, so the frames of the stream are what OpenVPN printed
  have hLoop : (readLoop decode (Reader.withHandler handler, []) chunks).1 =
      (readerMachine.exec (Reader.withHandler handler) (items.flatMap Item.events),
        answered (Reader.withHandler handler) (items.flatMap Item.events)) := by
    rw [readLoop_flatten, hBytes, ← hLines]
    unfold readLoop
    rw [List.foldl_cons, List.foldl_nil, readChunk, List.nil_append, frames_flatMap 10 hLf]
    exact foldl_feed decode raws (Reader.withHandler handler) []
  rw [hLoop]
  exact ⟨hAnswered, congrArg Reader.alive hExec⟩

/-- A handshake of `anna`'s, as OpenVPN sends it. -/
def annaRaws : List (List UInt8) :=
  [">CLIENT:CONNECT,0,1", ">CLIENT:ENV,username=anna", ">CLIENT:ENV,END"].map fun line =>
    line.toList.map fun c => c.toNat.toUInt8

/-- Text of ASCII only decodes byte by byte. -/
def decodeAscii (raw : List UInt8) : Line := raw.map fun b => Char.ofNat b.toNat

/-- The stream comes in two chunks, and the cut is in the middle of a line. -/
theorem anna_answered :
    (readLoop decodeAscii (Reader.withHandler (some onlyAnna), [])
        [(annaRaws.flatMap fun raw => raw ++ [10]).take 27,
          (annaRaws.flatMap fun raw => raw ++ [10]).drop 27]).1.2.flatMap Answer.lines =
      ["client-auth 0 1".toList, "ifconfig-push 10.8.0.2 255.255.255.0".toList, "END".toList] := by
  have hItems : ∀ item ∈ [Item.handshake false 0 1 [("username".toList, "anna".toList)]],
      item.WellFormed := by
    intro item hItem
    rw [List.mem_singleton] at hItem
    subst hItem
    exact ⟨Nat.pow_pos (by decide), Nat.one_lt_pow (by decide) (by decide), by decide⟩
  have hLf : ∀ raw ∈ annaRaws, (10 : UInt8) ∉ raw := by decide
  have hBytes : ∀ n, [(annaRaws.flatMap fun raw => raw ++ [10]).take n,
      (annaRaws.flatMap fun raw => raw ++ [10]).drop n].flatten =
        annaRaws.flatMap fun raw => raw ++ [10] := by
    intro n
    simp [List.take_append_drop]
  rw [(stream_answered decodeAscii clean_onlyAnna hItems hLf rfl (hBytes 27)).1]
  rfl

end ZagrosNode.OpenVpn
