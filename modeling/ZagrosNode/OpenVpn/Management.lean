import ZagrosNode.Lib.Decimal
import ZagrosNode.Lib.Dict
import ZagrosNode.Lib.Frames
import ZagrosNode.Lib.Machine

/-!
# ZagrosNode — the management channel of OpenVPN

OpenVPN asks for a verdict on every handshake: it prints a header with a client
and a key id, then the environment of the client a variable a line, then the
end of the block, and waits. On the same channel it prints other notices and
the responses to commands. `_feed_line` routes one line; the reader thread
feeds it line after line and ends with the first exception.

Source: `vendor/zagros/app/cores/drivers/openvpn/mgmt.py`. The model has the routing
of lines (`_feed_line`, `_handle_event`), what `authorize` writes, and the reader
thread (`_read_loop`) over the chunks of bytes that `recv` returns. An exception that
`_read_loop` does not catch ends the thread: a header whose ids are no numbers, and a
configuration line with a line break, which `authorize` refuses after it has written
the lines before it. Writing to the socket is taken to succeed. A handler is a
function of the request; that it is replaced, or that what it decides by has changed,
is an event of its own, so that a run may have a different one at every line.

The second result is about any stream at all. It goes by what a single line can do to
one handshake (`Owed`): an answer takes it off the pending ones, and only a header
that asks for it puts it on, so answers plus waiting never exceed what was asked.

Main results:

* `readLoop_flatten` — however the channel cuts its bytes, the same lines are fed.
* `answers_le_asked` — on every stream, whatever its lines, a handshake is
  answered no more often than it was asked for.
-/

namespace ZagrosNode.OpenVpn

open ZagrosNode.Lib

/-- A line of the channel, without its end. -/
abbrev Line := List Char

-- ---------------------------------------------------------------------------
-- Handshakes
-- ---------------------------------------------------------------------------

structure AuthDecision where
  allow       : Bool
  configLines : List Line
  reason      : Line
  deriving DecidableEq

structure AuthRequest where
  cid    : Int
  kid    : Int
  reauth : Bool
  env    : Dict Line Line

/-- What a handler returns: a bare truth value or a decision. -/
inductive Verdict
  | plain (allow : Bool)
  | decision (d : AuthDecision)

/-- A handler of handshakes, `none` where it raises. -/
abbrev AuthHandler := AuthRequest → Option Verdict

/-- The exceptions that end the reader: a number that is none, and
`CoreError`. -/
inductive Raised
  | valueError
  | coreError (text : String)
  deriving DecidableEq

def Verdict.decided (reason : Line) : Verdict → AuthDecision
  | .plain allow => ⟨allow, [], reason⟩
  | .decision d  => d

/-- The lines of an allowed handshake's configuration, then their end. -/
def sendConfig : List Line → List Line × Option Raised
  | []           => (["END".toList], none)
  | line :: rest =>
    if '\n' ∈ line ∨ '\r' ∈ line then
      ([], some (.coreError "OpenVPN client-auth config line contains newline"))
    else (line :: (sendConfig rest).1, (sendConfig rest).2)

/-- `authorize`: what is written, and how it ends. -/
def authorize (r : AuthRequest) (d : AuthDecision) : List Line × Option Raised :=
  let ids := intChars r.cid ++ ' ' :: intChars r.kid
  if d.allow then
    if r.reauth then (["client-auth-nt ".toList ++ ids], none)
    else (("client-auth ".toList ++ ids) :: (sendConfig d.configLines).1,
      (sendConfig d.configLines).2)
  else (["client-deny ".toList ++ ids ++ " \"".toList ++ d.reason ++ ['"']], none)

def denied : Line := "denied".toList

def noHandler : Line := "authentication handler unavailable".toList

/-- The decision on a complete handshake: no handler and a handler that raises
are denials. -/
def decisionFor (handler : Option AuthHandler) (r : AuthRequest) : AuthDecision :=
  match handler with
  | none   => ⟨false, [], noHandler⟩
  | some h =>
    match h r with
    | none   => ⟨false, [], denied⟩
    | some v => v.decided denied

-- ---------------------------------------------------------------------------
-- Routing a line
-- ---------------------------------------------------------------------------

structure Client where
  response  : List Line
  awaiting  : Bool
  handler   : Option AuthHandler
  pending   : Dict Int AuthRequest
  activeCid : Option Int

def Client.fresh : Client := ⟨[], false, none, Dict.empty, none⟩

/-- A handshake that was answered: with what lines, and how that ended. -/
structure Answer where
  request  : AuthRequest
  decision : AuthDecision

def Answer.lines (a : Answer) : List Line := (authorize a.request a.decision).1

def Answer.raised (a : Answer) : Option Raised := (authorize a.request a.decision).2

def connectTag : Line := "CLIENT:CONNECT,".toList

def reauthTag : Line := "CLIENT:REAUTH,".toList

def disconnectTag : Line := "CLIENT:DISCONNECT".toList

def envTag : Line := "CLIENT:ENV,".toList

/-- `_kind, cid, kid = body.split(",", 2)` and the two numbers. -/
def headerIds (body : Line) : Option (Int × Int) :=
  match splitSep ',' body with
  | _ :: cid :: kid :: more =>
    match intOfChars cid, intOfChars ([','].intercalate (kid :: more)) with
    | .ok cid, .ok kid => some (cid, kid)
    | _, _             => none
  | _ => none

/-- `int(body.split(",")[1])` -/
def goneId (body : Line) : Option Int :=
  match splitSep ',' body with
  | _ :: cid :: _ => (intOfChars cid).toOption
  | _             => none

/-- `payload.partition("=")` -/
def partitionEq (payload : Line) : Line × Line :=
  (payload.takeWhile fun c => decide (c ≠ '='),
    (payload.dropWhile fun c => decide (c ≠ '=')).drop 1)

namespace Client

variable (c : Client)

/-- The request the environment lines belong to. -/
def active? : Option AuthRequest := c.activeCid.bind c.pending.get?

/-- `self._pending[cid] = r` -/
def file (cid : Int) (r : AuthRequest) : Client := { c with pending := c.pending.set cid r }

/-- `self._pending.pop(cid, None)` -/
def unfile (cid : Int) : Client := { c with pending := c.pending.pop cid }

/-- `self._pending.pop(self._active_cid, None)` -/
def popActive : Client :=
  match c.activeCid with
  | some cid => c.unfile cid
  | none     => c

def header (reauth : Bool) (body : Line) : Client × Option Answer × Option Raised :=
  match headerIds body with
  | some (cid, kid) =>
    ({ c.file cid ⟨cid, kid, reauth, Dict.empty⟩ with activeCid := some cid }, none, none)
  | none => (c, none, some .valueError)

/-- The end of a block. -/
def complete : Client × Option Answer × Option Raised :=
  match c.active? with
  | some r =>
    let answer : Answer := ⟨r, decisionFor c.handler r⟩
    (c.popActive, some answer, answer.raised)
  | none => (c.popActive, none, none)

/-- One variable of the environment. -/
def setVariable (payload : Line) : Client :=
  match c.activeCid, c.active? with
  | some cid, some r =>
    if '=' ∈ payload then
      c.file cid { r with env := r.env.set (partitionEq payload).1 (partitionEq payload).2 }
    else c
  | _, _ => c

/-- `_handle_event` -/
def handleEvent (body : Line) : Client × Option Answer × Option Raised :=
  if connectTag.isPrefixOf body then c.header false body
  else if reauthTag.isPrefixOf body then c.header true body
  else if disconnectTag.isPrefixOf body then
    match goneId body with
    | some cid => (c.unfile cid, none, none)
    | none     => (c, none, none)
  else if envTag.isPrefixOf body then
    let payload := body.drop envTag.length
    if payload = "END".toList then c.complete else (c.setVariable payload, none, none)
  else (c, none, none)

/-- `END`, or a line that is a whole response. -/
def ends (line : Line) : Bool :=
  decide (line = "END".toList) || "SUCCESS:".toList.isPrefixOf line
    || "ERROR:".toList.isPrefixOf line || "IGNORE:".toList.isPrefixOf line

/-- `_feed_line` -/
def feedLine (line : Line) : Client × Option Answer × Option Raised :=
  match line with
  | '>' :: body => c.handleEvent body
  | _ =>
    ({ c with
        response := c.response ++ [line]
        awaiting := c.awaiting && !ends line }, none, none)

end Client

-- ---------------------------------------------------------------------------
-- The reader thread
-- ---------------------------------------------------------------------------

/-- The client and whether its reader still runs. -/
structure Reader where
  client : Client
  alive  : Bool

def Reader.fresh : Reader := ⟨Client.fresh, true⟩

inductive Event
  | line (line : Line)
  /-- `set_auth_handler`, and what the handler decides by changed -/
  | handler (h : Option AuthHandler)

/-- One line, or none any more. -/
def Reader.feed (s : Reader) (line : Line) : Reader × Option Answer :=
  if s.alive then
    let fed := s.client.feedLine line
    (⟨fed.1, fed.2.2.isNone⟩, fed.2.1)
  else (s, none)

def Reader.step (s : Reader) : Event → Reader × Option Answer
  | .line line => s.feed line
  | .handler h => ({ s with client := { s.client with handler := h } }, none)

def readerMachine : Machine Reader Event (Option Answer) where
  step := Reader.step

/-- A line of the channel: `raw.decode(errors="replace").rstrip("\r")`. -/
def toLine (decode : List UInt8 → Line) (raw : List UInt8) : Line :=
  (decode raw).rdropWhile fun c => decide (c = '\r')

/-- `_read_loop`, with what was answered on the way. -/
def readLoop (decode : List UInt8 → Line) (s : Reader × List Answer) (chunks : List (List UInt8)) :
    (Reader × List Answer) × List UInt8 :=
  chunks.foldl
    (readChunk 10 fun s raw =>
      let fed := s.1.feed (toLine decode raw)
      (fed.1, s.2 ++ fed.2.toList)) (s, [])

/-- However the channel cuts its bytes, the same lines are fed, and the same
handshakes answered: the reader ends as if all had come at once. -/
theorem readLoop_flatten (decode : List UInt8 → Line) (s : Reader × List Answer)
    (chunks : List (List UInt8)) :
    readLoop decode s chunks = readLoop decode s [chunks.flatten] := by
  have hChunks := readAll_eq (10 : UInt8) (fun (s : Reader × List Answer) raw =>
    ((s.1.feed (toLine decode raw)).1, s.2 ++ (s.1.feed (toLine decode raw)).2.toList)) s []
  have hMany := hChunks chunks
  have hOne := hChunks [chunks.flatten]
  rw [List.flatten_singleton] at hOne
  exact hMany.trans hOne.symm

-- ---------------------------------------------------------------------------
-- Answers and headers
-- ---------------------------------------------------------------------------

section Answered

variable (cid kid : Int)

/-- The line is a header that asks for the handshake. -/
def asks : Event → Bool
  | .line ('>' :: body) =>
    (connectTag.isPrefixOf body || reauthTag.isPrefixOf body) &&
      decide (headerIds body = some (cid, kid))
  | _ => false

/-- An answer to the handshake. -/
def answers (o : Option Answer) : Bool :=
  o.any fun a => decide (a.request.cid = cid ∧ a.request.kid = kid)

/-- The handshake waits for the end of its block. -/
def waiting (c : Client) : Bool :=
  (c.pending.get? cid).any fun r => decide (r.kid = kid)

/-- Requests are filed under their client ids. -/
def Filed (c : Client) : Prop := ∀ cid r, c.pending.get? cid = some r → r.cid = cid

theorem filed_file {c : Client} (h : Filed c) {key : Int} {r : AuthRequest} (hKey : r.cid = key) :
    Filed (c.file key r) := by
  intro other r' hGet
  unfold Client.file at hGet
  rw [Dict.get?_set] at hGet
  split at hGet
  · next hSame =>
    cases hGet
    exact hKey.trans hSame
  · exact h other r' hGet

theorem filed_unfile {c : Client} (h : Filed c) (gone : Int) : Filed (c.unfile gone) := by
  intro other r hGet
  unfold Client.unfile at hGet
  rw [Dict.get?_pop] at hGet
  split at hGet
  · cases hGet
  · exact h other r hGet

theorem waiting_unfile (c : Client) (gone : Int) :
    waiting cid kid (c.unfile gone) = (decide (cid ≠ gone) && waiting cid kid c) := by
  unfold waiting Client.unfile
  rw [Dict.get?_pop]
  by_cases hGone : cid = gone
  · simp [hGone]
  · simp [hGone]

theorem waiting_file (c : Client) (key : Int) (r : AuthRequest) :
    waiting cid kid (c.file key r) =
      if key = cid then decide (r.kid = kid) else waiting cid kid c := by
  unfold waiting Client.file
  rw [Dict.get?_set]
  split <;> rfl

/-- The end of the block takes its own handshake off. -/
theorem active?_eq_some {c : Client} {r : AuthRequest} (h : Filed c)
    (hActive : c.active? = some r) :
    c.activeCid = some r.cid ∧ c.pending.get? r.cid = some r := by
  obtain ⟨active, hCid, hGet⟩ := Option.bind_eq_some_iff.mp hActive
  rw [h active r hGet]
  exact ⟨hCid, hGet⟩

/-- What a line can do to the handshake: an answer takes it off, and nothing
but a header that asks for it puts it on. -/
def Owed (before : Client) (asked : Bool) (after : Client × Option Answer × Option Raised) : Prop :=
  Filed after.1 ∧
    (answers cid kid after.2.1).toNat + (waiting cid kid after.1).toNat ≤
      asked.toNat + (waiting cid kid before).toNat

/-- Nothing was answered and the handshake does not wait where it did not. -/
theorem owed_quiet {c c' : Client} (raised : Option Raised) (hFiled : Filed c') (asked : Bool)
    (hLess : waiting cid kid c' = true → waiting cid kid c = true) :
    Owed cid kid c asked (c', none, raised) := by
  refine ⟨hFiled, ?_⟩
  show 0 + (waiting cid kid c').toNat ≤ _
  cases hAfter : waiting cid kid c' with
  | false => exact Nat.zero_le _
  | true  =>
    rw [hLess hAfter]
    exact Nat.le_add_left _ _

theorem owed_header {c : Client} (h : Filed c) (reauth : Bool) (body : Line) :
    Owed cid kid c (decide (headerIds body = some (cid, kid))) (c.header reauth body) := by
  unfold Client.header
  cases hIds : headerIds body with
  | none => exact owed_quiet cid kid _ h _ id
  | some ids =>
    refine ⟨filed_file h rfl, ?_⟩
    show 0 + (waiting cid kid (c.file ids.1 ⟨ids.1, ids.2, reauth, Dict.empty⟩)).toNat ≤ _
    rw [waiting_file]
    by_cases hCid : ids.1 = cid
    · by_cases hKid : ids.2 = kid
      · have hAsked : some ids = some (cid, kid) := congrArg some (Prod.ext hCid hKid)
        rw [decide_eq_true hAsked]
        simp [hCid, hKid]
      · simp [hCid, hKid]
    · simp [hCid]

theorem owed_complete {c : Client} (h : Filed c) : Owed cid kid c false c.complete := by
  unfold Client.complete Client.popActive
  cases hActive : c.active? with
  | none =>
    cases hCid : c.activeCid with
    | none => exact owed_quiet cid kid none h false id
    | some active =>
      refine owed_quiet cid kid none (filed_unfile h active) false fun hWaits => ?_
      rw [waiting_unfile, Bool.and_eq_true] at hWaits
      exact hWaits.2
  | some r =>
    obtain ⟨hCid, hGet⟩ := active?_eq_some h hActive
    simp only [hCid]
    refine ⟨filed_unfile h r.cid, ?_⟩
    show (decide (r.cid = cid ∧ r.kid = kid)).toNat
      + (waiting cid kid (c.unfile r.cid)).toNat ≤ _
    rw [waiting_unfile]
    by_cases hSame : r.cid = cid
    · subst hSame
      simp [waiting, hGet]
    · have hOther : cid ≠ r.cid := Ne.symm hSame
      simp [hSame, hOther]

theorem owed_setVariable {c : Client} (h : Filed c) (payload : Line) :
    Owed cid kid c false (c.setVariable payload, none, none) := by
  unfold Client.setVariable
  cases hActive : c.active? with
  | none =>
    cases c.activeCid <;> exact owed_quiet cid kid none h false id
  | some r =>
    obtain ⟨hCid, hGet⟩ := active?_eq_some h hActive
    simp only [hCid]
    split
    · refine owed_quiet cid kid none ?_ false fun hWaits => ?_
      · exact filed_file h rfl
      rw [waiting_file] at hWaits
      split at hWaits
      · next hSame =>
        subst hSame
        simpa [waiting, hGet] using hWaits
      · exact hWaits
    · exact owed_quiet cid kid none h false id

theorem owed_feedLine {c : Client} (h : Filed c) (line : Line) :
    Owed cid kid c (asks cid kid (.line line)) (c.feedLine line) := by
  unfold Client.feedLine
  split
  · next body =>
    rw [asks]
    unfold Client.handleEvent
    -- the two headers put the handshake on, if it is theirs
    by_cases hConnect : connectTag.isPrefixOf body = true
    · simp only [hConnect, if_true, Bool.true_or, Bool.true_and]
      exact owed_header cid kid h false body
    by_cases hReauth : reauthTag.isPrefixOf body = true
    · simp only [hConnect, hReauth, if_true, Bool.or_true, Bool.true_and]
      exact owed_header cid kid h true body
    simp only [hConnect, hReauth, Bool.or_self, Bool.false_and, Bool.false_eq_true, if_false]
    split
    -- a client that is gone takes its request with it, unanswered
    · split
      · refine owed_quiet cid kid none (filed_unfile h _) false fun hWaits => ?_
        rw [waiting_unfile, Bool.and_eq_true] at hWaits
        exact hWaits.2
      · exact owed_quiet cid kid none h false id
    -- the end of a block answers, a variable and any other notice do not
    · split
      · split
        · exact owed_complete cid kid h
        · exact owed_setVariable cid kid h _
      · exact owed_quiet cid kid none h false id
  · exact owed_quiet cid kid none h _ id

/-- On every stream of lines, well formed or not, and whatever handlers come
and go, a handshake is answered no more often than it was asked for. -/
theorem answers_le_asked (es : List Event) :
    (readerMachine.log Reader.fresh es).countP (answers cid kid) ≤ es.countP (asks cid kid) := by
  have hRun : ∀ (es : List Event) (s : Reader), Filed s.client →
      (readerMachine.log s es).countP (answers cid kid) ≤
        es.countP (asks cid kid) + (waiting cid kid s.client).toNat := by
    intro es
    -- with what is waiting at the start, so that the hypothesis fits the state after a step
    induction es with
    | nil => exact fun s _ => Nat.zero_le _
    | cons e es ih =>
      intro s hs
      have hStep : Owed cid kid s.client (asks cid kid e)
          ((s.step e).1.client, (s.step e).2, none) := by
        cases e with
        | handler h => exact owed_quiet cid kid none hs false id
        | line line =>
          unfold Reader.step Reader.feed
          cases s.alive with
          | false => exact owed_quiet cid kid none hs _ id
          | true  => exact owed_feedLine cid kid hs line
      have hRest := ih (s.step e).1 hStep.1
      have hOwed := hStep.2
      simp only at hOwed
      rw [Machine.log_cons, List.countP_cons, List.countP_cons]
      have hOut : readerMachine.out s e = (s.step e).2 := rfl
      have hNext : readerMachine.next s e = (s.step e).1 := rfl
      rw [hOut, hNext]
      -- an answer and a header at the same line would cancel out
      cases hA : answers cid kid (s.step e).2 <;> cases hQ : asks cid kid e <;>
        simp only [hA, hQ, Bool.toNat_true, Bool.toNat_false, if_true, Bool.false_eq_true, if_false]
          at hOwed ⊢ <;> omega
  exact hRun es Reader.fresh fun other r hGet => by cases hGet

end Answered

end ZagrosNode.OpenVpn
