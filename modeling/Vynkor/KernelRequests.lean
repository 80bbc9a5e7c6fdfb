import Vynkor.Client
import Vynkor.Library.Interleaving

/-! The requests of `VynkorClient` that wait for an answer, as a machine over the
envelopes that arrive. Each call is taken apart at its awaits; the client it is made
on does not change. -/
namespace Vynkor.KernelRequests
open Octets (Bytes)
open Text Framing Reassembly Labelled

def defaultPublishEventTimeout : Time := 30
def defaultActionTimeout : Time := 30

def nextActionId (seq : Nat) (millis : Int) : Str := lit "act-" ++ decimalInt millis ++ .scalar '-' :: decimal seq

def seconds (timeoutMs : Int) (default : Time) : Time := if timeoutMs = 0 then default else timeoutMs / 1000

def unsignedField (bits : Nat) (n : Int) : Except Error Nat :=
  if 0 ≤ n ∧ n < 2 ^ bits then .ok n.toNat else .error (.valueError (lit "Value out of range: " ++ decimalInt n))

inductive Request where
  | sendAction (action : Str) (paramsJson : Bytes) (timeoutMs : Int)
  | sendActionStreaming (action : Str) (timeoutMs : Int)
  | publishEvent (eventType : Str) (payloadJson : Bytes) (timeoutMs : Int)
  | sendCommand (commandId command : Str) (paramsJson : Bytes)
  | ping
  | recv
  | recvTimeout (timeout : Time)
  deriving DecidableEq, Repr

namespace Request

def drawsId : Request → Bool
  | sendAction .. | sendActionStreaming .. => true
  | _ => false

def publishes : Request → Bool
  | publishEvent .. => true
  | _ => false

def timeout : Request → Option Time
  | sendAction _ _ timeoutMs => some (seconds timeoutMs defaultActionTimeout)
  | publishEvent _ _ timeoutMs => some (seconds timeoutMs defaultPublishEventTimeout)
  | recvTimeout timeout => some timeout
  | _ => none

end Request

/- What a call waits for: the values its predicate compares, those its answer is
about, and when a ping was sent. The number of the publish is a ghost. -/
inductive Awaited where
  | nothing (actionId : Str)
  | actionResponse (actionId : Str)
  | publishAck (publish : Nat)
  | commandAck (commandId : Str)
  | pong (timestamp : Nat) (sentAt : Time)
  | anything
  deriving DecidableEq, Repr

inductive Reply where
  | response (response : ActionResponse)
  | publishAck (ack : EventPublishAck)
  | commandAck (ack : KernelCommandAck)
  | latency (seconds : Time)
  | envelope (envelope : Envelope)
  deriving DecidableEq, Repr

def kernelError (message details : Str) : Error :=
  .internal (lit "kernel error: " ++ message ++ lit " (" ++ details ++ lit ")")

def streamAborted (reason : Str) : Error := .internal (lit "stream aborted: " ++ reason)

namespace Awaited

def accepts : Awaited → Envelope → Bool
  | actionResponse actionId, envelope =>
    match envelope.payload with
    | some (.actionResponse r) => r.actionId = actionId
    | some (.actionStreamAbort id _) => id = actionId
    | some (.error _ _) => true
    | _ => false
  | publishAck _, envelope =>
    match envelope.payload with
    | some (.eventPublishAck _) => true
    | some (.error _ _) => true
    | _ => false
  | _, _ => true

/- What the call makes of the envelope it has taken. A field that is not set reads
as an empty message. -/
def conclude (now : Time) : Awaited → Envelope → Except Error Reply
  | actionResponse _, envelope =>
    match envelope.payload with
    | some (.error message details) => .error (kernelError message details)
    | some (.actionStreamAbort _ reason) => .error (streamAborted reason)
    | some (.actionResponse r) => .ok (.response r)
    | _ => .ok (.response ⟨[], .unknown, [], []⟩)
  | publishAck _, envelope =>
    match envelope.payload with
    | some (.error message details) => .error (kernelError message details)
    | some (.eventPublishAck ack) => .ok (.publishAck ack)
    | _ => .ok (.publishAck ⟨[], 0, []⟩)
  | commandAck _, envelope =>
    match envelope.payload with
    | some (.kernelCommandAck ack) => .ok (.commandAck ack)
    | _ => .error (.internal (lit "expected KernelCommandAck"))
  | pong _ sentAt, envelope =>
    match envelope.payload with
    | some (.pong _ _) => .ok (.latency (now - sentAt))
    | _ => .error (.internal (lit "expected Pong"))
  | _, envelope => .ok (.envelope envelope)

end Awaited

/- What a `recv` returns or raises. The numbers are ghosts, counted on the client: the
publish that an `EventPublishAck` answers, and the call that an `Error` answers. -/
structure Item where
  received : Except Error Envelope
  answers : Option Nat
  fails : Option Nat
  deriving DecidableEq, Repr

structure Reading where
  now : Time
  item : Item
  deriving DecidableEq, Repr

/- A call that waits; `read` is what it has read so far. Its number is a ghost. -/
structure Wait where
  call : Nat
  request : Request
  awaited : Awaited
  sentAt : Time
  read : List Reading
  deriving DecidableEq, Repr

def Wait.deadline (w : Wait) : Option Time := w.request.timeout.map (w.sentAt + ·)

/- Where a call waits: inside `await self.send`, at the top of `_await_matching`, inside
`await self.recv` or `await self.recv_timeout`. -/
inductive Doing where
  | idle
  | sending (request : Request) (awaited : Awaited) (envelope : Envelope)
  | looking (wait : Wait)
  | receiving (wait : Wait)
  deriving DecidableEq, Repr

/- One client and the call made on it. Ghosts count the calls begun, the events
published, and the acks of these that the calls have read. -/
structure Caller where
  client : VynkorClient
  doing : Doing
  unread : List Item
  begun : Nat
  published : Nat
  acked : Nat

/- A deadline or a cancellation may come when `recv` has read a part of a frame. That part
goes with the coroutine: `torn` is what the next reads make of the buffer behind it. -/
inductive Act where
  | begin (request : Request) (millis : Int) (now : Time)
  | sent (fault : Option Str) (now : Time)
  | look (now : Time)
  | receive (now : Time)
  | expire (now : Time) (torn : Option (List Item))
  | cancel (now : Time) (torn : Option (List Item))
  | arrive (item : Item)
  deriving DecidableEq, Repr

def Act.drawsId : Act → Bool
  | .begin request _ _ => request.drawsId
  | _ => false

inductive Happening where
  | drew (actionId : Str)
  | wrote (envelope : Envelope)
  | arrived (item : Item)
  | refused (e : Error)
  | returned (actionId : Str)
  | settled (wait : Wait) (now : Time) (outcome : Except Error Reply)
  deriving DecidableEq, Repr

def actionRequest (actionId action : Str) (paramsJson : Bytes) (timeoutMs : Int) (streaming : Bool) :
    Except Error Envelope := do
  let actionId ← textField actionId
  let action ← textField action
  let timeoutMs ← unsignedField 32 timeoutMs
  return ⟨some (.actionRequest ⟨actionId, action, paramsJson, timeoutMs, streaming, []⟩)⟩

def eventPublish (eventType : Str) (payloadJson : Bytes) : Except Error Envelope := do
  let eventType ← textField eventType
  return ⟨some (.eventPublish eventType payloadJson)⟩

def kernelCommand (commandId command : Str) (paramsJson : Bytes) : Except Error Envelope := do
  let commandId ← textField commandId
  let command ← textField command
  return ⟨some (.kernelCommand ⟨commandId, command, paramsJson⟩)⟩

def pingEnvelope (millis : Int) : Except Error Envelope := do
  let timestamp ← unsignedField 64 millis
  return ⟨some (.ping timestamp)⟩

namespace Caller

def new (client : VynkorClient) : Caller := ⟨client, .idle, [], 0, 0, 0⟩

def compose (actionId : Str) (millis : Int) : Request → Except Error (Option Envelope)
  | .sendAction action paramsJson timeoutMs => (actionRequest actionId action paramsJson timeoutMs false).map some
  | .sendActionStreaming action timeoutMs => (actionRequest actionId action [] timeoutMs true).map some
  | .publishEvent eventType payloadJson _ => (eventPublish eventType payloadJson).map some
  | .sendCommand commandId command paramsJson => (kernelCommand commandId command paramsJson).map some
  | .ping => (pingEnvelope millis).map some
  | .recv | .recvTimeout _ => .ok none

def awaits (c : Caller) (actionId : Str) (millis : Int) (now : Time) : Request → Awaited
  | .sendAction .. => .actionResponse actionId
  | .sendActionStreaming .. => .nothing actionId
  | .publishEvent .. => .publishAck c.published
  | .sendCommand commandId _ _ => .commandAck commandId
  | .ping => .pong millis.toNat now
  | .recv | .recvTimeout _ => .anything

def settle (c : Caller) (wait : Wait) (now : Time) (outcome : Except Error Reply) : Option (Caller × List Happening) :=
  some ({ c with doing := .idle }, [.settled wait now outcome])

/- Where a call goes on when it has sent: only `publish_event` and `send_action` have
a loop of their own. -/
def follow (call : Nat) (request : Request) (awaited : Awaited) (now : Time) : Doing × List Happening :=
  match awaited with
  | .nothing actionId => (.idle, [.returned actionId])
  | .actionResponse _ | .publishAck _ => (.looking ⟨call, request, awaited, now, []⟩, [])
  | _ => (.receiving ⟨call, request, awaited, now, []⟩, [])

section Steps
variable (x : Externals) (codec : Codec)

def start (c : Caller) (request : Request) (actionId : Str) (millis : Int) (now : Time) : Caller × List Happening :=
  match compose actionId millis request with
  | .error e => (c, [.refused e])
  | .ok none =>
    ({ c with doing := .receiving ⟨c.begun + 1, request, c.awaits actionId millis now request, now, []⟩
              begun := c.begun + 1 }, [])
  | .ok (some envelope) =>
    match (c.client.send x codec (lit "kernel") envelope none).2 with
    | .error e => (c, [.refused e])
    | .ok () =>
      ({ c with doing := .sending request (c.awaits actionId millis now request) envelope
                begun := c.begun + 1
                published := if request.publishes then c.published + 1 else c.published }, [.wrote envelope])

def begin (c : Caller) (request : Request) (actionId : Str) (millis : Int) (now : Time) : Option (Caller × List Happening) :=
  match c.doing with
  | .idle =>
    let (started, happened) := c.start x codec request actionId millis now
    some (started, if request.drawsId then .drew actionId :: happened else happened)
  | _ => none

def sent (c : Caller) (fault : Option Str) (now : Time) : Option (Caller × List Happening) :=
  match c.doing with
  | .sending request awaited envelope =>
    match (c.client.send x codec (lit "kernel") envelope fault).2 with
    | .error e => some ({ c with doing := .idle }, [.refused e])
    | .ok () =>
      let (doing, happened) := follow c.begun request awaited now
      some ({ c with doing := doing }, happened)
  | _ => none

def look (c : Caller) (now : Time) : Option (Caller × List Happening) :=
  match c.doing with
  | .looking wait =>
    match wait.deadline with
    | some deadline =>
      if deadline - now ≤ 0 then c.settle wait now (.error .timeout)
      else some ({ c with doing := .receiving wait }, [])
    | none => none
  | _ => none

def InTime (wait : Wait) (now : Time) : Prop := ∀ deadline ∈ wait.deadline, now < deadline

instance (wait : Wait) (now : Time) : Decidable (InTime wait now) := by
  unfold InTime
  infer_instance

def readNext (c : Caller) (wait : Wait) (now : Time) (item : Item) : Option (Caller × List Happening) :=
  let wait := { wait with read := wait.read ++ [⟨now, item⟩] }
  match item.received with
  | .error e => c.settle wait now (.error e)
  | .ok envelope =>
    if wait.awaited.accepts envelope then c.settle wait now (wait.awaited.conclude now envelope)
    else some ({ c with doing := .looking wait }, [])

def receive (c : Caller) (now : Time) : Option (Caller × List Happening) :=
  match c.doing, c.unread with
  | .receiving wait, item :: rest =>
    if InTime wait now then
      { c with unread := rest, acked := if item.answers.isSome then c.acked + 1 else c.acked }.readNext wait now item
    else none
  | _, _ => none

def tear (c : Caller) : Option (List Item) → Option Caller
  | none => some c
  | some items => if c.client.transport = .uds then some { c with unread := items } else none

def expire (c : Caller) (now : Time) (torn : Option (List Item)) : Option (Caller × List Happening) :=
  match c.doing with
  | .receiving wait => if InTime wait now then none else (c.tear torn).bind fun c => c.settle wait now (.error .timeout)
  | _ => none

def cancel (c : Caller) (now : Time) (torn : Option (List Item)) : Option (Caller × List Happening) :=
  match c.doing with
  | .sending .. => if torn = none then some ({ c with doing := .idle }, [.refused .cancelled]) else none
  | .receiving wait => (c.tear torn).bind fun c => c.settle wait now (.error .cancelled)
  | _ => none

def step (c : Caller) : Nat × Act → Option (Caller × List Happening)
  | (seq, .begin request millis now) => c.begin x codec request (nextActionId seq millis) millis now
  | (_, .sent fault now) => c.sent x codec fault now
  | (_, .look now) => c.look now
  | (_, .receive now) => c.receive now
  | (_, .expire now torn) => c.expire now torn
  | (_, .cancel now torn) => c.cancel now torn
  | (_, .arrive item) => some ({ c with unread := c.unread ++ [item] }, [.arrived item])

def machine : Machine Caller (Nat × Act) Happening := ⟨step x codec⟩

end Steps
end Caller

def nextSeq (seq : Nat) (act : Act) : Nat := if act.drawsId then seq + 1 else seq

section Process
variable {Id : Type} [DecidableEq Id]

def process (x : Externals) (codec : Codec) : Machine (Nat × (Id → Caller)) (Id × Act) (Id × Happening) :=
  interleave (Caller.machine x codec) nextSeq

/- No deadline and no cancellation comes inside a frame. -/
def Between (_ : Caller) : Nat × Act → Prop
  | (_, .expire _ torn) | (_, .cancel _ torn) => torn = none
  | _ => True

instance (c : Caller) (label : Nat × Act) : Decidable (Between c label) := by
  unfold Between
  split <;> infer_instance

def processStart (clients : Id → VynkorClient) : Nat × (Id → Caller) := (0, fun id => .new (clients id))

end Process

def drewOf (request : Request) (actionId : Str) : List Happening := if request.drawsId then [.drew actionId] else []

def Caller.take (c : Caller) (item : Item) (rest : List Item) (doing : Doing) : Caller :=
  { c with unread := rest, acked := if item.answers.isSome then c.acked + 1 else c.acked, doing := doing }

def Wait.reads (w : Wait) (now : Time) (item : Item) : Wait := { w with read := w.read ++ [⟨now, item⟩] }

inductive Moves (c : Caller) : Nat × Act → List Happening → Caller → Prop where
  | arrived {seq} (item : Item) : Moves c (seq, .arrive item) [.arrived item] { c with unread := c.unread ++ [item] }
  | refused {seq request millis now e} (idle : c.doing = .idle) :
      Moves c (seq, .begin request millis now) (drewOf request (nextActionId seq millis) ++ [.refused e]) c
  | opened {seq request millis now} (idle : c.doing = .idle) :
      Moves c (seq, .begin request millis now) (drewOf request (nextActionId seq millis))
        { c with doing := .receiving ⟨c.begun + 1, request, c.awaits (nextActionId seq millis) millis now request, now, []⟩
                 begun := c.begun + 1 }
  | wrote {seq request millis now envelope} (idle : c.doing = .idle) :
      Moves c (seq, .begin request millis now) (drewOf request (nextActionId seq millis) ++ [.wrote envelope])
        { c with doing := .sending request (c.awaits (nextActionId seq millis) millis now request) envelope
                 begun := c.begun + 1
                 published := if request.publishes then c.published + 1 else c.published }
  | unsent {seq act request awaited envelope e} (sending : c.doing = .sending request awaited envelope)
      (goesOn : ∀ request millis now, act ≠ .begin request millis now) :
      Moves c (seq, act) [.refused e] { c with doing := .idle }
  | returned {seq fault now request actionId envelope} (sending : c.doing = .sending request (.nothing actionId) envelope) :
      Moves c (seq, .sent fault now) [.returned actionId] { c with doing := .idle }
  | waits {seq fault now request awaited envelope doing} (sending : c.doing = .sending request awaited envelope)
      (fresh : doing = .looking ⟨c.begun, request, awaited, now, []⟩ ∨ doing = .receiving ⟨c.begun, request, awaited, now, []⟩) :
      Moves c (seq, .sent fault now) [] { c with doing := doing }
  | enters {seq now w} (looking : c.doing = .looking w) :
      Moves c (seq, .look now) [] { c with doing := .receiving w }
  | late {seq act now w} (waiting : c.doing = .looking w ∨ c.doing = .receiving w) (passed : ¬ Caller.InTime w now)
      (turn : act = .look now ∨ act = .expire now none) :
      Moves c (seq, act) [.settled w now (.error .timeout)] { c with doing := .idle }
  | cancelled {seq now w} (receiving : c.doing = .receiving w) :
      Moves c (seq, .cancel now none) [.settled w now (.error .cancelled)] { c with doing := .idle }
  | torn {seq act now w e items} (receiving : c.doing = .receiving w)
      (ends : (act = .expire now (some items) ∧ ¬ Caller.InTime w now ∧ e = .timeout) ∨
        (act = .cancel now (some items) ∧ e = .cancelled)) :
      Moves c (seq, act) [.settled w now (.error e)] { c with doing := .idle, unread := items }
  | failed {seq now w item rest e} (receiving : c.doing = .receiving w) (unread : c.unread = item :: rest)
      (inTime : Caller.InTime w now) (raised : item.received = .error e) :
      Moves c (seq, .receive now) [.settled (w.reads now item) now (.error e)] (c.take item rest .idle)
  | answered {seq now w item rest envelope} (receiving : c.doing = .receiving w) (unread : c.unread = item :: rest)
      (inTime : Caller.InTime w now) (received : item.received = .ok envelope) (taken : w.awaited.accepts envelope = true) :
      Moves c (seq, .receive now) [.settled (w.reads now item) now (w.awaited.conclude now envelope)] (c.take item rest .idle)
  | passed {seq now w item rest envelope} (receiving : c.doing = .receiving w) (unread : c.unread = item :: rest)
      (inTime : Caller.InTime w now) (received : item.received = .ok envelope) (foreign : w.awaited.accepts envelope = false) :
      Moves c (seq, .receive now) [] (c.take item rest (.looking (w.reads now item)))

section Steps
variable {x : Externals} {codec : Codec} {c t : Caller} {happened : List Happening} {seq : Nat}

theorem beginMoves {request : Request} {millis : Int} {now : Time}
    (move : c.begin x codec request (nextActionId seq millis) millis now = some (t, happened)) :
    Moves c (seq, .begin request millis now) happened t := by
  unfold Caller.begin at move
  split at move
  · rename_i idle
    have drew (rest : List Happening) :
        (if request.drawsId then .drew (nextActionId seq millis) :: rest else rest) =
          drewOf request (nextActionId seq millis) ++ rest := by
      cases drawn : request.drawsId <;> simp [drewOf, drawn]
    simp only [drew] at move
    cases composed : Caller.compose (nextActionId seq millis) millis request with
    | error e =>
      simp only [Caller.start, composed] at move
      cases move
      exact .refused idle
    | ok sends =>
      cases sends with
      | none =>
        simp only [Caller.start, composed, List.append_nil] at move
        cases move
        exact .opened idle
      | some envelope =>
        simp only [Caller.start, composed] at move
        cases written : (c.client.send x codec (lit "kernel") envelope none).2 with
        | error e =>
          simp only [written] at move
          cases move
          exact .refused idle
        | ok _ =>
          simp only [written] at move
          cases move
          exact .wrote idle
  · contradiction

theorem sentMoves {fault : Option Str} {now : Time} (move : c.sent x codec fault now = some (t, happened)) :
    Moves c (seq, .sent fault now) happened t := by
  unfold Caller.sent at move
  split at move
  · rename_i request awaited envelope sending
    split at move
    · cases move
      exact .unsent sending (by simp)
    · cases awaited with
      | nothing actionId =>
        cases move
        exact .returned sending
      | actionResponse _ | publishAck _ =>
        cases move
        exact .waits sending (.inl rfl)
      | commandAck _ | pong _ _ | anything =>
        cases move
        exact .waits sending (.inr rfl)
  · contradiction

theorem inTimeAt {w : Wait} {deadline now : Time} (due : w.deadline = some deadline) :
    Caller.InTime w now ↔ now < deadline := by
  simp [Caller.InTime, due]

theorem lookMoves {now : Time} (move : c.look now = some (t, happened)) : Moves c (seq, .look now) happened t := by
  unfold Caller.look at move
  split at move
  · rename_i w looking
    cases due : w.deadline with
    | none => simp [due] at move
    | some deadline =>
      simp only [due] at move
      split at move
      · rename_i tooLate
        cases move
        exact .late (.inl looking) (by rw [inTimeAt due]; linarith) (.inl rfl)
      · cases move
        exact .enters looking
  · contradiction

theorem receiveMoves {now : Time} (move : c.receive now = some (t, happened)) : Moves c (seq, .receive now) happened t := by
  unfold Caller.receive at move
  split at move
  · rename_i w item rest receiving unread
    split at move
    · rename_i inTime
      unfold Caller.readNext at move
      cases received : item.received with
      | error e =>
        simp only [received] at move
        cases move
        exact .failed receiving unread inTime received
      | ok envelope =>
        cases taken : w.awaited.accepts envelope with
        | true =>
          simp only [received, taken, if_true] at move
          cases move
          exact .answered receiving unread inTime received taken
        | false =>
          simp only [received, taken] at move
          cases move
          exact .passed receiving unread inTime received taken
    · contradiction
  · contradiction

theorem tearCases {torn : Option (List Item)} {left : Caller} (tears : c.tear torn = some left) :
    (torn = none ∧ left = c) ∨ ∃ items, torn = some items ∧ left = { c with unread := items } := by
  cases torn with
  | none =>
    cases tears
    exact .inl ⟨rfl, rfl⟩
  | some items =>
    simp only [Caller.tear] at tears
    split at tears
    · cases tears
      exact .inr ⟨items, rfl, rfl⟩
    · contradiction

theorem stepMoves {label : Nat × Act} (move : (Caller.machine x codec).step c label = some (t, happened)) :
    Moves c label happened t := by
  obtain ⟨seq, act⟩ := label
  cases act with
  | begin request millis now => exact beginMoves move
  | sent fault now => exact sentMoves move
  | look now => exact lookMoves move
  | receive now => exact receiveMoves move
  | expire now torn =>
    simp only [Caller.machine, Caller.step, Caller.expire] at move
    split at move
    · rename_i w receiving
      split at move
      · contradiction
      · rename_i tooLate
        obtain ⟨torn', tears, settles⟩ := Option.bind_eq_some_iff.mp move
        cases settles
        rcases tearCases tears with ⟨rfl, rfl⟩ | ⟨items, rfl, rfl⟩
        · exact .late (.inr receiving) tooLate (.inr rfl)
        · exact .torn receiving (.inl ⟨rfl, tooLate, rfl⟩)
    · contradiction
  | cancel now torn =>
    simp only [Caller.machine, Caller.step, Caller.cancel] at move
    split at move
    · rename_i sending
      split at move
      · cases move
        exact .unsent sending (by simp)
      · contradiction
    · rename_i receiving
      obtain ⟨torn', tears, settles⟩ := Option.bind_eq_some_iff.mp move
      cases settles
      rcases tearCases tears with ⟨rfl, rfl⟩ | ⟨items, rfl, rfl⟩
      · exact .cancelled receiving
      · exact .torn receiving (.inr ⟨rfl, rfl⟩)
    · contradiction
  | arrive item =>
    cases move
    exact .arrived item

end Steps

def Passes (w : Wait) (r : Reading) : Prop :=
  Caller.InTime w r.now ∧ ∃ envelope, r.item.received = .ok envelope ∧ w.awaited.accepts envelope = false

inductive Ends (w : Wait) (now : Time) : Except Error Reply → Prop where
  | answered {before item envelope} (read : w.read = before ++ [⟨now, item⟩]) (passed : ∀ r ∈ before, Passes w r)
      (inTime : Caller.InTime w now) (received : item.received = .ok envelope) (taken : w.awaited.accepts envelope = true) :
      Ends w now (w.awaited.conclude now envelope)
  | failed {before item e} (read : w.read = before ++ [⟨now, item⟩]) (passed : ∀ r ∈ before, Passes w r)
      (inTime : Caller.InTime w now) (raised : item.received = .error e) : Ends w now (.error e)
  | late (passed : ∀ r ∈ w.read, Passes w r) (tooLate : ¬ Caller.InTime w now) : Ends w now (.error .timeout)
  | cancelled (passed : ∀ r ∈ w.read, Passes w r) : Ends w now (.error .cancelled)

inductive Fits : Request → Awaited → Prop where
  | sendAction {action paramsJson timeoutMs actionId} : Fits (.sendAction action paramsJson timeoutMs) (.actionResponse actionId)
  | sendActionStreaming {action timeoutMs actionId} : Fits (.sendActionStreaming action timeoutMs) (.nothing actionId)
  | publishEvent {eventType payloadJson timeoutMs publish} :
      Fits (.publishEvent eventType payloadJson timeoutMs) (.publishAck publish)
  | sendCommand {commandId command paramsJson} : Fits (.sendCommand commandId command paramsJson) (.commandAck commandId)
  | ping {timestamp sentAt} : Fits .ping (.pong timestamp sentAt)
  | recv : Fits .recv .anything
  | recvTimeout {timeout} : Fits (.recvTimeout timeout) .anything

theorem awaitsFits (c : Caller) (actionId : Str) (millis : Int) (now : Time) (request : Request) :
    Fits request (c.awaits actionId millis now request) := by
  cases request <;> constructor

inductive Underway : Doing → Prop where
  | idle : Underway .idle
  | sending {request awaited envelope} (fits : Fits request awaited) : Underway (.sending request awaited envelope)
  | looking {w} (fits : Fits w.request w.awaited) (passed : ∀ r ∈ w.read, Passes w r) : Underway (.looking w)
  | receiving {w} (fits : Fits w.request w.awaited) (passed : ∀ r ∈ w.read, Passes w r) : Underway (.receiving w)

def SettledWell (h : Happening) : Prop :=
  ∀ w now outcome, h = .settled w now outcome → Fits w.request w.awaited ∧ Ends w now outcome

section Calls
variable {x : Externals} {codec : Codec} {c t : Caller} {label : Nat × Act} {happened : List Happening}

theorem underwayWait {w : Wait} (ok : Underway c.doing) (waiting : c.doing = .looking w ∨ c.doing = .receiving w) :
    Fits w.request w.awaited ∧ ∀ r ∈ w.read, Passes w r := by
  rcases waiting with here | here
  · rw [here] at ok
    cases ok with
    | looking fits passed => exact ⟨fits, passed⟩
  · rw [here] at ok
    cases ok with
    | receiving fits passed => exact ⟨fits, passed⟩

theorem underwaySending {request : Request} {awaited : Awaited} {envelope : Envelope} (ok : Underway c.doing)
    (sending : c.doing = .sending request awaited envelope) : Fits request awaited := by
  rw [sending] at ok
  cases ok with
  | sending fits => exact fits

theorem drewWell {request : Request} {actionId : Str} : ∀ h ∈ drewOf request actionId, SettledWell h := by
  intro h drew w now outcome same
  unfold drewOf at drew
  split at drew
  · cases List.mem_singleton.mp drew
    cases same
  · cases drew

theorem appendWell {first later : List Happening} (here : ∀ h ∈ first, SettledWell h) (next : ∀ h ∈ later, SettledWell h) :
    ∀ h ∈ first ++ later, SettledWell h := by
  intro h member
  rcases List.mem_append.mp member with inside | inside
  · exact here h inside
  · exact next h inside

theorem movesUnderway (ok : Underway c.doing) (move : Moves c label happened t) :
    Underway t.doing ∧ ∀ h ∈ happened, SettledWell h := by
  have quiet {h : Happening} (calm : ∀ w now outcome, h ≠ .settled w now outcome) : ∀ g ∈ [h], SettledWell g := by
    intro g member w now outcome same
    cases List.mem_singleton.mp member
    exact absurd same (calm w now outcome)
  have settles {w : Wait} {now : Time} {outcome : Except Error Reply} (fits : Fits w.request w.awaited)
      (ends : Ends w now outcome) : ∀ g ∈ [Happening.settled w now outcome], SettledWell g := by
    intro g member w' now' outcome' same
    cases List.mem_singleton.mp member
    cases same
    exact ⟨fits, ends⟩
  cases move with
  | arrived item => exact ⟨ok, quiet (by simp)⟩
  | refused idle => exact ⟨ok, appendWell drewWell (quiet (by simp))⟩
  | opened idle => exact ⟨.receiving (awaitsFits ..) (by simp), drewWell⟩
  | wrote idle => exact ⟨.sending (awaitsFits ..), appendWell drewWell (quiet (by simp))⟩
  | unsent sending _ => exact ⟨.idle, quiet (by simp)⟩
  | returned sending => exact ⟨.idle, quiet (by simp)⟩
  | waits sending fresh =>
    have fits := underwaySending ok sending
    refine ⟨?_, by simp⟩
    rcases fresh with rfl | rfl
    · exact .looking fits (by simp)
    · exact .receiving fits (by simp)
  | enters looking =>
    obtain ⟨fits, passed⟩ := underwayWait ok (.inl looking)
    exact ⟨.receiving fits passed, by simp⟩
  | late waiting tooLate _ =>
    obtain ⟨fits, passed⟩ := underwayWait ok waiting
    exact ⟨.idle, settles fits (.late passed tooLate)⟩
  | cancelled receiving =>
    obtain ⟨fits, passed⟩ := underwayWait ok (.inr receiving)
    exact ⟨.idle, settles fits (.cancelled passed)⟩
  | torn receiving ends =>
    obtain ⟨fits, passed⟩ := underwayWait ok (.inr receiving)
    refine ⟨.idle, ?_⟩
    rcases ends with ⟨-, tooLate, rfl⟩ | ⟨-, rfl⟩
    · exact settles fits (.late passed tooLate)
    · exact settles fits (.cancelled passed)
  | failed receiving unread inTime raised =>
    obtain ⟨fits, passed⟩ := underwayWait ok (.inr receiving)
    exact ⟨.idle, settles fits (.failed rfl passed inTime raised)⟩
  | answered receiving unread inTime received taken =>
    obtain ⟨fits, passed⟩ := underwayWait ok (.inr receiving)
    exact ⟨.idle, settles fits (.answered rfl passed inTime received taken)⟩
  | passed receiving unread inTime received foreign =>
    obtain ⟨fits, passed⟩ := underwayWait ok (.inr receiving)
    refine ⟨.looking fits fun r member => ?_, by simp⟩
    rcases List.mem_append.mp member with earlier | last
    · exact passed r earlier
    · cases List.mem_singleton.mp last
      exact ⟨inTime, _, received, foreign⟩

theorem runsUnderway {Meets : Caller → Nat × Act → Prop} {client : VynkorClient} {labels : List (Nat × Act)}
    {events : List Happening} (run : Runs (Caller.machine x codec) Meets (.new client) labels events c) :
    Underway c.doing ∧ ∀ h ∈ events, SettledWell h := by
  refine runsKeep (fun events c => Underway c.doing ∧ ∀ h ∈ events, SettledWell h) ⟨.idle, by simp⟩ ?_ run
  intro events s label t emitted ok _ move
  obtain ⟨underway, settled⟩ := movesUnderway ok.1 (stepMoves move)
  exact ⟨underway, appendWell ok.2 settled⟩

end Calls
end Vynkor.KernelRequests
