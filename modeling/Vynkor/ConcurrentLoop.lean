import Vynkor.Library.Machine
import Vynkor.Protocol

/-! `run_concurrent_loop` of `vynkor/concurrent.py` between its awaits: the loop, the
`recv` and `queue.get` tasks of an iteration, the queue and the handler tasks. What
the client receives and what the handlers do are the labels. -/
namespace Vynkor
open Octets (Bytes)
open Text Labelled

def responseChannelCapacity : Nat := 256

def responseEnvelope (actionId : Str) (result : Except Str Bytes) : Except Error Envelope :=
  match result with
  | .ok data => actionResponse actionId .ok data []
  | .error message => actionResponse actionId .error [] message

theorem refusalMade {actionId message : Str} {envelope : Envelope} :
    responseEnvelope actionId (.error message) = .ok envelope ↔
      Encodable actionId ∧ Encodable message ∧ envelope = ⟨some (.actionResponse ⟨actionId, .error, [], message⟩)⟩ := by
  constructor
  · intro made
    simp only [responseEnvelope] at made
    cases id : textField actionId with
    | error e => simp [actionResponse, id, bind, Except.bind] at made
    | ok _ =>
      cases text : textField message with
      | error e => simp [actionResponse, id, text, bind, Except.bind] at made
      | ok _ =>
        have okId := (textFieldOk.mp id).1
        have okText := (textFieldOk.mp text).1
        rw [actionResponseOk okId okText] at made
        exact ⟨okId, okText, (Except.ok.inj made).symm⟩
  · rintro ⟨id, text, rfl⟩
    exact actionResponseOk id text .error []

/- An envelope in the queue. The ticket is a ghost: how many were put before it. -/
structure Reply where
  ticket : Nat
  envelope : Envelope
  deriving DecidableEq, Repr

inductive HandlerTask where
  | running (request : ActionRequest)
  | putting (envelopes : List Envelope)
  deriving DecidableEq, Repr

/- `waiting` is inside `asyncio.wait`, with what the `recv` task and the `get` task have
returned; in `woken` it has returned, and the task that was pending is cancelled. -/
inductive Control where
  | top
  | waiting (received : Option (Except Error Envelope)) (got : Option Reply)
  | woken (received : Option (Except Error Envelope)) (got : Option Reply)
  | onEvent (event : Event)
  | onMessage (envelope : Envelope)
  | replying (reply : Option Envelope)
  | draining
  | flushing
  | returned
  | raised

def Control.ended : Control → Bool
  | .returned | .raised => true
  | _ => false

structure Loop where
  control : Control
  queue : List Reply
  tasks : List HandlerTask
  puts : Nat

/- An exception whose `str` raises, or a `BaseException` that is no `Exception`, leaves
the loop. -/
inductive Verdict where
  | accepted
  | rejected (message : Str)
  | escapes
  deriving DecidableEq, Repr

/- `goOn` runs the loop from the wait to its next await, `handled` from the end of
`on_event` or `on_message` (`none`: it raised). A `put` is one turn of the loop of `_run`.
`asyncio.wait` may raise, and so may the wait for the task it left pending, where only
`CancelledError` is caught. -/
inductive Turn where
  | iterate
  | received (outcome : Except Error Envelope)
  | got
  | waitRaised
  | wake
  | loserRaised
  | goOn (verdict : Verdict) (now : Nat)
  | handled (outcome : Option (Option Envelope))
  | reply
  | drain
  | complete (task : Nat) (outcome : Except Str (List Envelope))
  | put (task : Nat)

/- `client.send` is called with an envelope from the queue (`handed`) or with one of the
loop's own. -/
inductive Happening where
  | iteration
  | put (reply : Reply)
  | handed (reply : Reply)
  | own (envelope : Envelope)
  | returned
  | raised
  deriving DecidableEq, Repr

namespace Loop

def start : Loop := ⟨.top, [], [], 0⟩

def go (s : Loop) (control : Control) (happened : List Happening) : Option (Loop × List Happening) :=
  some ({ s with control := control }, happened)

def fall (s : Loop) : Option (Loop × List Happening) := s.go .raised [.raised]

def spawn (s : Loop) (request : ActionRequest) : Loop := { s with tasks := s.tasks ++ [.running request] }

def receive (s : Loop) (envelope : Envelope) (verdict : Verdict) (now : Nat) : Option (Loop × List Happening) :=
  match envelope.payload with
  | some (.ping timestamp) => s.go .draining [.own ⟨some (.pong timestamp now)⟩]
  | some (.pluginShutdown _ _) => s.go .flushing []
  | some (.actionRequest request) =>
    match verdict with
    | .accepted => (s.spawn request).go .draining []
    | .rejected message =>
      match responseEnvelope request.actionId (.error message) with
      | .ok refusal => s.go .top [.own refusal]
      | .error _ => s.fall
    | .escapes => s.fall
  | some (.event event) => s.go (.onEvent event) []
  | none => s.go .top []
  | some _ => s.go (.onMessage envelope) []

/- A frame goes first: a reply that the `get` task has returned beside it is not looked at
again. -/
def goOn (s : Loop) (verdict : Verdict) (now : Nat) : Option (Loop × List Happening) :=
  match s.control with
  | .woken (some (.error _)) _ => s.go .flushing []
  | .woken (some (.ok envelope)) _ => s.receive envelope verdict now
  | .woken none (some r) => s.go .top [.handed r]
  | _ => none

def handled (s : Loop) (outcome : Option (Option Envelope)) : Option (Loop × List Happening) :=
  match s.control, outcome with
  | .onEvent _, none => s.go .top []
  | .onEvent event, some reply => s.go (.replying reply) [.own ⟨some (.eventAck event.eventId)⟩]
  | .onMessage _, none => s.go .top []
  | .onMessage _, some none => s.go .draining []
  | .onMessage _, some (some reply) => s.go .draining [.own reply]
  | _, _ => none

def reply (s : Loop) : Option (Loop × List Happening) :=
  match s.control with
  | .replying none => s.go .draining []
  | .replying (some envelope) => s.go .draining [.own envelope]
  | _ => none

def drain (s : Loop) : Option (Loop × List Happening) :=
  match s.control, s.queue with
  | .draining, r :: rest => { s with queue := rest }.go .draining [.handed r]
  | .draining, [] => s.go .top []
  | .flushing, r :: rest => { s with queue := rest }.go .flushing [.handed r]
  | .flushing, [] => s.go .returned [.returned]
  | _, _ => none

def panicMessage (e : Str) : Str := lit "handler panicked: " ++ e

def complete (s : Loop) (task : Nat) (outcome : Except Str (List Envelope)) : Option (Loop × List Happening) :=
  match s.tasks[task]? with
  | some (.running request) =>
    let envelopes := match outcome with
      | .ok envelopes => envelopes
      | .error e => (responseEnvelope request.actionId (.error (panicMessage e))).toOption.toList
    some ({ s with tasks := s.tasks.set task (.putting envelopes) }, [])
  | _ => none

def put (s : Loop) (task : Nat) : Option (Loop × List Happening) :=
  match s.tasks[task]? with
  | some (.putting (envelope :: envelopes)) =>
    if s.queue.length < responseChannelCapacity then
      some ({ s with queue := s.queue ++ [⟨s.puts, envelope⟩]
                     tasks := s.tasks.set task (.putting envelopes)
                     puts := s.puts + 1 }, [.put ⟨s.puts, envelope⟩])
    else none
  | _ => none

def step (s : Loop) : Turn → Option (Loop × List Happening)
  | .iterate =>
    match s.control with
    | .top => s.go (.waiting none none) [.iteration]
    | _ => none
  | .received outcome =>
    match s.control with
    | .waiting none got => s.go (.waiting (some outcome) got) []
    | _ => none
  | .got =>
    match s.control, s.queue with
    | .waiting received none, r :: rest => { s with queue := rest }.go (.waiting received (some r)) []
    | _, _ => none
  | .waitRaised =>
    match s.control with
    | .waiting _ _ => s.fall
    | _ => none
  | .wake =>
    match s.control with
    | .waiting received got =>
      if received.isSome ∨ got.isSome then s.go (.woken received got) [] else none
    | _ => none
  | .loserRaised =>
    match s.control with
    | .woken (some _) none | .woken none (some _) => s.fall
    | _ => none
  | .goOn verdict now => s.goOn verdict now
  | .handled outcome => s.handled outcome
  | .reply => s.reply
  | .drain => s.drain
  | .complete task outcome => s.complete task outcome
  | .put task => s.put task

def machine : Machine Loop Turn Happening := ⟨step⟩

def inHand : Control → List Reply
  | .waiting _ (some r) => [r]
  | .woken none (some r) => [r]
  | _ => []

def held (s : Loop) : List Reply := inHand s.control ++ s.queue

def Rejectable (request : ActionRequest) : Verdict → Prop
  | .accepted => True
  | .rejected message => Encodable request.actionId ∧ Encodable message
  | .escapes => False

instance (request : ActionRequest) (verdict : Verdict) : Decidable (Rejectable request verdict) := by
  unfold Rejectable
  split <;> infer_instance

/- An exception comes out of the loop: of one of its two awaits outside every `try`, or
of `accept` and the answer to it. -/
def Raises (control : Control) : Turn → Prop
  | .waitRaised | .loserRaised => True
  | .goOn verdict _ => match control with
    | .woken (some (.ok ⟨some (.actionRequest request)⟩)) _ => ¬ Rejectable request verdict
    | _ => False
  | _ => False

instance (control : Control) (turn : Turn) : Decidable (Raises control turn) := by
  unfold Raises
  split
  · infer_instance
  · infer_instance
  · split <;> infer_instance
  · infer_instance

def BothDone : Control → Turn → Prop
  | .waiting (some _) (some _), .wake => True
  | _, _ => False

instance (control : Control) (turn : Turn) : Decidable (BothDone control turn) := by
  unfold BothDone
  split <;> infer_instance

/- The turns that can lose a reply are not taken: no wait ends with both tasks done, and
nothing is held where an exception comes out of the loop. -/
def Careful (s : Loop) (turn : Turn) : Prop :=
  ¬ BothDone s.control turn ∧ (Raises s.control turn → s.held = [])

instance (s : Loop) (turn : Turn) : Decidable (Careful s turn) := inferInstanceAs (Decidable (_ ∧ _))

end Loop

namespace Happening

def putReply : Happening → Option Reply
  | put r => some r
  | _ => none

def handedReply : Happening → Option Reply
  | handed r => some r
  | _ => none

def quiet : Happening → Bool
  | iteration => true
  | own _ => true
  | _ => false

def ends : Happening → Bool
  | returned | raised => true
  | _ => false

end Happening

def putReplies (happened : List Happening) : List Reply := happened.filterMap Happening.putReply
def handedReplies (happened : List Happening) : List Reply := happened.filterMap Happening.handedReply

theorem unsaidRaises {request : ActionRequest} {got : Option Reply} {message : Str} {now : Nat} {e : Error}
    (failed : responseEnvelope request.actionId (.error message) = .error e) :
    Loop.Raises (.woken (some (.ok ⟨some (.actionRequest request)⟩)) got) (.goOn (.rejected message) now) := by
  rintro ⟨id, text⟩
  cases failed.symm.trans (refusalMade.mpr ⟨id, text, rfl⟩)

def consumed : Payload → Bool
  | .ping _ | .pluginShutdown _ _ | .actionRequest _ | .event _ => true
  | _ => false

inductive Goes : Control → Turn → List Happening → Control → Prop where
  | iterate : Goes .top .iterate [.iteration] (.waiting none none)
  | received {outcome got} : Goes (.waiting none got) (.received outcome) [] (.waiting (some outcome) got)
  | waitRaised {received got} : Goes (.waiting received got) .waitRaised [.raised] .raised
  | wake {received got} : Goes (.waiting received got) .wake [] (.woken received got)
  | loserRaised {received got} (one : received.isSome ≠ got.isSome) :
      Goes (.woken received got) .loserRaised [.raised] .raised
  | lost {e got verdict now} : Goes (.woken (some (.error e)) got) (.goOn verdict now) [] .flushing
  | ping {timestamp got verdict now} : Goes (.woken (some (.ok ⟨some (.ping timestamp)⟩)) got) (.goOn verdict now)
      [.own ⟨some (.pong timestamp now)⟩] .draining
  | pluginShutdown {reason seconds got verdict now} :
      Goes (.woken (some (.ok ⟨some (.pluginShutdown reason seconds)⟩)) got) (.goOn verdict now) [] .flushing
  | rejected {request got message now refusal} (made : responseEnvelope request.actionId (.error message) = .ok refusal) :
      Goes (.woken (some (.ok ⟨some (.actionRequest request)⟩)) got) (.goOn (.rejected message) now) [.own refusal] .top
  | unsaid {request got message now e} (failed : responseEnvelope request.actionId (.error message) = .error e) :
      Goes (.woken (some (.ok ⟨some (.actionRequest request)⟩)) got) (.goOn (.rejected message) now) [.raised] .raised
  | escapes {request got now} :
      Goes (.woken (some (.ok ⟨some (.actionRequest request)⟩)) got) (.goOn .escapes now) [.raised] .raised
  | event {event got verdict now} :
      Goes (.woken (some (.ok ⟨some (.event event)⟩)) got) (.goOn verdict now) [] (.onEvent event)
  | passedOver {got verdict now} : Goes (.woken (some (.ok ⟨none⟩)) got) (.goOn verdict now) [] .top
  | message {payload got verdict now} (foreign : consumed payload = false) :
      Goes (.woken (some (.ok ⟨some payload⟩)) got) (.goOn verdict now) [] (.onMessage ⟨some payload⟩)
  | handed {r verdict now} : Goes (.woken none (some r)) (.goOn verdict now) [.handed r] .top
  | eventRaised {event} : Goes (.onEvent event) (.handled none) [] .top
  | acked {event reply} :
      Goes (.onEvent event) (.handled (some reply)) [.own ⟨some (.eventAck event.eventId)⟩] (.replying reply)
  | messageRaised {envelope} : Goes (.onMessage envelope) (.handled none) [] .top
  | messageDone {envelope reply} :
      Goes (.onMessage envelope) (.handled (some reply)) (reply.toList.map .own) .draining
  | replied {reply} : Goes (.replying reply) .reply (reply.toList.map .own) .draining

inductive Steps (s : Loop) : Turn → List Happening → Loop → Prop where
  | goes {turn happened control} (goes : Goes s.control turn happened control) :
      Steps s turn happened { s with control := control }
  | got {received r rest} (waiting : s.control = .waiting received none) (queue : s.queue = r :: rest) :
      Steps s .got [] { s with control := .waiting received (some r), queue := rest }
  | accepted {request got now} (woken : s.control = .woken (some (.ok ⟨some (.actionRequest request)⟩)) got) :
      Steps s (.goOn .accepted now) [] { s.spawn request with control := .draining }
  | drained {r rest} (taking : s.control = .draining ∨ s.control = .flushing) (queue : s.queue = r :: rest) :
      Steps s .drain [.handed r] { s with queue := rest }
  | emptied (draining : s.control = .draining) (queue : s.queue = []) : Steps s .drain [] { s with control := .top }
  | returned (flushing : s.control = .flushing) (queue : s.queue = []) :
      Steps s .drain [.returned] { s with control := .returned }
  | completed {task request outcome envelopes} (running : s.tasks[task]? = some (.running request))
      (result : envelopes = match outcome with
        | .ok envelopes => envelopes
        | .error e => (responseEnvelope request.actionId (.error (Loop.panicMessage e))).toOption.toList) :
      Steps s (.complete task outcome) [] { s with tasks := s.tasks.set task (.putting envelopes) }
  | put {task envelope envelopes} (putting : s.tasks[task]? = some (.putting (envelope :: envelopes)))
      (room : s.queue.length < responseChannelCapacity) :
      Steps s (.put task) [.put ⟨s.puts, envelope⟩]
        { s with queue := s.queue ++ [⟨s.puts, envelope⟩], tasks := s.tasks.set task (.putting envelopes), puts := s.puts + 1 }

section Inversion
variable {s t : Loop} {happened : List Happening}

theorem wentSteps {turn : Turn} {before after : Control} {emitted : List Happening} (control : s.control = before)
    (move : s.go after happened = some (t, emitted)) (goes : Goes before turn happened after) : Steps s turn emitted t := by
  cases move
  rw [← control] at goes
  exact .goes goes

theorem receiveSteps {got : Option Reply} {envelope : Envelope} {verdict : Verdict} {now : Nat}
    (control : s.control = .woken (some (.ok envelope)) got)
    (move : s.receive envelope verdict now = some (t, happened)) : Steps s (.goOn verdict now) happened t := by
  obtain ⟨payload⟩ := envelope
  unfold Loop.receive at move
  split at move
  · rename_i timestamp kind
    cases kind
    exact wentSteps control move .ping
  · rename_i reason seconds kind
    cases kind
    exact wentSteps control move .pluginShutdown
  · rename_i request kind
    cases kind
    split at move
    · cases move
      exact .accepted control
    · split at move
      · rename_i made
        exact wentSteps control move (.rejected made)
      · rename_i failed
        exact wentSteps control move (.unsaid failed)
    · exact wentSteps control move .escapes
  · rename_i event kind
    cases kind
    exact wentSteps control move .event
  · rename_i kind
    cases kind
    exact wentSteps control move .passedOver
  · rename_i payload noPing noShutdown noRequest noEvent kind
    cases kind
    refine wentSteps control move (.message ?_)
    cases payload with
    | ping timestamp => exact absurd rfl (noPing timestamp)
    | pluginShutdown reason seconds => exact absurd rfl (noShutdown reason seconds)
    | actionRequest request => exact absurd rfl (noRequest request)
    | event event => exact absurd rfl (noEvent event)
    | _ => rfl

theorem goOnSteps {verdict : Verdict} {now : Nat} (move : s.goOn verdict now = some (t, happened)) :
    Steps s (.goOn verdict now) happened t := by
  unfold Loop.goOn at move
  split at move
  · rename_i control
    exact wentSteps control move .lost
  · rename_i control
    exact receiveSteps control move
  · rename_i control
    exact wentSteps control move .handed
  · contradiction

theorem handledSteps {outcome : Option (Option Envelope)} (move : s.handled outcome = some (t, happened)) :
    Steps s (.handled outcome) happened t := by
  unfold Loop.handled at move
  split at move
  · rename_i control
    exact wentSteps control move .eventRaised
  · rename_i control
    exact wentSteps control move .acked
  · rename_i control
    exact wentSteps control move .messageRaised
  · rename_i control
    exact wentSteps control move .messageDone
  · rename_i control
    exact wentSteps control move .messageDone
  · contradiction

theorem replySteps (move : s.reply = some (t, happened)) : Steps s .reply happened t := by
  unfold Loop.reply at move
  split at move
  · rename_i control
    exact wentSteps control move .replied
  · rename_i control
    exact wentSteps control move .replied
  · contradiction

theorem drainSteps (move : s.drain = some (t, happened)) : Steps s .drain happened t := by
  unfold Loop.drain at move
  split at move
  · rename_i r rest control queue
    cases move
    have taken := Steps.drained (s := s) (.inl control) queue
    rwa [control] at taken
  · rename_i control queue
    cases move
    exact .emptied control queue
  · rename_i r rest control queue
    cases move
    have taken := Steps.drained (s := s) (.inr control) queue
    rwa [control] at taken
  · rename_i control queue
    cases move
    exact .returned control queue
  · contradiction

theorem stepSteps {turn : Turn} (move : s.step turn = some (t, happened)) : Steps s turn happened t := by
  cases turn with
  | iterate =>
    simp only [Loop.step] at move
    split at move
    · rename_i control
      exact wentSteps control move .iterate
    · contradiction
  | received outcome =>
    simp only [Loop.step] at move
    split at move
    · rename_i control
      exact wentSteps control move .received
    · contradiction
  | got =>
    simp only [Loop.step] at move
    split at move
    · rename_i control queue
      cases move
      exact .got control queue
    · contradiction
  | waitRaised =>
    simp only [Loop.step] at move
    split at move
    · rename_i control
      exact wentSteps control move .waitRaised
    · contradiction
  | wake =>
    simp only [Loop.step] at move
    split at move
    · rename_i control
      split at move
      · exact wentSteps control move .wake
      · contradiction
    · contradiction
  | loserRaised =>
    simp only [Loop.step] at move
    split at move
    · rename_i control
      exact wentSteps control move (.loserRaised (by simp))
    · rename_i control
      exact wentSteps control move (.loserRaised (by simp))
    · contradiction
  | goOn verdict now => exact goOnSteps move
  | handled outcome => exact handledSteps move
  | reply => exact replySteps move
  | drain => exact drainSteps move
  | complete task outcome =>
    simp only [Loop.step, Loop.complete] at move
    split at move
    · rename_i running
      cases move
      exact .completed running rfl
    · contradiction
  | put task =>
    simp only [Loop.step, Loop.put] at move
    split at move
    · rename_i putting
      split at move
      · rename_i room
        cases move
        exact .put putting room
      · contradiction
    · contradiction

end Inversion

inductive Moves (s : Loop) (turn : Turn) : List Happening → Loop → Prop where
  | quiet {happened t} (alike : ∀ h ∈ happened, h.quiet = true) (same : t.held = s.held)
      (ended : s.control.ended = true → t.control.ended = true) : Moves s turn happened t
  | put {r t} (behind : t.held = s.held ++ [r]) (ended : s.control.ended = true → t.control.ended = true) :
      Moves s turn [.put r] t
  | handed {r t} (first : s.held = r :: t.held) (running : s.control.ended = false) : Moves s turn [.handed r] t
  | dropped {r t} (both : Loop.BothDone s.control turn) (first : s.held = r :: t.held) (running : s.control.ended = false) :
      Moves s turn [] t
  | returned {t} (flushed : s.held = []) (nothing : t.held = []) (running : s.control.ended = false)
      (ended : t.control.ended = true) : Moves s turn [.returned] t
  | raised {t} (raises : Loop.Raises s.control turn) (left : t.held.Sublist s.held) (running : s.control.ended = false)
      (ended : t.control.ended = true) : Moves s turn [.raised] t

section Replies
variable {s t : Loop} {turn : Turn} {happened : List Happening}

theorem goesQuiet {before after : Control} (control : s.control = before) (running : before.ended = false)
    (alike : ∀ h ∈ happened, h.quiet = true) (same : Loop.inHand after = Loop.inHand before) :
    Moves s turn happened { s with control := after } := by
  refine .quiet alike ?_ fun ended => ?_
  · simp only [Loop.held, same, control]
  · rw [control, running] at ended
    cases ended

theorem goesRaised {before : Control} (control : s.control = before) (running : before.ended = false)
    (raises : Loop.Raises before turn) : Moves s turn [.raised] { s with control := .raised } := by
  rw [← control] at running raises
  refine .raised raises ?_ running rfl
  exact List.sublist_append_right (Loop.inHand s.control) s.queue

theorem ownQuiet (reply : Option Envelope) : ∀ h ∈ reply.toList.map Happening.own, h.quiet = true := by
  intro h member
  obtain ⟨envelope, -, rfl⟩ := List.mem_map.mp member
  rfl

theorem wakeMoves {received : Option (Except Error Envelope)} {got : Option Reply}
    (control : s.control = .waiting received got) : Moves s .wake [] { s with control := .woken received got } := by
  cases received with
  | none => exact goesQuiet control rfl nofun (by cases got <;> rfl)
  | some outcome =>
    cases got with
    | none => exact goesQuiet control rfl nofun rfl
    | some r =>
      refine .dropped (r := r) ?_ ?_ (by rw [control]; rfl)
      · simp only [Loop.BothDone, control]
      · simp only [Loop.held, control, Loop.inHand, List.singleton_append, List.nil_append]

theorem goesMoves {after : Control} (goes : Goes s.control turn happened after) :
    Moves s turn happened { s with control := after } := by
  generalize control : s.control = before at goes
  cases goes with
  | wake => exact wakeMoves control
  | waitRaised | loserRaised _ | escapes => exact goesRaised control rfl (by simp [Loop.Raises, Loop.Rejectable])
  | unsaid failed => exact goesRaised control rfl (unsaidRaises failed)
  | @received outcome got => exact goesQuiet control rfl nofun (by cases got <;> rfl)
  | @handed r verdict now =>
    refine .handed ?_ (by rw [control]; rfl)
    simp only [Loop.held, control, Loop.inHand, List.nil_append, List.singleton_append]
  | messageDone | replied => exact goesQuiet control rfl (ownQuiet _) rfl
  | iterate | ping | rejected _ | acked => exact goesQuiet control rfl (by simp [Happening.quiet]) rfl
  | lost | pluginShutdown | event | passedOver | message _ | eventRaised | messageRaised =>
    exact goesQuiet control rfl nofun rfl

theorem goesRaises {before after : Control} (goes : Goes before turn happened after) :
    after = .raised ↔ Loop.Raises before turn := by
  cases goes with
  | waitRaised | loserRaised _ | escapes => exact iff_of_true rfl (by simp [Loop.Raises, Loop.Rejectable])
  | unsaid failed => exact iff_of_true rfl (unsaidRaises failed)
  | rejected made =>
    obtain ⟨id, text, -⟩ := refusalMade.mp made
    exact iff_of_false nofun (not_not.mpr ⟨id, text⟩)
  | @message payload _ _ _ foreign =>
    cases payload with
    | actionRequest request => cases foreign
    | _ => exact iff_of_false nofun id
  | _ => exact iff_of_false nofun id

theorem turnRaises (going : s.control ≠ .raised) (move : s.step turn = some (t, happened)) :
    t.control = .raised ↔ Loop.Raises s.control turn := by
  cases stepSteps move with
  | goes goes => exact goesRaises goes
  | accepted woken => exact iff_of_false nofun (by simp [Loop.Raises, Loop.Rejectable, woken])
  | got | emptied | returned => exact iff_of_false nofun id
  | drained | completed | put => exact iff_of_false going id

theorem stepMoves (move : Loop.machine.step s turn = some (t, happened)) : Moves s turn happened t := by
  cases stepSteps move with
  | goes goes => exact goesMoves goes
  | @got received r rest waiting queue =>
    refine .quiet nofun ?_ (by simp [waiting, Control.ended])
    simp only [Loop.held, waiting, queue, Loop.inHand, List.nil_append, List.singleton_append]
  | accepted woken =>
    refine .quiet nofun ?_ (by simp [woken, Control.ended])
    simp only [Loop.held, Loop.spawn, woken, Loop.inHand]
  | drained taking queue =>
    rcases taking with control | control
    · refine .handed ?_ (by rw [control]; rfl)
      simp only [Loop.held, control, queue, Loop.inHand, List.nil_append]
    · refine .handed ?_ (by rw [control]; rfl)
      simp only [Loop.held, control, queue, Loop.inHand, List.nil_append]
  | emptied draining _ => exact goesQuiet draining rfl nofun rfl
  | returned flushing queue =>
    refine .returned ?_ ?_ (by rw [flushing]; rfl) rfl
    · simp only [Loop.held, flushing, queue, Loop.inHand, List.nil_append]
    · simp only [Loop.held, queue, Loop.inHand, List.nil_append]
  | completed => exact .quiet nofun rfl id
  | put => exact .put (by simp only [Loop.held, List.append_assoc]) id

end Replies

/- The replies put are the replies handed over and those held, in this order, and
where the loop ended it held none. -/
structure Accounts (happened : List Happening) (s : Loop) : Prop where
  balanced : putReplies happened = handedReplies happened ++ s.held
  ended : ∀ h ∈ happened, h.ends = true → s.control.ended = true
  flushed : ∀ before h after, happened = before ++ h :: after → h.ends = true → putReplies before = handedReplies before

section Runs
variable {s t : Loop} {happened emitted : List Happening}

theorem putsAppend (happened more : List Happening) : putReplies (happened ++ more) = putReplies happened ++ putReplies more :=
  List.filterMap_append

theorem handedAppend (happened more : List Happening) :
    handedReplies (happened ++ more) = handedReplies happened ++ handedReplies more :=
  List.filterMap_append

theorem quietReplies (alike : ∀ h ∈ emitted, h.quiet = true) :
    putReplies emitted = [] ∧ handedReplies emitted = [] ∧ ∀ h ∈ emitted, h.ends = false := by
  refine ⟨List.filterMap_eq_nil_iff.mpr fun h member => ?_, List.filterMap_eq_nil_iff.mpr fun h member => ?_,
    fun h member => ?_⟩ <;> have calm := alike h member <;> cases h <;> first | rfl | cases calm

theorem movesConserve {turn : Turn} (careful : s.Careful turn) (move : Moves s turn emitted t) :
    s.held ++ putReplies emitted = handedReplies emitted ++ t.held := by
  cases move with
  | quiet alike same ended =>
    obtain ⟨noPut, noHanded, -⟩ := quietReplies alike
    rw [noPut, noHanded, same, List.append_nil, List.nil_append]
  | put behind ended => exact behind.symm
  | handed first running => exact (List.append_nil _).trans first
  | dropped both => exact absurd both careful.1
  | returned flushed nothing running ended => rw [flushed, nothing]; rfl
  | raised raises left running ended =>
    have flushed := careful.2 raises
    have nothing : t.held = [] := List.sublist_nil.mp (flushed ▸ left)
    rw [flushed, nothing]
    rfl

theorem conserved (balanced : putReplies happened = handedReplies happened ++ s.held)
    (kept : s.held ++ putReplies emitted = handedReplies emitted ++ t.held) :
    putReplies (happened ++ emitted) = handedReplies (happened ++ emitted) ++ t.held := by
  rw [putsAppend, handedAppend, balanced, List.append_assoc, kept, List.append_assoc]

theorem goesOnAccount (ok : Accounts happened s) (going : ∀ h ∈ emitted, h.ends = false)
    (kept : s.held ++ putReplies emitted = handedReplies emitted ++ t.held)
    (ended : s.control.ended = true → t.control.ended = true) : Accounts (happened ++ emitted) t where
  balanced := conserved ok.balanced kept
  ended h member ends := by
    rcases List.mem_append.mp member with before | now
    · exact ended (ok.ended h before ends)
    · cases (going h now).symm.trans ends
  flushed before h after cut ends := by
    rcases List.append_eq_append_iff.mp cut with ⟨middle, rfl, inside⟩ | ⟨middle, here, inside⟩
    · have last : h ∈ emitted := inside ▸ List.mem_append_right _ List.mem_cons_self
      cases (going h last).symm.trans ends
    · cases middle with
      | nil =>
        rw [List.nil_append] at inside
        have last : h ∈ emitted := inside ▸ List.mem_cons_self
        cases (going h last).symm.trans ends
      | cons first rest =>
        cases inside
        exact ok.flushed before h rest here ends

theorem endsAccount {last : Happening} (ok : Accounts happened s) (flushed : s.held = [])
    (kept : s.held ++ putReplies [last] = handedReplies [last] ++ t.held) (running : s.control.ended = false)
    (ended : t.control.ended = true) : Accounts (happened ++ [last]) t := by
  have balanced := ok.balanced
  rw [flushed, List.append_nil] at balanced
  refine ⟨conserved ok.balanced kept, fun _ _ _ => ended, fun before h after cut ends => ?_⟩
  · rcases List.append_eq_append_iff.mp cut with ⟨middle, rfl, inside⟩ | ⟨middle, here, inside⟩
    · cases middle with
      | nil => rwa [List.append_nil]
      | cons first rest => simp at inside
    · cases middle with
      | nil =>
        rw [here, List.append_nil] at balanced
        exact balanced
      | cons first rest =>
        cases inside
        have again := ok.ended _ (here ▸ List.mem_append_right _ List.mem_cons_self) ends
        cases running.symm.trans again

theorem movesAccount {turn : Turn} (ok : Accounts happened s) (careful : s.Careful turn) (move : Moves s turn emitted t) :
    Accounts (happened ++ emitted) t := by
  have stays {ended : Bool} (running : s.control.ended = false) : s.control.ended = true → ended = true := by
    intro ended
    cases running.symm.trans ended
  have kept := movesConserve careful move
  cases move with
  | quiet alike same ended => exact goesOnAccount ok (quietReplies alike).2.2 kept ended
  | put behind ended => exact goesOnAccount ok (by simp [Happening.ends]) kept ended
  | handed first running => exact goesOnAccount ok (by simp [Happening.ends]) kept (stays running)
  | dropped both => exact absurd both careful.1
  | returned flushed nothing running ended => exact endsAccount ok flushed kept running ended
  | raised raises left running ended => exact endsAccount ok (careful.2 raises) kept running ended

end Runs

/- No reply is lost: what was put before the iteration in which the loop ends, by
returning or by an exception, is handed to the client before it ends. -/
def RepliesHanded (happened : List Happening) : Prop :=
  ∀ before last finish after, happened = (before ++ .iteration :: last) ++ finish :: after → finish.ends = true →
    .iteration ∉ last → ∀ r, .put r ∈ before → .handed r ∈ before ++ .iteration :: last

theorem handedOf {happened : List Happening} {r : Reply} (member : r ∈ handedReplies happened) :
    .handed r ∈ happened := by
  obtain ⟨h, inside, handed⟩ := List.mem_filterMap.mp member
  cases h with
  | handed reply =>
    cases handed
    exact inside
  | iteration | put _ | own _ | returned | raised => cases handed

/- While `asyncio.wait` never returns with both tasks done, and no exception comes out of
the loop while it holds a reply, no reply is lost, and each is handed over at most once and
in the order of the puts. -/
theorem repliesHanded (turns : List Turn) (happened : List Happening) (s : Loop)
    (run : Runs Loop.machine Loop.Careful .start turns happened s) :
    RepliesHanded happened ∧ handedReplies happened <+: putReplies happened := by
  have accounts : Accounts happened s := by
    refine runsKeep Accounts ⟨rfl, nofun, fun before h after cut _ => ?_⟩ ?_ run
    · exact absurd cut (by simp)
    · intro happened s turn t emitted ok careful move
      exact movesAccount ok careful (stepMoves move)
  refine ⟨fun before last finish after cut ends _ r put => ?_, ?_⟩
  · have member : r ∈ putReplies (before ++ .iteration :: last) :=
      List.mem_filterMap.mpr ⟨_, List.mem_append_left _ put, rfl⟩
    rw [accounts.flushed _ _ _ cut ends] at member
    exact handedOf member
  · rw [accounts.balanced]
    exact List.prefix_append _ _

def sampleRequest : ActionRequest := ⟨lit "a1", lit "get", [], 0, false, []⟩
def sampleAnswer : Envelope := ⟨some (.actionResponse ⟨lit "a1", .ok, [1], []⟩)⟩

def sampleServes : List Turn :=
  [.iterate, .received (.ok ⟨some (.actionRequest sampleRequest)⟩), .wake, .goOn .accepted 0, .drain, .iterate,
    .complete 0 (.ok [sampleAnswer, sampleAnswer]), .put 0, .put 0, .got]

def sampleShutdown : List Turn :=
  [.iterate, .received (.ok ⟨some (.pluginShutdown [] 0)⟩), .wake, .goOn .accepted 0, .drain, .drain]

def sampleAnswered : List Happening :=
  [.iteration, .iteration, .put ⟨0, sampleAnswer⟩, .put ⟨1, sampleAnswer⟩, .handed ⟨0, sampleAnswer⟩, .iteration,
    .handed ⟨1, sampleAnswer⟩, .returned]

theorem repliesHandedSample : RepliesHanded sampleAnswered := by
  have ran : ((Loop.machine.restrict Loop.Careful).run .start
      (sampleServes ++ [.wake, .goOn .accepted 0] ++ sampleShutdown)).map Prod.snd = some sampleAnswered := by
    decide +kernel
  obtain ⟨⟨s, happened⟩, run, same⟩ := Option.map_eq_some_iff.mp ran
  cases same
  exact (repliesHanded _ _ s (runsOfRestricted run)).1

def sampleCrossed : List Happening :=
  [.iteration, .iteration, .put ⟨0, sampleAnswer⟩, .put ⟨1, sampleAnswer⟩, .own ⟨some (.pong 7 8)⟩,
    .handed ⟨1, sampleAnswer⟩, .iteration, .returned]

theorem replyDropped : ¬ ∀ turns happened s, Runs Loop.machine Always .start turns happened s → RepliesHanded happened := by
  intro claim
  have ran : (Loop.machine.run .start (sampleServes ++
      [.received (.ok ⟨some (.ping 7)⟩), .wake, .goOn .accepted 8, .drain, .drain] ++
      sampleShutdown.dropLast)).map Prod.snd = some sampleCrossed := by
    decide +kernel
  obtain ⟨⟨s, happened⟩, run, same⟩ := Option.map_eq_some_iff.mp ran
  cases same
  have handed := claim _ _ s (runsOfRun run) (sampleCrossed.take 6) [] .returned [] rfl rfl nofun ⟨0, sampleAnswer⟩ (by decide +kernel)
  exact absurd handed (by decide +kernel)

end Vynkor
