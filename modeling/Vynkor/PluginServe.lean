import Vynkor.Library.Machine
import Vynkor.Protocol

/-! `Plugin.serve` of `vynkor/plugin.py` between its awaits. What the client receives,
what its sends come to and what the hooks do are the labels. -/
namespace Vynkor.Plugin
open Octets (Bytes)
open Text Labelled

structure Thrown where
  isException : Bool
  text : Str
  deriving DecidableEq, Repr

abbrev Hook := Except Thrown (Option Envelope)

structure Inbound where
  envelope : Envelope
  now : Nat
  deriving DecidableEq, Repr

/- `initFailed` is inside the `on_shutdown` after `on_init` has raised, `closing` inside
that of the `finally`, with the exception that is on its way. -/
inductive Stage where
  | registering
  | initialising
  | initFailed (e : Thrown)
  | receiving
  | ponging
  | onEvent (event : Event)
  | acking (reply : Option Envelope)
  | onMessage
  | replying
  | closing (pending : Option Thrown)
  | ended (outcome : Except Thrown Unit)
  deriving DecidableEq, Repr

inductive Resume where
  | registered (outcome : Except Thrown PluginRegisterAck)
  | initialised (outcome : Except Thrown Unit)
  | received (outcome : Except Thrown Inbound)
  | sent (outcome : Except Thrown Unit)
  | handled (outcome : Hook)
  | shut (outcome : Except Thrown Unit)
  deriving DecidableEq, Repr

inductive Effect where
  | onInit
  | onEvent (event : Event)
  | onMessage (envelope : Envelope)
  | onShutdown
  | sends (envelope : Envelope)
  | ended (outcome : Except Thrown Unit)
  deriving DecidableEq, Repr

namespace Stage

def finish (outcome : Except Thrown Unit) : Option (Stage × List Effect) := some (ended outcome, [.ended outcome])

def close (pending : Option Thrown) : Option (Stage × List Effect) := some (closing pending, [.onShutdown])

def rejection (ack : PluginRegisterAck) : Thrown := ⟨true, lit "registration rejected: " ++ ack.rejectReason⟩

def register : Except Thrown PluginRegisterAck → Option (Stage × List Effect)
  | .error e => finish (.error e)
  | .ok ack => if ack.accepted then some (initialising, [.onInit]) else finish (.error (rejection ack))

def initialise : Except Thrown Unit → Option (Stage × List Effect)
  | .ok () => some (receiving, [])
  | .error e => some (initFailed e, [.onShutdown])

def pong (timestamp now : Nat) : Envelope := ⟨some (.pong timestamp now)⟩
def eventAck (event : Event) : Envelope := ⟨some (.eventAck event.eventId)⟩

def receive : Except Thrown Inbound → Option (Stage × List Effect)
  | .error e => close (if e.isException then none else some e)
  | .ok inbound =>
    match inbound.envelope.payload with
    | some (.ping timestamp) => some (ponging, [.sends (pong timestamp inbound.now)])
    | some (.pluginShutdown _ _) => close none
    | some (.event event) => some (onEvent event, [.onEvent event])
    | _ => some (onMessage, [.onMessage inbound.envelope])

def answer : Option Envelope → Option (Stage × List Effect)
  | none => some (receiving, [])
  | some reply => some (replying, [.sends reply])

def handledEvent (event : Event) : Hook → Option (Stage × List Effect)
  | .ok reply => some (acking reply, [.sends (eventAck event)])
  | .error e => if e.isException then some (receiving, []) else close (some e)

def handledMessage : Hook → Option (Stage × List Effect)
  | .ok reply => answer reply
  | .error e => close (some e)

/- `on_shutdown` of the `finally` has ended; what it raises takes the place of what
was on its way. -/
def shut (pending : Option Thrown) : Except Thrown Unit → Option (Stage × List Effect)
  | .error e => finish (.error e)
  | .ok () =>
    match pending with
    | none => finish (.ok ())
    | some e => finish (.error e)

def step : Stage → Resume → Option (Stage × List Effect)
  | registering, .registered outcome => register outcome
  | initialising, .initialised outcome => initialise outcome
  | initFailed e, .shut _ => finish (.error e)
  | receiving, .received outcome => receive outcome
  | ponging, .sent (.ok ()) => some (receiving, [])
  | ponging, .sent (.error e) => close (some e)
  | onEvent event, .handled outcome => handledEvent event outcome
  | acking reply, .sent (.ok ()) => answer reply
  | acking _, .sent (.error e) => close (some e)
  | onMessage, .handled outcome => handledMessage outcome
  | replying, .sent (.ok ()) => some (receiving, [])
  | replying, .sent (.error e) => close (some e)
  | closing pending, .shut outcome => shut pending outcome
  | _, _ => none

end Stage

def serve : Machine Stage Resume Effect := ⟨Stage.step⟩

structure Visit where
  inbound : Inbound
  hook : Hook
  deriving DecidableEq, Repr

namespace Visit

def calls (v : Visit) : List Effect :=
  match v.inbound.envelope.payload with
  | some (.ping _) | some (.pluginShutdown _ _) => []
  | some (.event event) => [.onEvent event]
  | _ => [.onMessage v.inbound.envelope]

def replies (v : Visit) : List Envelope :=
  match v.inbound.envelope.payload with
  | some (.ping timestamp) => [⟨some (.pong timestamp v.inbound.now)⟩]
  | some (.pluginShutdown _ _) => []
  | some (.event event) =>
    match v.hook with
    | .ok reply => ⟨some (.eventAck event.eventId)⟩ :: reply.toList
    | .error _ => []
  | _ =>
    match v.hook with
    | .ok reply => reply.toList
    | .error _ => []

/- The first `PluginShutdown` ends the loop, and the first envelope on which
`on_message` raises; `some` is what `serve` raises then. -/
def stop (v : Visit) : Option (Option Thrown) :=
  match v.inbound.envelope.payload with
  | some (.pluginShutdown _ _) => some none
  | some (.ping _) | some (.event _) => none
  | _ =>
    match v.hook with
    | .ok _ => none
    | .error e => some (some e)

def resumes (v : Visit) : List Resume :=
  match v.inbound.envelope.payload with
  | some (.ping _) => [.sent (.ok ())]
  | some (.pluginShutdown _ _) => []
  | some (.event _) =>
    .handled v.hook :: match v.hook with
      | .ok none => [.sent (.ok ())]
      | .ok (some _) => [.sent (.ok ()), .sent (.ok ())]
      | .error _ => []
  | _ =>
    .handled v.hook :: match v.hook with
      | .ok (some _) => [.sent (.ok ())]
      | _ => []

end Visit

def served (visits : List Visit) : List Visit := visits.takeWhile fun v => v.stop.isNone
def stopper (visits : List Visit) : Option Visit := visits.find? fun v => v.stop.isSome

def raises (visits : List Visit) : Option Thrown := (stopper visits).bind fun v => v.stop.join

def ending (visits : List Visit) : Except Thrown Unit :=
  match raises visits with
  | none => .ok ()
  | some e => .error e

def resumed (lost : Thrown) : List Visit → List Resume
  | [] => [.received (.error lost)]
  | v :: rest => .received (.ok v.inbound) :: v.resumes ++ if v.stop.isSome then [] else resumed lost rest

def Effect.sent : Effect → Option Envelope
  | .sends envelope => some envelope
  | _ => none

def Effect.hook : Effect → Bool
  | .onEvent _ | .onMessage _ => true
  | _ => false

def sentBy (effects : List Effect) : List Envelope := effects.filterMap Effect.sent
def hooksOf (effects : List Effect) : List Effect := effects.filter Effect.hook

def effects (v : Visit) : List Effect := v.calls ++ v.replies.map .sends

inductive Kind (i : Inbound) : Prop where
  | ping {timestamp} (kind : i.envelope.payload = some (.ping timestamp))
  | pluginShutdown {reason seconds} (kind : i.envelope.payload = some (.pluginShutdown reason seconds))
  | event {event} (kind : i.envelope.payload = some (.event event))
  | other (receives : Stage.receive (.ok i) = some (.onMessage, [.onMessage i.envelope]))
      (calls : ∀ hook, (Visit.mk i hook).calls = [.onMessage i.envelope])
      (replies : ∀ hook, (Visit.mk i hook).replies = match hook with | .ok reply => reply.toList | .error _ => [])
      (stop : ∀ hook, (Visit.mk i hook).stop = match hook with | .ok _ => none | .error e => some (some e))
      (resumes : ∀ hook, (Visit.mk i hook).resumes =
        .handled hook :: match hook with | .ok (some _) => [.sent (.ok ())] | _ => [])

theorem kindOf (i : Inbound) : Kind i := by
  obtain ⟨⟨payload⟩, now⟩ := i
  have rest (other : ∀ hook, (Visit.mk ⟨⟨payload⟩, now⟩ hook).calls = [.onMessage ⟨payload⟩] ∧
      (Visit.mk ⟨⟨payload⟩, now⟩ hook).replies = (match hook with | .ok reply => reply.toList | .error _ => []) ∧
      (Visit.mk ⟨⟨payload⟩, now⟩ hook).stop = (match hook with | .ok _ => none | .error e => some (some e)) ∧
      (Visit.mk ⟨⟨payload⟩, now⟩ hook).resumes =
        .handled hook :: match hook with | .ok (some _) => [.sent (.ok ())] | _ => [])
      (receives : Stage.receive (.ok ⟨⟨payload⟩, now⟩) = some (.onMessage, [.onMessage ⟨payload⟩])) : Kind ⟨⟨payload⟩, now⟩ :=
    .other receives (fun hook => (other hook).1) (fun hook => (other hook).2.1) (fun hook => (other hook).2.2.1)
      (fun hook => (other hook).2.2.2)
  cases payload with
  | none => exact rest (fun _ => ⟨rfl, rfl, rfl, rfl⟩) rfl
  | some kind =>
    cases kind
    case ping timestamp => exact .ping rfl
    case pluginShutdown reason seconds => exact .pluginShutdown rfl
    case event event => exact .event rfl
    all_goals exact rest (fun _ => ⟨rfl, rfl, rfl, rfl⟩) rfl

def Visit.Fair (v : Visit) : Prop := ∀ e, v.hook = .error e → e.isException = true

section Loop
variable {v : Visit} {visits : List Visit} {lost : Thrown}

def after (v : Visit) : Stage :=
  match v.stop with
  | none => .receiving
  | some pending => .closing pending

theorem visitRuns (fair : v.Fair) :
    serve.run .receiving (.received (.ok v.inbound) :: v.resumes) =
      some (after v, effects v ++ if v.stop.isSome then [.onShutdown] else []) := by
  obtain ⟨i, hook⟩ := v
  cases kindOf i with
  | ping kind | pluginShutdown kind =>
    simp [Machine.run, serve, Stage.step, Stage.receive, Stage.close, Stage.pong, after, effects, Visit.resumes, Visit.stop,
      Visit.calls, Visit.replies, kind]
  | event kind =>
    cases hook with
    | error e =>
      have exception := fair e rfl
      simp [Machine.run, serve, Stage.step, Stage.receive, Stage.handledEvent, after, effects, Visit.resumes, Visit.stop,
        Visit.calls, Visit.replies, kind, exception]
    | ok reply =>
      cases reply <;>
        simp [Machine.run, serve, Stage.step, Stage.receive, Stage.handledEvent, Stage.answer, Stage.eventAck, after, effects,
          Visit.resumes, Visit.stop, Visit.calls, Visit.replies, kind]
  | other receives calls replies stop resumes =>
    cases hook with
    | error e =>
      simp [Machine.run, serve, Stage.step, receives, Stage.handledMessage, Stage.close, after, effects, calls, replies, stop,
        resumes]
    | ok reply =>
      cases reply <;>
        simp [Machine.run, serve, Stage.step, receives, Stage.handledMessage, Stage.answer, after, effects, calls, replies,
          stop, resumes]

def loopEffects (visits : List Visit) : List Effect :=
  (served visits).flatMap effects ++ (stopper visits).toList.flatMap effects

theorem loopEffectsCons (going : v.stop = none) : loopEffects (v :: visits) = effects v ++ loopEffects visits := by
  simp [loopEffects, served, stopper, going]

theorem loopEffectsStop {pending : Option Thrown} (stops : v.stop = some pending) : loopEffects (v :: visits) = effects v := by
  simp [loopEffects, served, stopper, stops]

theorem raisesCons (going : v.stop = none) : raises (v :: visits) = raises visits := by
  simp [raises, stopper, going]

theorem raisesStop {pending : Option Thrown} (stops : v.stop = some pending) : raises (v :: visits) = pending := by
  simp [raises, stopper, stops]

/- Induction over the envelopes: the loop ends at the first that stops it, or where
`recv` raises. -/
theorem loopRuns (fair : ∀ v ∈ visits, v.Fair) :
    ∃ pending, (lost.isException = true → pending = raises visits) ∧
      serve.run .receiving (resumed lost visits) = some (.closing pending, loopEffects visits ++ [.onShutdown]) := by
  induction visits with
  | nil =>
    refine ⟨if lost.isException then none else some lost, fun exception => by simp [exception, raises, stopper], ?_⟩
    simp [resumed, Machine.run, serve, Stage.step, Stage.receive, Stage.close, stopper, loopEffects, served]
  | cons v rest ih =>
    have here := visitRuns (fair v List.mem_cons_self)
    unfold resumed
    cases stops : v.stop with
    | some pending =>
      rw [loopEffectsStop stops, raisesStop stops]
      exact ⟨pending, fun _ => rfl, by simpa [after, stops] using here⟩
    | none =>
      obtain ⟨pending, raised, later⟩ := ih fun w member => fair w (List.mem_cons_of_mem _ member)
      have whole := Machine.runJoin here (by simpa [after, stops] using later)
      rw [loopEffectsCons stops, raisesCons stops]
      exact ⟨pending, raised, by simpa [stops] using whole⟩

end Loop

def lifetime (ack : PluginRegisterAck) (visits : List Visit) (lost : Thrown) : List Resume :=
  .registered (.ok ack) :: .initialised (.ok ()) :: (resumed lost visits ++ [.shut (.ok ())])

theorem lifetimeRuns {ack : PluginRegisterAck} {visits : List Visit} {lost : Thrown} (accepted : ack.accepted = true)
    (exception : lost.isException = true) (fair : ∀ v ∈ visits, v.Fair) :
    serve.run .registering (lifetime ack visits lost) =
      some (.ended (ending visits), .onInit :: loopEffects visits ++ [.onShutdown, .ended (ending visits)]) := by
  have starts : serve.run .registering [.registered (.ok ack), .initialised (.ok ())] = some (.receiving, [.onInit]) := by
    simp [Machine.run, serve, Stage.step, Stage.register, Stage.initialise, accepted]
  have ends : serve.run (.closing (raises visits)) [.shut (.ok ())] = some (.ended (ending visits), [.ended (ending visits)]) := by
    unfold ending
    cases raises visits <;> rfl
  obtain ⟨pending, raised, looped⟩ := loopRuns fair
  cases raised exception
  have whole := Machine.runJoin (Machine.runJoin starts looped) ends
  simpa [lifetime] using whole

theorem filterMapSends (envelopes : List Envelope) : (envelopes.map .sends).filterMap Effect.sent = envelopes := by
  induction envelopes with
  | nil => rfl
  | cons e rest ih => simp only [List.map_cons, List.filterMap_cons, Effect.sent, ih]

theorem callsOnly (v : Visit) : v.calls.filterMap Effect.sent = [] ∧ v.calls.filter Effect.hook = v.calls := by
  obtain ⟨i, hook⟩ := v
  cases kindOf i with
  | ping kind | pluginShutdown kind | event kind => simp [Visit.calls, kind, Effect.sent, Effect.hook]
  | other receives calls replies stop resumes => simp [calls, Effect.sent, Effect.hook]

theorem effectsSent (v : Visit) : sentBy (effects v) = v.replies := by
  rw [sentBy, effects, List.filterMap_append, (callsOnly v).1, filterMapSends, List.nil_append]

theorem effectsHooks (v : Visit) : hooksOf (effects v) = v.calls := by
  have none : (v.replies.map Effect.sends).filter Effect.hook = [] := by
    simp [List.filter_eq_nil_iff, Effect.hook]
  rw [hooksOf, effects, List.filter_append, (callsOnly v).2, none, List.append_nil]

theorem stoppedSilent {v : Visit} (stops : v.stop.isSome) : v.replies = [] := by
  obtain ⟨i, hook⟩ := v
  cases kindOf i with
  | ping kind | event kind => simp [Visit.stop, kind] at stops
  | pluginShutdown kind => simp [Visit.replies, kind]
  | other receives calls replies stop resumes =>
    rw [stop] at stops
    rw [replies]
    cases hook with
    | ok reply => simp at stops
    | error e => rfl

theorem loopSent (visits : List Visit) : sentBy (loopEffects visits) = (served visits).flatMap Visit.replies := by
  induction visits with
  | nil => rfl
  | cons v rest ih =>
    cases stops : v.stop with
    | some pending =>
      have silent := stoppedSilent (v := v) (by simp [stops])
      rw [loopEffectsStop stops, effectsSent, silent]
      simp [served, stops]
    | none =>
      rw [loopEffectsCons stops, sentBy, List.filterMap_append, ← sentBy, ← sentBy, effectsSent, ih]
      simp [served, stops]

theorem loopHooks (visits : List Visit) :
    hooksOf (loopEffects visits) = (served visits ++ (stopper visits).toList).flatMap Visit.calls := by
  induction visits with
  | nil => rfl
  | cons v rest ih =>
    cases stops : v.stop with
    | some pending =>
      rw [loopEffectsStop stops, effectsHooks]
      simp [served, stopper, stops]
    | none =>
      rw [loopEffectsCons stops, hooksOf, List.filter_append, ← hooksOf, ← hooksOf, effectsHooks, ih]
      simp [served, stopper, stops]

/- The trace of a call over these envelopes: it starts with `on_init`, sends the
replies to those served, calls the hooks they are for and ends with `on_shutdown`. -/
structure Traced (visits : List Visit) (trace : List Effect) : Prop where
  sent : sentBy trace = (served visits).flatMap Visit.replies
  hooks : hooksOf trace = (served visits ++ (stopper visits).toList).flatMap Visit.calls
  framed : ∃ inside, trace = .onInit :: inside ++ [.onShutdown, .ended (ending visits)] ∧
    ∀ e ∈ inside, e.hook = true ∨ ∃ envelope, e = .sends envelope

theorem loopTraced (visits : List Visit) :
    Traced visits (.onInit :: loopEffects visits ++ [.onShutdown, .ended (ending visits)]) := by
  refine ⟨?_, ?_, loopEffects visits, rfl, ?_⟩
  · have sent := loopSent visits
    simp only [sentBy] at sent ⊢
    simp only [List.cons_append, List.filterMap_cons, List.filterMap_append, Effect.sent, sent, List.filterMap_nil, List.append_nil]
  · have hooks := loopHooks visits
    simp only [hooksOf] at hooks ⊢
    simp [Effect.hook, hooks]
  · have each : ∀ v : Visit, ∀ e ∈ effects v, e.hook = true ∨ ∃ envelope, e = .sends envelope := by
      intro v e member
      rcases List.mem_append.mp member with call | send
      · rw [← (callsOnly v).2] at call
        exact .inl (List.mem_filter.mp call).2
      · obtain ⟨envelope, -, rfl⟩ := List.mem_map.mp send
        exact .inr ⟨envelope, rfl⟩
    intro e member
    rcases List.mem_append.mp member with inside | last
    · obtain ⟨v, -, here⟩ := List.mem_flatMap.mp inside
      exact each v e here
    · obtain ⟨v, -, here⟩ := List.mem_flatMap.mp last
      exact each v e here

/- The plugin is accepted, its sends succeed, and what is raised is an `Exception`;
`on_init` and `on_shutdown` raise nothing. -/
def Assumed : Resume → Prop
  | .registered outcome => ∃ ack, outcome = .ok ack ∧ ack.accepted = true
  | .initialised outcome | .sent outcome | .shut outcome => outcome = .ok ()
  | .received outcome => ∀ e, outcome = .error e → e.isException = true
  | .handled outcome => ∀ e, outcome = .error e → e.isException = true

section Shapes
variable {labels : List Resume} {trace : List Effect} {outcome : Except Thrown Unit}

theorem closingShape {pending : Option Thrown} (assumed : ∀ l ∈ labels, Assumed l)
    (ran : serve.run (.closing pending) labels = some (.ended outcome, trace)) : labels = [.shut (.ok ())] := by
  obtain ⟨l, more, t, first, later, rfl, move, rest⟩ := Machine.runHead ran nofun
  cases l with
  | shut out =>
    cases assumed _ List.mem_cons_self
    cases more with
    | nil => rfl
    | cons again _ =>
      obtain ⟨_, _, _, stuck, -⟩ := Machine.runCons.mp rest
      cases pending <;> cases move <;> cases stuck
  | registered _ | initialised _ | received _ | sent _ | handled _ => cases move

theorem sendingShape {stage : Stage} (sends : stage = .ponging ∨ stage = .replying) (assumed : ∀ l ∈ labels, Assumed l)
    (ran : serve.run stage labels = some (.ended outcome, trace)) :
    ∃ more later, labels = .sent (.ok ()) :: more ∧ serve.run .receiving more = some (.ended outcome, later) := by
  have going : stage ≠ .ended outcome := by rcases sends with rfl | rfl <;> exact nofun
  obtain ⟨l, more, t, first, later, rfl, move, rest⟩ := Machine.runHead ran going
  cases l with
  | sent out =>
    cases assumed _ List.mem_cons_self
    rcases sends with rfl | rfl <;> cases move <;> exact ⟨more, later, rfl, rest⟩
  | registered _ | initialised _ | received _ | shut _ | handled _ => rcases sends with rfl | rfl <;> cases move

theorem answeredShape {reply : Option Envelope} {t : Stage} {emitted : List Effect}
    (answers : Stage.answer reply = some (t, emitted)) (assumed : ∀ l ∈ labels, Assumed l)
    (ran : serve.run t labels = some (.ended outcome, trace)) :
    ∃ more later, labels = (reply.toList.map fun _ => .sent (.ok ())) ++ more ∧
      serve.run .receiving more = some (.ended outcome, later) := by
  cases reply with
  | none =>
    cases answers
    exact ⟨labels, trace, rfl, ran⟩
  | some envelope =>
    cases answers
    exact sendingShape (.inr rfl) assumed ran

theorem ackingShape {reply : Option Envelope} (assumed : ∀ l ∈ labels, Assumed l)
    (ran : serve.run (.acking reply) labels = some (.ended outcome, trace)) :
    ∃ more later, labels = .sent (.ok ()) :: (reply.toList.map fun _ => .sent (.ok ())) ++ more ∧
      serve.run .receiving more = some (.ended outcome, later) := by
  obtain ⟨l, more, t, first, later, rfl, move, rest⟩ := Machine.runHead ran nofun
  cases l with
  | sent out =>
    cases assumed _ List.mem_cons_self
    obtain ⟨left, trace, rfl, goesOn⟩ := answeredShape move (fun l member => assumed l (.tail _ member)) rest
    exact ⟨left, trace, rfl, goesOn⟩
  | registered _ | initialised _ | received _ | shut _ | handled _ => cases move

theorem hookShape {stage : Stage} (inside : (∃ event, stage = .onEvent event) ∨ stage = .onMessage)
    (assumed : ∀ l ∈ labels, Assumed l) (ran : serve.run stage labels = some (.ended outcome, trace)) :
    ∃ hook more t first later, labels = .handled hook :: more ∧ (∀ e, hook = .error e → e.isException = true) ∧
      serve.step stage (.handled hook) = some (t, first) ∧ serve.run t more = some (.ended outcome, later) := by
  have going : stage ≠ .ended outcome := by rcases inside with ⟨_, rfl⟩ | rfl <;> exact nofun
  obtain ⟨l, more, t, first, later, rfl, move, rest⟩ := Machine.runHead ran going
  cases l with
  | handled hook => exact ⟨hook, more, t, first, later, rfl, assumed _ List.mem_cons_self, move, rest⟩
  | registered _ | initialised _ | received _ | shut _ | sent _ => rcases inside with ⟨_, rfl⟩ | rfl <;> cases move

/- Where the loop is to go on, the labels are those of one envelope and of the rest,
which is shorter. -/
theorem visitShape {i : Inbound} {more : List Resume} {later : List Effect} {t : Stage} {first : List Effect}
    (receives : Stage.receive (.ok i) = some (t, first)) (assumed : ∀ l ∈ more, Assumed l)
    (ran : serve.run t more = some (.ended outcome, later)) :
    ∃ v : Visit, v.inbound = i ∧ v.Fair ∧
      ((v.stop.isSome ∧ more = v.resumes ++ [.shut (.ok ())]) ∨
        (v.stop = none ∧ ∃ rest trace, more = v.resumes ++ rest ∧ serve.run .receiving rest = some (.ended outcome, trace))) := by
  have fairOk {reply : Option Envelope} : (Visit.mk i (.ok reply)).Fair := by
    intro e none
    cases none
  cases kindOf i with
  | @ping timestamp kind =>
    simp only [Stage.receive, kind, Option.some.injEq, Prod.mk.injEq] at receives
    obtain ⟨rfl, -⟩ := receives
    obtain ⟨left, trace, rfl, goesOn⟩ := sendingShape (.inl rfl) assumed ran
    exact ⟨⟨i, .ok none⟩, rfl, fairOk, .inr ⟨by simp [Visit.stop, kind], left, trace, by simp [Visit.resumes, kind], goesOn⟩⟩
  | pluginShutdown kind =>
    simp only [Stage.receive, kind, Stage.close, Option.some.injEq, Prod.mk.injEq] at receives
    obtain ⟨rfl, -⟩ := receives
    rw [closingShape assumed ran]
    exact ⟨⟨i, .ok none⟩, rfl, fairOk, .inl ⟨by simp [Visit.stop, kind], by simp [Visit.resumes, kind]⟩⟩
  | @event event kind =>
    simp only [Stage.receive, kind, Option.some.injEq, Prod.mk.injEq] at receives
    obtain ⟨rfl, -⟩ := receives
    obtain ⟨hook, more, t, first, later, rfl, fair, move, rest⟩ := hookShape (.inl ⟨event, rfl⟩) assumed ran
    have assumedLater : ∀ l ∈ more, Assumed l := fun l member => assumed l (.tail _ member)
    have going : (Visit.mk i hook).stop = none := by simp [Visit.stop, kind]
    cases hook with
    | error e =>
      simp only [serve, Stage.step, Stage.handledEvent, fair e rfl, if_true, Option.some.injEq, Prod.mk.injEq] at move
      obtain ⟨rfl, -⟩ := move
      exact ⟨⟨i, .error e⟩, rfl, fair, .inr ⟨going, more, later, by simp [Visit.resumes, kind], rest⟩⟩
    | ok reply =>
      cases move
      obtain ⟨left, trace, rfl, goesOn⟩ := ackingShape assumedLater rest
      refine ⟨⟨i, .ok reply⟩, rfl, fair, .inr ⟨going, left, trace, ?_, goesOn⟩⟩
      cases reply <;> simp [Visit.resumes, kind]
  | other here calls replies stop resumes =>
    rw [here] at receives
    cases receives
    obtain ⟨hook, more, t, first, later, rfl, fair, move, rest⟩ := hookShape (.inr rfl) assumed ran
    have assumedLater : ∀ l ∈ more, Assumed l := fun l member => assumed l (.tail _ member)
    cases hook with
    | error e =>
      cases move
      rw [closingShape assumedLater rest]
      exact ⟨⟨i, .error e⟩, rfl, fair, .inl ⟨by simp [stop], by simp [resumes]⟩⟩
    | ok reply =>
      obtain ⟨left, trace, rfl, goesOn⟩ := answeredShape move assumedLater rest
      refine ⟨⟨i, .ok reply⟩, rfl, fair, .inr ⟨by simp [stop], left, trace, ?_, goesOn⟩⟩
      cases reply <;> simp [resumes]

theorem loopShape (size : Nat) (bound : labels.length ≤ size) (assumed : ∀ l ∈ labels, Assumed l)
    (ran : serve.run .receiving labels = some (.ended outcome, trace)) :
    ∃ visits lost, lost.isException = true ∧ (∀ v ∈ visits, v.Fair) ∧ labels = resumed lost visits ++ [.shut (.ok ())] := by
  induction size generalizing labels trace with
  | zero =>
    rw [List.eq_nil_of_length_eq_zero (Nat.le_zero.mp bound)] at ran
    cases ran
  | succ size ih =>
    obtain ⟨l, more, t, first, later, rfl, move, rest⟩ := Machine.runHead ran nofun
    have assumedLater : ∀ l ∈ more, Assumed l := fun l member => assumed l (.tail _ member)
    cases l with
    | received out =>
      cases out with
      | error e =>
        have exception : e.isException = true := assumed _ List.mem_cons_self e rfl
        simp only [serve, Stage.step, Stage.receive, Stage.close, exception, if_true, Option.some.injEq, Prod.mk.injEq] at move
        obtain ⟨rfl, -⟩ := move
        exact ⟨[], e, exception, by simp, by rw [closingShape assumedLater rest]; rfl⟩
      | ok i =>
        obtain ⟨v, rfl, fair, ⟨stops, rfl⟩ | ⟨going, left, trace, rfl, goesOn⟩⟩ := visitShape move assumedLater rest
        · exact ⟨[v], ⟨true, []⟩, rfl, by simpa using fair, by simp [resumed, stops]⟩
        · have shorter : left.length ≤ size := by
            simp only [List.length_cons, List.length_append] at bound
            omega
          obtain ⟨visits, lost, exception, others, rfl⟩ :=
            ih shorter (fun l member => assumedLater l (List.mem_append_right _ member)) goesOn
          refine ⟨v :: visits, lost, exception, ?_, by simp [resumed, going]⟩
          intro w member
          rcases List.mem_cons.mp member with rfl | inside
          · exact fair
          · exact others w inside
    | registered _ | initialised _ | sent _ | shut _ | handled _ => cases move

theorem lifetimeShape (assumed : ∀ l ∈ labels, Assumed l)
    (ran : serve.run .registering labels = some (.ended outcome, trace)) :
    ∃ ack visits lost, ack.accepted = true ∧ lost.isException = true ∧ (∀ v ∈ visits, v.Fair) ∧
      labels = lifetime ack visits lost := by
  obtain ⟨l, more, t, first, later, rfl, move, rest⟩ := Machine.runHead ran nofun
  cases l with
  | registered out =>
    obtain ⟨ack, rfl, accepted⟩ := assumed _ List.mem_cons_self
    simp only [serve, Stage.step, Stage.register, accepted, if_true, Option.some.injEq, Prod.mk.injEq] at move
    obtain ⟨rfl, -⟩ := move
    obtain ⟨l, more, t, first, later, rfl, move, rest⟩ := Machine.runHead rest nofun
    cases l with
    | initialised out =>
      cases assumed _ (.tail _ List.mem_cons_self)
      cases move
      obtain ⟨visits, lost, exception, fair, rfl⟩ :=
        loopShape more.length (Nat.le_refl _) (fun l member => assumed l (.tail _ (.tail _ member))) rest
      exact ⟨ack, visits, lost, accepted, exception, fair, rfl⟩
    | registered _ | received _ | sent _ | shut _ | handled _ => cases move
  | initialised _ | received _ | sent _ | shut _ | handled _ => cases move

end Shapes

theorem resumesAssumed {v : Visit} (fair : v.Fair) : ∀ l ∈ v.resumes, Assumed l := by
  obtain ⟨i, hook⟩ := v
  have handled : Assumed (.handled hook) := fair
  cases kindOf i with
  | ping kind | pluginShutdown kind => simp [Visit.resumes, kind, Assumed]
  | event kind =>
    simp only [Visit.resumes, kind, List.forall_mem_cons]
    refine ⟨handled, ?_⟩
    split <;> simp [Assumed]
  | other receives calls replies stop resumes =>
    rw [resumes, List.forall_mem_cons]
    refine ⟨handled, ?_⟩
    split <;> simp [Assumed]

theorem resumedAssumed {visits : List Visit} {lost : Thrown} (exception : lost.isException = true)
    (fair : ∀ v ∈ visits, v.Fair) : ∀ l ∈ resumed lost visits, Assumed l := by
  induction visits with
  | nil =>
    rw [resumed, List.forall_mem_singleton]
    intro e raised
    cases raised
    exact exception
  | cons v rest ih =>
    intro l member
    rw [resumed, List.cons_append, List.mem_cons, List.mem_append] at member
    rcases member with rfl | here | later
    · intro e none
      cases none
    · exact resumesAssumed (fair v List.mem_cons_self) l here
    · split at later
      · cases later
      · exact ih (fun w inside => fair w (.tail _ inside)) l later

theorem lifetimeAssumed {ack : PluginRegisterAck} {visits : List Visit} {lost : Thrown} (accepted : ack.accepted = true)
    (exception : lost.isException = true) (fair : ∀ v ∈ visits, v.Fair) : ∀ l ∈ lifetime ack visits lost, Assumed l := by
  intro l member
  rw [lifetime, List.mem_cons, List.mem_cons, List.mem_append, List.mem_singleton] at member
  rcases member with rfl | rfl | inside | rfl
  · exact ⟨ack, rfl, accepted⟩
  · rfl
  · exact resumedAssumed exception fair l inside
  · rfl

/- `serve` over any envelopes and hooks: every call that ends is one over some
envelopes, and over all there is one. It sends the replies to the envelopes before the
one that ends the loop, in order, calls their hooks and ends as that one says. -/
theorem serveTrace :
    (∀ labels trace outcome, Runs serve (fun _ => Assumed) .registering labels trace (.ended outcome) →
      ∃ ack visits lost, (∀ v ∈ visits, v.Fair) ∧ labels = lifetime ack visits lost ∧ outcome = ending visits ∧
        Traced visits trace) ∧
    (∀ ack visits lost, ack.accepted = true → lost.isException = true → (∀ v ∈ visits, v.Fair) →
      ∃ trace, Runs serve (fun _ => Assumed) .registering (lifetime ack visits lost) trace (.ended (ending visits)) ∧
        Traced visits trace) := by
  constructor
  · intro labels trace outcome run
    have ran := runOfRuns run
    obtain ⟨ack, visits, lost, accepted, exception, fair, rfl⟩ := lifetimeShape (runsLabels run) ran
    rw [lifetimeRuns accepted exception fair] at ran
    cases ran
    exact ⟨ack, visits, lost, fair, rfl, rfl, loopTraced visits⟩
  · intro ack visits lost accepted exception fair
    have assumed := lifetimeAssumed accepted exception fair
    exact ⟨_, runsOfRunWhere (fun _ => Assumed) (fun l member _ => assumed l member) (lifetimeRuns accepted exception fair),
      loopTraced visits⟩

def sampleVisits : List Visit :=
  [⟨⟨⟨some (.event ⟨lit "e1", lit "t", [], 0⟩)⟩, 5⟩, .ok none⟩, ⟨⟨⟨some (.ping 7)⟩, 8⟩, .ok none⟩,
    ⟨⟨⟨none⟩, 9⟩, .error ⟨true, lit "fatal"⟩⟩, ⟨⟨⟨some (.ping 8)⟩, 9⟩, .ok none⟩]

theorem serveTraceSample : ∃ trace,
    sentBy trace = [⟨some (.eventAck (lit "e1"))⟩, ⟨some (.pong 7 8)⟩] ∧
      Runs serve (fun _ => Assumed) .registering (lifetime ⟨true, [], []⟩ sampleVisits ⟨true, lit "EOF"⟩) trace
        (.ended (.error ⟨true, lit "fatal"⟩)) := by
  have fair : ∀ v ∈ sampleVisits, v.Fair := by
    intro v member e raised
    simp only [sampleVisits, List.mem_cons, List.not_mem_nil, or_false] at member
    rcases member with rfl | rfl | rfl | rfl <;> cases raised
    rfl
  obtain ⟨trace, run, traced⟩ := serveTrace.2 ⟨true, [], []⟩ sampleVisits ⟨true, lit "EOF"⟩ rfl rfl fair
  exact ⟨trace, traced.sent, run⟩

end Vynkor.Plugin
