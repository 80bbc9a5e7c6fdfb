import Vynkor.ConcurrentLoop
import Vynkor.PluginServe

/-! `serve_concurrent` of `vynkor/concurrent.py` around its loop, and when the two serve
functions call `on_shutdown`. Only `Plugin.serve` has its loop in a `try`/`finally`. -/
namespace Vynkor.ServeConcurrent
open Text Labelled Plugin

/- `initFailed` is inside the `on_shutdown` after `on_init` has raised, `closing` inside
the one after the loop has returned. -/
inductive Phase where
  | registering
  | initialising
  | initFailed
  | looping (loop : Loop)
  | closing
  | ended

inductive Move where
  | registered (outcome : Except Thrown PluginRegisterAck)
  | initialised (outcome : Except Thrown Unit)
  | turn (turn : Turn)
  | shut (outcome : Except Thrown Unit)

inductive Lifecycle where
  | onInit
  | onShutdown
  | ended
  deriving DecidableEq, Repr

def follow (loop : Loop) : Phase × List Lifecycle :=
  match loop.control with
  | .returned => (.closing, [.onShutdown])
  | .raised => (.ended, [.ended])
  | _ => (.looping loop, [])

def step : Phase → Move → Option (Phase × List Lifecycle)
  | .registering, .registered (.error _) => some (.ended, [.ended])
  | .registering, .registered (.ok ack) => if ack.accepted then some (.initialising, [.onInit]) else some (.ended, [.ended])
  | .initialising, .initialised (.ok ()) => some (.looping .start, [])
  | .initialising, .initialised (.error _) => some (.initFailed, [.onShutdown])
  | .initFailed, .shut _ => some (.ended, [.ended])
  | .looping loop, .turn turn => (loop.step turn).map fun moved => follow moved.1
  | .closing, .shut _ => some (.ended, [.ended])
  | _, _ => none

def serveConcurrent : Machine Phase Move Lifecycle := ⟨step⟩

def Guarded : Phase → Move → Prop
  | .looping loop, .turn turn => ¬ Loop.Raises loop.control turn
  | _, _ => True

def Orderly (events : List Lifecycle) : Prop :=
  events <+: [.onInit, .onShutdown, .ended] ∨ events <+: [.ended]

def lifecycleOf : Effect → Option Lifecycle
  | .onInit => some .onInit
  | .onShutdown => some .onShutdown
  | .ended _ => some .ended
  | _ => none

def lifecycle (effects : List Effect) : List Lifecycle := effects.filterMap lifecycleOf

def Behind : Stage → List Lifecycle → Prop
  | .registering, events => events = []
  | .initialising, events | .receiving, events | .ponging, events | .onEvent _, events | .acking _, events
  | .onMessage, events | .replying, events => events = [.onInit]
  | .initFailed _, events | .closing _, events => events = [.onInit, .onShutdown]
  | .ended _, events => events = [.onInit, .onShutdown, .ended] ∨ events = [.ended]

theorem behindOrderly {stage : Stage} {events : List Lifecycle} (behind : Behind stage events) : Orderly events := by
  unfold Behind at behind
  split at behind
  case h_1 | h_2 | h_3 | h_4 | h_5 | h_6 | h_7 | h_8 | h_9 | h_10 =>
    subst behind
    exact .inl (by decide)
  case h_11 =>
    rcases behind with rfl | rfl
    · exact .inl (by decide)
    · exact .inr (by decide)

def Continues (stage : Stage) (emitted : List Effect) : Prop :=
  (lifecycle emitted = [] ∧ Behind stage [.onInit]) ∨ (lifecycle emitted = [.onShutdown] ∧ ∃ pending, stage = .closing pending)

section Stages
variable {stage t : Stage} {label : Resume} {emitted : List Effect}

theorem closeContinues {pending : Option Thrown} (move : Stage.close pending = some (t, emitted)) : Continues t emitted := by
  cases move
  exact .inr ⟨rfl, pending, rfl⟩

theorem answerContinues {reply : Option Envelope} (move : Stage.answer reply = some (t, emitted)) : Continues t emitted := by
  cases reply <;> cases move <;> exact .inl ⟨rfl, rfl⟩

theorem receiveContinues {outcome : Except Thrown Inbound} (move : Stage.receive outcome = some (t, emitted)) :
    Continues t emitted := by
  unfold Stage.receive at move
  split at move
  · exact closeContinues move
  · split at move
    · cases move
      exact .inl ⟨rfl, rfl⟩
    · exact closeContinues move
    · cases move
      exact .inl ⟨rfl, rfl⟩
    · cases move
      exact .inl ⟨rfl, rfl⟩

theorem handledEventContinues {event : Event} {outcome : Hook}
    (move : Stage.handledEvent event outcome = some (t, emitted)) : Continues t emitted := by
  unfold Stage.handledEvent at move
  split at move
  · cases move
    exact .inl ⟨rfl, rfl⟩
  · split at move
    · cases move
      exact .inl ⟨rfl, rfl⟩
    · exact closeContinues move

theorem handledMessageContinues {outcome : Hook} (move : Stage.handledMessage outcome = some (t, emitted)) :
    Continues t emitted := by
  unfold Stage.handledMessage at move
  split at move
  · exact answerContinues move
  · exact closeContinues move

theorem continuesBehind {events : List Lifecycle} (started : events = [.onInit]) (goesOn : Continues t emitted) :
    Behind t (events ++ lifecycle emitted) := by
  subst started
  rcases goesOn with ⟨quiet, behind⟩ | ⟨shuts, pending, rfl⟩
  · rw [quiet]
    exact behind
  · rw [shuts]
    rfl

theorem stageBehind {events : List Lifecycle} (behind : Behind stage events) (move : serve.step stage label = some (t, emitted)) :
    Behind t (events ++ lifecycle emitted) := by
  simp only [serve, Stage.step] at move
  split at move
  · rename_i outcome
    cases behind
    unfold Stage.register at move
    repeat' split at move
    all_goals cases move
    · exact .inr rfl
    · rfl
    · exact .inr rfl
  · rename_i outcome
    cases behind
    unfold Stage.initialise at move
    split at move <;> cases move <;> rfl
  · cases behind
    cases move
    exact .inl rfl
  · exact continuesBehind behind (receiveContinues move)
  · cases move
    exact continuesBehind behind (.inl ⟨rfl, rfl⟩)
  · exact continuesBehind behind (closeContinues move)
  · exact continuesBehind behind (handledEventContinues move)
  · exact continuesBehind behind (answerContinues move)
  · exact continuesBehind behind (closeContinues move)
  · exact continuesBehind behind (handledMessageContinues move)
  · cases move
    exact continuesBehind behind (.inl ⟨rfl, rfl⟩)
  · exact continuesBehind behind (closeContinues move)
  · cases behind
    unfold Stage.shut at move
    repeat' split at move
    all_goals
      cases move
      exact .inl rfl
  · contradiction

theorem serveOrderly {labels : List Resume} {effects : List Effect} {s : Stage}
    (run : Runs serve Always .registering labels effects s) : Orderly (lifecycle effects) := by
  refine behindOrderly (runsKeep (fun effects s => Behind s (lifecycle effects)) (by rfl) ?_ run)
  intro effects s label t emitted behind _ move
  have next := stageBehind behind move
  unfold lifecycle at next ⊢
  rwa [List.filterMap_append]

end Stages

def Follows : Phase → List Lifecycle → Prop
  | .registering, events => events = []
  | .initialising, events | .looping _, events => events = [.onInit]
  | .initFailed, events | .closing, events => events = [.onInit, .onShutdown]
  | .ended, events => events = [.onInit, .onShutdown, .ended] ∨ events = [.ended]

def Abandoned : Phase → List Lifecycle → Prop
  | .ended, events => events = [.onInit, .ended]
  | _, _ => False

section Phases
variable {phase t : Phase} {move : Move} {events emitted : List Lifecycle}

theorem abandonedNot (abandoned : Abandoned phase events) : ¬ Orderly events := by
  unfold Abandoned at abandoned
  split at abandoned
  · subst abandoned
    simp [Orderly, List.cons_prefix_cons]
  · exact absurd abandoned id

theorem followsOrderly (follows : Follows phase events) : Orderly events := by
  unfold Follows at follows
  split at follows
  case h_6 =>
    rcases follows with rfl | rfl
    · exact .inl (by decide)
    · exact .inr (by decide)
  all_goals
    subst follows
    exact .inl (by decide)

section Turns
variable {loop after : Loop} {happened : List Happening}

theorem followCases (loop : Loop) :
    (loop.control = .returned ∧ follow loop = (.closing, [.onShutdown])) ∨
    (loop.control = .raised ∧ follow loop = (.ended, [.ended])) ∨
    (loop.control ≠ .raised ∧ follow loop = (.looping loop, [])) := by
  unfold follow
  cases loop.control <;> simp

end Turns

def Going : Phase → Prop
  | .looping loop => loop.control ≠ .raised
  | _ => True

theorem goingStep (moved : serveConcurrent.step phase move = some (t, emitted)) : Going t := by
  simp only [serveConcurrent, step] at moved
  split at moved
  case h_6 loop turn =>
    obtain ⟨⟨after, happened⟩, turned, same⟩ := Option.map_eq_some_iff.mp moved
    rcases followCases after with ⟨_, goes⟩ | ⟨_, goes⟩ | ⟨control, goes⟩
    · rw [goes] at same
      cases same
      trivial
    · rw [goes] at same
      cases same
      trivial
    · rw [goes] at same
      cases same
      exact control
  case h_3 =>
    cases moved
    intro raised
    cases raised
  all_goals
    repeat' split at moved
    all_goals first
      | contradiction
      | (cases moved; trivial)

theorem phaseStep (follows : Follows phase events) (going : Going phase)
    (moved : serveConcurrent.step phase move = some (t, emitted)) :
    (Guarded phase move ∧ Follows t (events ++ emitted)) ∨ (¬ Guarded phase move ∧ Abandoned t (events ++ emitted)) := by
  simp only [serveConcurrent, step] at moved
  split at moved
  · cases follows
    cases moved
    exact .inl ⟨trivial, .inr rfl⟩
  · cases follows
    split at moved
    · cases moved
      exact .inl ⟨trivial, rfl⟩
    · cases moved
      exact .inl ⟨trivial, .inr rfl⟩
  · cases moved
    rw [List.append_nil]
    exact .inl ⟨trivial, follows⟩
  · cases follows
    cases moved
    exact .inl ⟨trivial, rfl⟩
  · cases follows
    cases moved
    exact .inl ⟨trivial, .inl rfl⟩
  · rename_i loop turn
    obtain ⟨⟨after, happened⟩, turned, same⟩ := Option.map_eq_some_iff.mp moved
    have raises := turnRaises going turned
    cases follows
    rcases followCases after with ⟨control, goes⟩ | ⟨control, goes⟩ | ⟨control, goes⟩
    · rw [goes] at same
      cases same
      exact .inl ⟨mt raises.mpr (by simp [control]), rfl⟩
    · rw [goes] at same
      cases same
      exact .inr ⟨not_not.mpr (raises.mp control), rfl⟩
    · rw [goes] at same
      cases same
      exact .inl ⟨mt raises.mpr control, rfl⟩
  · cases follows
    cases moved
    exact .inl ⟨trivial, .inl rfl⟩
  · contradiction

end Phases

section Runs
variable {moves : List Move} {events : List Lifecycle} {s : Phase}

theorem guardedOrderly (run : Runs serveConcurrent Guarded .registering moves events s) : Orderly events := by
  refine followsOrderly (runsKeep (fun events s => Follows s events ∧ Going s) (by exact ⟨rfl, trivial⟩) ?_ run).1
  intro events s move t emitted ok guarded moved
  rcases phaseStep ok.1 ok.2 moved with ⟨_, follows⟩ | ⟨unguarded, _⟩
  · exact ⟨follows, goingStep moved⟩
  · exact absurd guarded unguarded

theorem orderlyPrefix {more : List Lifecycle} (orderly : Orderly (events ++ more)) : Orderly events :=
  orderly.imp (List.prefix_append events more).trans (List.prefix_append events more).trans

theorem orderlyGuarded (run : Runs serveConcurrent Always .registering moves events s) (orderly : Orderly events) :
    Runs serveConcurrent Guarded .registering moves events s ∧ Follows s events ∧ Going s := by
  induction run with
  | idle => exact ⟨.idle, rfl, trivial⟩
  | next before _ moved ih =>
    obtain ⟨guarded, follows, going⟩ := ih (orderlyPrefix orderly)
    rcases phaseStep follows going moved with ⟨here, next⟩ | ⟨_, abandoned⟩
    · exact ⟨.next guarded here moved, next, goingStep moved⟩
    · exact absurd orderly (abandonedNot abandoned)

end Runs

/- Both serve functions call `on_shutdown` exactly once between an accepted `on_init`
and their end: `Plugin.serve` in every run, `serve_concurrent` in just those runs in
which nothing comes out of its unguarded awaits and `accept`. -/
theorem shutdownOnce (moves : List Move) (events : List Lifecycle) (s : Phase)
    (run : Runs serveConcurrent Always .registering moves events s) :
    (Runs serveConcurrent Guarded .registering moves events s ↔ Orderly events) ∧
      ∀ labels effects t, Runs serve Always .registering labels effects t → Orderly (lifecycle effects) := by
  refine ⟨⟨guardedOrderly, fun orderly => (orderlyGuarded run orderly).1⟩, ?_⟩
  intro labels effects t sequential
  exact serveOrderly sequential

def sampleCancelled : Thrown := ⟨false, []⟩
def sampleAccepted : PluginRegisterAck := ⟨true, [], []⟩

theorem shutdownOnceSample :
    Orderly (lifecycle [.onInit, .onShutdown, .ended (.error sampleCancelled)]) ∧ Orderly [.onInit, .onShutdown, .ended] := by
  have sequential : serve.run .registering [.registered (.ok sampleAccepted), .initialised (.ok ()),
      .received (.error sampleCancelled), .shut (.ok ())] =
      some (.ended (.error sampleCancelled), [.onInit, .onShutdown, .ended (.error sampleCancelled)]) := by decide
  have concurrent : (serveConcurrent.run .registering [.registered (.ok sampleAccepted), .initialised (.error sampleCancelled),
      .shut (.ok ())]) = some (.ended, [.onInit, .onShutdown, .ended]) := rfl
  obtain ⟨exactly, always⟩ := shutdownOnce _ _ _ (runsOfRun concurrent)
  refine ⟨always _ _ _ (runsOfRun sequential), exactly.mp ?_⟩
  refine runsOfRunWhere Guarded (fun move member phase => ?_) concurrent
  simp only [List.mem_cons, List.not_mem_nil, or_false] at member
  rcases member with rfl | rfl | rfl <;> cases phase <;> trivial

theorem shutdownSkipped : ¬ ∀ moves events s, Runs serveConcurrent Always .registering moves events s → Orderly events := by
  intro claim
  have ran : serveConcurrent.run .registering [.registered (.ok sampleAccepted), .initialised (.ok ()), .turn .iterate,
      .turn .waitRaised] = some (.ended, [.onInit, .ended]) := rfl
  have abandoned : Abandoned .ended [.onInit, .ended] := rfl
  exact abandonedNot abandoned (claim _ _ _ (runsOfRun ran))

end Vynkor.ServeConcurrent
