import Vynkor.ConfirmationRuns
import Vynkor.ReplyOrder

/-! A confirmation gate behind `run_concurrent_loop`, as `vynkor/confirmation_gate.py` has
it at its head: `on_action` returns what `gate.route` does. Every accepted request is a
handler task with a call of `route` of its own. -/
namespace Vynkor.GatedLoop
open Octets (Bytes)
open Text Labelled
open ReplyDelivery (Job Outcome delivery made ended written)
open ConfirmationGate (Gate Gating Readings Routed ExecutorResult executorReply)

/- `executing` are the tasks whose calls await the executor, in the order of the gate's
calls. -/
structure Gated where
  served : ReplyDelivery.Delivery
  gating : Gating
  executing : List Nat

inductive Beat where
  | turn (turn : Turn)
  | routes (task : Nat) (clock : Readings)
  | executed (call : Nat) (result : ExecutorResult)
  | elsewhere

inductive Sign where
  | traffic (t : ReplyDelivery.Traffic)
  | deed (task : Nat) (d : ConfirmationGate.Deed)

def completes : Turn → Bool
  | .complete _ _ => true
  | _ => false

def settled : Routed → Option (Except Error (List Envelope))
  | .requested _ outcome | .replied outcome => some outcome
  | .executing _ _ => none

namespace Gated

def start (seq : Nat) (clock : ConfirmationGate.Time) : Gated := ⟨ReplyDelivery.start, .start seq clock, []⟩

def unrouted (s : Gated) (task : Nat) : Option ActionRequest :=
  match s.served.loop.tasks[task]? with
  | some (.running request) => if task ∈ s.executing then none else some request
  | _ => none

section Step
variable (gx : ConfirmationGate.Externals) (g : Gate) (x : Framing.Externals) (codec : Codec) (c : VynkorClient)

def turn (s : Gated) (turn : Turn) : Option (Gated × List Sign) :=
  (ReplyDelivery.step x codec c s.served (.turn turn)).map fun (served, traffic) => ({ s with served }, traffic.map .traffic)

def finish (s : Gated) (task : Nat) (outcome : Except Error (List Envelope)) : Option (Gated × List Sign) :=
  s.turn x codec c (.complete task (outcome.mapError gx.describe))

def routes (s : Gated) (task : Nat) (clock : Readings) : Option (Gated × List Sign) := do
  let request ← s.unrouted task
  let (gating, deeds) ← Gating.step gx g s.gating (.route request clock)
  match settled (g.route gx request clock s.gating.store).1 with
  | none => return ({ s with gating, executing := s.executing ++ [task] }, deeds.map (.deed task))
  | some outcome =>
    let (t, later) ← { s with gating }.finish gx x codec c task outcome
    return (t, deeds.map (.deed task) ++ later)

def executed (s : Gated) (call : Nat) (result : ExecutorResult) : Option (Gated × List Sign) := do
  let task ← s.executing[call]?
  let actionId ← s.gating.inFlight[call]?
  let (gating, deeds) ← Gating.step gx g s.gating (.finish call result)
  let (t, later) ← { s with gating, executing := s.executing.eraseIdx call }.finish gx x codec c task (executorReply gx actionId result)
  return (t, deeds.map (.deed task) ++ later)

def step (s : Gated) : Beat → Option (Gated × List Sign)
  | .turn turn => if completes turn then none else s.turn x codec c turn
  | .routes task clock => s.routes gx g x codec c task clock
  | .executed call result => s.executed gx g x codec c call result
  | .elsewhere => (Gating.step gx g s.gating .elsewhere).map fun (gating, _) => ({ s with gating }, [])

end Step
end Gated

def gated (gx : ConfirmationGate.Externals) (g : Gate) (x : Framing.Externals) (codec : Codec) (c : VynkorClient) :
    Machine Gated Beat Sign := ⟨Gated.step gx g x codec c⟩

def Sign.sent : Sign → Option ReplyDelivery.Traffic
  | .traffic t => some t
  | _ => none

def Sign.done : Sign → Option ConfirmationGate.Deed
  | .deed _ d => some d
  | _ => none

def Sign.call : Sign → Option (Nat × ActionRequest)
  | .deed task (.routed request _ _) => some (task, request)
  | _ => none

def Sign.result : Sign → Option (Nat × Except Error (List Envelope))
  | .deed task (.routed _ _ how) => (settled how).map (task, ·)
  | .deed task (.finished _ outcome) => some (task, outcome)
  | _ => none

def trafficOf (signs : List Sign) : List ReplyDelivery.Traffic := signs.filterMap Sign.sent
def deedsOf (signs : List Sign) : List ConfirmationGate.Deed := signs.filterMap Sign.done
def callsOf (signs : List Sign) : List (Nat × ActionRequest) := signs.filterMap Sign.call
def resultsOf (signs : List Sign) : List (Nat × Except Error (List Envelope)) := signs.filterMap Sign.result

def Single (actionId : Str) (envelopes : List Envelope) : Prop :=
  ∃ response, envelopes = [⟨some (.actionResponse response)⟩] ∧ response.actionId = actionId

def Singly (actionId : Str) (outcome : Except Error (List Envelope)) : Prop :=
  ∀ envelopes, outcome = .ok envelopes → Single actionId envelopes

section Single
variable {gx : ConfirmationGate.Externals} {g : Gate} {actionId : Str} {request : ActionRequest}

theorem responseSingly (status : ActionStatus) (data : Bytes) (error : Str) :
    Singly actionId ((actionResponse actionId status data error).map fun envelope => [envelope]) := by
  intro envelopes made
  unfold actionResponse at made
  cases id : textField actionId with
  | error e => simp [id, bind, Except.bind, Except.map] at made
  | ok field =>
    cases text : textField error with
    | error e => simp [id, text, bind, Except.bind, Except.map] at made
    | ok message =>
      simp only [id, text, bind, Except.bind, pure, Except.pure, Except.map, Except.ok.injEq] at made
      exact ⟨_, made.symm, (textFieldOk.mp id).2⟩

theorem raisesSingly (e : Error) : Singly actionId (.error e) := nofun

theorem bindSingly {α : Type} {first : Except Error α} {next : α → Except Error (List Envelope)}
    (each : ∀ a, Singly actionId (next a)) : Singly actionId (first >>= next) := by
  cases first with
  | error e => exact raisesSingly e
  | ok a => exact each a

theorem executorSingly (result : ExecutorResult) : Singly actionId (executorReply gx actionId result) := by
  have answers : Singly actionId (ConfirmationGate.executorAnswer actionId result) := by
    unfold ConfirmationGate.executorAnswer
    split
    case h_3 => exact bindSingly fun data => responseSingly _ _ _
    case h_9 => exact raisesSingly _
    all_goals exact responseSingly _ _ _
  unfold executorReply
  split
  case h_4 =>
    split
    · rename_i envelopes made
      rw [made] at answers
      exact answers
    · exact responseSingly _ _ _
  all_goals exact answers

theorem requestSingly (id : Str) : Singly request.actionId (g.requestReply request id) :=
  bindSingly fun _ => bindSingly fun _ => responseSingly _ _ _

theorem routeSingly {clock : Readings} {store : ConfirmationGate.Store} {outcome : Except Error (List Envelope)}
    (settles : settled (g.route gx request clock store).1 = some outcome) : Singly request.actionId outcome := by
  have unknown : Singly request.actionId (ConfirmationGate.notFound request.actionId) := responseSingly _ _ _
  unfold Gate.route at settles
  split at settles
  · split at settles
    · cases settles
      exact unknown
    · cases settles
      exact requestSingly _
  · split at settles
    · split at settles
      · cases settles
        exact unknown
      · unfold Gate.confirm at settles
        split at settles
        · cases settles
          exact responseSingly _ _ _
        · split at settles
          · cases settles
            exact responseSingly _ _ _
          · split at settles
            · cases settles
              exact responseSingly _ _ _
            · cases settles
    · cases settles
      exact unknown

end Single

def OneResponse (request : ActionRequest) (outcome : Outcome) : Prop := Single request.actionId (made request outcome)

theorem oneResponse {gx : ConfirmationGate.Externals} {request : ActionRequest} {result : Except Error (List Envelope)}
    (texts : ∀ e, Encodable (gx.describe e)) (id : Encodable request.actionId) (singly : Singly request.actionId result) :
    OneResponse request (ended (result.mapError gx.describe)) := by
  cases result with
  | ok envelopes => exact singly envelopes rfl
  | error e =>
    have panic := ReplyDelivery.panicEncodable.mpr (texts e)
    refine ⟨⟨request.actionId, .error, [], Loop.panicMessage (gx.describe e)⟩, ?_, rfl⟩
    have refused := refusalMade.mpr ⟨id, panic, rfl⟩
    simp [made, ended, Except.mapError, refused, Except.toOption]

def view (job : Job) : ActionRequest × Option Outcome := (job.request, job.outcome)

def views (s : ReplyDelivery.Delivery) : List (ActionRequest × Option Outcome) := s.jobs.map view

def isRunning (s : ReplyDelivery.Delivery) (task : Nat) (request : ActionRequest) : Prop := s.loop.tasks[task]? = some (.running request)

section Turns
variable {x : Framing.Externals} {codec : Codec} {c : VynkorClient} {s t : ReplyDelivery.Delivery} {turn : Turn} {traffic : List ReplyDelivery.Traffic}
  {task : Nat} {request : ActionRequest}

theorem modifyViews {jobs : List Job} (update : Job → Job) (same : ∀ job, view (update job) = view job) :
    (jobs.modify task update).map view = jobs.map view := by
  refine List.ext_getElem? fun i => ?_
  rw [List.getElem?_map, List.getElem?_map, List.getElem?_modify]
  cases jobs[i]? with
  | none => rfl
  | some job => split <;> simp [same]

theorem turnServed (plain : completes turn = false) (move : (delivery x codec c).step s (.turn turn) = some (t, traffic)) :
    (∃ fresh, views t = views s ++ fresh ∧ ∀ v ∈ fresh, v.2 = none) ∧
      ∀ task request, isRunning s task request → isRunning t task request := by
  obtain ⟨⟨after, happened⟩, turned, same⟩ := Option.map_eq_some_iff.mp move
  cases same
  constructor
  · cases turn with
    | complete _ _ => cases plain
    | goOn verdict now =>
      cases verdict with
      | accepted =>
        refine ⟨((ReplyDelivery.requested s.loop.control).toList.map fun request => (⟨request, none, []⟩ : Job)).map view, ?_, ?_⟩
        · simp [views, ReplyDelivery.track]
        · simp [view]
      | rejected _ | escapes => exact ⟨[], (List.append_nil _).symm, by simp⟩
    | put task =>
      refine ⟨[], ?_, by simp⟩
      rw [List.append_nil]
      exact modifyViews _ fun _ => rfl
    | _ => exact ⟨[], (List.append_nil _).symm, by simp⟩
  · intro task request running
    unfold isRunning at running ⊢
    cases stepSteps turned with
    | goes _ | got _ _ | drained _ _ | emptied _ _ | returned _ _ => exact running
    | accepted woken =>
      have inside := (List.getElem?_eq_some_iff.mp running).1
      exact (List.getElem?_append_left inside).trans running
    | completed _ _ => cases plain
    | @put other envelope envelopes putting room =>
      have apart : other ≠ task := fun same => by
        rw [same, running] at putting
        cases putting
      exact (List.getElem?_set_ne apart).trans running

structure Completed (s t : ReplyDelivery.Delivery) (task : Nat) (outcome : Outcome) (traffic : List ReplyDelivery.Traffic) : Prop where
  silent : traffic = []
  others : ∀ other, other ≠ task → t.loop.tasks[other]? = s.loop.tasks[other]? ∧ (views t)[other]? = (views s)[other]?
  own : (views t)[task]? = (views s)[task]?.map fun v => (v.1, some outcome)

theorem completed {result : Except Str (List Envelope)}
    (move : (delivery x codec c).step s (.turn (.complete task result)) = some (t, traffic)) :
    Completed s t task (ended result) traffic := by
  obtain ⟨⟨after, happened⟩, turned, same⟩ := Option.map_eq_some_iff.mp move
  cases same
  generalize label : Turn.complete task result = turn at turned
  cases stepSteps turned with
  | @completed task' request outcome envelopes running _ =>
    cases label
    refine ⟨rfl, fun other apart => ⟨?_, ?_⟩, ?_⟩
    · exact List.getElem?_set_ne (Ne.symm apart)
    · simp [views, ReplyDelivery.track, Ne.symm apart]
    · simp only [views, ReplyDelivery.track, List.getElem?_map, List.getElem?_modify]
      cases s.jobs[task]? <;> simp [view, Job.ends]
  | @goes _ _ after goes =>
    generalize before : s.loop.control = control at goes
    cases goes <;> cases label
  | _ => cases label

def repliesOf (traffic : List ReplyDelivery.Traffic) : List Reply :=
  traffic.filterMap fun
    | .sent (some ticket) envelope _ => some ⟨ticket, envelope⟩
    | .sent none _ _ | .accepted _ _ => none

def ticketsOf (traffic : List ReplyDelivery.Traffic) : List Nat :=
  traffic.filterMap fun
    | .sent ticket _ _ => ticket
    | .accepted _ _ => none

theorem repliesTickets (traffic : List ReplyDelivery.Traffic) : (repliesOf traffic).map Reply.ticket = ticketsOf traffic := by
  rw [repliesOf, ticketsOf, List.map_filterMap]
  refine List.filterMap_congr fun t _ => ?_
  cases t with
  | accepted _ _ => rfl
  | sent ticket _ _ => cases ticket <;> rfl

def Steady (s : ReplyDelivery.Delivery) : ReplyDelivery.Act → Prop
  | .turn turn => s.loop.Careful turn
  | .unprintable _ => True

theorem actOrdered {act : ReplyDelivery.Act} (move : (delivery x codec c).step s act = some (t, traffic)) :
    ∃ ordered deeds, ReplyOrder.ordering.step s ordered = some (t, deeds) ∧ ReplyOrder.sends deeds = repliesOf traffic ∧
      (Steady s act → s.loop.held ++ putReplies (ReplyOrder.log deeds) = ReplyOrder.sends deeds ++ t.loop.held) := by
  cases act with
  | turn turn =>
    obtain ⟨⟨after, happened⟩, turned, same⟩ := Option.map_eq_some_iff.mp move
    cases same
    refine ⟨.turn turn none, happened.map (⟨·, ReplyOrder.puts turn, none⟩), by simp [ReplyOrder.ordering, ReplyOrder.step, turned], ?_,
      fun steady => ?_⟩
    · have none : repliesOf (ReplyDelivery.accepting s.jobs s.loop.control turn) = [] := by
        unfold ReplyDelivery.accepting
        split
        · cases ReplyDelivery.requested s.loop.control <;> rfl
        · rfl
      rw [ReplyOrder.sends, ReplyOrder.logOf, repliesOf, List.filterMap_append, ← repliesOf, none, List.nil_append,
        List.filterMap_filterMap, handedReplies]
      refine List.filterMap_congr fun h _ => ?_
      cases h <;> rfl
    · rw [ReplyOrder.sends, ReplyOrder.logOf]
      exact movesConserve steady (Vynkor.stepMoves turned)
  | unprintable task =>
    simp only [delivery, ReplyDelivery.step] at move
    split at move
    · rename_i request running
      cases move
      exact ⟨.unprintable task, [], by simp [ReplyOrder.ordering, ReplyOrder.step, running], rfl, fun _ => List.append_nil _⟩
    · contradiction

theorem deliveryServing {Meets : ReplyDelivery.Delivery → ReplyDelivery.Act → Prop} {acts : List ReplyDelivery.Act}
    (run : Runs (delivery x codec c) Meets ReplyDelivery.start acts traffic s) : ReplyDelivery.Serving x codec c traffic s := by
  refine runsKeep (ReplyDelivery.Serving x codec c) (by exact ⟨.nil, nofun, nofun⟩) ?_ run
  intro traffic s act t emitted ok _ move
  exact ReplyDelivery.actServing ok move

structure Told (Meets : ReplyDelivery.Delivery → ReplyDelivery.Act → Prop) (deeds : List ReplyOrder.Deed)
    (traffic : List ReplyDelivery.Traffic) (s : ReplyDelivery.Delivery) : Prop where
  tracked : ReplyOrder.Tracked deeds s
  sent : ReplyOrder.sends deeds = repliesOf traffic
  balanced : (∀ s act, Meets s act → Steady s act) → putReplies (ReplyOrder.log deeds) = ReplyOrder.sends deeds ++ s.loop.held

section Told
variable {Meets : ReplyDelivery.Delivery → ReplyDelivery.Act → Prop} {deeds : List ReplyOrder.Deed} {job : Job} {r : Reply}

theorem deliveryTold {acts : List ReplyDelivery.Act} (run : Runs (delivery x codec c) Meets ReplyDelivery.start acts traffic s) :
    ∃ deeds, Told Meets deeds traffic s := by
  refine runsKeep (fun traffic s => ∃ deeds, Told Meets deeds traffic s)
    ⟨[], ⟨.nil, fun _ => rfl, nofun, rfl, List.Sublist.refl _⟩, rfl, fun _ => rfl⟩ ?_ run
  rintro traffic s act t emitted ⟨deeds, ok⟩ meets move
  obtain ⟨ordered, later, same, sent, kept⟩ := actOrdered move
  have more : ReplyOrder.sends (deeds ++ later) = ReplyOrder.sends deeds ++ ReplyOrder.sends later := by
    rw [ReplyOrder.sends, ReplyOrder.logAppend, handedAppend]
    rfl
  refine ⟨deeds ++ later, ReplyOrder.actTracked ok.tracked same, ?_, fun all => ?_⟩
  · rw [more, ok.sent, sent, repliesOf, repliesOf, repliesOf, List.filterMap_append]
  · have whole := conserved (ok.balanced all) (kept (all s act meets))
    rwa [← ReplyOrder.logAppend] at whole

theorem putsDistinct (told : Told Meets deeds traffic s) : ((putReplies (ReplyOrder.log deeds)).map Reply.ticket).Nodup := by
  rw [told.tracked.numbered]
  exact List.nodup_range

theorem sendsHeld (told : Told Meets deeds traffic s) :
    (repliesOf traffic ++ s.loop.held).Sublist (putReplies (ReplyOrder.log deeds)) := by
  rw [← told.sent]
  exact told.tracked.ordered

theorem ticketsDistinct (told : Told Meets deeds traffic s) : (ticketsOf traffic).Nodup := by
  have sent := (List.sublist_append_left _ _).trans (sendsHeld told)
  rw [← repliesTickets]
  exact (sent.map Reply.ticket).nodup (putsDistinct told)

theorem sentUnheld (told : Told Meets deeds traffic s) (sent : r ∈ repliesOf traffic) : r ∉ s.loop.held :=
  fun held => List.disjoint_of_nodup_append ((sendsHeld told).nodup (List.Nodup.of_map _ (putsDistinct told))) sent held

theorem jobPut (told : Told Meets deeds traffic s) (found : s.jobs[task]? = some job) (member : r ∈ job.replies) :
    r ∈ putReplies (ReplyOrder.log deeds) := by
  refine (ReplyOrder.putBySublist task deeds).subset ?_
  rw [told.tracked.owned, found]
  exact member

theorem sentOwn (told : Told Meets deeds traffic s) (found : s.jobs[task]? = some job) (member : r ∈ job.replies)
    {sent : Reply} (there : sent ∈ repliesOf traffic) (same : sent.ticket = r.ticket) : sent = r :=
  List.inj_on_of_nodup_map (putsDistinct told) ((sendsHeld told).subset (List.mem_append_left _ there))
    (jobPut told found member) same

end Told

end Turns

section Steps
variable {gx : ConfirmationGate.Externals} {g : Gate} {x : Framing.Externals} {codec : Codec} {c : VynkorClient}
  {s t : Gated} {b : Beat} {signs : List Sign}

inductive Moves (gx : ConfirmationGate.Externals) (g : Gate) (x : Framing.Externals) (codec : Codec) (c : VynkorClient) (s : Gated) :
    Beat → Gated → List Sign → Prop where
  | turned {turn served traffic} (plain : completes turn = false)
      (step : (delivery x codec c).step s.served (.turn turn) = some (served, traffic)) :
      Moves gx g x codec c s (.turn turn) { s with served } (traffic.map .traffic)
  | waits {task request clock gating how} (unrouted : s.unrouted task = some request)
      (gate : (Gating.machine gx g).step s.gating (.route request clock) = some (gating, [.routed request clock how]))
      (settles : settled how = none) (flight : gating.inFlight = s.gating.inFlight ++ [request.actionId]) :
      Moves gx g x codec c s (.routes task clock) { s with gating, executing := s.executing ++ [task] }
        [.deed task (.routed request clock how)]
  | answers {task request clock gating how result served} (unrouted : s.unrouted task = some request)
      (gate : (Gating.machine gx g).step s.gating (.route request clock) = some (gating, [.routed request clock how]))
      (settles : settled how = some result) (flight : gating.inFlight = s.gating.inFlight)
      (singly : Singly request.actionId result)
      (step : (delivery x codec c).step s.served (.turn (.complete task (result.mapError gx.describe))) = some (served, [])) :
      Moves gx g x codec c s (.routes task clock) ⟨served, gating, s.executing⟩ [.deed task (.routed request clock how)]
  | returns {call task actionId gating result served} (here : s.executing[call]? = some task)
      (id : s.gating.inFlight[call]? = some actionId)
      (gate : (Gating.machine gx g).step s.gating (.finish call result) = some (gating, [.finished actionId (executorReply gx actionId result)]))
      (flight : gating.inFlight = s.gating.inFlight.eraseIdx call)
      (step : (delivery x codec c).step s.served
        (.turn (.complete task ((executorReply gx actionId result).mapError gx.describe))) = some (served, [])) :
      Moves gx g x codec c s (.executed call result) ⟨served, gating, s.executing.eraseIdx call⟩
        [.deed task (.finished actionId (executorReply gx actionId result))]
  | elsewhere {gating} (gate : (Gating.machine gx g).step s.gating .elsewhere = some (gating, [])) (flight : gating.inFlight = s.gating.inFlight) :
      Moves gx g x codec c s .elsewhere { s with gating } []

theorem finishMoves {task : Nat} {outcome : Except Error (List Envelope)} (move : s.finish gx x codec c task outcome = some (t, signs)) :
    ∃ served, t = { s with served } ∧ signs = [] ∧
      (delivery x codec c).step s.served (.turn (.complete task (outcome.mapError gx.describe))) = some (served, []) := by
  obtain ⟨⟨served, traffic⟩, step, same⟩ := Option.map_eq_some_iff.mp move
  cases same
  have silent := (completed step).silent
  subst silent
  exact ⟨served, rfl, rfl, step⟩

theorem routesMoves {task : Nat} {clock : Readings} (move : s.routes gx g x codec c task clock = some (t, signs)) :
    Moves gx g x codec c s (.routes task clock) t signs := by
  simp only [Gated.routes, Option.bind_eq_bind, Option.bind_eq_some_iff] at move
  obtain ⟨request, unrouted, ⟨gating, deeds⟩, gate, rest⟩ := move
  obtain ⟨-, same, rfl⟩ := ConfirmationGate.routedStep.mp gate
  have flight : gating.inFlight = s.gating.inFlight ++ Gating.waits (g.route gx request clock s.gating.store).1 request := by rw [same]
  cases settles : settled (g.route gx request clock s.gating.store).1 with
  | none =>
    rw [settles] at rest
    cases rest
    refine .waits unrouted gate settles ?_
    rw [flight]
    cases how : (g.route gx request clock s.gating.store).1 with
    | executing id params => rfl
    | requested _ _ | replied _ => rw [how] at settles; cases settles
  | some outcome =>
    simp only [settles, Option.bind_eq_some_iff] at rest
    obtain ⟨⟨after, later⟩, finish, same⟩ := rest
    cases same
    obtain ⟨served, rfl, rfl, step⟩ := finishMoves finish
    refine .answers unrouted gate settles ?_ (routeSingly settles) step
    rw [flight]
    cases how : (g.route gx request clock s.gating.store).1 with
    | executing id params => rw [how] at settles; cases settles
    | requested _ _ | replied _ => exact List.append_nil _

theorem executedMoves {call : Nat} {result : ExecutorResult} (move : s.executed gx g x codec c call result = some (t, signs)) :
    Moves gx g x codec c s (.executed call result) t signs := by
  simp only [Gated.executed, Option.bind_eq_bind, Option.bind_eq_some_iff] at move
  obtain ⟨task, here, actionId, id, ⟨gating, deeds⟩, gate, ⟨after, later⟩, finish, same⟩ := move
  cases same
  obtain ⟨served, rfl, rfl, step⟩ := finishMoves finish
  have ended : gating = { s.gating with inFlight := s.gating.inFlight.eraseIdx call } ∧
      deeds = [.finished actionId (executorReply gx actionId result)] := by
    simp only [Gating.step, id, Option.map_some, Option.some.injEq, Prod.mk.injEq] at gate
    exact ⟨gate.1.symm, gate.2.symm⟩
  obtain ⟨rfl, rfl⟩ := ended
  exact .returns here id gate rfl step

theorem stepMoves (move : s.step gx g x codec c b = some (t, signs)) : Moves gx g x codec c s b t signs := by
  cases b with
  | turn turn =>
    simp only [Gated.step] at move
    split at move
    · contradiction
    · rename_i plain
      obtain ⟨⟨served, traffic⟩, step, same⟩ := Option.map_eq_some_iff.mp move
      cases same
      exact .turned (by simpa using plain) step
  | routes task clock => exact routesMoves move
  | executed call result => exact executedMoves move
  | elsewhere =>
    cases move
    exact .elsewhere rfl rfl

end Steps

def Waits (s : ReplyDelivery.Delivery) (task : Nat) (actionId : Str) : Prop :=
  ∃ request, isRunning s task request ∧ request.actionId = actionId ∧ Encodable actionId

def Reports (gx : ConfirmationGate.Externals) (results : List (Nat × Except Error (List Envelope))) (task : Nat)
    (request : ActionRequest) (outcome : Outcome) : Prop :=
  (∃ result, (task, result) ∈ results ∧ outcome = ended (result.mapError gx.describe)) ∧ OneResponse request outcome

structure Called (calls : List (Nat × ActionRequest)) (s : Gated) : Prop where
  once : (calls.map Prod.fst).Nodup
  called : ∀ call ∈ calls, ∃ outcome, (views s.served)[call.1]? = some (call.2, outcome) ∧ (outcome = none → call.1 ∈ s.executing)

structure Kept (gx : ConfirmationGate.Externals) (g : Gate) (x : Framing.Externals) (codec : Codec) (c : VynkorClient) (seq : Nat)
    (clock : ConfirmationGate.Time) (signs : List Sign) (s : Gated) : Prop where
  loop : ∃ acts, Runs (delivery x codec c) Always ReplyDelivery.start acts (trafficOf signs) s.served
  gate : ∃ calls, Runs (Gating.machine gx g) Always (.start seq clock) calls (deedsOf signs) s.gating
  waiting : List.Forall₂ (Waits s.served) s.executing s.gating.inFlight
  apart : s.executing.Nodup
  calls : Called (callsOf signs) s
  reports : ∀ task request outcome, (views s.served)[task]? = some (request, some outcome) →
    Reports gx (resultsOf signs) task request outcome

section Keeps
variable {gx : ConfirmationGate.Externals} {g : Gate} {x : Framing.Externals} {codec : Codec} {c : VynkorClient} {seq : Nat}
  {clock : ConfirmationGate.Time} {s t : Gated} {b : Beat} {signs emitted : List Sign} {task : Nat} {request : ActionRequest}

theorem runningOpen {served : ReplyDelivery.Delivery} {traffic : List ReplyDelivery.Traffic} (ok : ReplyDelivery.Serving x codec c traffic served)
    (running : isRunning served task request) : (views served)[task]? = some (request, none) := by
  have inside := (List.getElem?_eq_some_iff.mp running).1
  rw [ok.paired.length_eq] at inside
  have found := List.getElem?_eq_getElem inside
  have job := ReplyDelivery.pairedAt ok.paired running found
  have same : served.jobs[task] = ⟨request, none, []⟩ := job
  rw [views, List.getElem?_map, found, same]
  rfl

theorem signsAppend (signs more : List Sign) : trafficOf (signs ++ more) = trafficOf signs ++ trafficOf more ∧
    deedsOf (signs ++ more) = deedsOf signs ++ deedsOf more ∧ callsOf (signs ++ more) = callsOf signs ++ callsOf more ∧
    resultsOf (signs ++ more) = resultsOf signs ++ resultsOf more :=
  ⟨List.filterMap_append, List.filterMap_append, List.filterMap_append, List.filterMap_append⟩

theorem trafficSigns (traffic : List ReplyDelivery.Traffic) : trafficOf (traffic.map .traffic) = traffic ∧
    deedsOf (traffic.map .traffic) = [] ∧ callsOf (traffic.map .traffic) = [] ∧ resultsOf (traffic.map .traffic) = [] := by
  induction traffic with
  | nil => exact ⟨rfl, rfl, rfl, rfl⟩
  | cons first rest ih => exact ⟨congrArg (first :: ·) ih.1, ih.2.1, ih.2.2.1, ih.2.2.2⟩

theorem reportsMore {results more : List (Nat × Except Error (List Envelope))} {outcome : Outcome}
    (reports : Reports gx results task request outcome) : Reports gx (results ++ more) task request outcome := by
  obtain ⟨⟨result, member, same⟩, one⟩ := reports
  exact ⟨⟨result, List.mem_append_left _ member, same⟩, one⟩

theorem turnKept {turn : Turn} {served : ReplyDelivery.Delivery} {traffic : List ReplyDelivery.Traffic}
    (kept : Kept gx g x codec c seq clock signs s) (plain : completes turn = false)
    (step : (delivery x codec c).step s.served (.turn turn) = some (served, traffic)) :
    Kept gx g x codec c seq clock (signs ++ traffic.map .traffic) { s with served } := by
  obtain ⟨⟨fresh, seen, unended⟩, running⟩ := turnServed plain step
  obtain ⟨told, deeds, calls, results⟩ := trafficSigns traffic
  obtain ⟨moreTraffic, moreDeeds, moreCalls, moreResults⟩ := signsAppend signs (traffic.map .traffic)
  rw [told] at moreTraffic
  rw [deeds, List.append_nil] at moreDeeds
  rw [calls, List.append_nil] at moreCalls
  rw [results, List.append_nil] at moreResults
  refine ⟨?_, ?_, ?_, kept.apart, ⟨?_, fun call member => ?_⟩, fun task request outcome found => ?_⟩
  · rw [moreTraffic]
    exact runsNext kept.loop step
  · rw [moreDeeds]
    exact kept.gate
  · refine kept.waiting.imp fun task actionId => ?_
    rintro ⟨request, here, same⟩
    exact ⟨request, running task request here, same⟩
  · rw [moreCalls]
    exact kept.calls.once
  · rw [moreCalls] at member
    obtain ⟨outcome, found, open_⟩ := kept.calls.called call member
    refine ⟨outcome, ?_, open_⟩
    rw [seen, List.getElem?_append_left (List.getElem?_eq_some_iff.mp found).1]
    exact found
  · rw [moreResults]
    rw [seen] at found
    rcases Nat.lt_or_ge task (views s.served).length with inside | outside
    · rw [List.getElem?_append_left inside] at found
      exact kept.reports task request outcome found
    · rw [List.getElem?_append_right outside] at found
      cases unended _ (List.mem_of_getElem? found)

theorem unroutedRuns (unrouted : s.unrouted task = some request) : isRunning s.served task request ∧ task ∉ s.executing := by
  unfold Gated.unrouted at unrouted
  split at unrouted
  · rename_i running
    split at unrouted
    · contradiction
    · rename_i away
      cases unrouted
      exact ⟨running, away⟩
  · contradiction

theorem callsOwn (kept : Kept gx g x codec c seq clock signs s) (running : isRunning s.served task request) :
    ∀ call ∈ callsOf signs, call.1 = task → call.2 = request ∧ task ∈ s.executing := by
  obtain ⟨acts, run⟩ := kept.loop
  have waiting := runningOpen (deliveryServing run) running
  intro call member same
  obtain ⟨outcome, found, begun⟩ := kept.calls.called call member
  rw [same, waiting] at found
  cases found
  exact ⟨rfl, same ▸ begun rfl⟩

theorem routedText {gating : Gating} {readings : Readings} {how : Routed}
    (step : (Gating.machine gx g).step s.gating (.route request readings) = some (gating, [.routed request readings how])) :
    Encodable request.actionId := by
  have text := (ConfirmationGate.routedStep.mp step).1.1
  simp only [ConfirmationGate.textOk, Bool.and_eq_true, encodeDefined] at text
  exact text.1.1

theorem callFresh (kept : Kept gx g x codec c seq clock signs s) (unrouted : s.unrouted task = some request) :
    ((callsOf signs ++ [(task, request)]).map Prod.fst).Nodup := by
  obtain ⟨running, away⟩ := unroutedRuns unrouted
  rw [List.map_append, List.map_singleton, ← List.concat_eq_append]
  refine kept.calls.once.concat fun member => ?_
  obtain ⟨call, inside, same⟩ := List.mem_map.mp member
  exact away (callsOwn kept running call inside same).2

theorem waitsKept {gating : Gating} {readings : Readings} {how : Routed} (kept : Kept gx g x codec c seq clock signs s)
    (unrouted : s.unrouted task = some request)
    (gate : (Gating.machine gx g).step s.gating (.route request readings) = some (gating, [.routed request readings how]))
    (settles : settled how = none) (flight : gating.inFlight = s.gating.inFlight ++ [request.actionId]) :
    Kept gx g x codec c seq clock (signs ++ [.deed task (.routed request readings how)])
      { s with gating, executing := s.executing ++ [task] } := by
  obtain ⟨running, away⟩ := unroutedRuns unrouted
  obtain ⟨acts, run⟩ := kept.loop
  obtain ⟨traffic, deeds, moreCalls, results⟩ := signsAppend signs [.deed task (.routed request readings how)]
  have silent : trafficOf [.deed task (.routed request readings how)] = [] := rfl
  have called : callsOf [.deed task (.routed request readings how)] = [(task, request)] := rfl
  have nothing : resultsOf [.deed task (.routed request readings how)] = [] := by simp [resultsOf, Sign.result, settles]
  refine ⟨?_, ?_, ?_, ?_, ⟨?_, fun call member => ?_⟩, fun task request outcome found => ?_⟩
  · rw [traffic, silent, List.append_nil]
    exact kept.loop
  · rw [deeds]
    exact runsNext kept.gate gate
  · rw [flight]
    exact List.rel_append kept.waiting (.cons ⟨request, running, rfl, routedText gate⟩ .nil)
  · rw [← List.concat_eq_append]
    exact kept.apart.concat away
  · rw [moreCalls, called]
    exact callFresh kept unrouted
  · rw [moreCalls, called] at member
    rcases List.mem_append.mp member with before | now
    · obtain ⟨outcome, found, begun⟩ := kept.calls.called call before
      exact ⟨outcome, found, fun none => List.mem_append_left _ (begun none)⟩
    · cases List.mem_singleton.mp now
      exact ⟨none, runningOpen (deliveryServing run) running, fun _ => List.mem_append_right _ (List.mem_singleton.mpr rfl)⟩
  · rw [results, nothing, List.append_nil]
    exact kept.reports task request outcome found

structure Ends (gx : ConfirmationGate.Externals) (s t : Gated) (task : Nat) (request : ActionRequest)
    (result : Except Error (List Envelope)) : Prop where
  running : isRunning s.served task request
  one : OneResponse request (ended (result.mapError gx.describe))
  away : task ∉ t.executing
  others : ∀ other, other ≠ task → (other ∈ t.executing ↔ other ∈ s.executing)
  waiting : List.Forall₂ (Waits s.served) t.executing t.gating.inFlight
  apart : t.executing.Nodup
  completed : Completed s.served t.served task (ended (result.mapError gx.describe)) []

theorem endsKept {result : Except Error (List Envelope)} {d : ConfirmationGate.Deed} (kept : Kept gx g x codec c seq clock signs s)
    (ends : Ends gx s t task request result) (told : Sign.result (.deed task d) = some (task, result))
    (own : ∀ call, Sign.call (.deed task d) = some call → call = (task, request))
    (once : ((callsOf signs ++ callsOf [.deed task d]).map Prod.fst).Nodup)
    (loop : ∃ acts, Runs (delivery x codec c) Always ReplyDelivery.start acts (trafficOf signs ++ []) t.served)
    (gate : ∃ calls, Runs (Gating.machine gx g) Always (.start seq clock) calls (deedsOf signs ++ [d]) t.gating) :
    Kept gx g x codec c seq clock (signs ++ [.deed task d]) t := by
  obtain ⟨traffic, deeds, calls, results⟩ := signsAppend signs [.deed task d]
  have concluded : resultsOf [.deed task d] = [(task, result)] := List.filterMap_cons_some told
  have here : (views t.served)[task]? = some (request, some (ended (result.mapError gx.describe))) := by
    obtain ⟨acts, run⟩ := kept.loop
    rw [ends.completed.own, runningOpen (deliveryServing run) ends.running]
    rfl
  refine ⟨?_, ?_, ?_, ends.apart, ⟨?_, fun call member => ?_⟩, fun task' request' outcome found => ?_⟩
  · rw [traffic]
    exact loop
  · rw [deeds]
    exact gate
  · have apart : ∀ other ∈ t.executing, other ≠ task := fun other member same => ends.away (same ▸ member)
    refine ((List.forall₂_and_left _ _).mpr ⟨apart, ends.waiting⟩).imp fun other actionId => ?_
    rintro ⟨differs, request, here, same⟩
    exact ⟨request, ((ends.completed.others other differs).1).trans here, same⟩
  · rw [calls]
    exact once
  · rw [calls] at member
    have mine : call.1 = task → call.2 = request := fun same => by
      rcases List.mem_append.mp member with before | now
      · exact (callsOwn kept ends.running call before same).1
      · obtain ⟨sign, inside, made⟩ := List.mem_filterMap.mp now
        cases List.mem_singleton.mp inside
        rw [own call made]
    by_cases same : call.1 = task
    · exact ⟨some (ended (result.mapError gx.describe)), by rw [same, here, mine same], nofun⟩
    · rcases List.mem_append.mp member with before | now
      · obtain ⟨outcome, found, begun⟩ := kept.calls.called call before
        exact ⟨outcome, ((ends.completed.others call.1 same).2).trans found, fun none => (ends.others call.1 same).mpr (begun none)⟩
      · obtain ⟨sign, inside, made⟩ := List.mem_filterMap.mp now
        cases List.mem_singleton.mp inside
        exact absurd (congrArg Prod.fst (own call made)) same
  · rw [results, concluded]
    by_cases same : task' = task
    · rw [same, here] at found
      cases found
      rw [same]
      exact ⟨⟨result, List.mem_append_right _ (List.mem_singleton.mpr rfl), rfl⟩, ends.one⟩
    · rw [(ends.completed.others task' same).2] at found
      exact reportsMore (kept.reports task' request' outcome found)

theorem answersKept {gating : Gating} {readings : Readings} {how : Routed} {result : Except Error (List Envelope)} {served : ReplyDelivery.Delivery}
    (texts : ∀ e, Encodable (gx.describe e)) (kept : Kept gx g x codec c seq clock signs s)
    (unrouted : s.unrouted task = some request)
    (gate : (Gating.machine gx g).step s.gating (.route request readings) = some (gating, [.routed request readings how]))
    (settles : settled how = some result) (flight : gating.inFlight = s.gating.inFlight) (singly : Singly request.actionId result)
    (step : (delivery x codec c).step s.served (.turn (.complete task (result.mapError gx.describe))) = some (served, [])) :
    Kept gx g x codec c seq clock (signs ++ [.deed task (.routed request readings how)]) ⟨served, gating, s.executing⟩ := by
  obtain ⟨running, away⟩ := unroutedRuns unrouted
  have ends : Ends gx s ⟨served, gating, s.executing⟩ task request result :=
    ⟨running, oneResponse texts (routedText gate) singly, away, fun _ _ => Iff.rfl, by rw [flight]; exact kept.waiting, kept.apart,
      completed step⟩
  refine endsKept kept ends ?_ ?_ (callFresh kept unrouted) (runsNext kept.loop step) (runsNext kept.gate gate)
  · simp [Sign.result, settles]
  · rintro call ⟨⟩
    rfl

theorem pairedErase {α β : Type} {R : α → β → Prop} {as : List α} {bs : List β} (ok : List.Forall₂ R as bs) (i : Nat) :
    List.Forall₂ R (as.eraseIdx i) (bs.eraseIdx i) := by
  induction ok generalizing i with
  | nil => exact .nil
  | cons first rest ih =>
    cases i with
    | zero => exact rest
    | succ i => exact .cons first (ih i)

theorem returnsKept {call : Nat} {actionId : Str} {gating : Gating} {result : ExecutorResult} {served : ReplyDelivery.Delivery}
    (texts : ∀ e, Encodable (gx.describe e)) (kept : Kept gx g x codec c seq clock signs s) (here : s.executing[call]? = some task)
    (id : s.gating.inFlight[call]? = some actionId)
    (gate : (Gating.machine gx g).step s.gating (.finish call result) = some (gating, [.finished actionId (executorReply gx actionId result)]))
    (flight : gating.inFlight = s.gating.inFlight.eraseIdx call)
    (step : (delivery x codec c).step s.served
      (.turn (.complete task ((executorReply gx actionId result).mapError gx.describe))) = some (served, [])) :
    Kept gx g x codec c seq clock (signs ++ [.deed task (.finished actionId (executorReply gx actionId result))])
      ⟨served, gating, s.executing.eraseIdx call⟩ := by
  obtain ⟨request, running, own, text⟩ := ReplyDelivery.pairedAt kept.waiting here id
  subst own
  have without (other : Nat) : other ∈ s.executing.eraseIdx call ↔ other ≠ task ∧ other ∈ s.executing := by
    obtain ⟨inside, at_⟩ := List.getElem?_eq_some_iff.mp here
    rw [← kept.apart.erase_getElem call inside, at_]
    exact kept.apart.mem_erase_iff
  have ends : Ends gx s ⟨served, gating, s.executing.eraseIdx call⟩ task request (executorReply gx request.actionId result) := by
    refine ⟨running, oneResponse texts text (executorSingly result), ?_, fun other differs => ?_, ?_, kept.apart.eraseIdx call, completed step⟩
    · intro member
      exact ((without task).mp member).1 rfl
    · rw [without other]
      exact and_iff_right differs
    · rw [flight]
      exact pairedErase kept.waiting call
  refine endsKept kept ends rfl nofun ?_ (runsNext kept.loop step) (runsNext kept.gate gate)
  have none : callsOf [.deed task (.finished request.actionId (executorReply gx request.actionId result))] = [] := rfl
  rw [none, List.append_nil]
  exact kept.calls.once

theorem stepKept (texts : ∀ e, Encodable (gx.describe e)) (kept : Kept gx g x codec c seq clock signs s)
    (moves : Moves gx g x codec c s b t emitted) : Kept gx g x codec c seq clock (signs ++ emitted) t := by
  cases moves with
  | turned plain step => exact turnKept kept plain step
  | waits unrouted gate settles flight => exact waitsKept kept unrouted gate settles flight
  | answers unrouted gate settles flight singly step => exact answersKept texts kept unrouted gate settles flight singly step
  | returns here id gate flight step => exact returnsKept texts kept here id gate flight step
  | elsewhere gate flight =>
    rw [List.append_nil]
    have gated := runsNext kept.gate gate
    rw [List.append_nil] at gated
    exact ⟨kept.loop, gated, flight ▸ kept.waiting, kept.apart, ⟨kept.calls.once, kept.calls.called⟩, kept.reports⟩

end Keeps

def Gated.Careful (s : Gated) : Beat → Prop
  | .turn turn => s.served.loop.Careful turn
  | .routes _ _ | .executed _ _ | .elsewhere => True

instance (s : Gated) : (b : Beat) → Decidable (s.Careful b)
  | .turn _ => inferInstanceAs (Decidable (Loop.Careful _ _))
  | .routes _ _ | .executed _ _ | .elsewhere => instDecidableTrue

theorem completeSteady (s : ReplyDelivery.Delivery) (task : Nat) (result : Except Str (List Envelope)) :
    Steady s (.turn (.complete task result)) := by
  constructor <;> simp [Loop.BothDone, Loop.Raises]

def isFor (job : Job) : ReplyDelivery.Traffic → Bool
  | .sent (some ticket) _ _ => (job.replies.map Reply.ticket).contains ticket
  | _ => false

def sentFor (job : Job) (traffic : List ReplyDelivery.Traffic) : List ReplyDelivery.Traffic := traffic.filter (isFor job)

/- The task has put its response, and the loop does not hold it any more, in the queue or in
the `get` task. -/
def Gone (s : ReplyDelivery.Delivery) (task : Nat) (job : Job) : Prop :=
  s.loop.tasks[task]? = some (.putting []) ∧ ∀ r ∈ job.replies, r ∉ s.loop.held

/- One send at most, of the response that was made for the request, and none before the loop
has let go of it. -/
structure Delivered (codec : Codec) (c : VynkorClient) (s : ReplyDelivery.Delivery) (task : Nat) (job : Job) (outcome : Outcome)
    (traffic : List ReplyDelivery.Traffic) : Prop where
  once : (sentFor job traffic).length ≤ 1
  own : ∀ t ∈ sentFor job traffic, ∃ ticket response frames, t = .sent (some ticket) ⟨some (.actionResponse response)⟩ frames ∧
    made job.request outcome = [⟨some (.actionResponse response)⟩] ∧ response.actionId = job.request.actionId ∧
      (c.Connected → ((∃ frame, frames = [frame]) ↔ ReplyDelivery.Fits codec ⟨some (.actionResponse response)⟩))
  gone : sentFor job traffic ≠ [] → Gone s task job

section Sends
variable {x : Framing.Externals} {codec : Codec} {c : VynkorClient} {s : ReplyDelivery.Delivery} {traffic : List ReplyDelivery.Traffic} {task : Nat}
  {job : Job} {outcome : Outcome}

theorem sentCount (job : Job) (traffic : List ReplyDelivery.Traffic) :
    (sentFor job traffic).length = (ticketsOf traffic).countP (job.replies.map Reply.ticket).contains := by
  induction traffic with
  | nil => rfl
  | cons first rest ih =>
    cases first with
    | accepted _ _ => exact ih
    | sent ticket envelope frames =>
      cases ticket with
      | none => exact ih
      | some ticket =>
        have more : ticketsOf (.sent (some ticket) envelope frames :: rest) = ticket :: ticketsOf rest := rfl
        have reads : isFor job (.sent (some ticket) envelope frames) = (job.replies.map Reply.ticket).contains ticket := rfl
        rw [more, List.countP_cons, ← ih, sentFor, List.filter_cons, reads]
        split <;> rfl

theorem sentOnce (distinct : (ticketsOf traffic).Nodup) {r : Reply} (replies : job.replies = [r]) :
    (sentFor job traffic).length ≤ 1 := by
  rw [sentCount, replies]
  refine Nat.le_trans (Nat.le_of_eq ?_) (List.nodup_iff_count_le_one.mp distinct r.ticket)
  exact List.countP_congr fun ticket _ => by simp

theorem sentForOf {t : ReplyDelivery.Traffic} (member : t ∈ sentFor job traffic) : ∃ r ∈ job.replies, ∃ envelope frames,
    t = .sent (some r.ticket) envelope frames ∧ t ∈ traffic ∧ ⟨r.ticket, envelope⟩ ∈ repliesOf traffic := by
  obtain ⟨inside, mine⟩ := List.mem_filter.mp member
  unfold isFor at mine
  split at mine
  · rename_i ticket envelope frames
    obtain ⟨r, own, rfl⟩ := List.mem_map.mp (List.contains_iff_mem.mp mine)
    exact ⟨r, own, envelope, frames, rfl, inside, List.mem_filterMap.mpr ⟨_, inside, rfl⟩⟩
  · cases mine

theorem sentForAny {r : Reply} (own : r ∈ job.replies) (sent : r ∈ repliesOf traffic) : sentFor job traffic ≠ [] := by
  obtain ⟨t, inside, same⟩ := List.mem_filterMap.mp sent
  split at same
  · rename_i ticket envelope frames
    cases same
    exact List.ne_nil_of_mem (List.mem_filter.mpr ⟨inside, List.contains_iff_mem.mpr (List.mem_map_of_mem own)⟩)
  all_goals cases same

theorem repliesOne (ok : ReplyDelivery.Serving x codec c traffic s) (found : s.jobs[task]? = some job)
    (ends : job.outcome = some outcome) (one : OneResponse job.request outcome) :
    (job.replies = [] ∧ s.loop.tasks[task]? ≠ some (.putting [])) ∨ (s.loop.tasks[task]? = some (.putting []) ∧
      ∃ r response, job.replies = [r] ∧ r.envelope = ⟨some (.actionResponse response)⟩ ∧
        made job.request outcome = [r.envelope] ∧ response.actionId = job.request.actionId) := by
  have inside := (List.getElem?_eq_some_iff.mp found).1
  rw [← ok.paired.length_eq] at inside
  have here := List.getElem?_eq_getElem inside
  have pair := ReplyDelivery.pairedAt ok.paired here found
  obtain ⟨response, made, own⟩ := one
  cases at_ : s.loop.tasks[task] with
  | running request =>
    rw [at_] at pair
    have fresh : job = ⟨request, none, []⟩ := pair
    rw [fresh] at ends
    cases ends
  | putting envelopes =>
    rw [at_] at pair here
    obtain ⟨outcome', ends', whole⟩ := pair
    cases ends.symm.trans ends'
    cases replies : job.replies with
    | nil =>
      rw [made, replies] at whole
      refine .inl ⟨rfl, fun put => ?_⟩
      cases here.symm.trans put
      cases whole
    | cons r rest =>
      rw [made, replies] at whole
      obtain ⟨same, nothing⟩ := List.cons.inj whole
      obtain ⟨none, rfl⟩ := List.append_eq_nil_iff.mp nothing.symm
      rw [List.map_eq_nil_iff.mp none]
      exact .inr ⟨here, r, response, rfl, same.symm, by rw [made, same], own⟩

theorem delivered {Meets : ReplyDelivery.Delivery → ReplyDelivery.Act → Prop} {acts : List ReplyDelivery.Act}
    (run : Runs (delivery x codec c) Meets ReplyDelivery.start acts traffic s)
    (found : s.jobs[task]? = some job) (ends : job.outcome = some outcome) (one : OneResponse job.request outcome) :
    Delivered codec c s task job outcome traffic ∧
      ((∀ s act, Meets s act → Steady s act) → Gone s task job → sentFor job traffic ≠ []) := by
  have ok := deliveryServing run
  obtain ⟨deeds, told⟩ := deliveryTold run
  rcases repliesOne ok found ends one with ⟨replies, unput⟩ | ⟨put, r, response, replies, same, made, own⟩
  · have silent : sentFor job traffic = [] := by
      refine List.eq_nil_iff_forall_not_mem.mpr fun t member => ?_
      obtain ⟨r, mine, -⟩ := sentForOf member
      rw [replies] at mine
      cases mine
    exact ⟨⟨by simp [silent], by simp [silent], fun some => absurd silent some⟩, fun _ gone => absurd gone.1 unput⟩
  · have here : r ∈ job.replies := by rw [replies]; exact List.mem_singleton.mpr rfl
    have each : ∀ t ∈ sentFor job traffic, r ∈ repliesOf traffic ∧ ∃ frames, t = .sent (some r.ticket) r.envelope frames ∧ t ∈ traffic := by
      intro t member
      obtain ⟨r', mine, envelope, frames, rfl, inside, sent⟩ := sentForOf member
      obtain rfl := List.mem_singleton.mp (replies ▸ mine)
      have whole := sentOwn told found here sent rfl
      rw [← whole]
      exact ⟨sent, frames, rfl, inside⟩
    refine ⟨⟨sentOnce (ticketsDistinct told) replies, fun t member => ?_, fun some => ⟨put, fun r' mine => ?_⟩⟩, fun all gone => ?_⟩
    · obtain ⟨-, frames, rfl, inside⟩ := each t member
      refine ⟨r.ticket, response, frames, by rw [same], by rw [made, same], own, fun up => ?_⟩
      rw [ok.honest _ _ _ inside, same]
      rcases ReplyDelivery.writtenFits x codec up ⟨some (.actionResponse response)⟩ with ⟨fits, frame, writes⟩ | ⟨big, nothing⟩
      · exact iff_of_true ⟨frame, writes⟩ fits
      · exact iff_of_false (by rw [nothing]; rintro ⟨frame, same⟩; cases same) big
    · obtain rfl := List.mem_singleton.mp (replies ▸ mine)
      obtain ⟨t, member⟩ := List.exists_mem_of_ne_nil _ some
      exact sentUnheld told (each t member).1
    · have where_ := jobPut told found here
      rw [told.balanced all, told.sent] at where_
      exact sentForAny here ((List.mem_append.mp where_).resolve_right (gone.2 r here))

end Sends

theorem carefulServed {gx : ConfirmationGate.Externals} {g : Gate} {x : Framing.Externals} {codec : Codec} {c : VynkorClient} {seq : Nat}
    {clock : ConfirmationGate.Time} {beats : List Beat} {signs : List Sign} {s : Gated}
    (run : Runs (gated gx g x codec c) Gated.Careful (.start seq clock) beats signs s) :
    ∃ acts, Runs (delivery x codec c) Steady ReplyDelivery.start acts (trafficOf signs) s.served := by
  refine runsKeep (fun signs (s : Gated) => ∃ acts, Runs (delivery x codec c) Steady ReplyDelivery.start acts (trafficOf signs) s.served)
    ⟨[], .idle⟩ ?_ run
  rintro signs s beat t emitted ⟨acts, loop⟩ careful move
  rw [(signsAppend signs emitted).1]
  cases stepMoves move with
  | turned plain step =>
    rw [(trafficSigns _).1]
    exact ⟨_, .next loop (show Steady s.served (.turn _) from careful) step⟩
  | answers unrouted gate settles flight singly step => exact ⟨_, .next loop (completeSteady _ _ _) step⟩
  | returns here id gate flight step => exact ⟨_, .next loop (completeSteady _ _ _) step⟩
  | waits unrouted gate settles flight =>
    exact ⟨acts, (List.append_nil (trafficOf signs)).symm ▸ loop⟩
  | elsewhere gate flight => exact ⟨acts, (List.append_nil (trafficOf signs)).symm ▸ loop⟩

structure Serves (gx : ConfirmationGate.Externals) (g : Gate) (x : Framing.Externals) (codec : Codec) (c : VynkorClient) (seq : Nat)
    (clock : ConfirmationGate.Time) (beats : List Beat) (signs : List Sign) (s : Gated) : Prop where
  loop : ∃ acts, Runs (delivery x codec c) Always ReplyDelivery.start acts (trafficOf signs) s.served
  gate : ∃ calls, Runs (Gating.machine gx g) Always (.start seq clock) calls (deedsOf signs) s.gating
  guarded : ConfirmationGate.Answering g → ConfirmationGate.Spec gx g (deedsOf signs)
  once : ((callsOf signs).map Prod.fst).Nodup
  called : ∀ call ∈ callsOf signs, ∃ outcome, (views s.served)[call.1]? = some (call.2, outcome)
  reports : ∀ task request outcome, (views s.served)[task]? = some (request, some outcome) →
    Reports gx (resultsOf signs) task request outcome
  delivers : ∀ task job outcome, s.served.jobs[task]? = some job → job.outcome = some outcome →
    Delivered codec c s.served task job outcome (trafficOf signs)
  sends : Runs (gated gx g x codec c) Gated.Careful (.start seq clock) beats signs s →
    ∀ task job outcome, s.served.jobs[task]? = some job → job.outcome = some outcome →
      (sentFor job (trafficOf signs) ≠ [] ↔ Gone s.served task job)

/- In every run the loop and the gate each run as they do alone; each accepted request makes
one call of the gate, and that call, even where `route` raises, one response of its own. It
is sent at most once, and where no reply is lost just when the loop has let go of it. -/
theorem gateServed (gx : ConfirmationGate.Externals) (g : Gate) (x : Framing.Externals) (codec : Codec) (c : VynkorClient)
    (texts : ∀ e, Encodable (gx.describe e)) (seq : Nat) (clock : ConfirmationGate.Time) {beats : List Beat} {signs : List Sign}
    {s : Gated} (run : Runs (gated gx g x codec c) Always (.start seq clock) beats signs s) :
    Serves gx g x codec c seq clock beats signs s := by
  have kept := runsKeep (Kept gx g x codec c seq clock)
    (by exact ⟨⟨[], .idle⟩, ⟨[], .idle⟩, .nil, List.nodup_nil, ⟨List.nodup_nil, nofun⟩, nofun⟩)
    (fun _ _ _ _ _ kept _ move => stepKept texts kept (stepMoves move)) run
  obtain ⟨acts, loop⟩ := kept.loop
  obtain ⟨calls, gate⟩ := kept.gate
  have one (task : Nat) (job : Job) (outcome : Outcome) (found : s.served.jobs[task]? = some job)
      (ends : job.outcome = some outcome) : OneResponse job.request outcome := by
    refine (kept.reports task job.request outcome ?_).2
    rw [views, List.getElem?_map, found, ← ends]
    rfl
  refine ⟨kept.loop, kept.gate, fun answering => ?_, kept.calls.once, fun call member => ?_, kept.reports,
    fun task job outcome found ends => (delivered loop found ends (one task job outcome found ends)).1,
    fun careful task job outcome found ends => ?_⟩
  · exact (runsKeep (ConfirmationGate.Sound gx g) (ConfirmationGate.startSound gx g seq clock)
      (fun _ _ _ _ _ ok _ move => ConfirmationGate.stepSound answering ok move) gate).spec
  · obtain ⟨outcome, found, -⟩ := kept.calls.called call member
    exact ⟨outcome, found⟩
  · obtain ⟨acts, steady⟩ := carefulServed careful
    obtain ⟨made, all⟩ := delivered steady found ends (one task job outcome found ends)
    exact ⟨made.gone, all fun _ _ => id⟩

def sampleUnknown : ActionRequest := ⟨lit "a3", lit "get", [], 0, false, lit "shop"⟩

def sampleAccepts (request : ActionRequest) : List Beat :=
  [.turn .iterate, .turn (.received (.ok ⟨some (.actionRequest request)⟩)), .turn .wake, .turn (.goOn .accepted 0), .turn .drain]

def sampleSends : List Beat := [.turn .iterate, .turn .got, .turn .wake, .turn (.goOn .accepted 0)]

def sampleBeats : List Beat :=
  sampleAccepts ConfirmationGate.sampleTransfer ++ [.routes 0 ConfirmationGate.sampleStored, .turn (.put 0)] ++ sampleSends ++
    sampleAccepts ConfirmationGate.sampleConfirm ++ [.routes 1 ConfirmationGate.sampleTaken] ++ sampleAccepts sampleUnknown ++
    [.routes 2 ⟨3, 1002, 3⟩, .executed 0 (.bytes [9]), .turn (.put 1), .turn (.put 2)] ++ sampleSends ++ sampleSends

def sampleMachine : Machine Gated Beat Sign :=
  gated ConfirmationGate.sampleModule (ConfirmationGate.sampleGate (.finite 300)) Framing.sampleExternals ReplyDelivery.sampleProto
    ReplyDelivery.sampleClient

def sampleGated : Option (Gated × List Sign) := (sampleMachine.restrict Gated.Careful).run (.start 0 0) sampleBeats

theorem gateServedSample :
    (sampleGated.map fun ran => ((resultsOf ran.2).map Prod.fst, ticketsOf (trafficOf ran.2))) = some ([0, 2, 1], [0, 1, 2]) ∧
      ∀ ran ∈ sampleGated, Serves ConfirmationGate.sampleModule (ConfirmationGate.sampleGate (.finite 300)) Framing.sampleExternals
        ReplyDelivery.sampleProto ReplyDelivery.sampleClient 0 0 sampleBeats ran.2 ran.1 ∧
          ∀ task job outcome, ran.1.served.jobs[task]? = some job → job.outcome = some outcome →
            (sentFor job (trafficOf ran.2) ≠ [] ↔ Gone ran.1.served task job) := by
  refine ⟨by decide +kernel, fun ran member => ?_⟩
  have careful : Runs sampleMachine Gated.Careful (.start 0 0) sampleBeats ran.2 ran.1 := runsOfRestricted member
  have run : Runs sampleMachine Always (.start 0 0) sampleBeats ran.2 ran.1 :=
    runsWeaken (fun _ _ _ => trivial) careful
  have serves := gateServed ConfirmationGate.sampleModule (ConfirmationGate.sampleGate (.finite 300)) Framing.sampleExternals
    ReplyDelivery.sampleProto ReplyDelivery.sampleClient (fun _ => litEncodable _) 0 0 run
  exact ⟨serves, serves.sends careful⟩

end Vynkor.GatedLoop
