import Mathlib.Data.List.Flatten
import Mathlib.Data.List.Forall2
import Mathlib.Data.List.ModifyLast
import Vynkor.ConcurrentLoop
import Vynkor.PluginServe

/-! The loop of `vynkor/concurrent.py` beside that of `Plugin.serve`, where no action is
requested: what each calls and sends over the same envelopes and hooks. -/
namespace Vynkor.LoopAgreement
open Text Labelled Plugin

structure Watched where
  loop : Loop
  visits : List Visit

def hooked : Option (Option Envelope) → Hook
  | none => .error ⟨true, []⟩
  | some reply => .ok reply

def see (visits : List Visit) : Control → Turn → List Visit
  | .woken (some (.ok envelope)) _, .goOn _ now => visits ++ [⟨⟨envelope, now⟩, .ok none⟩]
  | _, .handled outcome => visits.modifyLast fun v => { v with hook := hooked outcome }
  | _, _ => visits

def entered : Turn → Control → List Effect
  | .goOn _ _, .onEvent event => [.onEvent event]
  | .goOn _ _, .onMessage envelope => [.onMessage envelope]
  | _, _ => []

def sending : Happening → Option Effect
  | .own envelope => some (.sends envelope)
  | .handed reply => some (.sends reply.envelope)
  | _ => none

@[simp] theorem sendingIteration : sending .iteration = none := rfl
@[simp] theorem sendingReturned : sending .returned = none := rfl
@[simp] theorem sendingOwn (envelope : Envelope) : sending (.own envelope) = some (.sends envelope) := rfl

def watch (w : Watched) (turn : Turn) : Option (Watched × List Effect) :=
  (w.loop.step turn).map fun (after, happened) =>
    (⟨after, see w.visits w.loop.control turn⟩, entered turn after.control ++ happened.filterMap sending)

def watched : Machine Watched Turn Effect := ⟨watch⟩

def asked : Control → Turn → Bool
  | .woken (some (.ok ⟨some (.actionRequest _)⟩)) _, .goOn _ _ => true
  | .onMessage _, .handled none => true
  | _, _ => false

def Alone (w : Watched) (turn : Turn) : Prop := asked w.loop.control turn = false

instance (w : Watched) (turn : Turn) : Decidable (Alone w turn) := inferInstanceAs (Decidable (_ = _))

def blind : Effect → Effect
  | .sends ⟨some (.pong timestamp _)⟩ => .sends ⟨some (.pong timestamp 0)⟩
  | e => e

def Alike (v w : Visit) : Prop :=
  v.inbound.envelope = w.inbound.envelope ∧ (v.calls ≠ [] → v.hook.toOption = w.hook.toOption)

def carries (v : Visit) : Bool := v.inbound.envelope.payload.isSome

section Alike
variable {v w : Visit} {visits ws : List Visit}

theorem retimed (envelope : Envelope) (hook : Hook) (now later : Nat) :
    (effects ⟨⟨envelope, now⟩, hook⟩).map blind = (effects ⟨⟨envelope, later⟩, hook⟩).map blind := by
  obtain ⟨payload⟩ := envelope
  cases payload with
  | none => rfl
  | some kind => cases kind <;> rfl

theorem rehooked (i : Inbound) {hook other : Hook}
    (called : (Visit.mk i hook).calls ≠ [] → hook.toOption = other.toOption) : effects ⟨i, hook⟩ = effects ⟨i, other⟩ := by
  cases kindOf i with
  | ping kind | pluginShutdown kind => simp [effects, Visit.calls, Visit.replies, kind]
  | event kind =>
    have outcomes := called (by simp [Visit.calls, kind])
    cases hook <;> cases other <;> cases outcomes <;> simp [effects, Visit.calls, Visit.replies, kind]
  | other _ calls replies _ _ =>
    have outcomes := called (by simp [calls])
    cases hook <;> cases other <;> cases outcomes <;> simp [effects, calls, replies]

theorem alikeEffects (alike : Alike v w) : (effects v).map blind = (effects w).map blind := by
  obtain ⟨⟨envelope, now⟩, hook⟩ := v
  obtain ⟨⟨other, later⟩, outcome⟩ := w
  obtain ⟨same, called⟩ := alike
  cases same
  rw [retimed envelope hook now later, rehooked ⟨envelope, later⟩ called]

theorem alikeGoing (alike : Alike v w) (going : v.stop = none) : w.stop = none := by
  obtain ⟨⟨envelope, now⟩, hook⟩ := v
  obtain ⟨⟨other, later⟩, outcome⟩ := w
  obtain ⟨same, called⟩ := alike
  cases same
  cases kindOf ⟨envelope, now⟩ with
  | ping kind | event kind =>
    simp only at kind
    simp [Visit.stop, kind]
  | pluginShutdown kind =>
    simp only at kind
    simp [Visit.stop, kind] at going
  | other _ calls _ stop _ =>
    have outcomes := called (by simp [calls])
    have same : (Visit.mk ⟨envelope, later⟩ outcome).stop = (Visit.mk ⟨envelope, now⟩ outcome).stop := rfl
    rw [same, stop]
    cases hook with
    | error e => simp [stop] at going
    | ok reply =>
      cases outcome with
      | error e => cases outcomes
      | ok other => rfl

theorem alikeLoops (alike : List.Forall₂ Alike visits ws) (going : ∀ v ∈ visits.dropLast, v.stop = none) :
    (loopEffects ws).map blind = (visits.flatMap effects).map blind := by
  induction alike with
  | nil => rfl
  | @cons v w visits ws first rest ih =>
    cases rest with
    | nil =>
      have alone : loopEffects [w] = effects w := by
        cases stops : w.stop with
        | none => simp [loopEffects, served, stopper, stops]
        | some pending => exact loopEffectsStop stops
      rw [alone, ← alikeEffects first, List.flatMap_singleton]
    | cons second others =>
      rw [List.dropLast_cons_cons, List.forall_mem_cons] at going
      rw [loopEffectsCons (alikeGoing first going.1), List.map_append, ih going.2, ← alikeEffects first,
        ← List.map_append, ← List.flatMap_cons]

end Alike

/- What the envelopes call for: one without a known payload is passed over. -/
def heard (visits : List Visit) : List Effect := (visits.filter carries).flatMap effects

def Going (visits : List Visit) : Prop := ∀ v ∈ visits, v.stop = none

def At (visits : List Visit) (trace : List Effect) : Control → Prop
  | .top | .draining | .waiting _ none | .woken _ none => Going visits ∧ trace = heard visits
  | .onEvent event => ∃ before now, visits = before ++ [⟨⟨⟨some (.event event)⟩, now⟩, .ok none⟩] ∧ Going before ∧
      trace = heard before ++ [.onEvent event]
  | .onMessage envelope => ∃ before now, visits = before ++ [⟨⟨envelope, now⟩, .ok none⟩] ∧ Going before ∧
      trace = heard before ++ [.onMessage envelope] ∧ envelope.payload.isSome = true ∧
      (Visit.mk ⟨envelope, now⟩ (.ok none)).calls = [.onMessage envelope]
  | .replying reply => ∃ before event now, visits = before ++ [⟨⟨⟨some (.event event)⟩, now⟩, .ok reply⟩] ∧ Going before ∧
      trace = heard before ++ [.onEvent event, .sends ⟨some (.eventAck event.eventId)⟩]
  | .flushing | .returned => Going visits.dropLast ∧ trace = heard visits
  | .raised => True
  | .waiting _ (some _) | .woken _ (some _) => False

section Seen
variable {visits before : List Visit} {v : Visit}

theorem heardSnoc (carried : carries v = true) : heard (before ++ [v]) = heard before ++ effects v := by
  simp [heard, List.filter_append, carried]

theorem heardPast (none : v.inbound.envelope.payload = none) : heard (before ++ [v]) = heard before := by
  simp [heard, List.filter_append, carries, none]

theorem goingSnoc (going : Going before) (here : v.stop = none) : Going (before ++ [v]) := by
  intro w member
  rcases List.mem_append.mp member with earlier | last
  · exact going w earlier
  · rw [List.mem_singleton.mp last]
    exact here

theorem goingInit (going : Going visits) : Going visits.dropLast := fun v member => going v (List.dropLast_subset _ member)

end Seen

theorem messageEffects {envelope : Envelope} {now : Nat} (reply : Option Envelope)
    (calls : (Visit.mk ⟨envelope, now⟩ (.ok none)).calls = [.onMessage envelope]) :
    effects ⟨⟨envelope, now⟩, .ok reply⟩ = .onMessage envelope :: reply.toList.map .sends ∧
      (Visit.mk ⟨envelope, now⟩ (.ok reply)).stop = none := by
  cases kindOf ⟨envelope, now⟩ with
  | ping kind | pluginShutdown kind | event kind =>
    simp only at kind
    simp [Visit.calls, kind] at calls
  | other _ calls replies stop _ => exact ⟨by simp [effects, calls, replies], by simp [stop]⟩

section Steps
variable {before after : Control} {turn : Turn} {visits : List Visit} {trace : List Effect} {happened : List Happening}

theorem atWaiting {received : Option (Except Error Envelope)} {got : Option Reply} :
    (At visits trace (.waiting received got) ↔ got = none ∧ Going visits ∧ trace = heard visits) ∧
      (At visits trace (.woken received got) ↔ got = none ∧ Going visits ∧ trace = heard visits) := by
  cases got <;> simp [At]

theorem goesAt (goes : Goes before turn happened after) (unasked : asked before turn = false) (ok : At visits trace before) :
    At (see visits before turn) (trace ++ (entered turn after ++ happened.filterMap sending)) after := by
  cases goes with
  | iterate =>
    obtain ⟨going, rfl⟩ := ok
    exact ⟨going, List.append_nil _⟩
  | received =>
    obtain ⟨rfl, going, rfl⟩ := atWaiting.1.mp ok
    exact atWaiting.1.mpr ⟨rfl, going, List.append_nil _⟩
  | wake =>
    obtain ⟨rfl, going, rfl⟩ := atWaiting.1.mp ok
    exact atWaiting.2.mpr ⟨rfl, going, List.append_nil _⟩
  | lost =>
    obtain ⟨rfl, going, rfl⟩ := atWaiting.2.mp ok
    exact ⟨goingInit going, List.append_nil _⟩
  | ping =>
    obtain ⟨-, going, rfl⟩ := atWaiting.2.mp ok
    refine ⟨goingSnoc going rfl, ?_⟩
    rw [see, heardSnoc rfl]
    rfl
  | pluginShutdown =>
    obtain ⟨-, going, rfl⟩ := atWaiting.2.mp ok
    refine ⟨by rwa [see, List.dropLast_concat], ?_⟩
    rw [see, heardSnoc rfl]
    rfl
  | waitRaised | loserRaised _ => trivial
  | rejected _ | unsaid _ | escapes => cases unasked
  | @event event got verdict now =>
    obtain ⟨-, going, rfl⟩ := atWaiting.2.mp ok
    exact ⟨visits, now, rfl, going, rfl⟩
  | passedOver =>
    obtain ⟨-, going, rfl⟩ := atWaiting.2.mp ok
    refine ⟨goingSnoc going rfl, ?_⟩
    rw [see, heardPast rfl]
    exact List.append_nil _
  | @message payload got verdict now foreign =>
    obtain ⟨-, going, rfl⟩ := atWaiting.2.mp ok
    refine ⟨visits, now, rfl, going, rfl, rfl, ?_⟩
    cases payload with
    | ping _ | pluginShutdown _ _ | event _ => cases foreign
    | _ => rfl
  | handed => exact absurd ok id
  | eventRaised =>
    obtain ⟨earlier, now, rfl, going, rfl⟩ := ok
    rw [see, List.modifyLast_concat]
    refine ⟨goingSnoc going rfl, ?_⟩
    rw [heardSnoc rfl]
    exact List.append_nil _
  | acked =>
    obtain ⟨earlier, now, rfl, going, rfl⟩ := ok
    rw [see, List.modifyLast_concat]
    exact ⟨earlier, _, now, rfl, going, List.append_assoc _ _ _⟩
  | messageRaised => cases unasked
  | @messageDone envelope reply =>
    obtain ⟨earlier, now, rfl, going, rfl, carried, calls⟩ := ok
    obtain ⟨done, goesOn⟩ := messageEffects reply calls
    rw [see, List.modifyLast_concat]
    refine ⟨goingSnoc going goesOn, ?_⟩
    rw [heardSnoc (v := ⟨⟨envelope, now⟩, _⟩) carried, hooked, done]
    cases reply <;> simp [entered]
  | @replied reply =>
    obtain ⟨earlier, event, now, rfl, going, rfl⟩ := ok
    refine ⟨goingSnoc going rfl, ?_⟩
    refine Eq.trans ?_ (heardSnoc rfl).symm
    cases reply <;> exact List.append_assoc _ _ _

end Steps

structure Watching (trace : List Effect) (w : Watched) : Prop where
  here : At w.visits trace w.loop.control
  queue : w.loop.queue = []
  tasks : w.loop.tasks = []

theorem watchKeeps {w t : Watched} {trace emitted : List Effect} {turn : Turn} (ok : Watching trace w)
    (alone : Alone w turn) (move : watched.step w turn = some (t, emitted)) : Watching (trace ++ emitted) t := by
  obtain ⟨⟨after, happened⟩, stepped, same⟩ := Option.map_eq_some_iff.mp move
  cases same
  have here := ok.here
  unfold Alone at alone
  cases stepSteps stepped with
  | goes goes => exact ⟨goesAt goes alone here, ok.queue, ok.tasks⟩
  | got _ some | drained _ some =>
    rw [ok.queue] at some
    cases some
  | accepted woken =>
    rw [woken] at alone
    cases alone
  | emptied draining _ =>
    rw [draining] at here ⊢
    exact ⟨by simpa [see, entered, At] using here, ok.queue, ok.tasks⟩
  | returned flushing _ =>
    rw [flushing] at here ⊢
    exact ⟨by simpa [see, entered, List.filterMap_cons, At] using here, ok.queue, ok.tasks⟩
  | completed running =>
    rw [ok.tasks] at running
    cases running
  | put putting =>
    rw [ok.tasks] at putting
    cases putting

def Admitted (v : Visit) : Prop :=
  (∀ request, v.inbound.envelope.payload ≠ some (.actionRequest request)) ∧
    (v.calls = [.onMessage v.inbound.envelope] → ∃ reply, v.hook = .ok reply)

def enterTurns (i : Inbound) : List Turn := [.iterate, .received (.ok i.envelope), .wake, .goOn .accepted i.now]

def visitTurns (v : Visit) : List Turn :=
  enterTurns v.inbound ++
    match v.inbound.envelope.payload with
    | none => []
    | some (.ping _) | some (.pluginShutdown _ _) => [.drain]
    | some (.event _) => .handled v.hook.toOption :: if v.hook.toOption.isSome then [.reply, .drain] else []
    | some _ => [.handled v.hook.toOption, .drain]

def lostTurns (lost : Error) : List Turn := [.iterate, .received (.error lost), .wake, .goOn .accepted 0, .drain]

def script (lost : Error) : List Visit → List Turn
  | [] => lostTurns lost
  | v :: rest => visitTurns v ++ if v.stop.isSome then [] else script lost rest

def taken (visits : List Visit) : List Visit := served visits ++ (stopper visits).toList

def Seen (v w : Visit) : Prop := v.inbound.envelope = w.inbound.envelope ∧ (carries v = true → Alike v w)

def still (control : Control) : Loop := { Loop.start with control := control }

section Scripts
variable {v : Visit} {visits seen : List Visit}

theorem hookScript (seen : List Visit) (i : Inbound) (control next : Control) (outcome : Option (Option Envelope))
    (happened : List Happening)
    (enters : (watched.restrict Alone).run ⟨.start, seen⟩ (enterTurns i) =
      some (⟨still control, seen ++ [⟨i, .ok none⟩]⟩, entered (.goOn .accepted i.now) control))
    (alone : Alone ⟨still control, seen ++ [⟨i, .ok none⟩]⟩ (.handled outcome))
    (handled : (still control).handled outcome = some (still next, happened)) :
    (watched.restrict Alone).run ⟨.start, seen⟩ (enterTurns i ++ [.handled outcome]) =
      some (⟨still next, seen ++ [⟨i, hooked outcome⟩]⟩,
        entered (.goOn .accepted i.now) control ++ happened.filterMap sending) := by
  refine Machine.runJoin enters (Machine.runOne ?_)
  simp only [Machine.restrict, if_pos alone, watched, watch, Loop.step, handled, Option.map_some, see, entered,
    List.modifyLast_concat, List.nil_append]

theorem drainScript : (watched.restrict Alone).run ⟨still .draining, visits⟩ [.drain] = some (⟨.start, visits⟩, []) := rfl

theorem replyScript (reply : Option Envelope) :
    (watched.restrict Alone).run ⟨still (.replying reply), visits⟩ [.reply, .drain] =
      some (⟨.start, visits⟩, reply.toList.map .sends) := by
  cases reply <;> rfl

theorem eventScript (event : Event) (now : Nat) (hook : Hook) :
    ∃ trace, (watched.restrict Alone).run ⟨.start, seen⟩ (visitTurns ⟨⟨⟨some (.event event)⟩, now⟩, hook⟩) =
      some (⟨.start, seen ++ [⟨⟨⟨some (.event event)⟩, now⟩, hooked hook.toOption⟩]⟩, trace) := by
  have called := hookScript seen ⟨⟨some (.event event)⟩, now⟩ (.onEvent event)
  cases hook with
  | error e => exact ⟨_, called .top none [] rfl rfl rfl⟩
  | ok reply =>
    have acked := called (.replying reply) (some reply) [.own ⟨some (.eventAck event.eventId)⟩] rfl rfl rfl
    have whole := Machine.runJoin acked (replyScript reply)
    exact ⟨_, whole⟩

theorem messageScript (kind : Payload) (now : Nat) (reply : Option Envelope)
    (enters : (watched.restrict Alone).run ⟨.start, seen⟩ (enterTurns ⟨⟨some kind⟩, now⟩) =
      some (⟨still (.onMessage ⟨some kind⟩), seen ++ [⟨⟨⟨some kind⟩, now⟩, .ok none⟩]⟩, [.onMessage ⟨some kind⟩]))
    (turns : visitTurns ⟨⟨⟨some kind⟩, now⟩, .ok reply⟩ =
      enterTurns ⟨⟨some kind⟩, now⟩ ++ [.handled (some reply)] ++ [.drain]) :
    (watched.restrict Alone).run ⟨.start, seen⟩ (visitTurns ⟨⟨⟨some kind⟩, now⟩, .ok reply⟩) =
      some (⟨.start, seen ++ [⟨⟨⟨some kind⟩, now⟩, .ok reply⟩]⟩, .onMessage ⟨some kind⟩ :: reply.toList.map .sends) := by
  rw [turns]
  have called := hookScript seen ⟨⟨some kind⟩, now⟩ (.onMessage ⟨some kind⟩) .draining (some reply)
  cases reply with
  | none => exact Machine.runJoin (called [] enters rfl rfl) drainScript
  | some envelope => exact Machine.runJoin (called [.own envelope] enters rfl rfl) drainScript

theorem visitScript (seen : List Visit) (admitted : Admitted v) : ∃ trace w, Seen v w ∧
    (watched.restrict Alone).run ⟨.start, seen⟩ (visitTurns v) =
      some (⟨still (if v.stop.isSome then .returned else .top), seen ++ [w]⟩, trace) := by
  obtain ⟨⟨⟨payload⟩, now⟩, hook⟩ := v
  cases payload with
  | none =>
    obtain ⟨reply, same⟩ := admitted.2 rfl
    cases same
    exact ⟨[], ⟨⟨⟨none⟩, now⟩, .ok none⟩, ⟨rfl, nofun⟩, rfl⟩
  | some kind =>
    cases kind with
    | ping timestamp => exact ⟨_, ⟨⟨⟨some (.ping timestamp)⟩, now⟩, .ok none⟩, ⟨rfl, fun _ => ⟨rfl, nofun⟩⟩, rfl⟩
    | pluginShutdown reason seconds =>
      exact ⟨_, ⟨⟨⟨some (.pluginShutdown reason seconds)⟩, now⟩, .ok none⟩, ⟨rfl, fun _ => ⟨rfl, nofun⟩⟩, rfl⟩
    | event event =>
      obtain ⟨trace, ran⟩ := eventScript event now hook
      refine ⟨trace, ⟨⟨⟨some (.event event)⟩, now⟩, hooked hook.toOption⟩, ⟨rfl, fun _ => ⟨rfl, fun _ => ?_⟩⟩, ran⟩
      cases hook <;> rfl
    | actionRequest request => exact absurd rfl (admitted.1 request)
    | _ =>
      obtain ⟨reply, same⟩ := admitted.2 rfl
      cases same
      exact ⟨_, _, ⟨rfl, fun _ => ⟨rfl, fun _ => rfl⟩⟩, messageScript _ now reply rfl rfl⟩

theorem scriptRuns (seen : List Visit) (lost : Error) (admitted : ∀ v ∈ visits, Admitted v) : ∃ trace more, List.Forall₂ Seen (taken visits) more ∧
    (watched.restrict Alone).run ⟨.start, seen⟩ (script lost visits) = some (⟨still .returned, seen ++ more⟩, trace) := by
  induction visits generalizing seen with
  | nil => exact ⟨[], [], .nil, by rw [List.append_nil]; rfl⟩
  | cons v rest ih =>
    obtain ⟨first, w, saw, here⟩ := visitScript seen (admitted v List.mem_cons_self)
    cases stops : v.stop with
    | some pending =>
      refine ⟨first, [w], ?_, ?_⟩
      · simpa [taken, served, stopper, stops] using saw
      · simpa [script, stops] using here
    | none =>
      obtain ⟨later, more, others, ran⟩ := ih (seen ++ [w]) fun v member => admitted v (.tail _ member)
      refine ⟨first ++ later, w :: more, ?_, ?_⟩
      · simpa [taken, served, stopper, stops] using ⟨saw, others⟩
      · rw [stops] at here
        have whole := Machine.runJoin here ran
        simpa [script, stops] using whole

end Scripts

theorem goingCarried {visits : List Visit} (going : Going visits.dropLast) :
    ∀ v ∈ (visits.filter carries).dropLast, v.stop = none := by
  intro v member
  rcases List.eq_nil_or_concat visits with rfl | ⟨before, last, rfl⟩
  · cases member
  · rw [List.concat_eq_append, List.dropLast_concat] at going
    rw [List.concat_eq_append, List.filter_append] at member
    refine going v (List.mem_of_mem_filter (p := carries) ?_)
    cases carried : carries last with
    | true =>
      rw [List.filter_cons_of_pos carried, List.filter_nil, List.dropLast_concat] at member
      exact member
    | false =>
      rw [List.filter_cons_of_neg (by simp [carried]), List.filter_nil, List.append_nil] at member
      exact List.dropLast_subset _ member

theorem uncarriedCalls {v : Visit} (uncarried : carries v = false) : 1 ≤ (effects v).length := by
  obtain ⟨⟨⟨payload⟩, now⟩, hook⟩ := v
  cases payload with
  | some kind => cases uncarried
  | none => exact Nat.le_add_left 1 _

theorem heardAll {visits : List Visit} (same : (heard visits).length = (visits.flatMap effects).length) :
    ∀ v ∈ visits, carries v = true := by
  induction visits with
  | nil => nofun
  | cons v rest ih =>
    rw [heard, List.flatMap_cons, List.length_append] at same
    cases carried : carries v with
    | true =>
      rw [List.filter_cons_of_pos carried, List.flatMap_cons, List.length_append] at same
      exact List.forall_mem_cons.mpr ⟨carried, ih (Nat.add_left_cancel same)⟩
    | false =>
      rw [List.filter_cons_of_neg (by simp [carried])] at same
      have fewer : (heard rest).length ≤ (rest.flatMap effects).length :=
        (List.filter_sublist.flatMap effects).length_le
      have more := uncarriedCalls carried
      rw [heard] at fewer
      omega

/- What the receive loop of `Plugin.serve` does over these envelopes, until it goes on to
`on_shutdown`, is the trace. -/
def Serves (ws : List Visit) (lost : Thrown) (trace : List Effect) : Prop :=
  ∃ pending calls, serve.run .receiving (resumed lost ws) = some (.closing pending, calls ++ [.onShutdown]) ∧
    calls.map blind = trace.map blind

/- Where no action is requested and only `on_event` raises, the loop calls and sends, up to
the server's timestamps, what `Plugin.serve` does over the same envelopes exactly if each of
them has a known payload, and always what it does over those that have one; and over every
sequence of envelopes, and however `recv` fails after them, there is such a run. -/
theorem loopsAgree (lost : Error) :
    (∀ turns trace w, Runs watched Alone ⟨.start, []⟩ turns trace w → w.loop.control = .returned →
      ∀ ws ended, (∀ v ∈ ws, v.Fair) →
        (List.Forall₂ Alike w.visits ws → (Serves ws ended trace ↔ ∀ v ∈ w.visits, carries v = true)) ∧
          (List.Forall₂ Alike (w.visits.filter carries) ws → Serves ws ended trace)) ∧
    (∀ visits, (∀ v ∈ visits, Admitted v) → ∃ trace w, Runs watched Alone ⟨.start, []⟩ (script lost visits) trace w ∧
      w.loop.control = .returned ∧ List.Forall₂ Seen (taken visits) w.visits) := by
  constructor
  · intro turns trace w run returned ws ended fair
    have watching : Watching trace w := by
      refine runsKeep Watching (by exact ⟨⟨nofun, rfl⟩, rfl, rfl⟩) ?_ run
      intro trace w turn t emitted ok alone move
      exact watchKeeps ok alone move
    have here := watching.here
    rw [returned] at here
    obtain ⟨going, rfl⟩ := here
    obtain ⟨pending, -, ran⟩ := loopRuns fair
    have carried (alike : List.Forall₂ Alike (w.visits.filter carries) ws) : Serves ws ended (heard w.visits) :=
      ⟨pending, loopEffects ws, ran, alikeLoops alike (goingCarried going)⟩
    refine ⟨fun alike => ⟨fun serves => ?_, fun all => ?_⟩, carried⟩
    · obtain ⟨_, calls, served, same⟩ := serves
      have alone := List.append_cancel_right (congrArg Prod.snd (Option.some.inj (ran.symm.trans served)))
      rw [← alone] at same
      have whole := congrArg List.length (same.symm.trans (alikeLoops alike going))
      rw [List.length_map, List.length_map] at whole
      exact heardAll whole
    · exact carried (by rwa [List.filter_eq_self.mpr all])
  · intro visits admitted
    obtain ⟨trace, more, saw, ran⟩ := scriptRuns [] lost admitted
    exact ⟨trace, _, runsOfRestricted ran, rfl, saw⟩

def sampleEvent : Event := ⟨lit "e1", lit "t", [], 0⟩

def sampleSequence (late : Nat) (busy : Thrown) : List Visit :=
  [⟨⟨⟨some (.event sampleEvent)⟩, late + 5⟩, .error busy⟩, ⟨⟨⟨some (.ping 7)⟩, late + 8⟩, .ok none⟩,
    ⟨⟨⟨some (.eventAck (lit "e2"))⟩, late + 9⟩, .ok none⟩]

def sampleTrace : List Effect :=
  [.onEvent sampleEvent, .sends ⟨some (.pong 7 8)⟩, .onMessage ⟨some (.eventAck (lit "e2"))⟩]

theorem loopsAgreeSample : Serves (sampleSequence 10 ⟨true, lit "busy"⟩) ⟨true, lit "EOF"⟩ sampleTrace := by
  have ran : (watched.restrict Alone).run ⟨.start, []⟩ (script .incompleteRead (sampleSequence 0 ⟨true, []⟩)) =
      some (⟨still .returned, sampleSequence 0 ⟨true, []⟩⟩, sampleTrace) := rfl
  refine (((loopsAgree .incompleteRead).1 _ _ _ (runsOfRestricted ran) rfl _ _ ?_).1 ?_).mpr (by decide)
  · intro v member e raised
    simp only [sampleSequence, List.mem_cons, List.not_mem_nil, or_false] at member
    rcases member with rfl | rfl | rfl <;> cases raised
    rfl
  · exact .cons ⟨rfl, fun _ => rfl⟩ (.cons ⟨rfl, fun _ => rfl⟩ (.cons ⟨rfl, fun _ => rfl⟩ .nil))

/- An envelope without a payload, which only `Plugin.serve` hands to `on_message`. -/
theorem payloadlessPassed : ¬ ∀ turns trace w, Runs watched Alone ⟨.start, []⟩ turns trace w → w.loop.control = .returned →
    ∀ ws lost, (∀ v ∈ ws, v.Fair) → List.Forall₂ Alike w.visits ws → Serves ws lost trace := by
  intro claim
  have ran : (watched.restrict Alone).run ⟨.start, []⟩ (script .incompleteRead [⟨⟨⟨none⟩, 0⟩, .ok none⟩]) =
      some (⟨still .returned, [⟨⟨⟨none⟩, 0⟩, .ok none⟩]⟩, []) := rfl
  have fair : ∀ v ∈ [(⟨⟨⟨none⟩, 0⟩, .ok none⟩ : Visit)], v.Fair := by
    intro v member e raised
    rw [List.mem_singleton.mp member] at raised
    cases raised
  obtain ⟨pending, calls, served, same⟩ :=
    claim _ _ _ (runsOfRestricted ran) rfl _ ⟨true, lit "EOF"⟩ fair (.cons ⟨rfl, fun _ => rfl⟩ .nil)
  have passed : serve.run .receiving (resumed ⟨true, lit "EOF"⟩ [⟨⟨⟨none⟩, 0⟩, .ok none⟩]) =
      some (.closing none, [.onMessage ⟨none⟩, .onShutdown]) := rfl
  rw [passed] at served
  cases calls with
  | nil => simp at served
  | cons first rest => simp at same

end Vynkor.LoopAgreement
