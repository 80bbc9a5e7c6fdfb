import Vynkor.ConcurrentLoop
import Vynkor.Library.Settling

/-! The bounded queue of `run_concurrent_loop` of `vynkor/concurrent.py`: that tasks which
wait for room and the loop which takes from the queue never wait for each other. The turns
of the loop by itself take no frame, end no hook and are not those of an exception. -/
namespace Vynkor.ReplyBacklog
open Text Labelled

def internal : Turn → Bool
  | .received _ | .handled _ | .complete _ _ | .waitRaised | .loserRaised => false
  | _ => true

def Internal (_ : Loop) (turn : Turn) : Prop := internal turn = true

def unput : HandlerTask → List Envelope
  | .running _ => []
  | .putting envelopes => envelopes

def unputs (s : Loop) : List Envelope := s.tasks.flatMap unput

def backlog (s : Loop) : List Envelope := s.held.map Reply.envelope ++ unputs s

def calm : Control → Bool
  | .top | .waiting none _ | .woken none (some _) | .replying _ | .draining => true
  | _ => false

def rank : Control → Nat
  | .returned | .raised | .woken none none => 0
  | .flushing => 1
  | .waiting none none => 2
  | .top => 3
  | .draining | .woken none (some _) => 4
  | .replying _ | .waiting none (some _) => 5
  | .onEvent _ | .onMessage _ => 6
  | .woken (some _) _ => 7
  | .waiting (some _) none => 8
  | .waiting (some _) (some _) => 11

def work (s : Loop) : Nat := 5 * (unputs s).length + 4 * s.queue.length + rank s.control

section Tasks
variable {tasks : List HandlerTask} {task : Nat}

theorem setParts {old : HandlerTask} (new : HandlerTask) (here : tasks[task]? = some old) :
    ∃ front back, tasks = front ++ old :: back ∧ tasks.set task new = front ++ new :: back := by
  obtain ⟨inside, rfl⟩ := List.getElem?_eq_some_iff.mp here
  refine ⟨tasks.take task, tasks.drop (task + 1), ?_, List.set_eq_take_append_cons_drop.trans (if_pos inside)⟩
  rw [← List.drop_eq_getElem_cons inside, List.take_append_drop]

theorem unputsPut {envelope : Envelope} {envelopes : List Envelope}
    (putting : tasks[task]? = some (.putting (envelope :: envelopes))) :
    (tasks.flatMap unput).Perm (envelope :: (tasks.set task (.putting envelopes)).flatMap unput) := by
  obtain ⟨front, back, whole, left⟩ := setParts (.putting envelopes) putting
  rw [left, whole, List.flatMap_append, List.flatMap_append, List.flatMap_cons, List.flatMap_cons]
  exact List.perm_middle

end Tasks

section Steps
variable {s t : Loop} {turn : Turn} {happened : List Happening}

theorem goesRank {before after : Control} (alone : internal turn = true) (goes : Goes before turn happened after) :
    rank after < rank before := by
  cases goes with
  | @wake received got => cases received <;> cases got <;> simp [rank]
  | received | waitRaised | loserRaised _ | eventRaised | acked | messageRaised | messageDone => cases alone
  | iterate | lost | ping | pluginShutdown | rejected _ | unsaid _ | escapes | event | passedOver | message _ | handed | replied =>
    simp [rank]

theorem turnWorks (alone : internal turn = true) (move : s.step turn = some (t, happened)) : work t < work s := by
  cases stepSteps move with
  | goes goes =>
    have less := goesRank alone goes
    simp only [work, unputs] at less ⊢
    omega
  | @got received r rest waiting queue =>
    have up : rank (.waiting received (some r)) = rank (.waiting received none) + 3 := by cases received <;> rfl
    simp only [work, unputs, queue, waiting, up, List.length_cons]
    omega
  | accepted woken =>
    simp [work, unputs, Loop.spawn, woken, rank, unput]
  | drained taking queue =>
    simp only [work, unputs, queue, List.length_cons]
    omega
  | emptied draining queue => simp [work, unputs, draining, rank]
  | returned flushing queue => simp [work, unputs, flushing, rank]
  | completed => cases alone
  | put putting room =>
    have one := (unputsPut putting).length_eq
    simp only [List.length_cons] at one
    simp only [work, unputs, List.length_append, List.length_singleton]
    omega

theorem calmKept (peaceful : calm s.control = true) (alone : internal turn = true) (move : s.step turn = some (t, happened)) :
    calm t.control = true ∧ (backlog s).Perm ((handedReplies happened).map Reply.envelope ++ backlog t) := by
  cases stepSteps move with
  | @goes _ _ after goes =>
    generalize control : s.control = before at goes peaceful
    have held : backlog s = (Loop.inHand before ++ s.queue).map Reply.envelope ++ unputs s := by
      simp only [backlog, Loop.held, control]
    rw [held]
    cases goes with
    | @wake received got =>
      cases received with
      | some _ => cases peaceful
      | none =>
        cases got with
        | none => simp [Loop.step, control] at move
        | some r => exact ⟨rfl, .refl _⟩
    | iterate => exact ⟨rfl, .refl _⟩
    | handed => exact ⟨rfl, .refl _⟩
    | @replied reply =>
      obtain ⟨-, silent, -⟩ := quietReplies (ownQuiet reply)
      rw [silent]
      exact ⟨rfl, .refl _⟩
    | received | waitRaised | loserRaised _ | eventRaised | acked | messageRaised | messageDone => cases alone
    | lost | ping | pluginShutdown | rejected _ | unsaid _ | escapes | event | passedOver | message _ => cases peaceful
  | @got received r rest waiting queue =>
    rw [waiting] at peaceful
    cases received with
    | some _ => cases peaceful
    | none =>
      refine ⟨rfl, ?_⟩
      simp only [backlog, Loop.held, waiting, queue, Loop.inHand]
      exact .refl _
  | accepted woken =>
    rw [woken] at peaceful
    cases peaceful
  | @drained r rest taking queue =>
    rcases taking with control | control
    · refine ⟨by simp only [control, calm], ?_⟩
      simp only [backlog, Loop.held, control, queue, Loop.inHand]
      exact .refl _
    · rw [control] at peaceful
      cases peaceful
  | emptied draining queue =>
    refine ⟨rfl, ?_⟩
    simp only [backlog, Loop.held, draining, queue, Loop.inHand]
    exact .refl _
  | returned flushing _ =>
    rw [flushing] at peaceful
    cases peaceful
  | completed => cases alone
  | @put task envelope envelopes putting room =>
    refine ⟨peaceful, ?_⟩
    have taken := (unputsPut putting).append_left (s.held.map Reply.envelope)
    simp only [backlog, unputs, Loop.held, List.map_append, List.map_cons, List.map_nil, List.append_assoc] at taken ⊢
    exact taken

end Steps

inductive Waits (s : Loop) : Prop where
  | ended (returned : s.control = .returned ∨ s.control = .raised)
  | hook (inside : (∃ event, s.control = .onEvent event) ∨ ∃ envelope, s.control = .onMessage envelope)
  | frame (waiting : s.control = .waiting none none) (cleared : backlog s = [])

structure Sound (s : Loop) : Prop where
  room : s.queue.length ≤ responseChannelCapacity
  roused : s.control ≠ .woken none none

section Runs
variable {s t : Loop} {turn : Turn} {happened : List Happening}

theorem stepSound (ok : Sound s) (move : s.step turn = some (t, happened)) : Sound t := by
  have room := ok.room
  cases stepSteps move with
  | @goes _ _ after goes =>
    refine ⟨room, ?_⟩
    generalize control : s.control = before at goes
    cases goes with
    | @wake received got =>
      rintro same
      cases same
      simp [Loop.step, control] at move
    | iterate | received | waitRaised | loserRaised _ | lost | ping | pluginShutdown | rejected _ | unsaid _ | escapes | event
    | passedOver | message _ | handed | eventRaised | acked | messageRaised | messageDone | replied => simp
  | got waiting queue =>
    rw [queue, List.length_cons] at room
    exact ⟨Nat.le_of_succ_le room, by simp⟩
  | accepted woken => exact ⟨room, by simp⟩
  | drained taking queue =>
    rw [queue, List.length_cons] at room
    exact ⟨Nat.le_of_succ_le room, ok.roused⟩
  | emptied draining queue => exact ⟨room, by simp⟩
  | returned flushing queue => exact ⟨room, by simp⟩
  | completed => exact ⟨room, ok.roused⟩
  | put putting here =>
    rw [← Nat.succ_le_iff] at here
    exact ⟨by simpa using here, ok.roused⟩

theorem putStuck (settled : Settled Loop.machine Internal s) (empty : s.queue = []) : unputs s = [] := by
  refine List.flatMap_eq_nil_iff.mpr fun task member => ?_
  obtain ⟨i, inside, here⟩ := List.mem_iff_getElem.mp member
  have found : s.tasks[i]? = some task := List.getElem?_eq_some_iff.mpr ⟨inside, here⟩
  cases task with
  | running _ => rfl
  | putting envelopes =>
    cases envelopes with
    | nil => rfl
    | cons envelope rest =>
      have stuck := settled (.put i) rfl
      simp [Loop.machine, Loop.step, Loop.put, found, empty, responseChannelCapacity] at stuck

theorem settledWaits (ok : Sound s) (settled : Settled Loop.machine Internal s) : Waits s := by
  have stuck (turn : Turn) (alone : internal turn = true) : s.step turn = none := settled turn alone
  cases control : s.control with
  | returned => exact .ended (.inl control)
  | raised => exact .ended (.inr control)
  | onEvent event => exact .hook (.inl ⟨event, control⟩)
  | onMessage envelope => exact .hook (.inr ⟨envelope, control⟩)
  | top =>
    have no := stuck .iterate rfl
    simp [Loop.step, control, Loop.go] at no
  | replying reply =>
    have no := stuck .reply rfl
    cases reply <;> simp [Loop.step, Loop.reply, control, Loop.go] at no
  | draining | flushing =>
    have no := stuck .drain rfl
    cases queue : s.queue <;> simp [Loop.step, Loop.drain, control, queue, Loop.go] at no
  | woken received got =>
    have no := stuck (.goOn .accepted 0) rfl
    cases received with
    | none =>
      cases got with
      | none => exact absurd control ok.roused
      | some r => simp [Loop.step, Loop.goOn, control, Loop.go] at no
    | some outcome =>
      cases outcome with
      | error e => simp [Loop.step, Loop.goOn, control, Loop.go] at no
      | ok envelope =>
        simp only [Loop.step, Loop.goOn, control, Loop.receive, Loop.go] at no
        split at no <;> contradiction
  | waiting received got =>
    have no := stuck .wake rfl
    simp only [Loop.step, control, Loop.go, ite_eq_right_iff, reduceCtorEq, imp_false, not_or, Bool.not_eq_true,
      Option.isSome_eq_false_iff, Option.isNone_iff_eq_none] at no
    obtain ⟨rfl, rfl⟩ := no
    have empty : s.queue = [] := by
      cases queue : s.queue with
      | nil => rfl
      | cons r rest =>
        have no := stuck .got rfl
        simp [Loop.step, control, queue, Loop.go] at no
    refine .frame control ?_
    simp only [backlog, Loop.held, control, Loop.inHand, empty, putStuck settled empty, List.append_nil, List.map_nil]

end Runs

theorem workConsumed : Consumes Loop.machine Internal Sound work where
  keeps _ _ _ _ ok _ move := stepSound ok move
  falls _ _ _ _ _ alone move := turnWorks alone move

/- Left to itself the loop comes to a halt, only where it waits for the outside; and
between its hooks it has then handed over all that there was. -/
structure Clears (s : Loop) : Prop where
  bounded : s.queue.length ≤ responseChannelCapacity
  halts : ∀ turns happened t, Runs Loop.machine Internal s turns happened t → turns.length ≤ work s
  settles : ∃ turns happened t, Runs Loop.machine Internal s turns happened t ∧ Settled Loop.machine Internal t
  waits : ∀ turns happened t, Runs Loop.machine Internal s turns happened t → Settled Loop.machine Internal t → Waits t
  hands : calm s.control = true → ∀ turns happened t, Runs Loop.machine Internal s turns happened t →
    Settled Loop.machine Internal t → t.control = .waiting none none ∧
      (backlog s).Perm ((handedReplies happened).map Reply.envelope)

theorem calmRuns {s t : Loop} {turns : List Turn} {happened : List Happening} (peaceful : calm s.control = true)
    (run : Runs Loop.machine Internal s turns happened t) :
    calm t.control = true ∧ (backlog s).Perm ((handedReplies happened).map Reply.envelope ++ backlog t) := by
  refine runsKeep (fun happened t => calm t.control = true ∧
    (backlog s).Perm ((handedReplies happened).map Reply.envelope ++ backlog t)) ⟨peaceful, .refl _⟩ ?_ run
  rintro happened t turn u emitted ⟨still, so⟩ alone move
  obtain ⟨later, here⟩ := calmKept still alone move
  refine ⟨later, so.trans ?_⟩
  rw [handedAppend, List.map_append, List.append_assoc]
  exact here.append_left _

def sampleBacklog : List Turn :=
  [.iterate, .received (.ok ⟨some (.actionRequest sampleRequest)⟩), .wake, .goOn .accepted 0, .drain, .iterate,
    .complete 0 (.ok [sampleAnswer, sampleAnswer]), .put 0]

end Vynkor.ReplyBacklog
