import Mathlib.Order.Lattice
import Vynkor.Library.ExactReader
import Vynkor.Library.Machine

/-! A reader under a timeout that its first item starts. Until then it waits without
bound; from then on every arrival before the deadline wakes it, and the deadline ends it.
What is read, and which deadline a moment sets, are parameters. -/
namespace Vynkor.TimedReader
open ExactReader Labelled

inductive Phase (β ε α τ : Type) where
  | idle
  | reading (program : Reader β ε α) (deadline : τ)
  | ended

structure Timed (β ε α τ : Type) where
  clock : τ
  buffer : List β
  phase : Phase β ε α τ

/- With `close` the stream ends. A timer that is due goes first; at the deadline itself
either may. -/
inductive Tick (β τ : Type) where
  | arrive (now : τ) (data : List β)
  | close (now : τ)
  | expire (now : τ)
  deriving DecidableEq

def Tick.now {β τ : Type} : Tick β τ → τ
  | arrive now _ | close now | expire now => now

def Tick.data {β τ : Type} : Tick β τ → List β
  | arrive _ data => data
  | _ => []

inductive Ending (ε α : Type) where
  | returned (value : α)
  | raised (error : ε)
  | incomplete
  | expired
  deriving DecidableEq

variable {β ε α τ : Type}

namespace Timed

def start (clock : τ) : Timed β ε α τ := ⟨clock, [], .idle⟩

def settle (now deadline : τ) : Reader β ε α × List β → Timed β ε α τ × List (Ending ε α)
  | (.done value, rest) => (⟨now, rest, .ended⟩, [.returned value])
  | (.fail error, rest) => (⟨now, rest, .ended⟩, [.raised error])
  | (.exactly count next, rest) => (⟨now, rest, .reading (.exactly count next) deadline⟩, [])

section Step
variable [LinearOrder τ] (body : β → Reader β ε α) (limit : τ → τ)

def arrive (s : Timed β ε α τ) (now : τ) (data : List β) : Option (Timed β ε α τ × List (Ending ε α)) :=
  match s.phase with
  | .idle =>
    match data with
    | [] => some ({ s with clock := now }, [])
    | first :: rest => some (settle now (limit now) ((body first).advance rest))
  | .reading program deadline =>
    if now ≤ deadline then some (settle now deadline (program.advance (s.buffer ++ data))) else none
  | .ended => none

def close (s : Timed β ε α τ) (now : τ) : Option (Timed β ε α τ × List (Ending ε α)) :=
  match s.phase with
  | .idle => some (⟨now, [], .ended⟩, [.incomplete])
  | .reading _ deadline => if now ≤ deadline then some (⟨now, [], .ended⟩, [.incomplete]) else none
  | .ended => none

def expire (s : Timed β ε α τ) (now : τ) : Option (Timed β ε α τ × List (Ending ε α)) :=
  match s.phase with
  | .reading _ deadline => if deadline ≤ now then some ({ s with clock := now, phase := .ended }, [.expired]) else none
  | _ => none

def move (s : Timed β ε α τ) : Tick β τ → Option (Timed β ε α τ × List (Ending ε α))
  | .arrive now data => s.arrive body limit now data
  | .close now => s.close now
  | .expire now => s.expire now

def step (s : Timed β ε α τ) (tick : Tick β τ) : Option (Timed β ε α τ × List (Ending ε α)) :=
  if s.clock ≤ tick.now then s.move body limit tick else none

def machine : Machine (Timed β ε α τ) (Tick β τ) (Ending ε α) := ⟨step body limit⟩

end Step
end Timed

def arrivedOf (ticks : List (Tick β τ)) : List β := (ticks.map Tick.data).flatten
def began (ticks : List (Tick β τ)) : Option τ := (ticks.find? fun tick => !tick.data.isEmpty).map Tick.now

theorem arrivedAppend (ticks : List (Tick β τ)) (tick : Tick β τ) : arrivedOf (ticks ++ [tick]) = arrivedOf ticks ++ tick.data := by
  simp [arrivedOf]

theorem beganKept {ticks : List (Tick β τ)} {since : τ} (had : began ticks = some since) (tick : Tick β τ) :
    began (ticks ++ [tick]) = some since := by
  obtain ⟨first, found, rfl⟩ := Option.map_eq_some_iff.mp had
  rw [began, List.find?_append, found]
  rfl

theorem beganFirst {ticks : List (Tick β τ)} (none : began ticks = none) (now : τ) (first : β) (rest : List β) :
    began (ticks ++ [.arrive now (first :: rest)]) = some now := by
  have before : (ticks.find? fun tick => !tick.data.isEmpty) = Option.none := Option.map_eq_none_iff.mp none
  rw [began, List.find?_append, before]
  rfl

theorem beganNot {ticks : List (Tick β τ)} {tick : Tick β τ} (none : began ticks = none) (empty : tick.data = []) :
    began (ticks ++ [tick]) = Option.none := by
  have before : (ticks.find? fun tick => !tick.data.isEmpty) = Option.none := Option.map_eq_none_iff.mp none
  rw [began, List.find?_append, before]
  simp [empty]

section Ends
variable [LinearOrder τ]

inductive Ends (body : β → Reader β ε α) (limit : τ → τ) (ticks : List (Tick β τ)) (s : Timed β ε α τ) : Ending ε α → Prop where
  | returned {first rest since value} (arrived : arrivedOf ticks = first :: rest) (start : began ticks = some since)
      (ran : (body first).run rest = (.ok value, s.buffer)) (inTime : s.clock ≤ limit since) :
      Ends body limit ticks s (.returned value)
  | raised {first rest since error} (arrived : arrivedOf ticks = first :: rest) (start : began ticks = some since)
      (ran : (body first).run rest = (.error (.raised error), s.buffer)) (inTime : s.clock ≤ limit since) :
      Ends body limit ticks s (.raised error)
  | expired {first rest since} (arrived : arrivedOf ticks = first :: rest) (start : began ticks = some since)
      (ran : ((body first).run rest).1 = .error .incomplete) (late : limit since ≤ s.clock) :
      Ends body limit ticks s .expired
  | closed {first rest} (arrived : arrivedOf ticks = first :: rest) (ran : ((body first).run rest).1 = .error .incomplete) :
      Ends body limit ticks s .incomplete
  | silent (arrived : arrivedOf ticks = []) : Ends body limit ticks s .incomplete

inductive Kept (body : β → Reader β ε α) (limit : τ → τ) (ticks : List (Tick β τ)) (endings : List (Ending ε α))
    (s : Timed β ε α τ) : Prop where
  | idle (phase : s.phase = .idle) (quiet : endings = []) (arrived : arrivedOf ticks = []) (start : began ticks = none)
  | reading {program first rest since} (phase : s.phase = .reading program (limit since)) (quiet : endings = [])
      (arrived : arrivedOf ticks = first :: rest) (start : began ticks = some since) (inTime : s.clock ≤ limit since)
      (follows : ∀ more, program.run (s.buffer ++ more) = (body first).run (rest ++ more))
      (blocked : ((body first).run rest).1 = .error .incomplete)
  | ended {ending} (phase : s.phase = .ended) (one : endings = [ending]) (ends : Ends body limit ticks s ending)

variable {body : β → Reader β ε α} {limit : τ → τ} {ticks : List (Tick β τ)} {endings emitted : List (Ending ε α)}
  {s t : Timed β ε α τ} {tick : Tick β τ}

theorem settleKept (program : Reader β ε α) (buffer : List β) {rest : List β} {first : β} {now since : τ}
    (arrived : arrivedOf ticks = first :: rest) (start : began ticks = some since) (inTime : now ≤ limit since)
    (follows : ∀ more, program.run (buffer ++ more) = (body first).run (rest ++ more)) :
    Kept body limit ticks (Timed.settle now (limit since) (program.advance buffer)).2
      (Timed.settle now (limit since) (program.advance buffer)).1 := by
  have whole := (Reader.advanceFinish program buffer).trans (by simpa using follows [])
  have later (more : List β) := (Reader.advanceRun program buffer more).trans (follows more)
  rcases advanced : program.advance buffer with ⟨left, unread⟩
  rw [advanced] at whole later
  cases left with
  | done value => exact .ended rfl rfl (.returned arrived start whole.symm inTime)
  | fail error => exact .ended rfl rfl (.raised arrived start whole.symm inTime)
  | exactly count next => exact .reading rfl rfl arrived start inTime later (by rw [← whole]; rfl)

theorem stepKept (natural : ∀ now, now ≤ limit now) (kept : Kept body limit ticks endings s)
    (move : s.step body limit tick = some (t, emitted)) : Kept body limit (ticks ++ [tick]) (endings ++ emitted) t := by
  obtain ⟨order, gone⟩ := Option.ite_none_right_eq_some.mp move
  cases kept with
  | idle phase quiet arrived start =>
    rw [quiet, List.nil_append]
    cases tick with
    | arrive now data =>
      simp only [Timed.move, Timed.arrive, phase] at gone
      cases data with
      | nil =>
        cases gone
        exact .idle rfl rfl (by rw [arrivedAppend, arrived]; rfl) (beganNot start rfl)
      | cons first rest =>
        have all : arrivedOf (ticks ++ [.arrive now (first :: rest)]) = first :: rest := by rw [arrivedAppend, arrived]; rfl
        have settled := settleKept (body first) rest all (beganFirst start now first rest) (natural now) fun more => rfl
        rwa [Option.some.inj gone] at settled
    | close now =>
      simp only [Timed.move, Timed.close, phase] at gone
      cases gone
      exact .ended rfl rfl (.silent (by rw [arrivedAppend, arrived]; rfl))
    | expire now => simp [Timed.move, Timed.expire, phase] at gone
  | @reading program first rest since phase quiet arrived start inTime follows blocked =>
    rw [quiet, List.nil_append]
    cases tick with
    | arrive now data =>
      simp only [Timed.move, Timed.arrive, phase] at gone
      obtain ⟨early, moved⟩ := Option.ite_none_right_eq_some.mp gone
      have all : arrivedOf (ticks ++ [.arrive now data]) = first :: (rest ++ data) := by rw [arrivedAppend, arrived]; rfl
      have settled := settleKept program (s.buffer ++ data) all (beganKept start _) early fun more => by
        rw [List.append_assoc, follows, List.append_assoc]
      rwa [Option.some.inj moved] at settled
    | close now =>
      simp only [Timed.move, Timed.close, phase] at gone
      obtain ⟨early, moved⟩ := Option.ite_none_right_eq_some.mp gone
      cases moved
      have all : arrivedOf (ticks ++ [.close now]) = first :: rest := by rw [arrivedAppend, arrived]; exact List.append_nil _
      exact .ended rfl rfl (.closed all blocked)
    | expire now =>
      simp only [Timed.move, Timed.expire, phase] at gone
      obtain ⟨late, moved⟩ := Option.ite_none_right_eq_some.mp gone
      cases moved
      have all : arrivedOf (ticks ++ [.expire now]) = first :: rest := by rw [arrivedAppend, arrived]; exact List.append_nil _
      exact .ended rfl rfl (.expired all (beganKept start _) blocked late)
  | ended phase _ _ =>
    cases tick <;> simp [Timed.move, Timed.arrive, Timed.close, Timed.expire, phase] at gone

theorem timedKept (natural : ∀ now, now ≤ limit now) {clock : τ}
    (run : Runs (Timed.machine body limit) Always (Timed.start clock) ticks endings s) : Kept body limit ticks endings s :=
  runsTrace (Kept body limit) (.idle rfl rfl rfl rfl) (fun _ _ _ _ _ _ kept _ move => stepKept natural kept move) run

end Ends
end Vynkor.TimedReader
