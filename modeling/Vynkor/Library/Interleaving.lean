import Mathlib.Logic.Function.Basic
import Vynkor.Library.Machine

/-! Machines of one kind side by side. Each step is one machine's own, on a value
they all share; a run of the whole is a run of each, and a condition on the single
machine is a condition on every one of them. -/
namespace Vynkor.Labelled

variable {Id Shared State Label Event : Type} [DecidableEq Id]

def interleave (m : Machine State (Shared × Label) Event) (next : Shared → Label → Shared) :
    Machine (Shared × (Id → State)) (Id × Label) (Id × Event) :=
  ⟨fun s l => (m.step (s.2 l.1) (s.1, l.2)).map fun moved =>
    ((next s.1 l.2, Function.update s.2 l.1 moved.1), moved.2.map (l.1, ·))⟩

def eventsOf (id : Id) (events : List (Id × Event)) : List Event :=
  events.filterMap fun e => if e.1 = id then some e.2 else none

section Rules
variable {m : Machine State (Shared × Label) Event} {next : Shared → Label → Shared}
variable {s t : Shared × (Id → State)} {id : Id} {label : Label} {emitted : List (Id × Event)}

theorem eventsOfAppend (id : Id) (events more : List (Id × Event)) :
    eventsOf id (events ++ more) = eventsOf id events ++ eventsOf id more := List.filterMap_append

theorem memEventsOf {events : List (Id × Event)} {e : Event} : e ∈ eventsOf id events ↔ (id, e) ∈ events := by
  unfold eventsOf
  rw [List.mem_filterMap]
  constructor
  · rintro ⟨⟨other, e'⟩, member, same⟩
    split at same
    · rename_i here
      cases same
      cases here
      exact member
    · contradiction
  · intro member
    exact ⟨(id, e), member, if_pos rfl⟩

theorem eventsOfOwn (id : Id) (events : List Event) : eventsOf id (events.map (id, ·)) = events := by
  induction events with
  | nil => rfl
  | cons e rest ih =>
    unfold eventsOf at ih ⊢
    simp only [List.map_cons, List.filterMap_cons, if_true, ih]

theorem eventsOfOther {id other : Id} (different : id ≠ other) (events : List Event) :
    eventsOf other (events.map (id, ·)) = [] := by
  induction events with
  | nil => rfl
  | cons e rest ih =>
    unfold eventsOf at ih ⊢
    simp only [List.map_cons, List.filterMap_cons, if_neg different, ih]

theorem interleaveStep :
    (interleave m next).step s (id, label) = some (t, emitted) ↔
      ∃ here own, m.step (s.2 id) (s.1, label) = some (here, own) ∧
        t = (next s.1 label, Function.update s.2 id here) ∧ emitted = own.map (id, ·) := by
  simp only [interleave, Option.map_eq_some_iff, Prod.mk.injEq, Prod.exists]
  constructor
  · rintro ⟨here, own, move, same, out⟩
    exact ⟨here, own, move, same.symm, out.symm⟩
  · rintro ⟨here, own, move, same, out⟩
    exact ⟨here, own, move, same.symm, out.symm⟩

theorem runsOf {Whole : Shared × (Id → State) → Id × Label → Prop} (Meets : State → Shared × Label → Prop) (id : Id)
    (each : ∀ s label, Whole s (id, label) → Meets (s.2 id) (s.1, label)) {start s : Shared × (Id → State)}
    {labels : List (Id × Label)} {events : List (Id × Event)} (run : Runs (interleave m next) Whole start labels events s) :
    ∃ own, Runs m Meets (start.2 id) own (eventsOf id events) (s.2 id) ∧ own.map Prod.snd = eventsOf id labels := by
  induction run with
  | idle => exact ⟨[], .idle, rfl⟩
  | @next labels events s t label emitted before meets move ih =>
    obtain ⟨own, run, taken⟩ := ih
    obtain ⟨other, l⟩ := label
    obtain ⟨here, first, stepped, rfl, rfl⟩ := interleaveStep.mp move
    rw [eventsOfAppend, eventsOfAppend, ← taken]
    cases decEq other id with
    | isTrue same =>
      subst same
      simp only [eventsOfOwn, Function.update_self]
      exact ⟨_, .next run (each _ _ meets) stepped, by simp [eventsOf]⟩
    | isFalse different =>
      simp only [eventsOfOther different, List.append_nil, Function.update_of_ne (Ne.symm different)]
      exact ⟨own, run, by simp [eventsOf, different]⟩

end Rules
end Vynkor.Labelled
