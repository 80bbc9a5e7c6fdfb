import Vynkor.Library.Machine

/-! Machines whose allowed steps use up a measure. Every run of such steps is bounded
by it, and one of them ends where no such step is left. -/
namespace Vynkor.Labelled

variable {State Label Event : Type}

def Settled (m : Machine State Label Event) (Meets : State → Label → Prop) (s : State) : Prop :=
  ∀ label, Meets s label → m.step s label = none

structure Consumes (m : Machine State Label Event) (Meets : State → Label → Prop) (inv : State → Prop)
    (measure : State → Nat) : Prop where
  keeps : ∀ s label t emitted, inv s → Meets s label → m.step s label = some (t, emitted) → inv t
  falls : ∀ s label t emitted, inv s → Meets s label → m.step s label = some (t, emitted) → measure t < measure s

section Rules
variable {m : Machine State Label Event} {Meets : State → Label → Prop} {inv : State → Prop} {measure : State → Nat}
variable {start : State}

theorem consumedBounded (consumes : Consumes m Meets inv measure) (base : inv start) {labels : List Label}
    {events : List Event} {s : State} (run : Runs m Meets start labels events s) :
    labels.length + measure s ≤ measure start := by
  have both : inv s ∧ labels.length + measure s ≤ measure start := by
    refine runsTrace (fun labels _ s => inv s ∧ labels.length + measure s ≤ measure start) ⟨base, by simp⟩ ?_ run
    rintro labels events s label t emitted ⟨ok, bound⟩ meets move
    have less := consumes.falls s label t emitted ok meets move
    refine ⟨consumes.keeps s label t emitted ok meets move, ?_⟩
    rw [List.length_append, List.length_singleton]
    omega
  exact both.2

theorem consumedSettles (consumes : Consumes m Meets inv measure) (base : inv start) :
    ∃ labels events s, Runs m Meets start labels events s ∧ Settled m Meets s := by
  generalize bound : measure start = n
  induction n using Nat.strongRecOn generalizing start with
  | ind n ih =>
    by_cases settled : Settled m Meets start
    · exact ⟨[], [], start, .idle, settled⟩
    · simp only [Settled, not_forall] at settled
      obtain ⟨label, meets, moves⟩ := settled
      obtain ⟨⟨t, emitted⟩, move⟩ := Option.ne_none_iff_exists'.mp moves
      have less := consumes.falls start label t emitted base meets move
      obtain ⟨labels, events, s, run, ends⟩ :=
        ih (measure t) (bound ▸ less) (consumes.keeps start label t emitted base meets move) rfl
      exact ⟨[label] ++ labels, emitted ++ events, s, runsAppend (.next .idle meets move) run, ends⟩

end Rules
end Vynkor.Labelled
