import Mathlib.Data.List.Forall2
import Vynkor.Library.Machine

/-! Two machines in lockstep over the same labels. Where a step of one is refused so is
the other's, and related states stay related; how they are may depend on the labels that
are still to come. -/
namespace Vynkor.Labelled

variable {S S' L E E' : Type}

inductive Together (states : S → S' → Prop) (emits : E → E' → Prop) :
    Option (S × List E) → Option (S' × List E') → Prop where
  | refused : Together states emits none none
  | moved {s s' events events'} (related : states s s') (seen : List.Forall₂ emits events events') :
      Together states emits (some (s, events)) (some (s', events'))

section Rules
variable {states : List L → S → S' → Prop} {emits : E → E' → Prop} {m : Machine S L E} {m' : Machine S' L E'}

theorem runTogether
    (step : ∀ s s' l later, states (l :: later) s s' → Together (states later) emits (m.step s l) (m'.step s' l))
    {labels : List L} {s : S} {s' : S'} (start : states labels s s') :
    Together (states []) emits (m.run s labels) (m'.run s' labels) := by
  induction labels generalizing s s' with
  | nil => exact .moved start .nil
  | cons l later ih =>
    have here := step s s' l later start
    generalize first : m.step s l = out at here
    generalize first' : m'.step s' l = out' at here
    cases here with
    | refused =>
      simp only [Machine.run, first, first', Option.bind_eq_bind, Option.bind_none]
      exact .refused
    | @moved t t' events events' related seen =>
      have rest := ih related
      simp only [Machine.run, first, first', Option.bind_eq_bind, Option.bind_some]
      generalize m.run t later = ran at rest
      generalize m'.run t' later = ran' at rest
      cases rest with
      | refused => exact .refused
      | moved ends more => exact .moved ends (List.rel_append seen more)

end Rules
end Vynkor.Labelled
