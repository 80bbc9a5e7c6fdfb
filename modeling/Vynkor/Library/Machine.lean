import Mathlib.Data.List.Basic

/-! Labelled machines with an event log. `Runs` keeps the log of the whole history,
so that an invariant may speak about what was emitted before; a run may be
restricted to steps that meet a condition on the state and label. -/
namespace Vynkor.Labelled

structure Machine (State Label Event : Type) where
  step : State → Label → Option (State × List Event)

variable {State Label Event : Type}

namespace Machine

def run (m : Machine State Label Event) : State → List Label → Option (State × List Event)
  | s, [] => some (s, [])
  | s, l :: ls => do
    let (t, first) ← m.step s l
    let (u, later) ← m.run t ls
    return (u, first ++ later)

theorem runCons {m : Machine State Label Event} {s u : State} {l : Label} {ls : List Label}
    {events : List Event} :
    m.run s (l :: ls) = some (u, events) ↔
      ∃ t first later, m.step s l = some (t, first) ∧ m.run t ls = some (u, later) ∧
        events = first ++ later := by
  constructor
  · intro h
    simp only [run, Option.bind_eq_bind, Option.bind_eq_some_iff, Prod.exists] at h
    obtain ⟨t, first, move, u', later, rest, same⟩ := h
    cases same
    exact ⟨t, first, later, move, rest, rfl⟩
  · rintro ⟨t, first, later, move, rest, rfl⟩
    simp [run, move, rest]

def restrict (m : Machine State Label Event) (Meets : State → Label → Prop) [∀ s l, Decidable (Meets s l)] :
    Machine State Label Event :=
  ⟨fun s l => if Meets s l then m.step s l else none⟩

theorem runJoin {m : Machine State Label Event} {s t u : State} {labels more : List Label} {events later : List Event}
    (first : m.run s labels = some (t, events)) (second : m.run t more = some (u, later)) :
    m.run s (labels ++ more) = some (u, events ++ later) := by
  induction labels generalizing s events with
  | nil =>
    cases first
    exact second
  | cons l ls ih =>
    obtain ⟨middle, here, rest, move, ran, rfl⟩ := runCons.mp first
    rw [List.append_assoc]
    exact runCons.mpr ⟨middle, here, rest ++ later, move, ih ran, rfl⟩

theorem runHead {m : Machine State Label Event} {s u : State} {labels : List Label} {events : List Event}
    (ran : m.run s labels = some (u, events)) (moved : s ≠ u) :
    ∃ l more t first later, labels = l :: more ∧ m.step s l = some (t, first) ∧ m.run t more = some (u, later) := by
  cases labels with
  | nil =>
    cases ran
    exact absurd rfl moved
  | cons l more =>
    obtain ⟨t, first, later, move, rest, -⟩ := runCons.mp ran
    exact ⟨l, more, t, first, later, rfl, move, rest⟩

theorem runOne {m : Machine State Label Event} {s t : State} {l : Label} {events : List Event}
    (move : m.step s l = some (t, events)) : m.run s [l] = some (t, events) :=
  runCons.mpr ⟨t, events, [], move, rfl, by simp⟩

end Machine

inductive Runs (m : Machine State Label Event) (Meets : State → Label → Prop) (start : State) :
    List Label → List Event → State → Prop where
  | idle : Runs m Meets start [] [] start
  | next {labels events s t label emitted} (before : Runs m Meets start labels events s)
      (meets : Meets s label) (move : m.step s label = some (t, emitted)) :
      Runs m Meets start (labels ++ [label]) (events ++ emitted) t

def Always (_ : State) (_ : Label) : Prop := True

section Rules
variable {m : Machine State Label Event} {Meets : State → Label → Prop} {start : State}

theorem runsTrace (inv : List Label → List Event → State → Prop) (base : inv [] [] start)
    (keep : ∀ labels events s label t emitted, inv labels events s → Meets s label →
      m.step s label = some (t, emitted) → inv (labels ++ [label]) (events ++ emitted) t)
    {labels events s} (h : Runs m Meets start labels events s) : inv labels events s := by
  induction h with
  | idle => exact base
  | next before meets move ih => exact keep _ _ _ _ _ _ ih meets move

theorem runsKeep (inv : List Event → State → Prop) (base : inv [] start)
    (keep : ∀ events s label t emitted, inv events s → Meets s label →
      m.step s label = some (t, emitted) → inv (events ++ emitted) t)
    {labels events s} (h : Runs m Meets start labels events s) : inv events s :=
  runsTrace (fun _ => inv) base (fun _ => keep) h

theorem runsStrengthen {Other : State → Label → Prop} (inv : List Event → State → Prop) (base : inv [] start)
    (keep : ∀ events s label t emitted, inv events s → Meets s label →
      m.step s label = some (t, emitted) → inv (events ++ emitted) t)
    (meets : ∀ events s label, inv events s → Meets s label → Other s label)
    {labels events s} (h : Runs m Meets start labels events s) : Runs m Other start labels events s := by
  induction h with
  | idle => exact .idle
  | next before here move ih => exact .next ih (meets _ _ _ (runsKeep inv base keep before) here) move

theorem runsWeaken {Other : State → Label → Prop} (meets : ∀ s label, Meets s label → Other s label)
    {labels events s} (h : Runs m Meets start labels events s) : Runs m Other start labels events s :=
  runsStrengthen (fun _ _ => True) trivial (fun _ _ _ _ _ _ _ _ => trivial) (fun _ s label _ => meets s label) h

theorem runsNext {label : Label} {events emitted : List Event} {s t : State} (run : ∃ labels, Runs m Always start labels events s)
    (move : m.step s label = some (t, emitted)) : ∃ labels, Runs m Always start labels (events ++ emitted) t := by
  obtain ⟨labels, run⟩ := run
  exact ⟨labels ++ [label], .next run trivial move⟩

theorem runsAppend {middle s : State} {labels more : List Label} {events later : List Event}
    (first : Runs m Meets start labels events middle) (second : Runs m Meets middle more later s) :
    Runs m Meets start (labels ++ more) (events ++ later) s := by
  induction second with
  | idle => simpa using first
  | next before meets move ih =>
    rw [← List.append_assoc, ← List.append_assoc]
    exact .next ih meets move

theorem runsOfRunWhere (Meets : State → Label → Prop) {labels : List Label} (each : ∀ l ∈ labels, ∀ s, Meets s l)
    {result : State × List Event}
    (h : m.run start labels = some result) : Runs m Meets start labels result.2 result.1 := by
  obtain ⟨s, events⟩ := result
  induction labels generalizing start events with
  | nil =>
    cases h
    exact .idle
  | cons l ls ih =>
    obtain ⟨t, first, later, move, rest, rfl⟩ := Machine.runCons.mp h
    have tail := ih (fun l member => each l (List.mem_cons_of_mem _ member)) later rest
    exact runsAppend (.next .idle (each l List.mem_cons_self start) move) tail

theorem runsOfRun {labels : List Label} {result : State × List Event} (h : m.run start labels = some result) :
    Runs m Always start labels result.2 result.1 := runsOfRunWhere Always (fun _ _ _ => trivial) h

theorem runsOfRestricted [∀ s l, Decidable (Meets s l)] {labels : List Label} {s : State} {events : List Event}
    (h : (m.restrict Meets).run start labels = some (s, events)) : Runs m Meets start labels events s := by
  have run : Runs (m.restrict Meets) Always start labels events s := runsOfRun h
  clear h
  induction run with
  | idle => exact .idle
  | next before _ move ih =>
    simp only [Machine.restrict] at move
    split at move
    · rename_i meets
      exact .next ih meets move
    · contradiction

theorem runOfRuns {labels : List Label} {events : List Event} {s : State}
    (h : Runs m Meets start labels events s) : m.run start labels = some (s, events) := by
  induction h with
  | idle => rfl
  | next before meets move ih => exact Machine.runJoin ih (Machine.runOne move)

theorem runsExact {Cond : State → Label → Prop} {Good : Event → Prop} (inv : State → Prop) (base : inv start)
    (keep : ∀ s label t emitted, inv s → Meets s label → m.step s label = some (t, emitted) → inv t)
    (exact : ∀ s label t emitted, inv s → Meets s label → m.step s label = some (t, emitted) →
      (Cond s label ↔ ∀ e ∈ emitted, Good e))
    {labels events s} (run : Runs m Meets start labels events s) :
    Runs m (fun s l => Meets s l ∧ Cond s l) start labels events s ↔ ∀ e ∈ events, Good e := by
  constructor
  · intro strict
    refine (runsKeep (fun events s => inv s ∧ ∀ e ∈ events, Good e) ⟨base, by simp⟩ ?_ strict).2
    intro events s label t emitted ok meets move
    refine ⟨keep s label t emitted ok.1 meets.1 move, fun e member => ?_⟩
    rcases List.mem_append.mp member with before | now
    · exact ok.2 e before
    · exact (exact s label t emitted ok.1 meets.1 move).mp meets.2 e now
  · intro good
    induction run with
    | idle => exact .idle
    | @next labels events s t label emitted before meets move ih =>
      have ok := runsKeep (fun _ => inv) base (fun _ => keep) before
      have here := (exact s label t emitted ok meets move).mpr fun e member => good e (List.mem_append_right _ member)
      exact .next (ih fun e member => good e (List.mem_append_left _ member)) ⟨meets, here⟩ move

theorem runsLabels {Allowed : Label → Prop} {labels events s} (run : Runs m (fun _ l => Allowed l) start labels events s) :
    ∀ l ∈ labels, Allowed l := by
  induction run with
  | idle => simp
  | next before meets move ih =>
    intro l member
    rcases List.mem_append.mp member with earlier | last
    · exact ih l earlier
    · rw [List.mem_singleton.mp last]
      exact meets

theorem runsLast (labels : List Label) {label : Label} {events : List Event} {t : State}
    (h : Runs m Meets start (labels ++ [label]) events t) :
    ∃ s before, Runs m Meets start labels before s ∧ Meets s label := by
  generalize whole : labels ++ [label] = all at h
  cases h with
  | idle => simp at whole
  | next before meets move =>
    obtain ⟨rfl, last⟩ := List.append_inj' whole rfl
    cases last
    exact ⟨_, _, before, meets⟩

end Rules
end Vynkor.Labelled
