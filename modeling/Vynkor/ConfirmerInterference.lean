import Vynkor.ConfirmationRuns

/-! Calls that are turned away. With those of denied confirmers and of other actions
taken out, a run of the gate is a run, in which every other call sees what it saw. -/
namespace Vynkor.ConfirmationGate
open Text Tables Labelled

structure Sight where
  deeds : List Deed
  pending : Pending

/- The gate with each call marked: `false` for one that was inserted. -/
def watched (x : Externals) (g : Gate) : Machine Gating (Bool × Call) (Bool × Sight) :=
  ⟨fun s marked => ((Gating.machine x g).step s marked.2).map fun moved =>
    (moved.1, [(marked.1, ⟨moved.2, moved.1.store.pending⟩)])⟩

def TurnedAway (g : Gate) : Call → Prop
  | .route req _ => (req.action = g.confirmAction ∧ g.mayConfirm req.callerPluginId = false) ∨
      (req.action ≠ g.requestAction ∧ req.action ≠ g.confirmAction)
  | _ => False

def Gate.refusal (g : Gate) (req : ActionRequest) : Except Error (List Envelope) :=
  if req.action = g.confirmAction then responseErr req.actionId (g.denied req.callerPluginId) else notFound req.actionId

def Refused (g : Gate) (call : Call) (deeds : List Deed) : Prop :=
  ∃ req clock, call = .route req clock ∧ deeds = [.routed req clock (.replied (g.refusal req))]

structure Alike (s t : Gating) : Prop where
  store : t.store = s.store
  inFlight : t.inFlight = s.inFlight
  clock : t.clock ≤ s.clock

section Steps
variable {x : Externals} {g : Gate} {s t after : Gating} {emitted : List Deed}

theorem watchedStep {mark : Bool} {call : Call} {seen : List (Bool × Sight)} :
    (watched x g).step s (mark, call) = some (after, seen) ↔
      ∃ emitted, (Gating.machine x g).step s call = some (after, emitted) ∧ seen = [(mark, ⟨emitted, after.store.pending⟩)] := by
  simp only [watched, Option.map_eq_some_iff, Prod.exists, Prod.mk.injEq]
  constructor
  · rintro ⟨t, emitted, moved, rfl, same⟩
    exact ⟨emitted, moved, same.symm⟩
  · rintro ⟨emitted, moved, same⟩
    exact ⟨after, emitted, moved, rfl, same.symm⟩

theorem turnedAwayRoute {req : ActionRequest} {clock : Readings} (store : Store) (away : TurnedAway g (.route req clock)) :
    g.route x req clock store = (.replied (g.refusal req), store) := by
  rcases away with ⟨confirms, denied⟩ | ⟨noRequest, noConfirm⟩
  · rw [routeConfirm confirms]
    simp [Gate.confirm, Gate.refusal, confirms, denied]
  · rw [routeOther noRequest noConfirm, Gate.refusal, if_neg noConfirm]

theorem turnedAwayStep {call : Call} (away : TurnedAway g call)
    (move : (Gating.machine x g).step s call = some (after, emitted)) : Alike after s ∧ Refused g call emitted := by
  cases call with
  | route req clock =>
    obtain ⟨⟨-, first, second⟩, rfl, rfl⟩ := routedStep.mp move
    rw [turnedAwayRoute s.store away]
    exact ⟨⟨rfl, by simp [Gating.waits], le_trans first second⟩, req, clock, rfl, rfl⟩
  | finish call result | elsewhere => exact away.elim

theorem alikeStep {call : Call} (alike : Alike s t) (move : (Gating.machine x g).step s call = some (after, emitted)) :
    ∃ u, (Gating.machine x g).step t call = some (u, emitted) ∧ Alike after u := by
  cases call with
  | route req clock =>
    obtain ⟨⟨text, first, second⟩, rfl, rfl⟩ := routedStep.mp move
    refine ⟨_, routedStep.mpr ⟨⟨text, le_trans alike.clock first, second⟩, rfl, by rw [alike.store]⟩, ?_⟩
    rw [alike.store, alike.inFlight]
    exact ⟨rfl, rfl, le_refl _⟩
  | finish call result =>
    obtain ⟨actionId, waiting, same⟩ := Option.map_eq_some_iff.mp move
    cases same
    refine ⟨{ t with inFlight := t.inFlight.eraseIdx call }, ?_, alike.store, ?_, alike.clock⟩
    · simp only [Gating.machine, Gating.step, alike.inFlight, waiting, Option.map_some]
    · simp only [alike.inFlight]
  | elsewhere =>
    cases move
    exact ⟨{ t with store := { t.store with seq := t.store.seq + 1 } }, rfl, by simp only [alike.store], alike.inFlight,
      alike.clock⟩

end Steps

section Runs
variable {x : Externals} {g : Gate} {start s : Gating} {merged : List (Bool × Call)} {seen : List (Bool × Sight)}

theorem runPurged (run : Runs (watched x g) Always start merged seen s) (away : ∀ l ∈ merged, l.1 = false → TurnedAway g l.2) :
    ∃ t, Runs (watched x g) Always start (merged.filter Prod.fst) (seen.filter Prod.fst) t ∧ Alike s t := by
  induction run with
  | idle => exact ⟨start, .idle, rfl, rfl, le_refl _⟩
  | @next merged seen s after label emitted before _ move ih =>
    obtain ⟨t, purged, alike⟩ := ih fun l member => away l (List.mem_append_left _ member)
    obtain ⟨mark, call⟩ := label
    obtain ⟨deeds, moved, rfl⟩ := watchedStep.mp move
    rw [List.filter_append, List.filter_append]
    cases mark with
    | true =>
      obtain ⟨u, again, still⟩ := alikeStep alike moved
      refine ⟨u, .next purged trivial (watchedStep.mpr ⟨deeds, again, ?_⟩), still⟩
      rw [still.store]
      rfl
    | false =>
      have idle := (turnedAwayStep (away (false, call) (by simp) rfl) moved).1
      simp only [List.filter_cons, List.filter_nil, Bool.false_eq_true, if_false, List.append_nil]
      exact ⟨t, purged, alike.store.trans idle.store, alike.inFlight.trans idle.inFlight, le_trans alike.clock idle.clock⟩

theorem runRefused (run : Runs (watched x g) Always start merged seen s) (away : ∀ l ∈ merged, l.1 = false → TurnedAway g l.2) :
    List.Forall₂ (fun l sight => sight.1 = l.1 ∧ (l.1 = false → Refused g l.2 sight.2.deeds)) merged seen := by
  induction run with
  | idle => exact .nil
  | @next merged seen s after label emitted before _ move ih =>
    have earlier := ih fun l member => away l (List.mem_append_left _ member)
    obtain ⟨mark, call⟩ := label
    obtain ⟨deeds, moved, rfl⟩ := watchedStep.mp move
    have here : mark = false → Refused g call deeds := by
      rintro rfl
      exact (turnedAwayStep (away (false, call) (by simp) rfl) moved).2
    exact List.rel_append earlier (.cons ⟨rfl, here⟩ .nil)

end Runs

/- Two runs of a gate, the second with calls inserted anywhere that are turned away: every
call of the first does the same in the second, its reply and what goes to the executor,
and leaves the same pending map. Each inserted call is answered there and then. -/
theorem deniedSilent (x : Externals) (g : Gate) (start : Gating) {calls merged : List (Bool × Call)}
    {seen more : List (Bool × Sight)} {s t : Gating} (run : Runs (watched x g) Always start calls seen s)
    (wider : Runs (watched x g) Always start merged more t) (inserted : merged.filter Prod.fst = calls)
    (away : ∀ l ∈ merged, l.1 = false → TurnedAway g l.2) :
    (more.filter Prod.fst = seen ∧ t.store = s.store) ∧
      List.Forall₂ (fun l sight => sight.1 = l.1 ∧ (l.1 = false → Refused g l.2 sight.2.deeds)) merged more := by
  obtain ⟨u, purged, alike⟩ := runPurged wider away
  rw [inserted] at purged
  have same := (runOfRuns purged).symm.trans (runOfRuns run)
  simp only [Option.some.injEq, Prod.mk.injEq] at same
  obtain ⟨rfl, rfl⟩ := same
  exact ⟨⟨rfl, alike.store.symm⟩, runRefused wider away⟩

def sampleStolen : ActionRequest := { sampleConfirm with actionId := lit "a3", callerPluginId := lit "shop" }

def sampleMerged : List (Bool × Call) :=
  [(true, .route sampleTransfer sampleStored), (false, .route sampleStolen ⟨1, 1000, 1⟩),
    (true, .route sampleConfirm sampleTaken)]

def sampleWatched : Machine Gating (Bool × Call) (Bool × Sight) := watched sampleModule (sampleGate (.finite 300))

theorem deniedSilentSample : ∃ seen more s t, sampleWatched.run (.start 0 0) (sampleMerged.filter Prod.fst) = some (s, seen) ∧
    sampleWatched.run (.start 0 0) sampleMerged = some (t, more) ∧
    (more.filter Prod.fst = seen ∧ t.store = s.store) ∧
      List.Forall₂ (fun l sight => sight.1 = l.1 ∧
        (l.1 = false → Refused (sampleGate (.finite 300)) l.2 sight.2.deeds)) sampleMerged more := by
  have ran : (sampleWatched.run (.start 0 0) (sampleMerged.filter Prod.fst)).isSome ∧
      (sampleWatched.run (.start 0 0) sampleMerged).isSome := by
    decide +kernel
  obtain ⟨⟨s, seen⟩, run⟩ := Option.isSome_iff_exists.mp ran.1
  obtain ⟨⟨t, more⟩, wider⟩ := Option.isSome_iff_exists.mp ran.2
  have away : ∀ l ∈ sampleMerged, l.1 = false → TurnedAway (sampleGate (.finite 300)) l.2 := by
    simp only [sampleMerged, List.forall_mem_cons, List.not_mem_nil, IsEmpty.forall_iff, implies_true, and_true]
    exact ⟨nofun, fun _ => .inl (by decide +kernel), nofun⟩
  exact ⟨seen, more, s, t, run, wider,
    deniedSilent sampleModule (sampleGate (.finite 300)) (.start 0 0) (runsOfRun run) (runsOfRun wider) rfl away⟩

end Vynkor.ConfirmationGate
