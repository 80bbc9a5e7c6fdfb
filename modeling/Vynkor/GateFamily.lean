import Vynkor.ConfirmationRuns
import Vynkor.Library.Interleaving

/-! The gates of one process. Each has its pending map behind a lock of its own; all of
them draw the numbers of their ids from the one counter of the module. -/
namespace Vynkor.ConfirmationGate
open Text Tables Labelled

structure Own where
  pending : Pending
  clock : Time
  inFlight : List Str

structure Family (ι : Type) where
  seq : Nat
  own : ι → Own

namespace Family

variable {ι : Type}

def start (seq : Nat) (clock : Time) : Family ι := ⟨seq, fun _ => ⟨∅, clock, []⟩⟩

def gating (s : Family ι) (i : ι) : Gating := ⟨⟨(s.own i).pending, s.seq⟩, (s.own i).clock, (s.own i).inFlight⟩

section Step
variable [DecidableEq ι] (x : Externals) (gates : ι → Gate)

def moved (s : Family ι) (i : ι) (after : Gating) : Family ι :=
  ⟨after.store.seq, Function.update s.own i ⟨after.store.pending, after.clock, after.inFlight⟩⟩

def step (s : Family ι) (l : ι × Call) : Option (Family ι × List (ι × Deed)) :=
  (Gating.step x (gates l.1) (s.gating l.1) l.2).map fun done => (s.moved l.1 done.1, done.2.map (l.1, ·))

def machine : Machine (Family ι) (ι × Call) (ι × Deed) := ⟨step x gates⟩

end Step
end Family

def Gate.manifestActions (g : Gate) : List Str := [g.requestAction, g.confirmAction]

section Views
variable {ι : Type} [DecidableEq ι] {x : Externals} {gates : ι → Gate} {s t : Family ι} {i j : ι} {call : Call}
  {emitted : List (ι × Deed)}

theorem familyStep (move : (Family.machine x gates).step s (i, call) = some (t, emitted)) :
    ∃ after deeds, (Gating.machine x (gates i)).step (s.gating i) call = some (after, deeds) ∧ t = s.moved i after ∧
      emitted = deeds.map (i, ·) := by
  obtain ⟨⟨after, deeds⟩, done, same⟩ := Option.map_eq_some_iff.mp move
  cases same
  exact ⟨after, deeds, done, rfl, rfl⟩

theorem movedOwn (after : Gating) : (s.moved i after).own i = ⟨after.store.pending, after.clock, after.inFlight⟩ :=
  Function.update_self ..

theorem movedApart (different : j ≠ i) (after : Gating) : (s.moved i after).own j = s.own j :=
  Function.update_of_ne different ..

theorem movedSame (after : Gating) : (s.moved i after).gating i = after := by
  rw [Family.gating, movedOwn]
  rfl

theorem movedOther (different : j ≠ i) (after : Gating) : (s.moved i after).gating j =
    { s.gating j with store := { (s.gating j).store with seq := after.store.seq } } := by
  rw [Family.gating, movedApart different]
  rfl

end Views

inductive Draws (g : Gate) (s t : Gating) (emitted : List Deed) : Prop where
  | nothing (none : emitted.filterMap requestedId = []) (same : t.store.seq = s.store.seq)
  | elsewhere (none : emitted = []) (pending : t.store.pending = s.store.pending) (next : t.store.seq = s.store.seq + 1)
  | request {millis} (one : emitted.filterMap requestedId = [pendingId millis s.store.seq])
      (next : t.store.seq = s.store.seq + 1)

section Draws
variable {x : Externals} {g : Gate} {s t : Gating} {call : Call} {emitted : List Deed}

theorem stepDraws (move : (Gating.machine x g).step s call = some (t, emitted)) : Draws g s t emitted := by
  cases call with
  | route req clock =>
    obtain ⟨-, rfl, rfl⟩ := routedStep.mp move
    have routes : Routes x g req clock s.store _ _ := routeCases
    generalize (g.route x req clock s.store).1 = how at routes
    generalize (g.route x req clock s.store).2 = after at routes
    cases routes with
    | ignored | missed _ | taken _ _ _ _ => exact .nothing rfl rfl
    | requested _ => exact .request rfl rfl
  | finish call result =>
    obtain ⟨actionId, -, same⟩ := Option.map_eq_some_iff.mp move
    cases same
    exact .nothing rfl rfl
  | elsewhere =>
    cases move
    exact .elsewhere rfl rfl rfl

structure Waiting (deeds : List Deed) (pending : Pending) : Prop where
  waits : ∀ id ∈ pending, id ∈ deeds.filterMap requestedId ∧ id ∉ deeds.filterMap executedId
  requestedFirst : ∀ id ∈ deeds.filterMap executedId, id ∈ deeds.filterMap requestedId

theorem sweptMem {now : Time} {pending : Pending} {id : Str} (inside : id ∈ g.sweepExpired now pending) : id ∈ pending := by
  obtain ⟨p, found⟩ := Option.isSome_iff_exists.mp (AList.lookup_isSome.mpr inside)
  exact memOfLookup (lookupSweepSome.mp found).1

theorem waitingQuiet {deeds more : List Deed} {pending after : Pending} (ok : Waiting deeds pending)
    (quiet : ∀ deed ∈ more, Quiet deed) (fewer : ∀ id ∈ after, id ∈ pending) :
    Waiting (deeds ++ more) after ∧ ∀ id ∈ more.filterMap executedId, more.filterMap executedId = [id] ∧ id ∈ pending := by
  obtain ⟨requests, executes⟩ := quietIds quiet
  refine ⟨⟨fun id inside => ?_, ?_⟩, fun id executed => ?_⟩
  · rw [List.filterMap_append, List.filterMap_append, requests, executes, List.append_nil, List.append_nil]
    exact ok.waits id (fewer id inside)
  · rw [List.filterMap_append, List.filterMap_append, requests, executes, List.append_nil, List.append_nil]
    exact ok.requestedFirst
  · rw [executes] at executed
    exact absurd executed List.not_mem_nil

theorem stepWaiting {deeds : List Deed} (ok : Waiting deeds s.store.pending)
    (fresh : ∀ millis, pendingId millis s.store.seq ∉ deeds.filterMap requestedId)
    (move : (Gating.machine x g).step s call = some (t, emitted)) :
    Waiting (deeds ++ emitted) t.store.pending ∧ ∀ id ∈ emitted.filterMap executedId,
      emitted.filterMap executedId = [id] ∧ id ∈ s.store.pending := by
  cases call with
  | route req clock =>
    obtain ⟨-, rfl, rfl⟩ := routedStep.mp move
    have routes : Routes x g req clock s.store _ _ := routeCases
    generalize (g.route x req clock s.store).1 = how at routes ⊢
    generalize (g.route x req clock s.store).2 = after at routes ⊢
    cases routes with
    | ignored => exact waitingQuiet ok (by simp [Quiet, requestedId, executedId]) fun _ inside => inside
    | missed absent => exact waitingQuiet ok (by simp [Quiet, requestedId, executedId]) fun _ => sweptMem
    | requested action =>
      refine ⟨⟨fun id inside => ?_, fun id executed => ?_⟩, by simp [executedId]⟩
      · have unexecuted : pendingId clock.millis s.store.seq ∉ deeds.filterMap executedId :=
          fun executed => fresh clock.millis (ok.requestedFirst _ executed)
        rw [List.filterMap_append, List.filterMap_append]
        rcases (AList.mem_insert _).mp inside with rfl | older
        · exact ⟨List.mem_append_right _ (by simp [requestedId]), by simpa [executedId] using unexecuted⟩
        · obtain ⟨requested, free⟩ := ok.waits id (sweptMem older)
          exact ⟨List.mem_append_left _ requested, by simpa [executedId] using free⟩
      · rw [List.filterMap_append] at executed ⊢
        exact List.mem_append_left _ (ok.requestedFirst id (by simpa [executedId] using executed))
    | @taken taken p action allowed named found =>
      have waited : taken ∈ s.store.pending := sweptMem (memOfLookup found)
      refine ⟨⟨fun id inside => ?_, fun id executed => ?_⟩, fun id executed => ?_⟩
      · obtain ⟨apart, older⟩ := AList.mem_erase.mp inside
        obtain ⟨requested, free⟩ := ok.waits id (sweptMem older)
        rw [List.filterMap_append, List.filterMap_append]
        refine ⟨List.mem_append_left _ requested, ?_⟩
        rw [List.mem_append, not_or]
        exact ⟨free, by simpa [executedId] using apart⟩
      · rw [List.filterMap_append, List.mem_append] at executed
        rw [List.filterMap_append]
        refine List.mem_append_left _ (executed.elim (ok.requestedFirst id) fun last => ?_)
        obtain rfl : id = taken := by simpa [executedId] using last
        exact (ok.waits id waited).1
      · obtain rfl : id = taken := by simpa [executedId] using executed
        exact ⟨rfl, waited⟩
  | finish call result =>
    obtain ⟨actionId, -, same⟩ := Option.map_eq_some_iff.mp move
    cases same
    exact waitingQuiet ok (by simp [Quiet, requestedId, executedId]) fun _ inside => inside
  | elsewhere =>
    cases move
    exact ⟨by simpa using ok, by simp⟩

end Draws

def requestedIds {ι : Type} (deeds : List (ι × Deed)) : List Str := deeds.filterMap fun e => requestedId e.2
def executedIds {ι : Type} (deeds : List (ι × Deed)) : List Str := deeds.filterMap fun e => executedId e.2

theorem filterMapInjective {α β : Type} {f : α → Option β} {l : List α} (distinct : (l.filterMap f).Nodup) {a b : α} {c : β}
    (first : a ∈ l) (second : b ∈ l) (here : f a = some c) (there : f b = some c) : a = b := by
  induction l with
  | nil => contradiction
  | cons head rest ih =>
    have apart : ∀ e ∈ rest, f e = some c → f head ≠ some c := by
      intro e member also front
      rw [List.filterMap_cons, front] at distinct
      exact (List.nodup_cons.mp distinct).1 (List.mem_filterMap.mpr ⟨e, member, also⟩)
    have others : (rest.filterMap f).Nodup := by
      rw [List.filterMap_cons] at distinct
      split at distinct
      · exact distinct
      · exact (List.nodup_cons.mp distinct).2
    rcases List.mem_cons.mp first with rfl | later <;> rcases List.mem_cons.mp second with rfl | later'
    · rfl
    · exact absurd here (apart b later' there)
    · exact absurd there (apart a later here)
    · exact ih others later later'

theorem ownEvents {ι : Type} (f : Deed → Option Str) (i : ι) (own : List Deed) :
    (own.map (i, ·)).filterMap (fun e => f e.2) = own.filterMap f := by
  simp only [List.filterMap_map, Function.comp_def]

section Family
variable {ι : Type} [DecidableEq ι] {x : Externals} {gates : ι → Gate} {s t : Family ι} {deeds emitted : List (ι × Deed)}

theorem ofEvents {f : Deed → Option Str} {i : ι} {id : Str} :
    id ∈ (eventsOf i deeds).filterMap f ↔ ∃ deed, (i, deed) ∈ deeds ∧ f deed = some id := by
  simp only [List.mem_filterMap, memEventsOf]

/- The ids that were given out carry numbers below the counter and differ, an id that was
executed is executed once, and each gate holds ids of its own. -/
structure Apart (deeds : List (ι × Deed)) (s : Family ι) : Prop where
  below : ∀ id ∈ requestedIds deeds, ∃ millis n, n < s.seq ∧ id = pendingId millis n
  distinct : (requestedIds deeds).Nodup
  once : (executedIds deeds).Nodup
  waiting : ∀ i, Waiting (eventsOf i deeds) (s.own i).pending

theorem apartFresh (ok : Apart deeds s) (millis : Int) : pendingId millis s.seq ∉ requestedIds deeds := by
  intro requested
  obtain ⟨millis', n, below, same⟩ := ok.below _ requested
  exact Nat.lt_irrefl n (pendingIdInjective same ▸ below)

theorem requesterUnique (ok : Apart deeds s) {i j : ι} {id : Str} (here : id ∈ (eventsOf i deeds).filterMap requestedId)
    (there : id ∈ (eventsOf j deeds).filterMap requestedId) : i = j := by
  obtain ⟨deed, member, named⟩ := ofEvents.mp here
  obtain ⟨deed', member', named'⟩ := ofEvents.mp there
  exact congrArg Prod.fst (filterMapInjective ok.distinct member member' named named')

theorem stepApart {l : ι × Call} (ok : Apart deeds s) (move : (Family.machine x gates).step s l = some (t, emitted)) :
    Apart (deeds ++ emitted) t := by
  obtain ⟨i, call⟩ := l
  obtain ⟨after, own, stepped, rfl, rfl⟩ := familyStep move
  have fresh (millis : Int) : pendingId millis s.seq ∉ (eventsOf i deeds).filterMap requestedId := by
    intro requested
    obtain ⟨deed, member, named⟩ := ofEvents.mp requested
    exact apartFresh ok millis (List.mem_filterMap.mpr ⟨_, member, named⟩)
  obtain ⟨waits, executes⟩ := stepWaiting (ok.waiting i) fresh stepped
  have requests : requestedIds (deeds ++ own.map (i, ·)) = requestedIds deeds ++ own.filterMap requestedId := by
    rw [requestedIds, List.filterMap_append, ownEvents, requestedIds]
  have counter : (s.moved i after).seq = after.store.seq := rfl
  have draws : Draws (gates i) (s.gating i) after own := stepDraws stepped
  constructor
  · intro id requested
    rw [requests] at requested
    rw [counter]
    cases draws with
    | nothing none same =>
      rw [none, List.append_nil] at requested
      rw [same]
      exact ok.below id requested
    | elsewhere none _ next =>
      rw [none, List.filterMap_nil, List.append_nil] at requested
      obtain ⟨millis, n, below, named⟩ := ok.below id requested
      exact ⟨millis, n, next ▸ Nat.lt_succ_of_lt below, named⟩
    | request one next =>
      rw [one] at requested
      rcases List.mem_append.mp requested with before | now
      · obtain ⟨millis, n, below, named⟩ := ok.below id before
        exact ⟨millis, n, next ▸ Nat.lt_succ_of_lt below, named⟩
      · exact ⟨_, s.seq, next ▸ Nat.lt_succ_self _, List.mem_singleton.mp now⟩
  · rw [requests]
    cases draws with
    | nothing none _ => simpa [none] using ok.distinct
    | elsewhere none _ _ => simpa [none] using ok.distinct
    | request one _ =>
      rw [one]
      simpa [Family.gating] using List.Nodup.concat (apartFresh ok _) ok.distinct
  · have whole : executedIds (deeds ++ own.map (i, ·)) = executedIds deeds ++ own.filterMap executedId := by
      rw [executedIds, List.filterMap_append, ownEvents, executedIds]
    rw [whole]
    cases now : own.filterMap executedId with
    | nil => simpa using ok.once
    | cons id rest =>
      obtain ⟨single, waited⟩ := executes id (by rw [now]; exact List.mem_cons_self)
      rw [now] at single
      rw [single]
      have unused : id ∉ executedIds deeds := by
        intro executed
        obtain ⟨⟨j, deed⟩, member, named⟩ := List.mem_filterMap.mp executed
        have there : id ∈ (eventsOf j deeds).filterMap executedId := ofEvents.mpr ⟨deed, member, named⟩
        obtain ⟨here, free⟩ := (ok.waiting i).waits id waited
        obtain rfl := requesterUnique ok here ((ok.waiting j).requestedFirst id there)
        exact free there
      simpa using List.Nodup.concat unused ok.once
  · intro j
    rw [eventsOfAppend]
    by_cases same : j = i
    · subst same
      rw [eventsOfOwn, movedOwn]
      exact waits
    · rw [eventsOfOther (Ne.symm same), List.append_nil, movedApart same]
      exact ok.waiting j

theorem othersView {i j : ι} {after : Gating} {own : List Deed} (different : j ≠ i)
    (draws : Draws (gates i) (s.gating i) after own) : (s.moved i after).gating j = s.gating j ∨
      (Gating.machine x (gates j)).step (s.gating j) .elsewhere = some ((s.moved i after).gating j, []) := by
  have stays (same : after.store.seq = s.seq) : (s.moved i after).gating j = s.gating j := by
    rw [movedOther different, same]
    rfl
  have drawn (next : after.store.seq = s.seq + 1) :
      (Gating.machine x (gates j)).step (s.gating j) .elsewhere = some ((s.moved i after).gating j, []) := by
    rw [movedOther different, next]
    rfl
  cases draws with
  | nothing _ same => exact .inl (stays same)
  | elsewhere _ _ next | request _ next => exact .inr (drawn next)

theorem gateRuns {seq : Nat} {clock : Time} {labels : List (ι × Call)}
    (run : Runs (Family.machine x gates) Always (.start seq clock) labels deeds s) (i : ι) :
    ∃ calls, Runs (Gating.machine x (gates i)) Always (.start seq clock) calls (eventsOf i deeds) (s.gating i) := by
  induction run with
  | idle => exact ⟨[], .idle⟩
  | @next labels deeds s t label emitted before meets move ih =>
    obtain ⟨calls, run⟩ := ih
    obtain ⟨j, call⟩ := label
    obtain ⟨after, own, stepped, rfl, rfl⟩ := familyStep move
    rw [eventsOfAppend]
    by_cases same : i = j
    · subst same
      rw [eventsOfOwn, movedSame]
      exact ⟨calls ++ [call], .next run trivial stepped⟩
    · rw [eventsOfOther (Ne.symm same), List.append_nil]
      rcases othersView (x := x) same (stepDraws stepped) with still | drawn
      · rw [still]
        exact ⟨calls, run⟩
      · refine ⟨calls ++ [.elsewhere], ?_⟩
        have extended := Runs.next run trivial drawn
        rwa [List.append_nil] at extended

theorem actionsApart {g h : Gate} (ops : g.op ≠ h.op) : List.Disjoint g.manifestActions h.manifestActions := by
  have apart : requestPrefix ≠ confirmPrefix := by decide
  have sizes : requestPrefix.length = confirmPrefix.length := by decide
  intro action own other
  simp only [Gate.manifestActions, List.mem_cons, List.not_mem_nil, or_false] at own other
  rcases own with rfl | rfl <;> rcases other with same | same
  · exact ops (List.append_cancel_left same)
  · exact apart (List.append_inj same sizes).1
  · exact apart (List.append_inj same sizes.symm).1.symm
  · exact ops (List.append_cancel_left same)

/- In every run of any gates of a process: no id is given out twice, none is executed
twice, and none by a gate that has not given it out. Each gate does what it does alone
with its calls, and an action of one gate changes no gate of another operation. -/
theorem gatesApart (x : Externals) (gates : ι → Gate) {seq : Nat} {clock : Time} {labels : List (ι × Call)}
    (run : Runs (Family.machine x gates) Always (.start seq clock) labels deeds s) :
    (requestedIds deeds).Nodup ∧ (executedIds deeds).Nodup ∧
    (∀ i, ∀ id ∈ (eventsOf i deeds).filterMap executedId, id ∈ (eventsOf i deeds).filterMap requestedId ∧
      ∀ j, id ∈ (eventsOf j deeds).filterMap requestedId → j = i) ∧
    (∀ i, ∃ calls, Runs (Gating.machine x (gates i)) Always (.start seq clock) calls (eventsOf i deeds) (s.gating i)) ∧
    ∀ i j, (gates i).op ≠ (gates j).op → ∀ req clock store, req.action ∈ (gates i).manifestActions →
      (gates j).route x req clock store = (.replied (notFound req.actionId), store) := by
  have base : Apart [] (Family.start seq clock : Family ι) :=
    ⟨nofun, List.nodup_nil, List.nodup_nil, fun _ => ⟨nofun, nofun⟩⟩
  have whole := runsKeep Apart base (fun _ _ _ _ _ ok _ move => stepApart ok move) run
  refine ⟨whole.distinct, whole.once, fun i id executed => ?_, gateRuns run, fun i j ops req clock store own => ?_⟩
  · have requested := (whole.waiting i).requestedFirst id executed
    exact ⟨requested, fun j also => requesterUnique whole also requested⟩
  · have foreign : req.action ∉ (gates j).manifestActions := fun other => actionsApart ops own other
    simp only [Gate.manifestActions, List.mem_cons, List.not_mem_nil, or_false, not_or] at foreign
    exact routeOther foreign.1 foreign.2

end Family

def sampleWipe : Gate := { sampleGate (.finite 300) with op := lit "wipe", opValid := by decide +kernel }

def sampleGates (other : Bool) : Gate := if other then sampleWipe else sampleGate (.finite 300)

def sampleCalls : List (Bool × Call) :=
  [(false, .route sampleTransfer sampleStored), (true, .route ⟨lit "a3", lit "request_wipe", [], 0, false, lit "shop"⟩ sampleStored),
    (false, .route sampleConfirm sampleTaken)]

theorem gatesApartSample : ∃ deeds : List (Bool × Deed), (deeds.filterMap fun e => executedId e.2) = [samplePendingId] ∧
    (requestedIds deeds).Nodup ∧ samplePendingId ∈ (eventsOf false deeds).filterMap requestedId := by
  have ran : (((Family.machine sampleModule sampleGates).run (.start 0 0) sampleCalls).map fun r =>
      (executedIds r.2, (eventsOf false r.2).filterMap executedId)) = some ([samplePendingId], [samplePendingId]) := by
    decide +kernel
  obtain ⟨⟨s, deeds⟩, run, same⟩ := Option.map_eq_some_iff.mp ran
  obtain ⟨executed, own⟩ := Prod.mk.inj same
  obtain ⟨distinct, -, first, -⟩ := gatesApart sampleModule sampleGates (runsOfRun run)
  exact ⟨deeds, executed, distinct, (first false samplePendingId (own ▸ List.mem_singleton_self _)).1⟩

end Vynkor.ConfirmationGate
