import Vynkor.ConfirmationRuns

/-! How many requests a gate can hold. Entries go by expiry, at a request or a confirmation,
and by being confirmed; nothing counts them. -/
namespace Vynkor.ConfirmationGate
open Octets (Bytes)
open Text Tables Labelled

def Bounded (g : Gate) (bound : Nat) : Prop :=
  ∀ (x : Externals) (seq : Nat) (clock : Time) (calls : List Call) (deeds : List Deed) (s : Gating),
    Runs (Gating.machine x g) Always (.start seq clock) calls deeds s → size s.store.pending ≤ bound

section Expired
variable {x : Externals} {g : Gate} {value : ℚ} {s t : Gating}

structure Single (s : Gating) : Prop where
  one : size s.store.pending ≤ 1
  made : ∀ id p, s.store.pending.lookup id = some p → p.createdAt ≤ s.clock

theorem expiredAtOnce (ttl : g.pendingTtl = .finite value) (none : value ≤ 0) {p : PendingAction} {now : Time}
    (made : p.createdAt ≤ now) : g.isStale now p = true := by
  simp only [Gate.isStale, ttl, PyFloat.reachedBy, decide_eq_true_eq]
  exact le_trans none (sub_nonneg.mpr made)

theorem routeSingle {req : ActionRequest} {clock : Readings} {inFlight : List Str} (ttl : g.pendingTtl = .finite value)
    (none : value ≤ 0) (ok : Single s) (order : s.clock ≤ clock.sweptAt ∧ clock.sweptAt ≤ clock.createdAt) :
    Single ⟨(g.route x req clock s.store).2, clock.createdAt, inFlight⟩ := by
  have swept : g.sweepExpired clock.sweptAt s.store.pending = ∅ :=
    sweepAll fun id p found => expiredAtOnce ttl none (le_trans (ok.made id p found) order.1)
  have routes : Routes x g req clock s.store _ _ := routeCases
  generalize (g.route x req clock s.store).1 = how at routes
  generalize (g.route x req clock s.store).2 = after at routes
  cases routes with
  | ignored => exact ⟨ok.one, fun id p found => le_trans (ok.made id p found) (le_trans order.1 order.2)⟩
  | missed absent => exact ⟨by simp [swept], fun id p found => by simp [swept] at found⟩
  | taken action allowed named found => simp [swept] at found
  | requested action =>
    rw [swept]
    refine ⟨(sizeInsertAbsent _ (AList.notMem_empty _)).le, fun id p found => ?_⟩
    by_cases same : id = pendingId clock.millis s.store.seq
    · rw [same, AList.lookup_insert] at found
      cases found
      exact le_refl _
    · rw [AList.lookup_insert_ne same] at found
      simp at found

theorem expiredBound (ttl : g.pendingTtl = .finite value) (none : value ≤ 0) : Bounded g 1 := by
  intro x seq clock calls deeds s run
  refine (runsKeep (fun _ s => Single s) ⟨Nat.zero_le _, fun id p found => by cases found⟩ ?_ run).one
  intro deeds s call t emitted ok _ move
  cases call with
  | route req clock =>
    obtain ⟨guard, rfl, rfl⟩ := routedStep.mp move
    exact routeSingle ttl none ok guard.2
  | finish call result =>
    obtain ⟨actionId, waiting, same⟩ := Option.map_eq_some_iff.mp move
    cases same
    exact ⟨ok.one, ok.made⟩
  | elsewhere =>
    cases move
    exact ⟨ok.one, ok.made⟩

end Expired

section Flood
variable {x : Externals} {g : Gate} {value : ℚ} {s : Gating}

def floodRequest (g : Gate) : ActionRequest := ⟨[], g.requestAction, [], 0, false, []⟩

def floodCall (g : Gate) : Call := .route (floodRequest g) ⟨0, 0, 0⟩

structure Flooded (n : Nat) (s : Gating) : Prop where
  clock : s.clock = 0
  seq : s.store.seq = n
  full : size s.store.pending = n
  young : ∀ id p, s.store.pending.lookup id = some p → p.createdAt = 0 ∧ ∃ k < n, id = pendingId 0 k

theorem floodStep (x : Externals) {n : Nat} (ttl : g.pendingTtl = .finite value) (positive : 0 < value) (ok : Flooded n s) :
    ∃ t emitted, (Gating.machine x g).step s (floodCall g) = some (t, emitted) ∧ Flooded (n + 1) t := by
  have text : textOk (floodRequest g) = true := by
    have action : Text.Encodable g.requestAction := encodableAppend.mpr ⟨litEncodable _, opEncodable g⟩
    simp [textOk, floodRequest, encode, (encodeDefined _).mpr action]
  have kept : g.sweepExpired 0 s.store.pending = s.store.pending := by
    refine sweepIdle fun id p found => ?_
    simp [Gate.isStale, ttl, PyFloat.reachedBy, (ok.young id p found).1, positive]
  have fresh : pendingId 0 n ∉ s.store.pending := by
    intro member
    obtain ⟨p, found⟩ := Option.isSome_iff_exists.mp (AList.lookup_isSome.mpr member)
    obtain ⟨-, k, below, same⟩ := ok.young _ p found
    exact Nat.lt_irrefl n (pendingIdInjective same ▸ below)
  have stored : g.route x (floodRequest g) ⟨0, 0, 0⟩ s.store =
      (.requested (pendingId 0 n) (g.requestReply (floodRequest g) (pendingId 0 n)),
        ⟨s.store.pending.insert (pendingId 0 n) (pendingOf (floodRequest g) ⟨0, 0, 0⟩), n + 1⟩) := by
    rw [routeRequest rfl]
    simp only [Gate.request, Gate.storeRequest, kept, ok.seq]
  have guard : textOk (floodRequest g) ∧ s.clock ≤ 0 ∧ (0 : Time) ≤ 0 := ⟨text, ok.clock.le, le_refl _⟩
  refine ⟨_, _, routedStep.mpr ⟨guard, rfl, rfl⟩, ?_⟩
  rw [stored]
  refine ⟨rfl, rfl, ?_, fun id p found => ?_⟩
  · simp only [sizeInsertAbsent _ fresh, ok.full]
  · by_cases same : id = pendingId 0 n
    · rw [same, AList.lookup_insert] at found
      cases found
      exact ⟨rfl, n, Nat.lt_succ_self n, same⟩
    · rw [AList.lookup_insert_ne same] at found
      obtain ⟨young, k, below, named⟩ := ok.young id p found
      exact ⟨young, k, Nat.lt_succ_of_lt below, named⟩

theorem floods (x : Externals) (ttl : g.pendingTtl = .finite value) (positive : 0 < value) (n : Nat) :
    ∃ deeds s, Runs (Gating.machine x g) Always (.start 0 0) (List.replicate n (floodCall g)) deeds s ∧ Flooded n s := by
  induction n with
  | zero => exact ⟨[], _, .idle, rfl, rfl, rfl, fun id p found => by cases found⟩
  | succ n ih =>
    obtain ⟨deeds, s, run, flooded⟩ := ih
    obtain ⟨t, emitted, move, more⟩ := floodStep x ttl positive flooded
    rw [List.replicate_succ']
    exact ⟨_, t, .next run trivial move, more⟩

end Flood

/- A gate with a finite TTL has a bound on its pending entries exactly if the TTL is not
positive, when a request is expired as soon as the next one comes. -/
theorem pendingBounded (g : Gate) (value : ℚ) (ttl : g.pendingTtl = .finite value) :
    (∃ bound, Bounded g bound) ↔ value ≤ 0 := by
  constructor
  · rintro ⟨bound, bounded⟩
    by_contra positive
    obtain ⟨deeds, s, run, flooded⟩ := floods ⟨fun _ => .error [], fun _ => []⟩ ttl (not_le.mp positive) (bound + 1)
    have few := bounded _ _ _ _ deeds s run
    rw [flooded.full] at few
    exact Nat.not_succ_le_self bound few
  · intro expired
    exact ⟨1, expiredBound ttl expired⟩

theorem pendingBoundedSample : ∃ bound, Bounded (sampleGate (.finite 0)) bound :=
  (pendingBounded (sampleGate (.finite 0)) 0 rfl).mpr (le_refl 0)

/- The gate as it is made, with the default TTL. -/
theorem pendingUnbounded : ¬ ∀ (g : Gate) (value : ℚ), g.pendingTtl = .finite value → ∃ bound, Bounded g bound := by
  intro claim
  obtain ⟨bound, bounded⟩ := claim (sampleGate defaultPendingTtl) 300 rfl
  have positive : (0 : ℚ) < 300 := by decide +kernel
  obtain ⟨deeds, s, run, flooded⟩ := floods (g := sampleGate defaultPendingTtl) sampleModule rfl positive (bound + 1)
  have few := bounded _ _ _ _ deeds s run
  rw [flooded.full] at few
  exact Nat.not_succ_le_self bound few

end Vynkor.ConfirmationGate
