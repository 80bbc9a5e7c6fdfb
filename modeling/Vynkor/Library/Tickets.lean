import Mathlib.Data.List.Nodup
import Mathlib.Logic.Function.Basic

/-! Tickets that are drawn once, held by one party at a time and settled. A party
may only settle or go on holding what it held or has just drawn. -/
namespace Vynkor.Tickets

variable {Id Ticket : Type}

structure Ledger (drawn settled : List Ticket) (held : Id → Option Ticket) : Prop where
  drawnOnce : drawn.Nodup
  settledOnce : settled.Nodup
  settledDrawn : ∀ t ∈ settled, t ∈ drawn
  heldDrawn : ∀ p, ∀ t ∈ held p, t ∈ drawn
  heldUnsettled : ∀ p, ∀ t ∈ held p, t ∉ settled
  heldOnce : ∀ p q, ∀ t ∈ held p, t ∈ held q → q = p

theorem ledgerEmpty : Ledger [] [] (fun _ : Id => (none : Option Ticket)) := by
  constructor <;> simp

section Moves
variable {drawn settled fresh ended : List Ticket} {held : Id → Option Ticket} {now : Option Ticket} {p : Id}

theorem origin (moved : (ended ++ now.toList).Sublist ((held p).toList ++ fresh)) {t : Ticket} (member : t ∈ ended ∨ t ∈ now) :
    t ∈ held p ∨ t ∈ fresh := by
  have inside := moved.subset (List.mem_append.mpr (member.imp_right Option.mem_toList.mpr))
  exact (List.mem_append.mp inside).imp_left Option.mem_toList.mp

theorem endedApart (ok : Ledger drawn settled held) (new : (drawn ++ fresh).Nodup)
    (moved : (ended ++ now.toList).Sublist ((held p).toList ++ fresh)) : (ended ++ now.toList).Nodup := by
  obtain ⟨-, freshOnce, apart⟩ := List.nodup_append'.mp new
  refine moved.nodup (List.nodup_append'.mpr ⟨?_, freshOnce, fun t member drawnNow => ?_⟩)
  · cases held p <;> simp
  · exact apart (ok.heldDrawn p t (Option.mem_toList.mp member)) drawnNow

theorem othersApart (ok : Ledger drawn settled held) (new : (drawn ++ fresh).Nodup)
    (moved : (ended ++ now.toList).Sublist ((held p).toList ++ fresh)) {q : Id} (different : q ≠ p) {t : Ticket}
    (holds : t ∈ held q) : ¬ (t ∈ ended ∨ t ∈ now) := by
  intro member
  rcases origin moved member with own | drawnNow
  · exact different (ok.heldOnce p q t own holds)
  · exact (List.nodup_append'.mp new).2.2 (ok.heldDrawn q t holds) drawnNow

theorem ledgerMoves [DecidableEq Id] (ok : Ledger drawn settled held) (new : (drawn ++ fresh).Nodup)
    (moved : (ended ++ now.toList).Sublist ((held p).toList ++ fresh)) :
    Ledger (drawn ++ fresh) (settled ++ ended) (Function.update held p now) := by
  have apart := endedApart ok new moved
  have reach {t : Ticket} (member : t ∈ ended ∨ t ∈ now) : t ∈ drawn ++ fresh :=
    List.mem_append.mpr ((origin moved member).imp_left (ok.heldDrawn p t))
  constructor
  · exact new
  · refine List.nodup_append'.mpr ⟨ok.settledOnce, (List.nodup_append'.mp apart).1, fun t before ends => ?_⟩
    rcases origin moved (.inl ends) with own | drawnNow
    · exact ok.heldUnsettled p t own before
    · exact (List.nodup_append'.mp new).2.2 (ok.settledDrawn t before) drawnNow
  · intro t member
    rcases List.mem_append.mp member with before | ends
    · exact List.mem_append_left _ (ok.settledDrawn t before)
    · exact reach (.inl ends)
  · intro q t holds
    rcases eq_or_ne q p with rfl | different
    · rw [Function.update_self] at holds
      exact reach (.inr holds)
    · rw [Function.update_of_ne different] at holds
      exact List.mem_append_left _ (ok.heldDrawn q t holds)
  · intro q t holds member
    rcases eq_or_ne q p with rfl | different
    · rw [Function.update_self] at holds
      rcases List.mem_append.mp member with before | ends
      · rcases origin moved (.inr holds) with own | drawnNow
        · exact ok.heldUnsettled q t own before
        · exact (List.nodup_append'.mp new).2.2 (ok.settledDrawn t before) drawnNow
      · exact (List.nodup_append'.mp apart).2.2 ends (Option.mem_toList.mpr holds)
    · rw [Function.update_of_ne different] at holds
      rcases List.mem_append.mp member with before | ends
      · exact ok.heldUnsettled q t holds before
      · exact othersApart ok new moved different holds (.inl ends)
  · intro q r t holds also
    rcases eq_or_ne q p with rfl | different
    · rw [Function.update_self] at holds
      rcases eq_or_ne r q with rfl | elsewhere
      · rfl
      · rw [Function.update_of_ne elsewhere] at also
        exact absurd (.inr holds) (othersApart ok new moved elsewhere also)
    · rw [Function.update_of_ne different] at holds
      rcases eq_or_ne r p with rfl | elsewhere
      · rw [Function.update_self] at also
        exact absurd (.inr also) (othersApart ok new moved different holds)
      · rw [Function.update_of_ne elsewhere] at also
        exact ok.heldOnce q r t holds also

end Moves
end Vynkor.Tickets
