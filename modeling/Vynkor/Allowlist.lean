import Vynkor.ConfirmationRuns

/-! Whom an allowlist admits: a plugin id that is listed, and what lies below an id that is
listed with `.*`. -/
namespace Vynkor.ConfirmationGate
open Text

def dot : CodePoint := .scalar '.'

/- The rule for one entry, by what it is rather than by its characters. -/
inductive Admits (caller : Str) : Str → Prop where
  | exact (plain : ¬ lit ".*" <:+ caller) : Admits caller caller
  | below {stem : Str} (inside : stem ++ [dot] <+: caller) : Admits caller (stem ++ lit ".*")

section Entries
variable {caller allowed stem : Str}

theorem belowIff : (stem.isPrefixOf caller && decide (stem.length < caller.length) && caller[stem.length]? == some dot) = true ↔
    stem ++ [dot] <+: caller := by
  simp only [Bool.and_eq_true, List.isPrefixOf_iff_prefix, decide_eq_true_eq, beq_iff_eq]
  constructor
  · rintro ⟨⟨⟨rest, rfl⟩, -⟩, next⟩
    cases rest with
    | nil => simp at next
    | cons c rest =>
      rw [List.getElem?_append_right (Nat.le_refl _), Nat.sub_self, List.getElem?_cons_zero, Option.some.injEq] at next
      exact ⟨rest, by rw [next, List.append_assoc, List.singleton_append]⟩
  · rintro ⟨rest, rfl⟩
    rw [List.append_assoc, List.singleton_append]
    exact ⟨⟨List.prefix_append _ _, by simp⟩, by simp⟩

theorem allowsIff : allows caller allowed = true ↔ Admits caller allowed := by
  unfold allows
  by_cases wild : lit ".*" <:+ allowed
  · obtain ⟨stem, rfl⟩ := wild
    have front : (stem ++ lit ".*").take ((stem ++ lit ".*").length - 2) = stem := by
      simp [lit]
    rw [if_pos (List.isSuffixOf_iff_suffix.mpr (List.suffix_append _ _))]
    simp only [front]
    refine belowIff.trans ⟨.below, fun admits => ?_⟩
    generalize whole : stem ++ lit ".*" = entry at admits
    cases admits with
    | exact plain => exact absurd (whole ▸ List.suffix_append _ _) plain
    | below inside => rwa [List.append_cancel_right whole]
  · rw [if_neg (by simpa [List.isSuffixOf_iff_suffix] using wild), beq_iff_eq]
    constructor
    · rintro rfl
      exact .exact wild
    · intro admits
      cases admits with
      | exact plain => rfl
      | below inside => exact absurd (List.suffix_append _ _) wild

theorem mayConfirmIff {g : Gate} : g.mayConfirm caller = true ↔ ∃ allowed ∈ g.confirmCallers, Admits caller allowed := by
  simp only [Gate.mayConfirm, List.any_eq_true, allowsIff]

end Entries

structure OfDevices (devices : Set Str) (g : Gate) : Prop where
  dotFree : ∀ d ∈ devices, dot ∉ d
  entries : ∀ allowed ∈ g.confirmCallers, ∃ d ∈ devices, allowed = d ∨ allowed = d ++ lit ".*"

section Devices
variable {devices : Set Str} {g : Gate} {caller d : Str}

theorem deviceAdmits (ok : OfDevices devices g) (admitted : g.mayConfirm caller = true) :
    (caller ∈ devices ∧ caller ∈ g.confirmCallers) ∨ ∃ d ∈ devices, d ++ [dot] <+: caller := by
  obtain ⟨allowed, listed, admits⟩ := mayConfirmIff.mp admitted
  obtain ⟨d, device, rfl | rfl⟩ := ok.entries allowed listed
  · cases admits with
    | exact plain => exact .inl ⟨device, listed⟩
    | below inside => exact absurd (List.mem_append_right _ List.mem_cons_self) (ok.dotFree _ device)
  · generalize whole : d ++ lit ".*" = entry at admits
    cases admits with
    | exact plain => exact absurd (whole ▸ List.suffix_append _ _) plain
    | below inside => exact .inr ⟨d, device, by rwa [List.append_cancel_right whole]⟩

theorem dotFreeBelow (free : dot ∉ caller) : ¬ d ++ [dot] <+: caller := by
  rintro ⟨rest, rfl⟩
  exact free (by simp)

theorem belowUnique {e cap : Str} (freeD : dot ∉ d) (freeE : dot ∉ e) (inside : d ++ [dot] <+: e ++ dot :: cap) : d = e := by
  obtain ⟨rest, same⟩ := inside
  rw [List.append_assoc, List.singleton_append] at same
  exact frontUnique freeD freeE same

end Devices

/- Who may confirm, exactly. Among devices: none that is not on the list, nor anything
below it; a bare device only if it is listed itself; and a longer list admits no fewer. -/
theorem allowlistIsolates (g : Gate) :
    (∀ caller, g.mayConfirm caller = true ↔ ∃ allowed ∈ g.confirmCallers, Admits caller allowed) ∧
    (∀ devices, OfDevices devices g →
      (∀ e, dot ∉ e → e ∉ devices → g.mayConfirm e = false ∧ ∀ cap, g.mayConfirm (e ++ dot :: cap) = false) ∧
      ∀ d ∈ devices, g.mayConfirm d = true → d ∈ g.confirmCallers) ∧
    ∀ more : Gate, g.confirmCallers ⊆ more.confirmCallers → ∀ caller, g.mayConfirm caller = true → more.mayConfirm caller = true := by
  refine ⟨fun caller => mayConfirmIff, fun devices ok => ⟨fun e free foreign => ⟨?_, fun cap => ?_⟩, fun d device admitted => ?_⟩,
    fun more longer caller admitted => ?_⟩
  · rw [← Bool.not_eq_true]
    intro admitted
    rcases deviceAdmits ok admitted with ⟨device, -⟩ | ⟨d, -, inside⟩
    · exact foreign device
    · exact dotFreeBelow free inside
  · rw [← Bool.not_eq_true]
    intro admitted
    rcases deviceAdmits ok admitted with ⟨device, -⟩ | ⟨d, device, inside⟩
    · exact ok.dotFree _ device (by simp)
    · exact foreign (belowUnique (ok.dotFree d device) free inside ▸ device)
  · rcases deviceAdmits ok admitted with ⟨-, listed⟩ | ⟨e, -, inside⟩
    · exact listed
    · exact absurd inside (dotFreeBelow (ok.dotFree d device))
  · obtain ⟨allowed, listed, admits⟩ := mayConfirmIff.mp admitted
    exact mayConfirmIff.mpr ⟨allowed, longer listed, admits⟩

theorem allowlistIsolatesSample : (sampleGate (.finite 300)).mayConfirm (lit "phone-10") = false := by
  have ok : OfDevices {lit "phone-1"} (sampleGate (.finite 300)) := by
    constructor
    · rintro d rfl
      decide +kernel
    · intro allowed listed
      exact ⟨lit "phone-1", rfl, .inl (List.mem_singleton.mp listed)⟩
  exact (((allowlistIsolates (sampleGate (.finite 300))).2.1 _ ok).1 (lit "phone-10") (by decide +kernel)
    (by simp only [Set.mem_singleton_iff]; decide +kernel)).1

end Vynkor.ConfirmationGate
