import Mathlib

/-! Finite tables with one entry per key: how many entries, how much they weigh,
which ones a sweep keeps, and when the keys are exactly `0, ..., n - 1`. -/
namespace Vynkor.Tables

abbrev Table (κ ν : Type) := AList (fun _ : κ => ν)

variable {κ ν : Type}

def size (t : Table κ ν) : Nat := t.keys.length

def weight (f : ν → Nat) (t : Table κ ν) : Nat := (t.entries.map fun e => f e.2).sum

def share (f : ν → Nat) (v : Option ν) : Nat := (v.map f).getD 0

@[simp] theorem sizeEmpty : size (∅ : Table κ ν) = 0 := rfl

@[simp] theorem weightEmpty (f : ν → Nat) : weight f (∅ : Table κ ν) = 0 := rfl

variable [DecidableEq κ]

theorem memOfLookup {t : Table κ ν} {k : κ} {v : ν} (found : t.lookup k = some v) : k ∈ t :=
  AList.lookup_isSome.mp (by simp [found])

theorem entryOfLookup {t : Table κ ν} {k : κ} {v : ν} : t.lookup k = some v ↔ ⟨k, v⟩ ∈ t.entries :=
  AList.mem_lookup_iff

theorem emptyOfLookup {t : Table κ ν} (none : ∀ k, t.lookup k = none) : t = ∅ := by
  apply AList.ext
  refine List.eq_nil_iff_forall_not_mem.mpr fun e member => ?_
  have found := entryOfLookup.mpr (show ⟨e.1, e.2⟩ ∈ t.entries from member)
  rw [none] at found
  contradiction

theorem sizeErasePresent {t : Table κ ν} {k : κ} (present : k ∈ t) : size (t.erase k) + 1 = size t := by
  have positive : 0 < t.keys.length := List.length_pos_of_mem (AList.mem_keys.mp present)
  rw [size, size, AList.keys_erase, List.length_erase_of_mem (AList.mem_keys.mp present)]
  omega

theorem eraseAbsent {t : Table κ ν} {k : κ} (absent : k ∉ t) : t.erase k = t :=
  AList.ext (List.kerase_of_notMem_keys absent)

theorem sizeEraseLe (t : Table κ ν) (k : κ) : size (t.erase k) ≤ size t := by
  by_cases present : k ∈ t
  · have := sizeErasePresent present
    omega
  · rw [eraseAbsent present]

theorem sizeInsert (t : Table κ ν) (k : κ) (v : ν) : size (t.insert k v) = size (t.erase k) + 1 := by
  simp [size, AList.keys_insert, AList.keys_erase]

theorem sizeInsertAbsent {t : Table κ ν} {k : κ} (v : ν) (absent : k ∉ t) :
    size (t.insert k v) = size t + 1 := by
  rw [sizeInsert, eraseAbsent absent]

theorem sizeInsertPresent {t : Table κ ν} {k : κ} (v : ν) (present : k ∈ t) :
    size (t.insert k v) = size t := by
  rw [sizeInsert, sizeErasePresent present]

theorem weightErase (f : ν → Nat) (t : Table κ ν) (k : κ) :
    weight f (t.erase k) + share f (t.lookup k) = weight f t := by
  by_cases present : k ∈ t
  · obtain ⟨v, front, back, fresh, whole, without⟩ := List.exists_of_kerase present
    have found : t.lookup k = some v := entryOfLookup.mpr (whole ▸ by simp)
    have erased : (t.erase k).entries = front ++ back := without
    rw [weight, weight, erased, whole, found]
    simp [share]
    omega
  · rw [eraseAbsent present, AList.lookup_eq_none.mpr present]
    rfl

theorem weightInsert (f : ν → Nat) (t : Table κ ν) (k : κ) (v : ν) :
    weight f (t.insert k v) + share f (t.lookup k) = weight f t + f v := by
  have erased := weightErase f t k
  have inserted : weight f (t.insert k v) = f v + weight f (t.erase k) := by
    simp [weight, AList.insert, AList.erase, List.kinsert]
  omega

def eraseAll (t : Table κ ν) (keys : List κ) : Table κ ν := keys.foldl (fun t k => t.erase k) t

def sweep (stale : ν → Bool) (t : Table κ ν) : Table κ ν :=
  eraseAll t ((t.entries.filter fun e => stale e.2).map fun e => e.1)

theorem keraseFilter {entries : List (Sigma fun _ : κ => ν)} (distinct : entries.NodupKeys) (k : κ) :
    entries.kerase k = entries.filter fun e => e.1 ≠ k := by
  induction entries with
  | nil => rfl
  | cons e rest ih =>
    obtain ⟨fresh, others⟩ := List.nodupKeys_cons.mp distinct
    by_cases same : k = e.1
    · have kept : rest.filter (fun e => e.1 ≠ k) = rest := by
        refine List.filter_eq_self.mpr fun other member => decide_eq_true fun clash => fresh ?_
        rw [← same, ← clash]
        exact List.mem_keys_of_mem member
      rw [List.kerase_cons_eq same, List.filter_cons_of_neg (by simp [same]), kept]
    · rw [List.kerase_cons_ne same, List.filter_cons_of_pos (by simpa using Ne.symm same), ih others]

theorem eraseAllEntries (t : Table κ ν) (keys : List κ) :
    (eraseAll t keys).entries = t.entries.filter fun e => e.1 ∉ keys := by
  induction keys generalizing t with
  | nil => simp [eraseAll]
  | cons k rest ih =>
    have first : (t.erase k).entries = t.entries.filter fun e => e.1 ≠ k := keraseFilter t.nodupKeys k
    have step := ih (t.erase k)
    rw [first, List.filter_filter] at step
    simp only [eraseAll, List.foldl_cons] at step ⊢
    rw [step]
    refine List.filter_congr fun e _ => ?_
    simp [Bool.and_comm]

theorem sweepEntries (stale : ν → Bool) (t : Table κ ν) :
    (sweep stale t).entries = t.entries.filter fun e => !stale e.2 := by
  rw [sweep, eraseAllEntries]
  refine List.filter_congr fun e member => ?_
  have listed : e.1 ∈ (t.entries.filter fun e => stale e.2).map (fun e => e.1) ↔ stale e.2 = true := by
    constructor
    · intro taken
      obtain ⟨⟨k, v⟩, kept, same⟩ := List.mem_map.mp taken
      obtain ⟨entry, old⟩ := List.mem_filter.mp kept
      cases same
      cases (entryOfLookup.mpr member).symm.trans (entryOfLookup.mpr entry)
      exact old
    · intro old
      exact List.mem_map.mpr ⟨e, List.mem_filter.mpr ⟨member, old⟩, rfl⟩
  simp [listed]

theorem lookupSweepSome {stale : ν → Bool} {t : Table κ ν} {k : κ} {v : ν} :
    (sweep stale t).lookup k = some v ↔ t.lookup k = some v ∧ stale v = false := by
  rw [entryOfLookup, entryOfLookup, sweepEntries, List.mem_filter]
  simp

theorem sizeSweepLe (stale : ν → Bool) (t : Table κ ν) : size (sweep stale t) ≤ size t := by
  simp only [size, AList.keys, List.keys, List.length_map, sweepEntries]
  exact List.length_filter_le _ _

theorem sweepSweep {first later : ν → Bool} (grows : ∀ v, first v = true → later v = true) (t : Table κ ν) :
    sweep later (sweep first t) = sweep later t := by
  apply AList.ext
  rw [sweepEntries, sweepEntries, sweepEntries, List.filter_filter]
  refine List.filter_congr fun e _ => ?_
  cases old : first e.2 with
  | false => simp
  | true => simp [grows _ old]

theorem sweepIdle {stale : ν → Bool} {t : Table κ ν}
    (young : ∀ k v, t.lookup k = some v → stale v = false) : sweep stale t = t := by
  have none : (t.entries.filter fun e => stale e.2) = [] := by
    rw [List.filter_eq_nil_iff]
    intro e member
    simp [young e.1 e.2 (entryOfLookup.mpr member)]
  simp [sweep, eraseAll, none]

theorem sweepAll {stale : ν → Bool} {t : Table κ ν} (old : ∀ k v, t.lookup k = some v → stale v = true) :
    sweep stale t = ∅ := by
  refine emptyOfLookup fun k => ?_
  cases found : (sweep stale t).lookup k with
  | none => rfl
  | some v =>
    obtain ⟨here, young⟩ := lookupSweepSome.mp found
    cases young.symm.trans (old k v here)

section Indexed
variable {t : Table Nat ν} {n : Nat}

theorem keysPerm (below : ∀ k ∈ t, k < n) (full : size t = n) : t.keys.Perm (List.range n) := by
  have inside : t.keys ⊆ List.range n := fun k member => List.mem_range.mpr (below k (AList.mem_keys.mpr member))
  have shorter : (List.range n).length ≤ t.keys.length := by simp [← full, size]
  exact (List.Nodup.subperm t.keys_nodup inside).perm_of_length_le shorter

theorem covers (below : ∀ k ∈ t, k < n) (full : size t = n) {i : Nat} (inside : i < n) :
    ∃ v, t.lookup i = some v := by
  have member : i ∈ t := AList.mem_keys.mpr ((keysPerm below full).mem_iff.mpr (List.mem_range.mpr inside))
  exact Option.isSome_iff_exists.mp (AList.lookup_isSome.mpr member)

theorem weightKeys (f : ν → Nat) (t : Table κ ν) :
    weight f t = (t.keys.map fun k => share f (t.lookup k)).sum := by
  have each : t.entries.map (fun e => f e.2) = t.entries.map (fun e => share f (t.lookup e.1)) := by
    apply List.map_congr_left
    intro e member
    rw [entryOfLookup.mpr member]
    rfl
  rw [weight, each]
  simp [AList.keys, List.keys, List.map_map, Function.comp_def]

theorem weightIndexed (f : ν → Nat) (below : ∀ k ∈ t, k < n) (full : size t = n) :
    ((List.range n).map fun i => share f (t.lookup i)).sum = weight f t := by
  rw [weightKeys]
  exact ((keysPerm below full).map _).sum_eq.symm

end Indexed
end Vynkor.Tables
