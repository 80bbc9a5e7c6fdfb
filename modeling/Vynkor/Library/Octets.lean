import Mathlib.Data.Nat.Bitwise
import Mathlib.Data.List.DropRight
import Mathlib.Data.List.Induction

/-! Octet strings: big-endian fixed-width words, fixed-position fields, bit masks
and the reflected CRC-32. No message format is described here. -/
namespace Vynkor.Octets

abbrev Bytes := List UInt8

def be : Nat → Nat → Bytes
  | 0, _ => []
  | width + 1, value => be width (value / 256) ++ [UInt8.ofNat (value % 256)]

def readBE (raw : Bytes) : Nat := raw.foldl (fun acc b => acc * 256 + b.toNat) 0

@[simp] theorem beLength (width value : Nat) : (be width value).length = width := by
  induction width generalizing value with
  | zero => rfl
  | succ width ih => simp [be, ih]

theorem readSnoc (front : Bytes) (b : UInt8) :
    readBE (front ++ [b]) = readBE front * 256 + b.toNat := by
  simp [readBE]

theorem readMod (width value : Nat) : readBE (be width value) = value % 256 ^ width := by
  induction width generalizing value with
  | zero => simp [be, readBE, Nat.mod_one]
  | succ width ih =>
    have split : value % 256 ^ (width + 1) = value % 256 + 256 * (value / 256 % 256 ^ width) := by
      rw [Nat.pow_succ', Nat.mod_mul]
    simp only [be, readSnoc, ih, split, UInt8.toNat_ofNat']
    omega

theorem readBe {width value : Nat} (bound : value < 256 ^ width) :
    readBE (be width value) = value := by
  rw [readMod, Nat.mod_eq_of_lt bound]

theorem readBound (raw : Bytes) : readBE raw < 256 ^ raw.length := by
  induction raw using List.reverseRecOn with
  | nil => simp [readBE]
  | append_singleton front b ih =>
    have hb : b.toNat < 256 := b.toNat_lt
    rw [readSnoc, List.length_append, List.length_singleton, Nat.pow_succ]
    omega

theorem beRead (raw : Bytes) : be raw.length (readBE raw) = raw := by
  induction raw using List.reverseRecOn with
  | nil => rfl
  | append_singleton front b ih =>
    have hb : b.toNat < 256 := b.toNat_lt
    have high : (readBE front * 256 + b.toNat) / 256 = readBE front := by omega
    have low : (readBE front * 256 + b.toNat) % 256 = b.toNat := by omega
    rw [List.length_append, List.length_singleton, be, readSnoc, high, low, ih]
    simp

def field (start width : Nat) (raw : Bytes) : Bytes := (raw.drop start).take width

theorem fieldLength {start width : Nat} {raw : Bytes} (inside : start + width ≤ raw.length) :
    (field start width raw).length = width := by
  simp [field]
  omega

theorem fieldAt (front middle back : Bytes) {start width : Nat} (before : front.length = start)
    (size : middle.length = width) : field start width (front ++ (middle ++ back)) = middle := by
  rw [field, List.drop_left' before, List.take_left' size]

theorem fieldFront (front back : Bytes) {width : Nat} (size : front.length = width) :
    field 0 width (front ++ back) = front := fieldAt [] front back rfl size

theorem fieldEnd (front back : Bytes) {start width : Nat} (before : front.length = start)
    (size : back.length = width) : field start width (front ++ back) = back := by
  simpa using fieldAt front back [] before size

theorem fieldWithin {start width outer : Nat} (inside : start + width ≤ outer) (raw : Bytes) :
    field start width (field 0 outer raw) = field start width raw := by
  have room : width ≤ outer - start := by omega
  rw [field, field, List.drop_zero, List.drop_take, List.take_take, Nat.min_eq_left room, field]

theorem fieldCut (start width next : Nat) (raw : Bytes) :
    field start (width + next) raw = field start width raw ++ field (start + width) next raw := by
  simp [field, List.take_add, List.drop_drop]

theorem fieldTiles (width count : Nat) (raw : Bytes) :
    (List.range count).flatMap (fun i => field (i * width) width raw) = field 0 (count * width) raw := by
  induction count with
  | zero => simp [field]
  | succ count ih =>
    rw [List.range_succ, List.flatMap_append, ih, Nat.succ_mul, fieldCut, Nat.zero_add]
    simp

theorem fieldWhole {width : Nat} {raw : Bytes} (long : raw.length ≤ width) : field 0 width raw = raw :=
  List.take_of_length_le long

def padded (width : Nat) (raw : Bytes) : Bytes :=
  raw.take width ++ List.replicate (width - (raw.take width).length) 0

def trimmed (raw : Bytes) : Bytes := raw.rdropWhile (· == 0)

theorem paddedLength (width : Nat) (raw : Bytes) : (padded width raw).length = width := by
  simp only [padded, List.length_append, List.length_take, List.length_replicate]
  omega

theorem trimmedFill (raw : Bytes) (count : Nat) : trimmed (raw ++ List.replicate count 0) = trimmed raw := by
  induction count with
  | zero => rw [List.replicate_zero, List.append_nil]
  | succ count ih =>
    rw [List.replicate_succ', ← List.append_assoc, trimmed, List.rdropWhile_concat_pos _ _ _ rfl, ← trimmed, ih]

theorem trimmedRest (raw : Bytes) :
    ∃ zeros, raw = trimmed raw ++ List.replicate zeros 0 := by
  induction raw using List.reverseRecOn with
  | nil => exact ⟨0, rfl⟩
  | append_singleton front b ih =>
    by_cases zero : b = 0
    · obtain ⟨zeros, whole⟩ := ih
      refine ⟨zeros + 1, ?_⟩
      subst zero
      rw [trimmed, List.rdropWhile_concat_pos _ _ _ rfl, ← trimmed, List.replicate_succ', ← List.append_assoc, ← whole]
    · refine ⟨0, ?_⟩
      rw [trimmed, List.rdropWhile_concat_neg _ _ _ (by simpa using zero)]
      simp

theorem paddedTrimmed (width : Nat) (raw : Bytes) : padded width raw =
    trimmed (raw.take width) ++ List.replicate (width - (trimmed (raw.take width)).length) 0 := by
  obtain ⟨zeros, whole⟩ := trimmedRest (raw.take width)
  have short : (trimmed (raw.take width)).length + zeros ≤ width := by
    have cut := List.length_take_le width raw
    rw [whole] at cut
    simpa using cut
  have count : width - (trimmed (raw.take width)).length =
      zeros + (width - ((trimmed (raw.take width)).length + zeros)) := by omega
  calc padded width raw
      = raw.take width ++ List.replicate (width - (raw.take width).length) 0 := rfl
    _ = trimmed (raw.take width) ++ List.replicate zeros 0 ++
          List.replicate (width - ((trimmed (raw.take width)).length + zeros)) 0 := by
        rw [← whole]
        congr 3
        rw [congrArg List.length whole, List.length_append, List.length_replicate]
    _ = trimmed (raw.take width) ++ List.replicate (width - (trimmed (raw.take width)).length) 0 := by
        rw [List.append_assoc, List.replicate_append_replicate, ← count]

theorem paddedSame {width : Nat} {a b : Bytes} :
    padded width a = padded width b ↔ trimmed (a.take width) = trimmed (b.take width) := by
  constructor
  · intro same
    have cut := congrArg trimmed same
    rwa [padded, padded, trimmedFill, trimmedFill] at cut
  · intro same
    rw [paddedTrimmed, paddedTrimmed, same]

def clear (word mask : Nat) : Nat := word ^^^ (word &&& mask)

theorem clearBit (word mask i : Nat) :
    (clear word mask).testBit i = (word.testBit i && !mask.testBit i) := by
  simp only [clear, Nat.testBit_xor, Nat.testBit_and]
  cases word.testBit i <;> cases mask.testBit i <;> rfl

theorem maskZero {word mask : Nat} :
    word &&& mask = 0 ↔ ∀ i, (word.testBit i && mask.testBit i) = false := by
  constructor
  · intro h i
    rw [← Nat.testBit_and, h, Nat.zero_testBit]
  · intro h
    apply Nat.eq_of_testBit_eq
    intro i
    rw [Nat.testBit_and, h, Nat.zero_testBit]

theorem clearOfZero {word mask : Nat} (unset : word &&& mask = 0) : clear word mask = word := by
  simp [clear, unset]

theorem clearOr {word mask : Nat} (unset : word &&& mask = 0) : clear (word ||| mask) mask = word := by
  apply Nat.eq_of_testBit_eq
  intro i
  have bit := maskZero.mp unset i
  rw [clearBit, Nat.testBit_or]
  cases h : word.testBit i <;> cases k : mask.testBit i <;> simp_all

theorem clearLe (word mask : Nat) : clear word mask ≤ word := by
  apply Nat.le_of_testBit
  intro i h
  rw [clearBit] at h
  exact (Bool.and_eq_true _ _ ▸ h).1

theorem clearApart {word mask other : Nat} (apart : mask &&& other = 0) :
    clear word mask &&& other = word &&& other := by
  apply Nat.eq_of_testBit_eq
  intro i
  have bit := maskZero.mp apart i
  rw [Nat.testBit_and, Nat.testBit_and, clearBit]
  cases h : mask.testBit i <;> cases k : other.testBit i <;> simp_all

theorem orApart {word mask other : Nat} (apart : mask &&& other = 0) :
    (word ||| mask) &&& other = word &&& other := by
  rw [Nat.and_or_distrib_right, apart, Nat.or_zero]

theorem orSet {word mask : Nat} (real : mask ≠ 0) : (word ||| mask) &&& mask ≠ 0 := by
  intro h
  apply real
  rw [← h, Nat.and_or_distrib_right, Nat.and_self]
  exact (Nat.eq_of_testBit_eq fun i => by
    rw [Nat.testBit_or, Nat.testBit_and]
    cases word.testBit i <;> cases mask.testBit i <;> rfl)

def crcBit (c : Nat) : Nat := if c % 2 = 1 then (c / 2) ^^^ 0xEDB88320 else c / 2

def crcByte (c : Nat) (b : UInt8) : Nat := crcBit^[8] (c ^^^ b.toNat)

def crc32 (raw : Bytes) : Nat := (raw.foldl crcByte 0xFFFFFFFF) ^^^ 0xFFFFFFFF

example : crc32 [0x31, 0x32, 0x33, 0x34, 0x35, 0x36, 0x37, 0x38, 0x39] = 0xCBF43926 := by
  decide +kernel

theorem crcBitBound {c : Nat} (h : c < 2 ^ 32) : crcBit c < 2 ^ 32 := by
  unfold crcBit
  split
  · exact Nat.xor_lt_two_pow (by omega) (by decide)
  · omega

theorem crcIterateBound (n : Nat) {c : Nat} (h : c < 2 ^ 32) : crcBit^[n] c < 2 ^ 32 := by
  induction n generalizing c with
  | zero => exact h
  | succ n ih => exact ih (crcBitBound h)

theorem crcFoldBound (raw : Bytes) {c : Nat} (h : c < 2 ^ 32) : raw.foldl crcByte c < 2 ^ 32 := by
  induction raw generalizing c with
  | nil => exact h
  | cons b rest ih =>
    have wide : b.toNat < 2 ^ 32 := Nat.lt_trans b.toNat_lt (by decide)
    exact ih (crcIterateBound 8 (Nat.xor_lt_two_pow h wide))

theorem crcBound (raw : Bytes) : crc32 raw < 2 ^ 32 :=
  Nat.xor_lt_two_pow (crcFoldBound raw (by decide)) (by decide)

end Vynkor.Octets
