import Mathlib.Data.List.Basic
import Vynkor.Library.Octets

/-! Python text. A `str` is a list of code points; a lone surrogate, here its offset from
U+D800, is a legal element that strict UTF-8 refuses, so `str.encode` is partial. -/
namespace Vynkor.Text
open Octets (Bytes)

inductive CodePoint where
  | scalar (c : Char)
  | surrogate (offset : Fin 2048)
  deriving DecidableEq, Repr

abbrev Str := List CodePoint

def lit (s : String) : Str := s.toList.map .scalar

def ascii (s : String) : Bytes := s.toList.map (fun c => UInt8.ofNat c.toNat)

def encode : Str → Option Bytes
  | [] => some []
  | .scalar c :: rest => (encode rest).map (String.utf8EncodeChar c ++ ·)
  | .surrogate _ :: _ => none

def Encodable (s : Str) : Prop := ∀ c ∈ s, ∃ u, c = .scalar u

theorem encodeDefined (s : Str) : (encode s).isSome ↔ Encodable s := by
  induction s with
  | nil => simp [encode, Encodable]
  | cons c rest ih =>
    cases c with
    | scalar u => simpa [encode, Encodable] using ih
    | surrogate o => simp [encode, Encodable]

instance (s : Str) : Decidable (Encodable s) := decidable_of_iff _ (encodeDefined s)

theorem encodeUndefined (s : Str) : encode s = none ↔ ¬ Encodable s := by
  rw [← encodeDefined]
  cases encode s <;> simp

theorem encodeInjective {s t : Str} {raw : Bytes} (hs : encode s = some raw) (ht : encode t = some raw) : s = t := by
  induction s generalizing t raw with
  | nil =>
    cases hs
    cases t with
    | nil => rfl
    | cons c rest =>
      cases c with
      | scalar u =>
        obtain ⟨tail, -, empty⟩ := Option.map_eq_some_iff.mp ht
        exact absurd (List.append_eq_nil_iff.mp empty).1 String.utf8EncodeChar_ne_nil
      | surrogate o => contradiction
  | cons c rest ih =>
    cases c with
    | surrogate o => contradiction
    | scalar u =>
      obtain ⟨tail, defined, rfl⟩ := Option.map_eq_some_iff.mp hs
      cases t with
      | nil =>
        have empty := Option.some.inj ht
        exact absurd (List.append_eq_nil_iff.mp empty.symm).1 String.utf8EncodeChar_ne_nil
      | cons c' rest' =>
        cases c' with
        | surrogate o => contradiction
        | scalar v =>
          obtain ⟨tail', defined', same⟩ := Option.map_eq_some_iff.mp ht
          have heads := congrArg (fun raw : Bytes => raw.toByteArray.utf8DecodeChar? 0) same
          simp only [List.toByteArray_append, ByteArray.utf8DecodeChar?_utf8EncodeChar_append, Option.some.injEq] at heads
          subst heads
          rw [List.append_cancel_left same] at defined'
          rw [ih defined defined']

theorem scalarsEncodable (cs : List Char) : Encodable (cs.map .scalar) := by
  intro c member
  obtain ⟨u, -, rfl⟩ := List.mem_map.mp member
  exact ⟨u, rfl⟩

theorem litEncodable (s : String) : Encodable (lit s) := scalarsEncodable s.toList

theorem encodableAppend {s t : Str} : Encodable (s ++ t) ↔ Encodable s ∧ Encodable t := by
  simp only [Encodable, List.mem_append, or_imp, forall_and]

theorem encodableIntercalate {s : Str} (sep : Encodable s) (texts : List Str) :
    Encodable (s.intercalate texts) ↔ ∀ t ∈ texts, Encodable t := by
  induction texts with
  | nil => simp [List.intercalate, Encodable]
  | cons first rest ih =>
    cases rest with
    | nil => simp [List.intercalate]
    | cons second rest =>
      have step : s.intercalate (first :: second :: rest) = first ++ (s ++ s.intercalate (second :: rest)) := by
        simp [List.intercalate]
      simp only [step, encodableAppend, ih, List.forall_mem_cons, sep, true_and]

def decimal (n : Nat) : Str := (Nat.toDigits 10 n).map .scalar

def intDigits : Int → List Char
  | .ofNat n => Nat.toDigits 10 n
  | .negSucc n => '-' :: Nat.toDigits 10 (n + 1)

def decimalInt (n : Int) : Str := (intDigits n).map .scalar

theorem decimalInjective {a b : Nat} (same : decimal a = decimal b) : a = b := by
  have digits : Nat.toDigits 10 a = Nat.toDigits 10 b :=
    List.map_injective_iff.mpr (fun _ _ h => CodePoint.scalar.inj h) same
  rw [← Nat.ofDigitChars_ten_toDigits (n := a), digits, Nat.ofDigitChars_ten_toDigits]

theorem decimalNoDash (n : Nat) : CodePoint.scalar '-' ∉ decimal n := by
  intro member
  obtain ⟨c, digit, same⟩ := List.mem_map.mp member
  cases CodePoint.scalar.inj same
  have := Nat.isDigit_of_mem_toDigits (by decide) (by decide) digit
  contradiction

theorem frontUnique {α : Type} {mark : α} {x y x' y' : List α} (hx : mark ∉ x) (hx' : mark ∉ x')
    (same : x ++ mark :: y = x' ++ mark :: y') : x = x' := by
  induction x generalizing x' with
  | nil =>
    cases x' with
    | nil => rfl
    | cons c rest => simp_all
  | cons c rest ih =>
    cases x' with
    | nil => simp_all
    | cons c' rest' =>
      obtain ⟨head, tail⟩ := List.cons.inj same
      rw [head, ih (fun m => hx (.tail _ m)) (fun m => hx' (.tail _ m)) tail]

theorem lastPartInjective {front front' : Str} {a b : Nat}
    (same : front ++ .scalar '-' :: decimal a = front' ++ .scalar '-' :: decimal b) : a = b := by
  have parts := congrArg List.reverse same
  simp only [List.reverse_append, List.reverse_cons, List.append_assoc, List.singleton_append] at parts
  have ha : CodePoint.scalar '-' ∉ (decimal a).reverse := by simpa using decimalNoDash a
  have hb : CodePoint.scalar '-' ∉ (decimal b).reverse := by simpa using decimalNoDash b
  exact decimalInjective (List.reverse_injective (frontUnique ha hb parts))

end Vynkor.Text
