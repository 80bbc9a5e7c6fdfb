import Mathlib.Data.List.Basic
import Vynkor.Json

/-! `json.dumps` of whole values and `json.loads` of texts, as the `json` module documents
them, and how the escapes of a text are read back. A float is known by its `repr`. -/
namespace Vynkor.Json
open Text

def quoted (s : Str) : Str := (quote s).map .scalar

def floatText (repr : Str) : Str :=
  if repr = lit "nan" then lit "NaN"
  else if repr = lit "inf" then lit "Infinity"
  else if repr = lit "-inf" then lit "-Infinity"
  else repr

mutual

def text : Value → Str
  | .null => lit "null"
  | .bool true => lit "true"
  | .bool false => lit "false"
  | .int n => decimalInt n
  | .float repr => floatText repr
  | .str s => quoted s
  | .list items => .scalar '[' :: (itemTexts items ++ [.scalar ']'])
  | .dict members => .scalar '\x7b' :: (memberTexts members ++ [.scalar '\x7d'])

def itemTexts : List Value → Str
  | [] => []
  | v :: rest => text v ++ laterItems rest

def laterItems : List Value → Str
  | [] => []
  | v :: rest => .scalar ',' :: .scalar ' ' :: (text v ++ laterItems rest)

def memberTexts : List (Str × Value) → Str
  | [] => []
  | m :: rest => memberText m ++ laterMembers rest

def laterMembers : List (Str × Value) → Str
  | [] => []
  | m :: rest => .scalar ',' :: .scalar ' ' :: (memberText m ++ laterMembers rest)

def memberText : Str × Value → Str
  | (key, v) => quoted key ++ .scalar ':' :: .scalar ' ' :: text v

end

inductive Piece where
  | point (c : CodePoint)
  | escape (n : Nat)
  deriving DecidableEq, Repr

def hexValue (c : Char) : Option Nat :=
  if '0' ≤ c ∧ c ≤ '9' then some (c.toNat - 48)
  else if 'a' ≤ c ∧ c ≤ 'f' then some (c.toNat - 87)
  else if 'A' ≤ c ∧ c ≤ 'F' then some (c.toNat - 55)
  else none

def hex4 (a b c d : Char) : Option Nat := do
  let a ← hexValue a
  let b ← hexValue b
  let c ← hexValue c
  let d ← hexValue d
  return ((a * 16 + b) * 16 + c) * 16 + d

def escaped (c : Char) : Option Char :=
  if c = '\x22' ∨ c = '\x5c' ∨ c = '/' then some c
  else if c = 'b' then some '\x08'
  else if c = 'f' then some '\x0c'
  else if c = 'n' then some '\n'
  else if c = 'r' then some '\r'
  else if c = 't' then some '\t'
  else none

def scan : Str → Option (List Piece × Str)
  | [] => none
  | .surrogate o :: rest => (scan rest).map fun r => (.point (.surrogate o) :: r.1, r.2)
  | .scalar c :: rest =>
    if c = '\x22' then some ([], rest)
    else if c = '\x5c' then
      match rest with
      | .scalar e :: rest =>
        if e = 'u' then
          match rest with
          | .scalar a :: .scalar b :: .scalar c :: .scalar d :: rest =>
            match hex4 a b c d with
            | some n => (scan rest).map fun r => (.escape n :: r.1, r.2)
            | none => none
          | _ => none
        else
          match escaped e with
          | some c => (scan rest).map fun r => (.point (.scalar c) :: r.1, r.2)
          | none => none
      | _ => none
    else if c.toNat < 0x20 then none
    else (scan rest).map fun r => (.point (.scalar c) :: r.1, r.2)

def high (n : Nat) : Bool := decide (0xD800 ≤ n ∧ n ≤ 0xDBFF)
def low (n : Nat) : Bool := decide (0xDC00 ≤ n ∧ n ≤ 0xDFFF)

def pointAt (n : Nat) : CodePoint :=
  if h : 0xD800 ≤ n ∧ n ≤ 0xDFFF then .surrogate ⟨n - 0xD800, by omega⟩ else .scalar (Char.ofNat n)

def join : List Piece → Str
  | [] => []
  | .point c :: rest => c :: join rest
  | .escape n :: .escape m :: rest =>
    if high n && low m then .scalar (Char.ofNat (0x10000 + ((n - 0xD800) * 0x400 + (m - 0xDC00)))) :: join rest
    else pointAt n :: join (.escape m :: rest)
  | .escape n :: rest => pointAt n :: join rest

def scanString (s : Str) : Option (Str × Str) := (scan s).map fun r => (join r.1, r.2)

def isDigit : CodePoint → Bool
  | .scalar c => c.isDigit
  | .surrogate _ => false

def integerPart (s : Str) : Option (Str × Str) :=
  match s with
  | .scalar '0' :: rest => some ([.scalar '0'], rest)
  | _ => if s.takeWhile isDigit = [] then none else some (s.takeWhile isDigit, s.dropWhile isDigit)

def signedPart (s : Str) : Option (Str × Str) :=
  match s with
  | .scalar '-' :: rest => (integerPart rest).map fun r => (.scalar '-' :: r.1, r.2)
  | _ => integerPart s

def fraction (s : Str) : Str × Str :=
  match s with
  | .scalar '.' :: rest =>
    if rest.takeWhile isDigit = [] then ([], s) else (.scalar '.' :: rest.takeWhile isDigit, rest.dropWhile isDigit)
  | _ => ([], s)

def exponentSign (s : Str) : Str × Str :=
  match s with
  | .scalar '+' :: rest => ([.scalar '+'], rest)
  | .scalar '-' :: rest => ([.scalar '-'], rest)
  | _ => ([], s)

def exponent (s : Str) : Str × Str :=
  match s with
  | .scalar e :: rest =>
    let (sign, rest) := exponentSign rest
    if (e = 'e' ∨ e = 'E') ∧ rest.takeWhile isDigit ≠ [] then
      (.scalar e :: (sign ++ rest.takeWhile isDigit), rest.dropWhile isDigit)
    else ([], s)
  | _ => ([], s)

def charsOf (s : Str) : List Char := s.filterMap fun
  | .scalar c => some c
  | .surrogate _ => none

def intOf : Str → Int
  | .scalar '-' :: rest => -(Nat.ofDigitChars 10 (charsOf rest) 0 : Nat)
  | s => (Nat.ofDigitChars 10 (charsOf s) 0 : Nat)

def maxStrDigits : Nat := 4300

section Reader
variable (floatRepr : Str → Str)

/- `floatRepr` is `repr(float(text))`; `int` refuses a text of more digits than its limit.
-/
def readNumber (s : Str) : Option (Value × Str) := do
  let (whole, rest) ← signedPart s
  let (frac, rest) := fraction rest
  let (exp, rest) := exponent rest
  if frac = [] ∧ exp = [] then
    if (whole.filter isDigit).length ≤ maxStrDigits then some (.int (intOf whole), rest) else none
  else some (.float (floatRepr (whole ++ frac ++ exp)), rest)

def blank (c : CodePoint) : Bool := c = .scalar ' ' || c = .scalar '\t' || c = .scalar '\n' || c = .scalar '\r'

def skip (s : Str) : Str := s.dropWhile blank

def words : List (Str × Value) :=
  [(lit "null", .null), (lit "true", .bool true), (lit "false", .bool false), (lit "NaN", .float (lit "nan")),
    (lit "Infinity", .float (lit "inf")), (lit "-Infinity", .float (lit "-inf"))]

def readWord (s : Str) : Option (Value × Str) :=
  (words.find? fun w => w.1.isPrefixOf s).map fun w => (w.2, s.drop w.1.length)

def setItem (members : List (Str × Value)) (m : Str × Value) : List (Str × Value) :=
  if members.any (fun old => old.1 == m.1) then members.map fun old => if old.1 == m.1 then m else old
  else members ++ [m]

def dictOf (members : List (Str × Value)) : Value := .dict (members.foldl setItem [])

mutual

def readValue : Nat → Str → Option (Value × Str)
  | 0, _ => none
  | fuel + 1, s =>
    match s with
    | .scalar '\x22' :: rest => (scanString rest).map fun r => (.str r.1, r.2)
    | .scalar '[' :: rest =>
      match skip rest with
      | .scalar ']' :: rest => some (.list [], rest)
      | rest => (readItems fuel rest).map fun r => (.list r.1, r.2)
    | .scalar '\x7b' :: rest =>
      match skip rest with
      | .scalar '\x7d' :: rest => some (.dict [], rest)
      | rest => (readMembers fuel rest).map fun r => (dictOf r.1, r.2)
    | _ =>
      match readWord s with
      | some found => some found
      | none => readNumber floatRepr s

def readItems : Nat → Str → Option (List Value × Str)
  | 0, _ => none
  | fuel + 1, s => do
    let (v, rest) ← readValue fuel s
    match skip rest with
    | .scalar ']' :: rest => some ([v], rest)
    | .scalar ',' :: rest => (readItems fuel (skip rest)).map fun r => (v :: r.1, r.2)
    | _ => none

def readMembers : Nat → Str → Option (List (Str × Value) × Str)
  | 0, _ => none
  | fuel + 1, s => do
    let (m, rest) ← readMember fuel s
    match skip rest with
    | .scalar '\x7d' :: rest => some ([m], rest)
    | .scalar ',' :: rest => (readMembers fuel (skip rest)).map fun r => (m :: r.1, r.2)
    | _ => none

def readMember : Nat → Str → Option ((Str × Value) × Str)
  | 0, _ => none
  | fuel + 1, s =>
    match s with
    | .scalar '\x22' :: rest => do
      let (key, rest) ← scanString rest
      match skip rest with
      | .scalar ':' :: rest => (readValue fuel (skip rest)).map fun r => ((key, r.1), r.2)
      | _ => none
    | _ => none

end

def loads (s : Str) : Option Value :=
  match readValue floatRepr (3 * s.length + 1) (skip s) with
  | some (v, rest) => if skip rest = [] then some v else none
  | none => none

end Reader

def pieces (c : CodePoint) : List Piece :=
  let n := code c
  if n = 0x22 ∨ n = 0x5C ∨ n = 0x0A ∨ n = 0x0D ∨ n = 0x09 ∨ n = 0x0C ∨ n = 0x08 ∨ (0x20 ≤ n ∧ n ≤ 0x7E) then [.point c]
  else if n < 0x10000 then [.escape n]
  else [.escape (0xD800 + (n - 0x10000) / 0x400), .escape (0xDC00 + (n - 0x10000) % 0x400)]

def splits (c : CodePoint) (rest : Str) : Bool :=
  high (code c) && match rest with
    | d :: _ => low (code d)
    | [] => false

def unsplit : Str → Bool
  | [] => true
  | c :: rest => !splits c rest && unsplit rest

section Escapes

theorem digitHex : ∀ d < 16, hexValue (Nat.digitChar d) = some d := by decide

theorem hexDigits {n : Nat} (small : n < 0x10000) : ∃ a b c d, hexEscape n = ['\x5c', 'u', a, b, c, d] ∧ hex4 a b c d = some n := by
  have digit {d : Nat} (small : d < 16) : Nat.toDigits 16 d = [Nat.digitChar d] := Nat.toDigits_of_lt_base small
  have more {m : Nat} (large : 16 ≤ m) : Nat.toDigits 16 m = Nat.toDigits 16 (m / 16) ++ [Nat.digitChar (m % 16)] :=
    Nat.toDigits_of_base_le (by decide) large
  have zero : Nat.digitChar 0 = '0' := rfl
  refine ⟨Nat.digitChar (n / 4096), Nat.digitChar (n / 256 % 16), Nat.digitChar (n / 16 % 16), Nat.digitChar (n % 16), ?_, ?_⟩
  · have front : "\\u".toList = ['\x5c', 'u'] := by decide +kernel
    unfold hexEscape
    rw [front]
    by_cases one : n < 16
    · have h : n / 4096 = 0 ∧ n / 256 % 16 = 0 ∧ n / 16 % 16 = 0 ∧ n % 16 = n := by omega
      simp [digit one, h, List.replicate]
    · by_cases two : n < 256
      · have h : n / 4096 = 0 ∧ n / 256 % 16 = 0 ∧ n / 16 % 16 = n / 16 := by omega
        simp [more (show 16 ≤ n by omega), digit (show n / 16 < 16 by omega), h, List.replicate]
      · have twice : n / 16 / 16 = n / 256 := by omega
        by_cases three : n < 4096
        · have h : n / 4096 = 0 ∧ n / 256 % 16 = n / 256 := by omega
          simp [more (show 16 ≤ n by omega), more (show 16 ≤ n / 16 by omega), twice,
            digit (show n / 256 < 16 by omega), h]
        · have thrice : n / 256 / 16 = n / 4096 := by omega
          simp [more (show 16 ≤ n by omega), more (show 16 ≤ n / 16 by omega), twice, more (show 16 ≤ n / 256 by omega), thrice,
            digit (show n / 4096 < 16 by omega)]
  · simp only [hex4, digitHex _ (show n / 4096 < 16 by omega), digitHex _ (show n / 256 % 16 < 16 by omega),
      digitHex _ (show n / 16 % 16 < 16 by omega), digitHex _ (show n % 16 < 16 by omega), bind, Option.bind, pure,
      Option.some.injEq]
    omega

theorem scanEscape {n : Nat} (small : n < 0x10000) (rest : Str) :
    scan ((hexEscape n).map .scalar ++ rest) = (scan rest).map fun r => (.escape n :: r.1, r.2) := by
  obtain ⟨a, b, c, d, text, value⟩ := hexDigits small
  simp [text, scan, value]

theorem scanNamed {e c : Char} (name : escaped e = some c) (other : e ≠ 'u') (rest : Str) :
    scan (.scalar '\x5c' :: .scalar e :: rest) = (scan rest).map fun r => (.point (.scalar c) :: r.1, r.2) := by
  rw [scan.eq_def]
  simp [name, other]

theorem scanPlain {c : Char} (quote : c ≠ '\x22') (backslash : c ≠ '\x5c') (printable : ¬ c.toNat < 0x20) (rest : Str) :
    scan (.scalar c :: rest) = (scan rest).map fun r => (.point (.scalar c) :: r.1, r.2) := by
  rw [scan.eq_def]
  simp only [quote, backslash, printable, if_false]

theorem codeScalar {c : CodePoint} {n : Nat} (same : code c = n) (below : n < 0xD800) : c = .scalar (Char.ofNat n) := by
  cases c with
  | scalar u =>
    rw [← same, code, Char.ofNat_toNat]
  | surrogate offset =>
    simp only [code] at same
    omega

theorem codeChar {n : Nat} (below : n < 0xD800) : (Char.ofNat n).toNat = n := by
  have valid : n.isValidChar := .inl below
  have made : Char.ofNat n = Char.ofNatAux n valid := dif_pos valid
  rw [made]
  rfl

theorem scanPieces (c : CodePoint) (rest : Str) :
    scan ((escape c).map .scalar ++ rest) = (scan rest).map fun r => (pieces c ++ r.1, r.2) := by
  have named {n : Nat} (e : Char) (here : code c = n) (below : n < 0xD800) (name : escaped e = some (Char.ofNat n))
      (other : e ≠ 'u') (text : escape c = ['\x5c', e]) (piece : pieces c = [.point c]) :
      scan ((escape c).map .scalar ++ rest) = (scan rest).map fun r => (pieces c ++ r.1, r.2) := by
    rw [text, piece, codeScalar here below]
    exact scanNamed name other rest
  by_cases h : code c = 0x22
  · exact named '\x22' h (by decide) rfl (by decide) (by simp [escape, h]) (by simp [pieces, h])
  by_cases h1 : code c = 0x5C
  · exact named '\x5c' h1 (by decide) rfl (by decide) (by simp [escape, h1]) (by simp [pieces, h1])
  by_cases h2 : code c = 0x0A
  · exact named 'n' h2 (by decide) rfl (by decide) (by simp [escape, h2]) (by simp [pieces, h2])
  by_cases h3 : code c = 0x0D
  · exact named 'r' h3 (by decide) rfl (by decide) (by simp [escape, h3]) (by simp [pieces, h3])
  by_cases h4 : code c = 0x09
  · exact named 't' h4 (by decide) rfl (by decide) (by simp [escape, h4]) (by simp [pieces, h4])
  by_cases h5 : code c = 0x0C
  · exact named 'f' h5 (by decide) rfl (by decide) (by simp [escape, h5]) (by simp [pieces, h5])
  by_cases h6 : code c = 0x08
  · exact named 'b' h6 (by decide) rfl (by decide) (by simp [escape, h6]) (by simp [pieces, h6])
  by_cases printable : 0x20 ≤ code c ∧ code c ≤ 0x7E
  · have char := codeScalar (c := c) rfl (by omega)
    have back : (Char.ofNat (code c)).toNat = code c := codeChar (by omega)
    have text : escape c = [Char.ofNat (code c)] := by simp [escape, h, h1, h2, h3, h4, h5, h6, printable]
    have piece : pieces c = [.point (.scalar (Char.ofNat (code c)))] := by simp [pieces, printable, ← char]
    rw [text, piece]
    refine scanPlain ?_ ?_ (by omega) rest
    · intro same
      rw [same] at back
      exact h back.symm
    · intro same
      rw [same] at back
      exact h1 back.symm
  by_cases small : code c < 0x10000
  · have text : escape c = hexEscape (code c) := by simp [escape, h, h1, h2, h3, h4, h5, h6, printable, small]
    have piece : pieces c = [.escape (code c)] := by simp [pieces, h, h1, h2, h3, h4, h5, h6, printable, small]
    rw [text, piece]
    exact scanEscape small rest
  · have bound : code c < 0x110000 := by
      cases c with
      | scalar u =>
        have valid := u.valid
        simp only [code, Char.toNat, UInt32.isValidChar, Nat.isValidChar] at valid ⊢
        omega
      | surrogate offset =>
        have := offset.isLt
        simp only [code]
        omega
    have text : escape c = hexEscape (0xD800 + (code c - 0x10000) / 0x400) ++ hexEscape (0xDC00 + (code c - 0x10000) % 0x400) := by
      simp [escape, h, h1, h2, h3, h4, h5, h6, printable, small]
    have piece : pieces c =
        [.escape (0xD800 + (code c - 0x10000) / 0x400), .escape (0xDC00 + (code c - 0x10000) % 0x400)] := by
      simp [pieces, h, h1, h2, h3, h4, h5, h6, printable, small]
    rw [text, piece, List.map_append, List.append_assoc, scanEscape (by omega), scanEscape (by omega), Option.map_map]
    rfl

theorem scanQuoted (s rest : Str) :
    scan ((s.flatMap escape).map .scalar ++ .scalar '\x22' :: rest) = some (s.flatMap pieces, rest) := by
  induction s with
  | nil => simp [scan.eq_def]
  | cons c later ih =>
    rw [List.flatMap_cons, List.map_append, List.append_assoc, scanPieces, ih, List.flatMap_cons]
    rfl

theorem joinLow {n : Nat} {rest : List Piece} (single : high n = false) :
    join (.escape n :: rest) = pointAt n :: join rest := by
  cases rest with
  | nil => rfl
  | cons p later => cases p <;> simp [join, single]

theorem joinApart {n : Nat} {rest : List Piece} (apart : ∀ m later, rest = .escape m :: later → low m = false) :
    join (.escape n :: rest) = pointAt n :: join rest := by
  cases rest with
  | nil => rfl
  | cons p later =>
    cases p with
    | point c => rfl
    | escape m => simp [join, apart m later rfl]

theorem scalarRange (u : Char) : u.toNat < 0xD800 ∨ (0xDFFF < u.toNat ∧ u.toNat < 0x110000) := u.valid

theorem pointCode {c : CodePoint} (small : code c < 0x10000) : pointAt (code c) = c := by
  cases c with
  | scalar u =>
    have range := scalarRange u
    have outside : ¬ (0xD800 ≤ u.toNat ∧ u.toNat ≤ 0xDFFF) := by omega
    exact (dif_neg outside).trans (congrArg CodePoint.scalar (Char.ofNat_toNat u))
  | surrogate offset =>
    have inside : 0xD800 ≤ 0xD800 + offset.val ∧ 0xD800 + offset.val ≤ 0xDFFF := by have := offset.isLt; omega
    exact (dif_pos inside).trans (congrArg CodePoint.surrogate (Fin.ext (Nat.add_sub_cancel_left ..)))

inductive Apart (c : CodePoint) : Prop where
  | point (piece : pieces c = [.point c]) (plain : high (code c) = false) (notLow : low (code c) = false)
  | escape (piece : pieces c = [.escape (code c)]) (small : code c < 0x10000)
  | pair {n m : Nat} (piece : pieces c = [.escape n, .escape m]) (first : high n = true) (second : low m = true)
      (whole : .scalar (Char.ofNat (0x10000 + ((n - 0xD800) * 0x400 + (m - 0xDC00)))) = c) (plain : high (code c) = false)
      (notLow : low (code c) = false)

theorem apart (c : CodePoint) : Apart c := by
  by_cases named : code c = 0x22 ∨ code c = 0x5C ∨ code c = 0x0A ∨ code c = 0x0D ∨ code c = 0x09 ∨ code c = 0x0C ∨
      code c = 0x08 ∨ (0x20 ≤ code c ∧ code c ≤ 0x7E)
  · have below : code c < 0x80 := by omega
    exact .point (by simp only [pieces, if_pos named]) (decide_eq_false (by omega)) (decide_eq_false (by omega))
  by_cases small : code c < 0x10000
  · exact .escape (by simp only [pieces, if_neg named, if_pos small]) small
  · cases c with
    | surrogate offset =>
      have := offset.isLt
      simp only [code] at small
      omega
    | scalar u =>
      have range := scalarRange u
      have large : 0x10000 ≤ u.toNat := Nat.le_of_not_lt small
      have plain : ¬ u.toNat ≤ 0xDFFF := by omega
      refine .pair (n := 0xD800 + (u.toNat - 0x10000) / 0x400) (m := 0xDC00 + (u.toNat - 0x10000) % 0x400) ?_
        (decide_eq_true (by omega)) (decide_eq_true (by omega)) ?_ (decide_eq_false fun inside => plain (inside.2.trans (by decide)))
        (decide_eq_false fun inside => plain inside.2)
      · simp only [pieces, if_neg named, if_neg small]
        rfl
      · have sum : 0x10000 + ((0xD800 + (u.toNat - 0x10000) / 0x400 - 0xD800) * 0x400 +
            (0xDC00 + (u.toNat - 0x10000) % 0x400 - 0xDC00)) = u.toNat := by omega
        rw [sum, Char.ofNat_toNat]

theorem joinPieces (s : Str) : join (s.flatMap pieces) = s ↔ unsplit s = true := by
  induction s with
  | nil => exact iff_of_true rfl rfl
  | cons c later ih =>
    have kept (whole : join ((c :: later).flatMap pieces) = c :: join (later.flatMap pieces)) (single : splits c later = false) :
        join ((c :: later).flatMap pieces) = c :: later ↔ unsplit (c :: later) = true := by
      rw [whole, List.cons_inj_right, ih]
      simp only [unsplit, single, Bool.not_false, Bool.true_and]
    cases apart c with
    | point piece plain _ =>
      refine kept ?_ (by simp only [splits, plain, Bool.false_and])
      rw [List.flatMap_cons, piece, List.singleton_append, join]
    | pair piece first second whole plain _ =>
      refine kept ?_ (by simp only [splits, plain, Bool.false_and])
      rw [List.flatMap_cons, piece]
      simp only [List.cons_append, List.nil_append, join, first, second, Bool.and_self, if_true, whole]
    | escape piece small =>
      have front : (c :: later).flatMap pieces = .escape (code c) :: later.flatMap pieces := by
        rw [List.flatMap_cons, piece, List.singleton_append]
      have held (single : splits c later = false)
          (next : ∀ m more, later.flatMap pieces = .escape m :: more → high (code c) = true → low m = false) :
          join ((c :: later).flatMap pieces) = c :: later ↔ unsplit (c :: later) = true := by
        have whole : join (.escape (code c) :: later.flatMap pieces) = pointAt (code c) :: join (later.flatMap pieces) := by
          cases first : high (code c) with
          | false => exact joinLow first
          | true => exact joinApart fun m more same => next m more same first
        refine kept ?_ single
        rw [front, whole, pointCode small]
      cases later with
      | nil => exact held (by simp only [splits, Bool.and_false]) nofun
      | cons d rest =>
        cases apart d with
        | point behind _ notLow =>
          refine held (by simp only [splits, notLow, Bool.and_false]) fun m more same => ?_
          rw [List.flatMap_cons, behind] at same
          cases same
        | @pair n _ behind ahead _ _ _ notLow =>
          refine held (by simp only [splits, notLow, Bool.and_false]) fun m more same _ => ?_
          rw [List.flatMap_cons, behind] at same
          cases same
          exact decide_eq_false fun inside => by have := of_decide_eq_true ahead; omega
        | escape behind _ =>
          by_cases both : high (code c) = true ∧ low (code d) = true
          ·
            have whole : splits c (d :: rest) = true := by simp only [splits, both, Bool.and_self]
            refine iff_of_false ?_ (by simp [unsplit, whole])
            rw [front, List.flatMap_cons, behind, List.singleton_append, join, both.1, both.2, Bool.and_self, if_pos rfl]
            intro same
            obtain ⟨head, -⟩ := List.cons.inj same
            have range := of_decide_eq_true both.1
            rw [← head] at range
            have outside := scalarRange (Char.ofNat (0x10000 + ((code c - 0xD800) * 0x400 + (code d - 0xDC00))))
            simp only [code] at range outside
            omega
          · refine held ?_ fun m more same first => ?_
            · rw [not_and, Bool.not_eq_true] at both
              cases first : high (code c) with
              | false => simp only [splits, first, Bool.false_and]
              | true => simp only [splits, first, both first, Bool.and_false]
            · rw [List.flatMap_cons, behind] at same
              cases same
              exact Bool.not_eq_true _ ▸ fun second => both ⟨first, second⟩

theorem scanStringQuoted (s rest : Str) (whole : unsplit s = true) :
    scanString ((s.flatMap escape).map .scalar ++ .scalar '\x22' :: rest) = some (s, rest) := by
  rw [scanString, scanQuoted, Option.map_some, (joinPieces s).mpr whole]

end Escapes

end Vynkor.Json
