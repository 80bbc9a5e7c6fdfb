import Mathlib.Data.List.Nodup
import Vynkor.JsonText

/-! `json.loads` undoes `json.dumps`: on every value without a float whose texts hold no
split surrogate pair. What the SDK dumps, a dict of texts and ints, is such a value. -/
namespace Vynkor.Json
open Text

def Ends (rest : Str) : Prop :=
  ∀ c later, rest = c :: later → isDigit c = false ∧ c ≠ .scalar '.' ∧ c ≠ .scalar 'e' ∧ c ≠ .scalar 'E'

section Numbers
variable {floatRepr : Str → Str} {rest : Str}

theorem digitNonzero : ∀ n < 10, 0 < n → Nat.digitChar n ≠ '0' := by decide

theorem leadingDigit {n : Nat} (positive : 0 < n) : ∃ d tail, Nat.toDigits 10 n = d :: tail ∧ d ≠ '0' := by
  induction n using Nat.strongRecOn with
  | ind n ih =>
    by_cases small : n < 10
    · exact ⟨Nat.digitChar n, [], Nat.toDigits_of_lt_base small, digitNonzero n small positive⟩
    · obtain ⟨d, tail, digits, leads⟩ := ih (n / 10) (by omega) (by omega)
      refine ⟨d, tail ++ [Nat.digitChar (n % 10)], ?_, leads⟩
      rw [Nat.toDigits_of_base_le (by decide) (by omega), digits, List.cons_append]

theorem decimalDigits (n : Nat) : ∀ c ∈ decimal n, isDigit c = true := by
  intro c member
  obtain ⟨d, inside, rfl⟩ := List.mem_map.mp member
  exact Nat.isDigit_of_mem_toDigits (by decide) (by decide) inside

theorem endsDigits (ends : Ends rest) : rest.takeWhile isDigit = [] ∧ rest.dropWhile isDigit = rest := by
  cases rest with
  | nil => exact ⟨rfl, rfl⟩
  | cons c later =>
    have stop := (ends c later rfl).1
    simp [stop]

theorem integerDecimal (n : Nat) (ends : Ends rest) : integerPart (decimal n ++ rest) = some (decimal n, rest) := by
  have taken : (decimal n ++ rest).takeWhile isDigit = decimal n := by
    rw [List.takeWhile_append_of_pos (decimalDigits n), (endsDigits ends).1, List.append_nil]
  have left : (decimal n ++ rest).dropWhile isDigit = rest := by
    rw [List.dropWhile_append_of_pos (decimalDigits n), (endsDigits ends).2]
  cases Nat.eq_zero_or_pos n with
  | inl zero =>
    cases zero
    rfl
  | inr positive =>
    obtain ⟨d, tail, digits, leads⟩ := leadingDigit positive
    have shape : decimal n = .scalar d :: tail.map .scalar := by rw [decimal, digits]; rfl
    unfold integerPart
    split
    · rename_i more front
      rw [shape] at front
      cases front
      exact absurd rfl leads
    · rw [taken, left, shape, if_neg (List.cons_ne_nil _ _)]

theorem decimalValue (n : Nat) : Nat.ofDigitChars 10 (charsOf (decimal n)) 0 = n := by
  have chars : charsOf (decimal n) = Nat.toDigits 10 n := by
    simp [charsOf, decimal, List.filterMap_map]
  rw [chars, Nat.ofDigitChars_ten_toDigits]

inductive Signed (n : Int) : Prop where
  | plain {m : Nat} (here : n = m) (text : decimalInt n = decimal m)
  | dash {m : Nat} (here : n = -(m : Int)) (text : decimalInt n = .scalar '-' :: decimal m)

theorem signed (n : Int) : Signed n := by
  cases n with
  | ofNat m => exact .plain rfl rfl
  | negSucc m => exact .dash (m := m + 1) (Int.negSucc_eq m) rfl

theorem decimalHead (n : Nat) : ∃ d tail, decimal n = .scalar d :: tail ∧ d.isDigit = true := by
  cases digits : Nat.toDigits 10 n with
  | nil => exact absurd digits Nat.toDigits_ne_nil
  | cons d tail =>
    refine ⟨d, tail.map .scalar, by rw [decimal, digits]; rfl, ?_⟩
    exact Nat.isDigit_of_mem_toDigits (by decide) (by decide) (digits ▸ List.mem_cons_self)

theorem signedDecimal (n : Int) (ends : Ends rest) :
    signedPart (decimalInt n ++ rest) = some (decimalInt n, rest) ∧ intOf (decimalInt n) = n := by
  cases signed n with
  | @plain m here text =>
    obtain ⟨d, tail, shape, digit⟩ := decimalHead m
    have noDash : d ≠ '-' := by
      rintro rfl
      cases digit
    rw [text]
    constructor
    · rw [← integerDecimal m ends, shape, List.cons_append, signedPart]
      rintro later same
      cases same
      exact noDash rfl
    · have value := decimalValue m
      rw [shape] at value ⊢
      rw [intOf, value, here]
      rintro later same
      cases same
      exact noDash rfl
  | @dash m here text =>
    rw [text]
    constructor
    · rw [List.cons_append, signedPart, integerDecimal m ends]
      rfl
    · rw [intOf, decimalValue, here]

theorem readInt (n : Int) (ends : Ends rest) (short : ((decimalInt n).filter isDigit).length ≤ maxStrDigits) :
    readNumber floatRepr (decimalInt n ++ rest) = some (.int n, rest) := by
  obtain ⟨part, value⟩ := signedDecimal n ends
  have noFraction : fraction rest = ([], rest) := by
    unfold fraction
    split
    · exact absurd rfl (ends _ _ rfl).2.1
    · rfl
  have noExponent : exponent rest = ([], rest) := by
    unfold exponent
    split
    · rename_i e later
      have neither : ¬ (e = 'e' ∨ e = 'E') := by
        rintro (rfl | rfl)
        · exact (ends _ _ rfl).2.2.1 rfl
        · exact (ends _ _ rfl).2.2.2 rfl
      simp only [neither, false_and, if_false]
    · rfl
  simp only [readNumber, part, noFraction, noExponent, bind, Option.bind, and_self, if_true, if_pos short, value]

end Numbers

mutual

def faithful : Value → Bool
  | .null | .bool _ => true
  | .int n => decide (((decimalInt n).filter isDigit).length ≤ maxStrDigits)
  | .float _ => false
  | .str s => unsplit s
  | .list items => faithfulItems items
  | .dict members => decide (members.map Prod.fst).Nodup && faithfulMembers members

def faithfulItems : List Value → Bool
  | [] => true
  | v :: rest => faithful v && faithfulItems rest

def faithfulMembers : List (Str × Value) → Bool
  | [] => true
  | m :: rest => faithfulMember m && faithfulMembers rest

def faithfulMember : Str × Value → Bool
  | (key, v) => unsplit key && faithful v

end

mutual

def cost : Value → Nat
  | .list items => itemsCost items + 1
  | .dict members => membersCost members + 1
  | _ => 1

def itemsCost : List Value → Nat
  | [] => 0
  | v :: rest => cost v + itemsCost rest + 1

def membersCost : List (Str × Value) → Nat
  | [] => 0
  | m :: rest => memberCost m + membersCost rest + 1

def memberCost : Str × Value → Nat
  | (_, v) => cost v + 1

end

section Values
variable {floatRepr : Str → Str} {rest : Str}

theorem dictDistinct {members : List (Str × Value)} (distinct : (members.map Prod.fst).Nodup) : dictOf members = .dict members := by
  have each (taken later : List (Str × Value)) (distinct : ((taken ++ later).map Prod.fst).Nodup) :
      later.foldl setItem taken = taken ++ later := by
    induction later generalizing taken with
    | nil => rw [List.foldl_nil, List.append_nil]
    | cons m more ih =>
      have fresh : taken.any (fun old => old.1 == m.1) = false := by
        rw [List.any_eq_false]
        intro old member same
        rw [List.map_append, List.map_cons] at distinct
        refine (List.nodup_append'.mp distinct).2.2 (List.mem_map_of_mem member) ?_
        rw [eq_of_beq same]
        exact List.mem_cons_self
      have whole : taken ++ m :: more = (taken ++ [m]) ++ more := by rw [List.append_assoc]; rfl
      rw [List.foldl_cons, setItem, fresh, whole]
      exact ih (taken ++ [m]) (whole ▸ distinct)
  exact congrArg Value.dict (each [] members distinct)

theorem textHead {v : Value} (exact : faithful v = true) :
    ∃ c tail, text v = .scalar c :: tail ∧ blank (.scalar c) = false ∧ c ≠ ']' := by
  cases v with
  | null => exact ⟨'n', _, rfl, rfl, by decide⟩
  | bool b => cases b with
    | false => exact ⟨'f', _, rfl, rfl, by decide⟩
    | true => exact ⟨'t', _, rfl, rfl, by decide⟩
  | int n =>
    cases signed n with
    | @plain m _ shape =>
      obtain ⟨d, tail, digits, digit⟩ := decimalHead m
      refine ⟨d, tail, by rw [text, shape, digits], ?_, ?_⟩
      · simp only [blank, Bool.or_eq_false_iff, decide_eq_false_iff_not, CodePoint.scalar.injEq]
        refine ⟨⟨⟨?_, ?_⟩, ?_⟩, ?_⟩ <;> (rintro rfl; cases digit)
      · rintro rfl
        cases digit
    | dash _ shape => exact ⟨'-', _, by rw [text, shape], rfl, by decide⟩
  | float _ => cases exact
  | str s => exact ⟨'\x22', _, rfl, rfl, by decide⟩
  | list items => exact ⟨'[', _, by rw [text], rfl, by decide⟩
  | dict members => exact ⟨'\x7b', _, by rw [text], rfl, by decide⟩

theorem skipText {v : Value} (exact : faithful v = true) : skip (text v ++ rest) = text v ++ rest := by
  obtain ⟨c, tail, shape, solid, -⟩ := textHead exact
  rw [shape, List.cons_append, skip, List.dropWhile_cons_of_neg (by simp [solid])]

theorem readOther {c : Char} {s : Str} (fuel : Nat) (noText : c ≠ '\x22') (noList : c ≠ '[') (noDict : c ≠ '\x7b') :
    readValue floatRepr (fuel + 1) (.scalar c :: s) =
      match readWord (.scalar c :: s) with
      | some found => some found
      | none => readNumber floatRepr (.scalar c :: s) := by
  unfold readValue
  split
  · rename_i same
    cases same
    exact absurd rfl noText
  · rename_i same
    cases same
    exact absurd rfl noList
  · rename_i same
    cases same
    exact absurd rfl noDict
  · rfl

theorem readInteger (n : Int) (fuel : Nat) (ends : Ends rest) (short : ((decimalInt n).filter isDigit).length ≤ maxStrDigits) :
    readValue floatRepr (fuel + 1) (decimalInt n ++ rest) = some (.int n, rest) := by
  have number : readNumber floatRepr (decimalInt n ++ rest) = some (.int n, rest) := readInt n ends short
  have noWord : readWord (decimalInt n ++ rest) = none ∧ ∃ c tail, decimalInt n ++ rest = .scalar c :: tail ∧
      c ≠ '\x22' ∧ c ≠ '[' ∧ c ≠ '\x7b' := by
    cases signed n with
    | @plain m _ shape =>
      obtain ⟨d, tail, digits, digit⟩ := decimalHead m
      have other {c : Char} (letter : c.isDigit = false) : d ≠ c := by
        rintro rfl
        rw [digit] at letter
        cases letter
      rw [shape, digits]
      refine ⟨?_, d, _, rfl, other rfl, other rfl, other rfl⟩
      have neither : d ≠ 'n' ∧ d ≠ 't' ∧ d ≠ 'f' ∧ d ≠ 'N' ∧ d ≠ 'I' ∧ d ≠ '-' :=
        ⟨other rfl, other rfl, other rfl, other rfl, other rfl, other rfl⟩
      simp [readWord, words, lit, List.isPrefixOf, Ne.symm, neither]
    | @dash m _ shape =>
      obtain ⟨d, tail, digits, digit⟩ := decimalHead m
      have noInfinity : 'I' ≠ d := by
        rintro rfl
        cases digit
      rw [shape, digits]
      refine ⟨?_, '-', _, rfl, by decide, by decide, by decide⟩
      simp [readWord, words, lit, List.isPrefixOf, noInfinity]
  obtain ⟨noWord, c, tail, front, noText, noList, noDict⟩ := noWord
  rw [front] at number noWord ⊢
  rw [readOther fuel noText noList noDict, noWord]
  exact number

theorem readsWord {word : List Char} {v : Value} {c : Char} {tail : List Char} (fuel : Nat) (shape : word = c :: tail)
    (noText : c ≠ '\x22') (noList : c ≠ '[') (noDict : c ≠ '\x7b')
    (found : readWord (word.map .scalar ++ rest) = some (v, rest)) :
    readValue floatRepr (fuel + 1) (word.map .scalar ++ rest) = some (v, rest) := by
  subst shape
  rw [List.map_cons, List.cons_append] at found ⊢
  rw [readOther fuel noText noList noDict, found]

theorem endsAt {c : Char} {later : Str} (stop : isDigit (.scalar c) = false ∧ c ≠ '.' ∧ c ≠ 'e' ∧ c ≠ 'E') :
    Ends (.scalar c :: later) := by
  rintro d more same
  cases same
  simpa using stop

theorem quotedText (s rest : Str) : quoted s ++ rest = .scalar '\x22' :: ((s.flatMap escape).map .scalar ++ .scalar '\x22' :: rest) := by
  simp [quoted, quote]

theorem readList {s tail : Str} {c : Char} (fuel : Nat) (front : skip s = .scalar c :: tail) (other : c ≠ ']') :
    readValue floatRepr (fuel + 1) (.scalar '[' :: s) = (readItems floatRepr fuel (skip s)).map fun r => (.list r.1, r.2) := by
  rw [readValue]
  split
  · rename_i same
    rw [front] at same
    cases same
    exact absurd rfl other
  · rfl

theorem readDict {s tail : Str} (fuel : Nat) (front : skip s = .scalar '\x22' :: tail) :
    readValue floatRepr (fuel + 1) (.scalar '\x7b' :: s) = (readMembers floatRepr fuel (skip s)).map fun r => (dictOf r.1, r.2) := by
  rw [readValue]
  split
  · rename_i same
    rw [front] at same
    cases same
  · rfl

theorem laterItemsEnd (items : List Value) : Ends (laterItems items ++ .scalar ']' :: rest) := by
  cases items with
  | nil => exact endsAt (by decide)
  | cons v later => exact endsAt (by decide)

theorem laterMembersEnd (members : List (Str × Value)) : Ends (laterMembers members ++ .scalar '\x7d' :: rest) := by
  cases members with
  | nil => exact endsAt (by decide)
  | cons m later => exact endsAt (by decide)

theorem memberFront (m : Str × Value) : ∃ tail, memberText m = .scalar '\x22' :: tail := by
  obtain ⟨key, v⟩ := m
  exact ⟨_, rfl⟩

theorem skipMember (m : Str × Value) : skip (memberText m ++ rest) = memberText m ++ rest := by
  obtain ⟨tail, shape⟩ := memberFront m
  rw [shape]
  rfl

mutual

theorem readsValue (v : Value) {fuel : Nat} {rest : Str} (exact : faithful v = true) (enough : cost v ≤ fuel) (ends : Ends rest) :
    readValue floatRepr fuel (text v ++ rest) = some (v, rest) := by
  cases fuel with
  | zero => cases v <;> simp [cost] at enough
  | succ fuel =>
    match v with
    | .null =>
      exact readsWord fuel (c := 'n') rfl (by decide) (by decide) (by decide) (by simp [readWord, words, lit, List.isPrefixOf])
    | .bool true =>
      exact readsWord fuel (c := 't') rfl (by decide) (by decide) (by decide) (by simp [readWord, words, lit, List.isPrefixOf])
    | .bool false =>
      exact readsWord fuel (c := 'f') rfl (by decide) (by decide) (by decide) (by simp [readWord, words, lit, List.isPrefixOf])
    | .int n =>
      rw [text]
      exact readInteger n fuel ends (of_decide_eq_true (by simpa only [faithful] using exact))
    | .float repr => cases exact
    | .str s =>
      rw [text, quotedText, readValue, scanStringQuoted s rest (by simpa only [faithful] using exact)]
      rfl
    | .list [] =>
      rw [text, itemTexts, List.nil_append, List.cons_append, List.singleton_append, readValue]
      rfl
    | .list (item :: items) =>
      have parts : faithful item = true := by
        simp only [faithful, faithfulItems, Bool.and_eq_true] at exact
        exact exact.1
      obtain ⟨c, tail, shape, -, other⟩ := textHead parts
      have whole : text (.list (item :: items)) ++ rest =
          .scalar '[' :: (text item ++ (laterItems items ++ .scalar ']' :: rest)) := by
        simp [text, itemTexts]
      rw [whole, readList fuel ((skipText parts).trans (by rw [shape]; rfl)) other, skipText parts,
        readsItems item items (by simpa only [faithful] using exact) (by simpa only [cost, Nat.succ_le_succ_iff] using enough)]
      rfl
    | .dict [] =>
      rw [text, memberTexts, List.nil_append, List.cons_append, List.singleton_append, readValue]
      rfl
    | .dict (m :: members) =>
      have parts : ((m :: members).map Prod.fst).Nodup ∧ faithfulMembers (m :: members) = true := by
        simpa only [faithful, Bool.and_eq_true, decide_eq_true_eq] using exact
      obtain ⟨tail, shape⟩ := memberFront m
      have whole : text (.dict (m :: members)) ++ rest =
          .scalar '\x7b' :: (memberText m ++ (laterMembers members ++ .scalar '\x7d' :: rest)) := by
        simp [text, memberTexts]
      rw [whole, readDict fuel ((skipMember m).trans (by rw [shape]; rfl)), skipMember m,
        readsMembers m members parts.2 (by simpa only [cost, Nat.succ_le_succ_iff] using enough), Option.map_some,
        dictDistinct parts.1]
termination_by fuel

theorem readsItems (v : Value) (items : List Value) {fuel : Nat} {rest : Str} (exact : faithfulItems (v :: items) = true)
    (enough : itemsCost (v :: items) ≤ fuel) :
    readItems floatRepr fuel (text v ++ (laterItems items ++ .scalar ']' :: rest)) = some (v :: items, rest) := by
  cases fuel with
  | zero => simp [itemsCost] at enough
  | succ fuel =>
    simp only [faithfulItems, Bool.and_eq_true] at exact
    simp only [itemsCost] at enough
    have first : readValue floatRepr fuel (text v ++ (laterItems items ++ .scalar ']' :: rest)) =
        some (v, laterItems items ++ .scalar ']' :: rest) := readsValue v exact.1 (by omega) (laterItemsEnd items)
    rw [readItems, first]
    match items with
    | [] => rfl
    | w :: more =>
      have one : faithful w = true := by
        simp only [faithfulItems, Bool.and_eq_true] at exact
        exact exact.2.1
      have others : readItems floatRepr fuel (text w ++ (laterItems more ++ .scalar ']' :: rest)) = some (w :: more, rest) :=
        readsItems w more exact.2 (by omega)
      have between : skip (.scalar ' ' :: (text w ++ (laterItems more ++ .scalar ']' :: rest))) =
          text w ++ (laterItems more ++ .scalar ']' :: rest) := skipText one
      have comma : skip (laterItems (w :: more) ++ .scalar ']' :: rest) =
          .scalar ',' :: .scalar ' ' :: (text w ++ (laterItems more ++ .scalar ']' :: rest)) := by
        simp [laterItems, skip, blank]
      simp only [bind, Option.bind, comma, between, others, Option.map_some]
termination_by fuel

theorem readsMembers (m : Str × Value) (members : List (Str × Value)) {fuel : Nat} {rest : Str}
    (exact : faithfulMembers (m :: members) = true) (enough : membersCost (m :: members) ≤ fuel) :
    readMembers floatRepr fuel (memberText m ++ (laterMembers members ++ .scalar '\x7d' :: rest)) = some (m :: members, rest) := by
  cases fuel with
  | zero => simp [membersCost] at enough
  | succ fuel =>
    simp only [faithfulMembers, Bool.and_eq_true] at exact
    simp only [membersCost] at enough
    have first : readMember floatRepr fuel (memberText m ++ (laterMembers members ++ .scalar '\x7d' :: rest)) =
        some (m, laterMembers members ++ .scalar '\x7d' :: rest) :=
      readsMember m exact.1 (by omega) (laterMembersEnd members)
    rw [readMembers, first]
    match members with
    | [] => rfl
    | n :: more =>
      have others : readMembers floatRepr fuel (memberText n ++ (laterMembers more ++ .scalar '\x7d' :: rest)) =
          some (n :: more, rest) := readsMembers n more exact.2 (by omega)
      have between : skip (.scalar ' ' :: (memberText n ++ (laterMembers more ++ .scalar '\x7d' :: rest))) =
          memberText n ++ (laterMembers more ++ .scalar '\x7d' :: rest) := skipMember n
      have comma : skip (laterMembers (n :: more) ++ .scalar '\x7d' :: rest) =
          .scalar ',' :: .scalar ' ' :: (memberText n ++ (laterMembers more ++ .scalar '\x7d' :: rest)) := by
        simp [laterMembers, skip, blank]
      simp only [bind, Option.bind, comma, between, others, Option.map_some]
termination_by fuel

theorem readsMember (m : Str × Value) {fuel : Nat} {rest : Str} (exact : faithfulMember m = true) (enough : memberCost m ≤ fuel)
    (ends : Ends rest) : readMember floatRepr fuel (memberText m ++ rest) = some (m, rest) := by
  obtain ⟨key, v⟩ := m
  cases fuel with
  | zero => simp [memberCost] at enough
  | succ fuel =>
    simp only [faithfulMember, Bool.and_eq_true] at exact
    simp only [memberCost, Nat.succ_le_succ_iff] at enough
    have value : readValue floatRepr fuel (text v ++ rest) = some (v, rest) := readsValue v exact.2 enough ends
    have whole : memberText (key, v) ++ rest = .scalar '\x22' :: ((key.flatMap escape).map .scalar ++
        .scalar '\x22' :: (.scalar ':' :: .scalar ' ' :: (text v ++ rest))) := by
      rw [← quotedText]
      simp [memberText]
    have colon : skip (.scalar ':' :: .scalar ' ' :: (text v ++ rest)) = .scalar ':' :: .scalar ' ' :: (text v ++ rest) := rfl
    have between : skip (.scalar ' ' :: (text v ++ rest)) = text v ++ rest := skipText exact.2
    rw [whole, readMember, scanStringQuoted key _ exact.1]
    simp only [bind, Option.bind, colon, between, value, Option.map_some]
termination_by fuel

end

mutual

theorem costText (v : Value) : cost v ≤ 3 * (text v).length + 1 := by
  match v with
  | .null | .bool _ | .int _ | .float _ | .str _ => simp only [cost]; omega
  | .list [] | .dict [] => simp only [cost, itemsCost, membersCost]; omega
  | .list (item :: items) =>
    have first := costText item
    have later := costItems items
    simp only [cost, itemsCost, text, itemTexts, List.length_cons, List.length_append, List.length_nil]
    omega
  | .dict (m :: members) =>
    have first := costMember m
    have later := costMembers members
    simp only [cost, membersCost, text, memberTexts, List.length_cons, List.length_append, List.length_nil]
    omega

theorem costItems (items : List Value) : itemsCost items ≤ 3 * (laterItems items).length := by
  match items with
  | [] => simp [itemsCost]
  | v :: rest =>
    have first := costText v
    have later := costItems rest
    simp only [itemsCost, laterItems, List.length_cons, List.length_append]
    omega

theorem costMembers (members : List (Str × Value)) : membersCost members ≤ 3 * (laterMembers members).length := by
  match members with
  | [] => simp [membersCost]
  | m :: rest =>
    have first := costMember m
    have later := costMembers rest
    simp only [membersCost, laterMembers, List.length_cons, List.length_append]
    omega

theorem costMember (m : Str × Value) : memberCost m ≤ 3 * (memberText m).length := by
  match m with
  | (key, v) =>
    have value := costText v
    simp only [memberCost, memberText, List.length_cons, List.length_append]
    omega

end

theorem loadsText {v : Value} (exact : faithful v = true) : loads floatRepr (text v) = some v := by
  have front : skip (text v ++ []) = text v ++ [] := skipText exact
  have read : readValue floatRepr (3 * (text v).length + 1) (text v ++ []) = some (v, []) :=
    readsValue v exact (costText v) nofun
  rw [List.append_nil] at front read
  rw [loads, front, read]
  rfl

theorem unsplitEncodable {s : Str} (encodable : Encodable s) : unsplit s = true := by
  induction s with
  | nil => rfl
  | cons c later ih =>
    obtain ⟨u, rfl⟩ := encodable c List.mem_cons_self
    have range := scalarRange u
    have single : high (code (.scalar u)) = false := decide_eq_false (show ¬ (0xD800 ≤ u.toNat ∧ u.toNat ≤ 0xDBFF) by omega)
    simp only [unsplit, splits, single, Bool.false_and, Bool.not_false, Bool.true_and]
    exact ih fun d member => encodable d (.tail _ member)

end Values

def Scalar.value : Scalar → Value
  | .str s => .str s
  | .int n => .int n

def flat : Value → Bool
  | .list _ | .dict _ => false
  | _ => true

def faithfulScalar : Scalar → Bool
  | .str s => unsplit s
  | .int n => decide (((decimalInt n).filter isDigit).length ≤ maxStrDigits)

def Ascii (s : Str) : Prop := ∀ c ∈ s, ∃ u : Char, c = .scalar u ∧ u.toNat < 0x80

section Flat

def dictValue (members : List (Str × Scalar)) : Value := .dict (members.map fun m => (m.1, m.2.value))

theorem memberTextScalar (m : Str × Scalar) : memberText (m.1, m.2.value) = (member m).map .scalar := by
  have separator : ": ".toList = [':', ' '] := by decide +kernel
  obtain ⟨key, v⟩ := m
  cases v <;> simp [memberText, member, Scalar.value, text, quoted, scalarText, decimalInt, separator]

theorem dumpsText (members : List (Str × Scalar)) : dumps members = text (dictValue members) := by
  have separator : ", ".toList = [',', ' '] := by decide +kernel
  have braces : "\x7b".toList = ['\x7b'] ∧ "\x7d".toList = ['\x7d'] := by decide +kernel
  have later (rest : List (Str × Scalar)) : laterMembers (rest.map fun m => (m.1, m.2.value)) =
      ((rest.map member).flatMap fun t => ", ".toList ++ t).map .scalar := by
    induction rest with
    | nil => rfl
    | cons m more ih =>
      rw [List.map_cons, laterMembers, memberTextScalar, ih, separator]
      simp
  have whole (rest : List (List Char)) (first : List Char) :
      ((first :: rest).intersperse ", ".toList).flatten = first ++ rest.flatMap fun t => ", ".toList ++ t := by
    induction rest generalizing first with
    | nil => simp
    | cons t more ih =>
      rw [List.intersperse_cons_cons, List.flatten_cons, List.flatten_cons, ih, List.flatMap_cons, List.append_assoc]
  cases members with
  | nil => simp [dumps, dictValue, text, memberTexts, braces]
  | cons m rest =>
    rw [dictValue, List.map_cons, text, memberTexts, memberTextScalar, later, dumps, List.map_cons, whole]
    simp [braces]

theorem dictFaithful {members : List (Str × Scalar)} (distinct : (members.map Prod.fst).Nodup)
    (each : ∀ m ∈ members, unsplit m.1 = true ∧ faithfulScalar m.2 = true) : faithful (dictValue members) = true := by
  have inner (rest : List (Str × Scalar)) (each : ∀ m ∈ rest, unsplit m.1 = true ∧ faithfulScalar m.2 = true) :
      faithfulMembers (rest.map fun m => (m.1, m.2.value)) = true := by
    induction rest with
    | nil => rfl
    | cons m more ih =>
      obtain ⟨key, value⟩ := each m List.mem_cons_self
      have here : faithful m.2.value = true := by
        cases kind : m.2 <;> simpa [Scalar.value, faithful, faithfulScalar, kind] using value
      simp only [List.map_cons, faithfulMembers, faithfulMember, key, here, Bool.true_and]
      exact ih fun n member => each n (.tail _ member)
  simp only [dictValue, faithful, inner members each, Bool.and_true, decide_eq_true_eq, List.map_map, Function.comp_def]
  exact distinct

theorem loadsOneText {floatRepr : Str → Str} {key : Str} (name : unsplit key = true) (s : Str) :
    loads floatRepr (dumps [(key, .str s)]) = some (.dict [(key, .str (join (s.flatMap pieces)))]) := by
  have shape : dumps [(key, .str s)] = .scalar '\x7b' :: (memberText (key, .str s) ++ [.scalar '\x7d']) := by
    simp [dumpsText, dictValue, Scalar.value, text, memberTexts, laterMembers]
  have named : memberText (key, .str s) ++ [.scalar '\x7d'] = .scalar '\x22' :: ((key.flatMap escape).map .scalar ++
      .scalar '\x22' :: (.scalar ':' :: .scalar ' ' :: (quoted s ++ [.scalar '\x7d']))) := by
    rw [← quotedText]
    simp [memberText, text]
  obtain ⟨fuel, enough⟩ : ∃ fuel, 3 * (dumps [(key, .str s)]).length + 1 = fuel + 4 := by
    refine ⟨3 * (dumps [(key, .str s)]).length - 3, ?_⟩
    rw [shape, List.length_cons]
    omega
  have value : readValue floatRepr (fuel + 1) (quoted s ++ [.scalar '\x7d']) =
      some (.str (join (s.flatMap pieces)), [.scalar '\x7d']) := by
    rw [quotedText, readValue, scanString, scanQuoted]
    rfl
  have colon : skip (.scalar ':' :: .scalar ' ' :: (quoted s ++ [.scalar '\x7d'])) =
      .scalar ':' :: .scalar ' ' :: (quoted s ++ [.scalar '\x7d']) := rfl
  have between : skip (.scalar ' ' :: (quoted s ++ [.scalar '\x7d'])) = quoted s ++ [.scalar '\x7d'] := by
    rw [quotedText]
    rfl
  have front : skip (memberText (key, .str s) ++ [.scalar '\x7d']) = memberText (key, .str s) ++ [.scalar '\x7d'] :=
    skipMember (key, .str s)
  have one : readMember floatRepr (fuel + 2) (memberText (key, .str s) ++ [.scalar '\x7d']) =
      some ((key, .str (join (s.flatMap pieces))), [.scalar '\x7d']) := by
    rw [named, readMember, scanStringQuoted key _ name]
    simp only [bind, Option.bind, colon, between, value, Option.map_some]
  have start : skip (dumps [(key, .str s)]) = dumps [(key, .str s)] := by
    rw [shape]
    rfl
  rw [loads, start, enough, shape, readDict (fuel + 3) (front.trans named), front, readMembers, one]
  rfl

theorem hexAscii {c : Char} {d : Nat} (digit : hexValue c = some d) : c.toNat < 0x80 := by
  have below {a b : Char} (le : a ≤ b) (small : b.toNat < 0x80) : a.toNat < 0x80 := Nat.lt_of_le_of_lt le small
  unfold hexValue at digit
  split at digit
  · rename_i range
    exact below range.2 (by decide)
  · split at digit
    · rename_i range
      exact below range.2 (by decide)
    · split at digit
      · rename_i range
        exact below range.2 (by decide)
      · cases digit

theorem hexEscapeAscii {n : Nat} (small : n < 0x10000) : ∀ u ∈ hexEscape n, u.toNat < 0x80 := by
  obtain ⟨a, b, c, d, text, value⟩ := hexDigits small
  simp only [hex4, bind, Option.bind_eq_some_iff] at value
  obtain ⟨a', first, b', second, c', third, d', fourth, -⟩ := value
  rw [text]
  simp only [List.forall_mem_cons]
  exact ⟨by decide, by decide, hexAscii first, hexAscii second, hexAscii third, hexAscii fourth, by simp⟩

theorem listedAscii {s : List Char} (listed : (s.all fun u => decide (u.toNat < 0x80)) = true) : ∀ u ∈ s, u.toNat < 0x80 := by
  simpa using listed

theorem escapeAscii (c : CodePoint) : ∀ u ∈ escape c, u.toNat < 0x80 := by
  have bound : code c < 0x110000 := by
    cases c with
    | scalar u =>
      have range := scalarRange u
      simp only [code]
      omega
    | surrogate offset =>
      have := offset.isLt
      simp only [code]
      omega
  unfold escape
  dsimp only
  split
  · exact listedAscii (by decide +kernel)
  split
  · exact listedAscii (by decide +kernel)
  split
  · exact listedAscii (by decide +kernel)
  split
  · exact listedAscii (by decide +kernel)
  split
  · exact listedAscii (by decide +kernel)
  split
  · exact listedAscii (by decide +kernel)
  split
  · exact listedAscii (by decide +kernel)
  split
  · rename_i printable
    rw [List.forall_mem_singleton, codeChar (by omega)]
    omega
  split
  · rename_i small
    exact hexEscapeAscii small
  · intro u member
    rcases List.mem_append.mp member with first | second
    · exact hexEscapeAscii (by omega) u first
    · exact hexEscapeAscii (by omega) u second

theorem quoteAscii (s : Str) : ∀ u ∈ quote s, u.toNat < 0x80 := by
  have mark : ∀ u ∈ "\"".toList, u.toNat < 0x80 := listedAscii (by decide +kernel)
  intro u member
  rcases List.mem_append.mp member with front | last
  · rcases List.mem_append.mp front with first | inside
    · exact mark u first
    · obtain ⟨c, -, here⟩ := List.mem_flatMap.mp inside
      exact escapeAscii c u here
  · exact mark u last

theorem intAscii (n : Int) : ∀ u ∈ intDigits n, u.toNat < 0x80 := by
  have digit {m : Nat} : ∀ u ∈ Nat.toDigits 10 m, u.toNat < 0x80 := by
    intro u member
    have range := Nat.isDigit_of_mem_toDigits (by decide) (by decide) member
    simp only [Char.isDigit, Bool.and_eq_true, decide_eq_true_eq] at range
    exact Nat.lt_of_le_of_lt range.2 (by decide)
  cases n with
  | ofNat m => exact digit
  | negSucc m =>
    intro u member
    rcases List.mem_cons.mp member with rfl | inside
    · decide
    · exact digit u inside

theorem memIntersperse {α : Type} {sep x : α} {l : List α} (inside : x ∈ l.intersperse sep) : x = sep ∨ x ∈ l := by
  induction l with
  | nil => cases inside
  | cons first rest ih =>
    cases rest with
    | nil => exact .inr inside
    | cons second more =>
      rw [List.intersperse_cons_cons, List.mem_cons, List.mem_cons] at inside
      rcases inside with rfl | rfl | later
      · exact .inr List.mem_cons_self
      · exact .inl rfl
      · exact (ih later).imp_right (.tail _)

theorem dumpsAscii (members : List (Str × Scalar)) : Ascii (dumps members) := by
  have marks : ∀ u ∈ "\x7b".toList ++ "\x7d".toList ++ ": ".toList ++ ", ".toList, u.toNat < 0x80 :=
    listedAscii (by decide +kernel)
  have each : ∀ m : Str × Scalar, ∀ u ∈ member m, u.toNat < 0x80 := by
    rintro ⟨key, v⟩ u inside
    rcases List.mem_append.mp inside with front | value
    · rcases List.mem_append.mp front with name | colon
      · exact quoteAscii key u name
      · exact marks u (by simp only [List.mem_append, colon, or_true, true_or])
    · cases v with
      | str s => exact quoteAscii s u value
      | int n => exact intAscii n u value
  intro c here
  obtain ⟨u, inside, rfl⟩ := List.mem_map.mp here
  refine ⟨u, rfl, ?_⟩
  rcases List.mem_append.mp inside with front | close
  · rcases List.mem_append.mp front with brace | body
    · exact marks u (by simp only [List.mem_append, brace, true_or])
    · obtain ⟨part, among, found⟩ := List.mem_flatten.mp body
      rcases memIntersperse among with rfl | one
      · exact marks u (by simp only [List.mem_append, found, or_true])
      · obtain ⟨m, -, rfl⟩ := List.mem_map.mp one
        exact each m u found
  · exact marks u (by simp only [List.mem_append, close, or_true, true_or])

end Flat

example : (loads id (lit " \x7b\"a\": [1, -2.5e3, NaN], \"\\ud83d\\ude00\" : null, \"a\":\"\\ud83d\"\x7d")).map text =
    some (lit "\x7b\"a\": \"\\ud83d\", \"\\ud83d\\ude00\": null\x7d") := by decide +kernel

end Vynkor.Json
