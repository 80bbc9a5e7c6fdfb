import Vynkor.Text

/-! What the SDK uses of `json`: the values `loads` returns, as far as they are looked
at (a dict has each key once), and `dumps` of a dict of texts and ints. -/
namespace Vynkor.Json
open Text

inductive Value where
  | null
  | bool (b : Bool)
  | int (n : Int)
  | float (repr : Str)
  | str (s : Str)
  | list (items : List Value)
  | dict (members : List (Str × Value))

namespace Value

def get (key : Str) : Value → Option Value
  | dict members => (members.find? fun m => m.1 == key).map Prod.snd
  | _ => none

end Value

inductive Scalar where
  | str (s : Str)
  | int (n : Int)
  deriving DecidableEq, Repr

def code : CodePoint → Nat
  | .scalar c => c.toNat
  | .surrogate offset => 0xD800 + offset

def hexEscape (n : Nat) : List Char :=
  "\\u".toList ++ List.replicate (4 - (Nat.toDigits 16 n).length) '0' ++ Nat.toDigits 16 n

def escape (c : CodePoint) : List Char :=
  let n := code c
  if n = 0x22 then "\\\"".toList
  else if n = 0x5C then "\\\\".toList
  else if n = 0x0A then "\\n".toList
  else if n = 0x0D then "\\r".toList
  else if n = 0x09 then "\\t".toList
  else if n = 0x0C then "\\f".toList
  else if n = 0x08 then "\\b".toList
  else if 0x20 ≤ n ∧ n ≤ 0x7E then [Char.ofNat n]
  else if n < 0x10000 then hexEscape n
  else hexEscape (0xD800 + (n - 0x10000) / 0x400) ++ hexEscape (0xDC00 + (n - 0x10000) % 0x400)

def quote (s : Str) : List Char := "\"".toList ++ s.flatMap escape ++ "\"".toList

def scalarText : Scalar → List Char
  | .str s => quote s
  | .int n => intDigits n

def member (m : Str × Scalar) : List Char := quote m.1 ++ ": ".toList ++ scalarText m.2

def dumps (members : List (Str × Scalar)) : Str :=
  ("\x7b".toList ++ ((members.map member).intersperse ", ".toList).flatten ++ "\x7d".toList).map .scalar

theorem dumpsEncodable (members : List (Str × Scalar)) : Encodable (dumps members) := scalarsEncodable _

example : dumps [(lit "id", .str (lit "a\"b")), (lit "n", .int (-5))] =
    lit "\x7b\"id\": \"a\\\"b\", \"n\": -5\x7d" := by decide +kernel

end Vynkor.Json
