import RecurringWork.Double.Shortest
import RecurringWork.Json

/-!
# RecurringWork.Json.Printer

**The written form of a value.** No blanks are written; members keep their order.
Text escapes only what must be escaped: the quote, the backslash and the control
characters, five of which have a letter of their own. A number that is no integer has
the fewest digits that read back. It is written with a point while its leading digit
stands at most sixteen places before or five behind it, and with an exponent beyond.
-/

namespace RecurringWork

/-- The lower-case hexadecimal digit of a number below sixteen. -/
def hexDigit (n : Nat) : Char := Nat.digitChar n

def decimalDigits (n : Nat) : List Char := Nat.toDigits 10 n

namespace Decimal

/-- The places at which writing changes from positions to an exponent. -/
structure Places where
  /-- Most digits before the point. -/
  whole : Int
  /-- Zeros between the point and the first digit, at most. -/
  leadingZeros : Int

/-- Sixteen digits before the point, or four zeros behind it. -/
def places : Places := ⟨16, 4⟩

/-- The exponent part of a number whose leading digit counts `10 ^ e`. -/
private def exponentPart (e : Int) : List Char :=
  'e' :: (if e < 0 then '-' :: decimalDigits e.natAbs else decimalDigits e.natAbs)

/-- The number as it is written, its digits ending in no zero. A whole number ends in
`.0`, which keeps it apart from an integer. -/
def chars (x : Decimal) : List Char :=
  let ds := decimalDigits x.digits
  let lead : Int := ds.length + x.exponent
  let body :=
    if x.digits = 0 then ['0', '.', '0']
    else if 0 ≤ x.exponent ∧ lead ≤ places.whole then
      ds ++ List.replicate x.exponent.toNat '0' ++ ['.', '0']
    else if 0 < lead ∧ lead ≤ places.whole then
      ds.take lead.toNat ++ '.' :: ds.drop lead.toNat
    else if -places.leadingZeros ≤ lead ∧ lead ≤ 0 then
      '0' :: '.' :: List.replicate (-lead).toNat '0' ++ ds
    else match ds with
      | [d] => d :: exponentPart (lead - 1)
      | d :: rest => d :: '.' :: rest ++ exponentPart (lead - 1)
      | [] => []
  if x.negative then '-' :: body else body

end Decimal

namespace Json

/-- A character inside quotes. -/
def escape (c : Char) : List Char :=
  if c = '"' then ['\\', '"']
  else if c = '\\' then ['\\', '\\']
  else if c = '\x08' then ['\\', 'b']
  else if c = '\x0c' then ['\\', 'f']
  else if c = '\n' then ['\\', 'n']
  else if c = '\r' then ['\\', 'r']
  else if c = '\t' then ['\\', 't']
  else if c.toNat < 32 then
    ['\\', 'u', '0', '0', hexDigit (c.toNat / 16), hexDigit (c.toNat % 16)]
  else [c]

/-- A text in quotes. -/
def quote (s : String) : List Char := '"' :: (s.toList.flatMap escape ++ ['"'])

/-- An integer as it is written. -/
def integerChars (n : Int) : List Char :=
  if n < 0 then '-' :: decimalDigits n.natAbs else decimalDigits n.natAbs

mutual

/-- The characters of a value. What has no value is written as null. -/
def chars : Json → List Char
  | .null | .void => ['n', 'u', 'l', 'l']
  | .bool true => ['t', 'r', 'u', 'e']
  | .bool false => ['f', 'a', 'l', 's', 'e']
  | .int n => integerChars n
  | .number x => x.shortest.chars
  | .str s => quote s
  | .arr [] => ['[', ']']
  | .arr (x :: xs) => '[' :: (chars x ++ elementsTail xs)
  | .obj [] => ['{', '}']
  | .obj ((n, v) :: ms) => '{' :: (quote n ++ ':' :: (chars v ++ membersTail ms))

/-- The elements after the first, and the closing bracket. -/
def elementsTail : List Json → List Char
  | [] => [']']
  | x :: xs => ',' :: (chars x ++ elementsTail xs)

/-- The members after the first, and the closing brace. -/
def membersTail : List (String × Json) → List Char
  | [] => ['}']
  | (n, v) :: ms => ',' :: (quote n ++ ':' :: (chars v ++ membersTail ms))

end

/-- The text of a value. -/
def render (j : Json) : String := String.ofList j.chars

end Json

end RecurringWork
