import RecurringWork.Json

/-!
# RecurringWork.Json.Reader

**Reading JSON strictly.** The grammar is that of the standard and nothing more: no
leading zeros, no control characters in text, nothing but blanks after the value.
Where the grammar is met and yet there is no value, as for half of a surrogate pair,
`Json.void` is read.

A number that is no integer of 64 bits is read in double precision by one product or
quotient: as many of its leading digits as 64 bits hold, scaled by a power of ten. Each
of the three is rounded, so the double read can be a neighbour of the nearest one.

Every scanner takes the characters in front of it and returns what it read with the
characters that follow. The three that call each other are bounded by a count that
`Json.read?` derives from the length of the text: of two nested calls one consumes a
character, so the bound is never met.
-/

namespace RecurringWork

/-- The number that a list of decimal digits denotes. -/
def digitsValue (ds : List Char) : Nat :=
  ds.foldl (fun n c => n * 10 + (c.toNat - '0'.toNat)) 0

namespace Json

namespace Scan

def isBlank (c : Char) : Bool := c == ' ' || c == '\t' || c == '\n' || c == '\r'

/-- What follows the blanks in front. -/
def skipBlanks (cs : List Char) : List Char := cs.dropWhile isBlank

/-- The value of a hexadecimal digit of either case. -/
def hexValue? (c : Char) : Option Nat :=
  if '0' ≤ c ∧ c ≤ '9' then some (c.toNat - '0'.toNat)
  else if 'a' ≤ c ∧ c ≤ 'f' then some (c.toNat - 'a'.toNat + 10)
  else if 'A' ≤ c ∧ c ≤ 'F' then some (c.toNat - 'A'.toNat + 10)
  else none

/-- The value of four hexadecimal digits. -/
def hexUnit? (a b c d : Char) : Option Nat := do
  let a ← hexValue? a
  let b ← hexValue? b
  let c ← hexValue? c
  let d ← hexValue? d
  pure (((a * 16 + b) * 16 + c) * 16 + d)

def isHighSurrogate (u : Nat) : Bool := 0xD800 ≤ u && u < 0xDC00

def isLowSurrogate (u : Nat) : Bool := 0xDC00 ≤ u && u < 0xE000

/-- The character that a one-letter escape stands for. -/
def escaped? (c : Char) : Option Char :=
  if c = '"' then some '"'
  else if c = '\\' then some '\\'
  else if c = '/' then some '/'
  else if c = 'b' then some '\x08'
  else if c = 'f' then some '\x0c'
  else if c = 'n' then some '\n'
  else if c = 'r' then some '\r'
  else if c = 't' then some '\t'
  else none

/-- The character of a surrogate pair. -/
def pairChar (high low : Nat) : Char :=
  Char.ofNat (0x10000 + (high - 0xD800) * 1024 + (low - 0xDC00))

/-- What a scanned text holds, if it has a value, with what follows the text. -/
abbrev ScannedText := Option (List Char) × List Char

/-- Put a character in front of what was read. -/
def withChar (c : Char) (found : Option ScannedText) : Option ScannedText :=
  found.map fun (s, rest) => (s.map (c :: ·), rest)

/-- Put half of a pair in front of what was read. -/
def withHalf (found : Option ScannedText) : Option ScannedText :=
  found.map fun (_, rest) => (none, rest)

/-- Put the high surrogate in front of what was read for which no low one came, if there
is one. -/
def withPending (high : Option Nat) (found : Option ScannedText) : Option ScannedText :=
  if high.isSome then withHalf found else found

/-- The characters up to the closing quote, right behind the high surrogate `high` if
there is one. -/
def textFrom : Option Nat → List Char → Option ScannedText
  | _, [] => none
  | high, '"' :: r => withPending high (some (some [], r))
  | high, '\\' :: 'u' :: a :: b :: c :: d :: r =>
      match hexUnit? a b c d with
      | none => none
      | some u =>
          if isLowSurrogate u then
            match high with
            | some h => withChar (pairChar h u) (textFrom none r)
            | none => withHalf (textFrom none r)
          else
            withPending high
              (if isHighSurrogate u then textFrom (some u) r
                else withChar (Char.ofNat u) (textFrom none r))
  | high, '\\' :: c :: r =>
      match escaped? c with
      | none => none
      | some e => withPending high (withChar e (textFrom none r))
  | high, c :: r =>
      if c.toNat < 32 ∨ c = '\\' then none
      else withPending high (withChar c (textFrom none r))

/-- The characters of a text up to its closing quote. An escaped unit outside the
surrogates is a character; a high surrogate is one only with a low surrogate right
behind it. Half of a pair leaves the text without a value. -/
def text? (cs : List Char) : Option ScannedText := textFrom none cs

/-- Digits as far as they go. -/
def digits (cs : List Char) : List Char × List Char :=
  (cs.takeWhile Char.isDigit, cs.dropWhile Char.isDigit)

/-- The digits before the point: a single zero, or digits that start with none. -/
def whole? (cs : List Char) : Option (List Char × List Char) :=
  match digits cs with
  | ([], _) => none
  | ('0' :: _ :: _, _) => none
  | found => some found

/-- The digits behind the point. Without a point there are none; behind a point
there is at least one. -/
def fraction? : List Char → Option (List Char × List Char)
  | '.' :: r =>
      match digits r with
      | ([], _) => none
      | found => some found
  | r => some ([], r)

/-- The exponent, and whether one was written. -/
def exponent? : List Char → Option ((Bool × Int) × List Char)
  | c :: r =>
      if c = 'e' ∨ c = 'E' then
        let (negative, r) := match r with
          | '-' :: r => (true, r)
          | '+' :: r => (false, r)
          | r => (false, r)
        match digits r with
        | ([], _) => none
        | (ds, r) => some ((true, if negative then -(digitsValue ds : Int) else digitsValue ds), r)
      else some ((false, 0), c :: r)
  | [] => some ((false, 0), [])

/-- A number written as an integer and stored in 64 bits. Zero has no sign there. -/
def integer? (negative : Bool) (magnitude : Nat) : Option Int :=
  if negative then
    if magnitude = 0 ∨ 9223372036854775808 < magnitude then none else some (-magnitude)
  else if magnitude < 18446744073709551616 then some magnitude else none

/-- The number with the digits `cs` behind those of `high` as far as it stays in 64
bits, and how many digits are left. -/
def leading : Nat → List Char → Nat × Nat
  | high, [] => (high, 0)
  | high, c :: cs =>
      let n := high * 10 + (c.toNat - '0'.toNat)
      if n < 18446744073709551616 then leading n cs else (high, cs.length + 1)

/-- The largest power of ten by which a number is scaled in one step. -/
def largestPower : Nat := 308

/-- The number divided by `10 ^ k`. -/
def lowered? (x : Double) (k : Nat) : Option Double := (Double.powerOfTen? k).bind x.div?

/-- The number divided by the largest power of ten, so many times. Zero stays. -/
def loweredBySteps? : Nat → Double → Option Double
  | 0, x => some x
  | n + 1, x => if x.isZero then some x else (lowered? x largestPower).bind (loweredBySteps? n)

/-- The number `x · 10 ^ e` by one multiplication or division. A power of ten beyond
double precision is taken in steps when it divides; only zero can be multiplied by
one. -/
def scaled? (x : Double) (e : Int) : Option Double :=
  if 0 ≤ e then
    if e ≤ largestPower then (Double.powerOfTen? e.toNat).bind x.mul?
    else if x.isZero then some x else none
  else
    let steps := ((-e).toNat - 1) / largestPower
    (loweredBySteps? steps x).bind fun y => lowered? y ((-e).toNat - steps * largestPower)

/-- The number with the digits `ds` before the point and `fs` behind it, times
`10 ^ e`. Digits beyond 64 bits count for their place only. -/
def double? (negative : Bool) (ds fs : List Char) (e : Int) : Option Double := do
  let (high, wholeLeft) := leading 0 ds
  let (n, fractionLeft) := leading high fs
  let x ← scaled? (← Double.ofNat? n) (wholeLeft - (fs.length - fractionLeft) + e)
  pure (x.withSign negative)

def number? (cs : List Char) : Option (Json × List Char) := do
  let (negative, r) := match cs with
    | '-' :: r => (true, r)
    | r => (false, r)
  let (ds, r) ← whole? r
  let (fs, r) ← fraction? r
  let ((scientific, e), r) ← exponent? r
  let plain := fs.isEmpty && !scientific
  match (if plain then integer? negative (digitsValue ds) else none) with
  | some n => pure (.int n, r)
  | none => pure (((double? negative ds fs e).map Json.number).getD .void, r)

/-- The text read, or nothing that has a value. -/
def textValue (s : Option (List Char)) : Json := (s.map (.str ∘ String.ofList)).getD .void

/-- The members of an object; a name without a value leaves the object without one. -/
def objectOf (ms : List (Option (List Char) × Json)) : Json :=
  match ms.mapM fun (name, v) => name.map fun n => (String.ofList n, v) with
  | some ms => .obj ms
  | none => .void

mutual

/-- The value in front, blanks skipped. -/
def value? : Nat → List Char → Option (Json × List Char)
  | 0, _ => none
  | fuel + 1, cs =>
      match skipBlanks cs with
      | 'n' :: 'u' :: 'l' :: 'l' :: r => some (.null, r)
      | 't' :: 'r' :: 'u' :: 'e' :: r => some (.bool true, r)
      | 'f' :: 'a' :: 'l' :: 's' :: 'e' :: r => some (.bool false, r)
      | '"' :: r => (text? r).map fun (s, r) => (textValue s, r)
      | '[' :: r =>
          match skipBlanks r with
          | ']' :: r => some (.arr [], r)
          | r => (elements? fuel r).map fun (xs, r) => (.arr xs, r)
      | '{' :: r =>
          match skipBlanks r with
          | '}' :: r => some (.obj [], r)
          | r => (members? fuel r).map fun (ms, r) => (objectOf ms, r)
      | r => number? r

/-- One element or more, and the closing bracket. -/
def elements? : Nat → List Char → Option (List Json × List Char)
  | 0, _ => none
  | fuel + 1, cs =>
      match value? fuel cs with
      | none => none
      | some (x, r) =>
          match skipBlanks r with
          | ']' :: r => some ([x], r)
          | ',' :: r => (elements? fuel r).map fun (xs, r) => (x :: xs, r)
          | _ => none

/-- One member or more, and the closing brace. -/
def members? : Nat → List Char → Option (List (Option (List Char) × Json) × List Char)
  | 0, _ => none
  | fuel + 1, cs =>
      match skipBlanks cs with
      | '"' :: r =>
          match text? r with
          | none => none
          | some (name, r) =>
              match skipBlanks r with
              | ':' :: r =>
                  match value? fuel r with
                  | none => none
                  | some (v, r) =>
                      match skipBlanks r with
                      | '}' :: r => some ([(name, v)], r)
                      | ',' :: r =>
                          (members? fuel r).map fun (ms, r) => ((name, v) :: ms, r)
                      | _ => none
              | _ => none
      | _ => none

end

end Scan

/-- The value that a text denotes, if it denotes one. -/
def read? (s : String) : Option Json :=
  let cs := s.toList
  match Scan.value? (2 * cs.length + 1) cs with
  | some (j, r) => if (Scan.skipBlanks r).isEmpty then some j else none
  | none => none

end Json

end RecurringWork
