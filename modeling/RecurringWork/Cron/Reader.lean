import RecurringWork.Cron
import RecurringWork.Json.Reader

/-!
# RecurringWork.Cron.Reader

**Reading cron expressions.** Six fields and an optional seventh for the year,
written one after the other. Blanks separate them but need not: a field ends where
its grammar does.

    field   = blanks item ("," item)* blanks
    item    = stretch "/" number | stretch | name
    stretch = "*" | number "-" number | number | name "-" name

The alternatives are tried from left to right, and the first that reads something
counts. A number or name takes the blanks around it; a comma that no item follows is
left where it is. A seventh field that cannot be read counts as missing, and then
what is left over makes the whole expression wrong.

Five shorthands stand for whole expressions.
-/

namespace RecurringWork.Cron

namespace Scan

/-- A reader of something in front of the text that returns it with the rest. -/
abbrev Reader (α : Type) := List Char → Option (α × List Char)

/-- The first of two readers that reads something. -/
def either {α : Type} (first second : Reader α) : Reader α := fun cs =>
  match first cs with
  | some found => some found
  | none => second cs

/-- A single character. -/
def char (c : Char) : Reader Unit
  | d :: r => if c = d then some ((), r) else none
  | [] => none

def blanks : List Char → List Char := Json.Scan.skipBlanks

/-- Characters of one class, at least one, with the blanks around them. -/
def word (inClass : Char → Bool) : Reader (List Char) := fun cs =>
  let cs := blanks cs
  match cs.takeWhile inClass with
  | [] => none
  | found => some (found, blanks (cs.dropWhile inClass))

/-- A number that fits 32 bits. -/
def number : Reader Nat := fun cs =>
  match word Char.isDigit cs with
  | some (ds, r) => if digitsValue ds < 4294967296 then some (digitsValue ds, r) else none
  | none => none

/-- Letters. -/
def name : Reader String := fun cs =>
  (word Char.isAlpha cs).map fun (s, r) => (String.ofList s, r)

/-- Two of a kind with a hyphen between them. -/
def hyphenated {α : Type} (reader : Reader α) : Reader (α × α) := fun cs => do
  let (a, r) ← reader cs
  let (_, r) ← char '-' r
  let (b, r) ← reader r
  pure ((a, b), r)

def stretch (f : Field) : Reader Stretch :=
  let all : Reader Stretch := fun cs => (char '*' cs).map fun (_, r) => (.all, r)
  let opened : Reader Stretch := fun cs =>
    if f.mayBeOpen then (char '?' cs).map fun (_, r) => (.all, r) else none
  let range : Reader Stretch := fun cs =>
    (hyphenated number cs).map fun ((a, b), r) => (.between a b, r)
  let point : Reader Stretch := fun cs => (number cs).map fun (n, r) => (.point n, r)
  let named : Reader Stretch := fun cs =>
    (hyphenated name cs).map fun ((a, b), r) => (.named a b, r)
  either opened (either all (either range (either point named)))

def item (f : Field) : Reader Item :=
  let stepped : Reader Item := fun cs => do
    let (s, r) ← stretch f cs
    let (_, r) ← char '/' r
    let (n, r) ← number r
    pure (.stepped s n, r)
  let plain : Reader Item := fun cs => (stretch f cs).map fun (s, r) => (.stretch s, r)
  let named : Reader Item := fun cs => (name cs).map fun (n, r) => (.name n, r)
  either stepped (either plain named)

/-- Items behind commas, at most `fuel` of them. -/
def moreItems (f : Field) : Nat → List Char → List Item × List Char
  | 0, cs => ([], cs)
  | fuel + 1, cs =>
      match char ',' cs with
      | none => ([], cs)
      | some (_, r) =>
          match item f r with
          | none => ([], cs)
          | some (i, r) =>
              let (is, r) := moreItems f fuel r
              (i :: is, r)

/-- The set of a field. -/
def field (f : Field) : Reader (List Nat) := fun cs => do
  let (i, r) ← item f (blanks cs)
  let (is, r) := moreItems f r.length r
  let set ← fieldSet? f (i :: is)
  pure (set, blanks r)

/-- All fields up to the end of the text. -/
def fields (cs : List Char) : Option Expression := do
  let (seconds, r) ← field .second cs
  let (minutes, r) ← field .minute r
  let (hours, r) ← field .hour r
  let (daysOfMonth, r) ← field .dayOfMonth r
  let (months, r) ← field .month r
  let (daysOfWeek, r) ← field .dayOfWeek r
  let (years, r) := (field .year r).getD (Field.year.range, r)
  if r.isEmpty then
    some { seconds, minutes, hours, daysOfMonth, months, daysOfWeek, years }
  else none

end Scan

/-- What each shorthand stands for. -/
def shorthands : List (String × String) :=
  [("@yearly", "0 0 0 1 1 * *"), ("@monthly", "0 0 0 1 * * *"), ("@weekly", "0 0 0 * * 1 *"),
   ("@daily", "0 0 0 * * * *"), ("@hourly", "0 0 * * * * *")]

/-- The text without the blanks around it. -/
def trimBlanks (cs : List Char) : List Char :=
  (Scan.blanks (Scan.blanks cs).reverse).reverse

def Expression.read? (text : String) : Option Expression :=
  match shorthands.find? fun s => s.1.toList == trimBlanks text.toList with
  | some (_, long) => Scan.fields long.toList
  | none => Scan.fields text.toList

end RecurringWork.Cron
