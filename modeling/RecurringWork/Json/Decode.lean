import RecurringWork.Json.Reader
import RecurringWork.Time

/-!
# RecurringWork.Json.Decode

**From JSON to typed values.** A decoder is a function into `Option`; `none` says
that the value has another shape. The shapes are few:

* scalars with the range of their type (`natBelow?`, `instant?`, `text?`, `bool?`);
* *records* (`record?`): an object in which each known member occurs at most once and
  unknown ones are ignored, or an array of the fields in their order;
* *variants* (`variant?`): an object whose member `type` is the tag of the case, or an
  array of the tag and the first fields of the case; and
* *names* (`name?`): a text, or an object with that one member, empty.

A variant is held as a whole until its case is known, which asks more of it than
being ignored would: every part must have a value and its nesting is bounded. In a
value that is held a tag may also be the position of the case (`Place`).
-/

namespace RecurringWork.Json

/-- A count below `limit`. -/
def natBelow? (limit : Nat) : Json → Option Nat
  | .int n => if 0 ≤ n ∧ n < limit then some n.toNat else none
  | _ => none

/-- A count that fits 64 bits. -/
def nat64? : Json → Option Nat := natBelow? 18446744073709551616

/-- A count that fits 32 bits. -/
def nat32? : Json → Option Nat := natBelow? 4294967296

/-- A count that fits 16 bits. -/
def nat16? : Json → Option Nat := natBelow? 65536

/-- A signed number that fits 64 bits. -/
def instant? : Json → Option Int
  | .int n => if Instant.minimum ≤ n ∧ n ≤ Instant.maximum then some n else none
  | _ => none

def text? : Json → Option String
  | .str s => some s
  | _ => none

def bool? : Json → Option Bool
  | .bool b => some b
  | _ => none

/-- The text naming one of several constants, plain or as the only member of an
object. -/
def name? : Json → Option String
  | .str s => some s
  | .obj [(n, .null)] => some n
  | _ => none

/-- The value of the first member called `name`. -/
def member? (name : String) (ms : List (String × Json)) : Option Json :=
  (ms.find? fun m => m.1 == name).map Prod.snd

/-- How often a member called `name` occurs. -/
def occurrences (name : String) (ms : List (String × Json)) : Nat :=
  (ms.filter fun m => m.1 == name).length

/-- No name of the list occurs twice. -/
def eachOnce (names : List String) (ms : List (String × Json)) : Bool :=
  names.all fun n => occurrences n ms ≤ 1

/-- The members of an object in which each of `names` occurs at most once. -/
def object? (names : List String) : Json → Option (List (String × Json))
  | .obj ms => if eachOnce names ms then some ms else none
  | _ => none

/-- The members of a record with the fields `names`: those of an object, or the
elements of an array of as many as there are fields. -/
def record? (names : List String) : Json → Option (List (String × Json))
  | .arr xs => if xs.length = names.length then some (names.zip xs) else none
  | j => object? names j

/-- The members of a record whose missing fields have defaults, so that an array of
its first fields is enough. -/
def partialRecord? (names : List String) : Json → Option (List (String × Json))
  | .arr xs => if xs.length ≤ names.length then some (names.zip xs) else none
  | j => object? names j

/-- A field that must be there. -/
def required? {α : Type} (decode : Json → Option α) (name : String)
    (ms : List (String × Json)) : Option α :=
  (member? name ms).bind decode

/-- A field that may be missing or null. -/
def optional? {α : Type} (decode : Json → Option α) (name : String)
    (ms : List (String × Json)) : Option (Option α) :=
  match member? name ms with
  | none | some .null => some none
  | some j => (decode j).map some

/-- A field that has `fallback` for a value when missing. -/
def defaulted? {α : Type} (fallback : α) (decode : Json → Option α) (name : String)
    (ms : List (String × Json)) : Option α :=
  match member? name ms with
  | none => some fallback
  | some j => decode j

/-- All elements of an array. -/
def list? {α : Type} (decode : Json → Option α) : Json → Option (List α)
  | .arr xs => xs.mapM decode
  | _ => none

/-- The most containers that may be open at one point of a value that is held. -/
def nestingLimit : Nat := 127

/-- Where a variant stands. -/
inductive Place
  /-- In a text, inside `around` open containers. -/
  | text (around : Nat)
  /-- In a value that is held already. -/
  | held
  deriving DecidableEq, Repr

/-- The value can be held there. -/
def Place.holds : Place → Json → Bool
  | .text around, j => j.isWhole && around + j.depth ≤ nestingLimit
  | .held, _ => true

/-- A case of a variant. -/
structure Case (α : Type) where
  tag : String
  /-- The fields in the order in which an array lists them. -/
  fields : List String
  decode : List (String × Json) → Option α

/-- The case with a tag: by its name, and in a value that is held also by its
position. -/
def Place.case? {α : Type} (place : Place) (cases : List (Case α)) : Json → Option (Case α)
  | .str name => cases.find? fun c => c.tag == name
  | .int n => if place = .held ∧ 0 ≤ n then cases[n.toNat]? else none
  | _ => none

/-- A variant with the given cases. The tag and each field of its case occur once. -/
def variant? {α : Type} (place : Place) (cases : List (Case α)) (j : Json) : Option α := do
  guard (place.holds j)
  match j with
  | .obj ms =>
      guard (eachOnce ["type"] ms)
      let c ← (member? "type" ms).bind (place.case? cases)
      (object? c.fields j).bind c.decode
  | .arr (tag :: xs) =>
      let c ← place.case? cases tag
      (partialRecord? c.fields (.arr xs)).bind c.decode
  | _ => none

/-- A value, or null when there is none. -/
def ofOption {α : Type} (encode : α → Json) : Option α → Json
  | none => .null
  | some a => encode a

def ofNat (n : Nat) : Json := .int n

/-- A duration as its whole seconds and the nanoseconds beyond them. -/
def ofDuration (d : Duration) : Json :=
  .obj [("nanos", .ofNat d.subsecond), ("secs", .ofNat d.seconds)]

/-- A duration in that form, or as a number of milliseconds. -/
def duration? : Json → Option Duration
  | .int ms => if 0 ≤ ms then some (.ofMillis ms.toNat) else none
  | j => do
      let ms ← j.object? ["secs", "nanos"]
      pure (.ofParts (← defaulted? 0 nat64? "secs" ms) (← defaulted? 0 nat32? "nanos" ms))

end RecurringWork.Json
