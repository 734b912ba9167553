import RecurringWork.Calendar

/-!
# RecurringWork.Cron

**Cron expressions as sets of clock faces.** An expression is written as one list of
items per field (`Field`, `Item`) and means one set of numbers per field
(`Expression`). A face matches if each of its fields is in the set of the field, the
weekday too: naming both days of the month and weekdays asks for both.

The sets are lists in increasing order without repetitions, by construction: a field
keeps those numbers of its range that one of its items lists.
-/

namespace RecurringWork.Cron

/-- The fields of an expression in the order in which they are written. -/
inductive Field
  | second
  | minute
  | hour
  | dayOfMonth
  | month
  | dayOfWeek
  | year
  deriving DecidableEq, Repr

namespace Field

/-- The smallest number of a field. -/
def low : Field → Nat
  | second | minute | hour => 0
  | dayOfMonth | month | dayOfWeek => 1
  | year => 1970

/-- The largest number of a field. -/
def high : Field → Nat
  | second | minute => 59
  | hour => 23
  | dayOfMonth => 31
  | month => 12
  | dayOfWeek => 7
  | year => 2100

/-- All numbers of a field in increasing order. -/
def range (f : Field) : List Nat := (List.range (f.high + 1 - f.low)).map (· + f.low)

/-- The two day fields may be left open with a question mark. -/
def mayBeOpen : Field → Bool
  | dayOfMonth | dayOfWeek => true
  | _ => false

/-- The names of the months, each with its number. -/
def monthNames : List (String × Nat) :=
  [("jan", 1), ("january", 1), ("feb", 2), ("february", 2), ("mar", 3), ("march", 3),
   ("apr", 4), ("april", 4), ("may", 5), ("jun", 6), ("june", 6), ("jul", 7), ("july", 7),
   ("aug", 8), ("august", 8), ("sep", 9), ("september", 9), ("oct", 10), ("october", 10),
   ("nov", 11), ("november", 11), ("dec", 12), ("december", 12)]

/-- The names of the weekdays, each with its number. -/
def weekdayNames : List (String × Nat) :=
  [("sun", 1), ("sunday", 1), ("mon", 2), ("monday", 2), ("tue", 3), ("tues", 3),
   ("tuesday", 3), ("wed", 4), ("wednesday", 4), ("thu", 5), ("thurs", 5), ("thursday", 5),
   ("fri", 6), ("friday", 6), ("sat", 7), ("saturday", 7)]

/-- The names that a field knows, in lower case. -/
def names : Field → List (String × Nat)
  | month => monthNames
  | dayOfWeek => weekdayNames
  | _ => []

/-- The number of a name, in whatever case it is written. Names are ASCII letters, so
the lower case of ASCII is all there is to it. -/
def ofName? (f : Field) (name : String) : Option Nat :=
  (f.names.find? fun n => n.1 == name.toLower).map Prod.snd

/-- The number, if it is one of the field's. -/
def check? (f : Field) (n : Nat) : Option Nat :=
  if f.low ≤ n ∧ n ≤ f.high then some n else none

theorem mem_range {f : Field} {n : Nat} : n ∈ f.range ↔ f.low ≤ n ∧ n ≤ f.high := by
  simp only [range, List.mem_map, List.mem_range]
  constructor
  · rintro ⟨k, hk, rfl⟩; omega
  · intro h
    refine ⟨n - f.low, ?_, ?_⟩
    · omega
    · omega

end Field

/-- A stretch of a field's range. -/
inductive Stretch
  /-- The whole range. -/
  | all
  /-- One number. -/
  | point (n : Nat)
  /-- From one number to another, both included. -/
  | between (first last : Nat)
  /-- From one name to another, both included. -/
  | named (first last : String)
  deriving DecidableEq, Repr

/-- An item of a field. -/
inductive Item
  | stretch (s : Stretch)
  /-- Every `step`-th number of a stretch. After a single number the stretch runs to
  the end of the range. -/
  | stepped (s : Stretch) (step : Nat)
  | name (n : String)
  deriving DecidableEq, Repr

/-- The numbers from `first` to `last`. -/
def numbers (first last : Nat) : List Nat := (List.range (last + 1 - first)).map (· + first)

/-- A stretch between two numbers of the field, if they are in order. -/
def between? (f : Field) (first last : Nat) : Option (List Nat) := do
  let a ← f.check? first
  let b ← f.check? last
  if a ≤ b then some (numbers a b) else none

/-- The numbers of a stretch, in increasing order. -/
def Stretch.numbers? (f : Field) : Stretch → Option (List Nat)
  | .all => some f.range
  | .point n => (f.check? n).map fun n => [n]
  | .between first last => between? f first last
  | .named first last => do
      let a ← f.ofName? first
      let b ← f.ofName? last
      between? f a b

/-- Every `step`-th element of a list, beginning with the first. `skip` elements are
left out before that. -/
def everyFrom (step : Nat) : Nat → List Nat → List Nat
  | _, [] => []
  | 0, x :: xs => x :: everyFrom step (step - 1) xs
  | skip + 1, _ :: xs => everyFrom step skip xs

def Item.numbers? (f : Field) : Item → Option (List Nat)
  | .stretch s => s.numbers? f
  | .name n => (f.ofName? n).map fun n => [n]
  | .stepped s step =>
      if step = 0 ∨ f.high < step then none
      else
        -- A single number before a step begins a stretch; everywhere else it is alone.
        let base := match s with
          | .point n => between? f n f.high
          | s => s.numbers? f
        base.map (everyFrom step 0)

/-- The set of a field: the numbers of its range that some item lists. Each item must
be one that the field allows. -/
def fieldSet? (f : Field) (items : List Item) : Option (List Nat) :=
  (items.mapM (Item.numbers? f)).map fun lists => f.range.filter fun n => lists.any (·.contains n)

/-- The set of each field. -/
structure Expression where
  seconds : List Nat
  minutes : List Nat
  hours : List Nat
  daysOfMonth : List Nat
  months : List Nat
  daysOfWeek : List Nat
  years : List Nat
  deriving DecidableEq, Repr

namespace Expression

/-- A date on which the expression has times: it exists, and each of its fields is in
the set of the field. -/
def matchesDate (e : Expression) (d : Date) : Bool :=
  d.isReal && 0 ≤ d.year && e.years.contains d.year.toNat && e.months.contains d.month &&
    e.daysOfMonth.contains d.day && e.daysOfWeek.contains d.weekday

/-- A clock face at which the expression fires. -/
def isMatch (e : Expression) (c : Civil) : Bool :=
  e.matchesDate c.date && e.hours.contains c.hour && e.minutes.contains c.minute &&
    e.seconds.contains c.second

end Expression

end RecurringWork.Cron
