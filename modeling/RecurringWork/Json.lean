import RecurringWork.Double

/-!
# RecurringWork.Json

**JSON values as they are read**: the members of an object in their order and with
their repetitions, a number either as a 64-bit integer or in double precision. Some
well-formed text denotes no value: a number out of range, half of a surrogate pair.
A reader that ignores it need not know, so it is kept as `Json.void`.

* `Json.canonical` — the form in which a value is kept and compared: members sorted
  by name, the last of several members of one name standing for all;
* `Json.depth` — how many containers are open at the innermost point; and
* `Json.isWhole` — every part of it has a value.
-/

namespace RecurringWork

/-- A JSON value. -/
inductive Json
  | null
  | bool (value : Bool)
  /-- A number written without fraction and exponent that fits 64 bits, signed or
  unsigned. -/
  | int (value : Int)
  /-- Any other number. -/
  | number (value : Double)
  | str (value : String)
  | arr (elements : List Json)
  | obj (members : List (String × Json))
  /-- Well-formed text without a value: a number out of range, a text that holds half
  of a surrogate pair, or an object with such a text for a name. -/
  | void
  deriving Repr, Inhabited

namespace Json

/-- Put `value` under `name` into members sorted by name, replacing what is there. -/
def insertMember (name : String) (value : Json) :
    List (String × Json) → List (String × Json)
  | [] => [(name, value)]
  | (n, v) :: rest =>
      if name < n then (name, value) :: (n, v) :: rest
      else if name = n then (name, value) :: rest
      else (n, v) :: insertMember name value rest

mutual

/-- Members sorted by name at every level, the last of several members of one name
standing for all. -/
def canonical : Json → Json
  | .arr xs => .arr (canonicalElements xs)
  | .obj ms => .obj (canonicalMembers ms [])
  | j => j

def canonicalElements : List Json → List Json
  | [] => []
  | x :: xs => canonical x :: canonicalElements xs

/-- Insert the members one after the other, so that a later one wins. -/
def canonicalMembers : List (String × Json) → List (String × Json) → List (String × Json)
  | [], done => done
  | (n, v) :: rest, done => canonicalMembers rest (insertMember n (canonical v) done)

end

mutual

/-- How many containers are open at the innermost point of the value. -/
def depth : Json → Nat
  | .arr xs => depthElements xs + 1
  | .obj ms => depthMembers ms + 1
  | _ => 0

def depthElements : List Json → Nat
  | [] => 0
  | x :: xs => max (depth x) (depthElements xs)

def depthMembers : List (String × Json) → Nat
  | [] => 0
  | (_, v) :: rest => max (depth v) (depthMembers rest)

end

mutual

/-- Every part has a value. -/
def isWhole : Json → Bool
  | .void => false
  | .arr xs => isWholeElements xs
  | .obj ms => isWholeMembers ms
  | _ => true

def isWholeElements : List Json → Bool
  | [] => true
  | x :: xs => isWhole x && isWholeElements xs

def isWholeMembers : List (String × Json) → Bool
  | [] => true
  | (_, v) :: rest => isWhole v && isWholeMembers rest

end

mutual

/-- The same value, member for member and sign for sign. -/
def same : Json → Json → Bool
  | .null, .null => true
  | .bool a, .bool b => a == b
  | .int a, .int b => a == b
  | .number a, .number b => a == b
  | .str a, .str b => a == b
  | .arr xs, .arr ys => sameElements xs ys
  | .obj ms, .obj ns => sameMembers ms ns
  | .void, .void => true
  | _, _ => false

def sameElements : List Json → List Json → Bool
  | [], [] => true
  | x :: xs, y :: ys => same x y && sameElements xs ys
  | _, _ => false

def sameMembers : List (String × Json) → List (String × Json) → Bool
  | [], [] => true
  | (m, x) :: ms, (n, y) :: ns => m == n && same x y && sameMembers ms ns
  | _, _ => false

end

instance : BEq Json := ⟨same⟩

end Json

end RecurringWork
