/-!
# RecurringWork.Text.Number

**Numbers and truth values in plain text.** A number is written in decimal digits,
with a plus sign in front or without. It is judged digit by digit, so of two faults
the one further left is reported.
-/

namespace RecurringWork.Text

/-- What is wrong with a text that should be a number or a truth value. -/
inductive Flaw
  | empty
  | invalidDigit
  | tooLarge
  | notBool
  deriving DecidableEq, Repr

def Flaw.message : Flaw → String
  | .empty => "cannot parse integer from empty string"
  | .invalidDigit => "invalid digit found in string"
  | .tooLarge => "number too large to fit in target type"
  | .notBool => "provided string was not `true` or `false`"

/-- The number with the digits `cs` behind those of `high`, if it stays below
`limit`. -/
def naturalFrom (limit : Nat) : Nat → List Char → Except Flaw Nat
  | high, [] => .ok high
  | high, c :: cs =>
      if c.isDigit then
        let n := high * 10 + (c.toNat - '0'.toNat)
        if n < limit then naturalFrom limit n cs else .error .tooLarge
      else .error .invalidDigit

/-- The number below `limit` that a text denotes. -/
def natural (limit : Nat) (cs : List Char) : Except Flaw Nat :=
  match cs with
  | [] => .error .empty
  | ['+'] => .error .invalidDigit
  | '+' :: digits => naturalFrom limit 0 digits
  | digits => naturalFrom limit 0 digits

/-- The truth value that a text denotes. -/
def truth (cs : List Char) : Except Flaw Bool :=
  if cs = "true".toList then .ok true
  else if cs = "false".toList then .ok false
  else .error .notBool

/-- A number that is read is in range. -/
theorem lt_of_naturalFrom {limit high n : Nat} {cs : List Char} (low : high < limit)
    (h : naturalFrom limit high cs = .ok n) : n < limit := by
  induction cs generalizing high with
  | nil => simp only [naturalFrom, Except.ok.injEq] at h; omega
  | cons c cs ih =>
    simp only [naturalFrom] at h
    split at h
    · split at h
      · exact ih (by assumption) h
      · cases h
    · cases h

end RecurringWork.Text
