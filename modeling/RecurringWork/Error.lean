import RecurringWork.Time

/-!
# RecurringWork.Error

**What can go wrong, as causes.** An operation that refuses says why with an
`Error`; the wording is in one place, `Error.message`. An operation that breaks off
in the middle, because its arithmetic leaves the range of its numbers or because a
supplied callback gives up, is a *fault*: it has no cause that a caller could act
on, unwinds to the nearest supervisor and is reported without text.

* `Error` — the refusals;
* `BroadcastError` — why an event did not reach every node;
* `Failure` — a refusal or a fault, the error side of most operations here.
-/

namespace RecurringWork

/-- Why an operation was refused. -/
inductive Error
  /-- No actor of this name. -/
  | notRegistered (name : String)
  /-- The name belongs to another actor. -/
  | alreadyRegistered (name : String)
  /-- A delay below zero. -/
  | invalidDelay (ms : Int)
  /-- The operation needs a transaction around it. -/
  | noActiveTransaction
  /-- A transaction body that did not finish within `limit`. -/
  | transactionTimeout (limit : Duration)
  /-- A transaction body that succeeded although a part of it had failed. -/
  | rolledBack
  /-- A state change that the life cycle does not have. -/
  | invalidTransition (source target : String)
  /-- A lookup by identity that found nothing. -/
  | notFound (entity id : String)
  /-- A schedule that cannot be built. -/
  | invalidSchedule (reason : String)
  /-- A setting that cannot be used. -/
  | configuration (reason : String)
  /-- A file that could not be read. -/
  | io
  /-- A text that does not encode the value asked for. -/
  | serialization
  /-- A failure of the application's own. -/
  | other (message : String)
  deriving DecidableEq, Repr

/-- The text shown for an error. The three causes that carry no data of their own
beyond what their reader supplied have none. -/
def Error.message? : Error → Option String
  | .notRegistered name => some ("Actor not registered: " ++ name)
  | .alreadyRegistered name =>
      some ("Actor already registered with a different instance: " ++ name)
  | .invalidDelay ms => some ("Invalid delay: " ++ toString ms ++ "ms")
  | .noActiveTransaction => some "No active transaction"
  | .transactionTimeout limit => some ("Transaction timed out after " ++ limit.render)
  | .invalidTransition source target =>
      some ("Invalid state transition: cannot transition from " ++ source ++ " to " ++ target)
  | .notFound entity id => some ("Entity not found: " ++ entity ++ " with id " ++ id)
  | .invalidSchedule reason => some ("Invalid schedule: " ++ reason)
  | .configuration reason => some ("Configuration error: " ++ reason)
  | .other message => some message
  | .rolledBack | .io | .serialization => none

/-- The name of an error's cause. -/
def Error.name : Error → String
  | .notRegistered _ => "NotRegistered"
  | .alreadyRegistered _ => "AlreadyRegistered"
  | .invalidDelay _ => "InvalidDelay"
  | .noActiveTransaction => "NoActiveTransaction"
  | .transactionTimeout _ => "TransactionTimeout"
  | .rolledBack => "RolledBack"
  | .invalidTransition _ _ => "InvalidStateTransition"
  | .notFound _ _ => "NotFound"
  | .invalidSchedule _ => "InvalidSchedule"
  | .configuration _ => "Configuration"
  | .io => "Io"
  | .serialization => "Serialization"
  | .other _ => "Other"

/-- Why an event did not reach every node it was sent to. -/
inductive BroadcastError
  /-- The transport refused the event. -/
  | transport (reason : String)
  /-- `failed` of the `attempted` nodes were not reached. -/
  | undelivered (failed attempted : Nat)
  deriving DecidableEq, Repr

def BroadcastError.message : BroadcastError → String
  | .transport reason => "Transport error: " ++ reason
  | .undelivered failed attempted =>
      "Delivery failed for " ++ toString failed ++ " of " ++ toString attempted ++ " nodes"

/-- How an operation that yields no result ended. -/
inductive Failure
  /-- It was refused. -/
  | error (cause : Error)
  /-- It broke off. -/
  | fault
  deriving DecidableEq, Repr

instance : Coe Error Failure := ⟨.error⟩

end RecurringWork
