import RecurringWork.Settings
import RecurringWork.Text.Blank
import RecurringWork.Text.Number
import RecurringWork.Text.Shown

/-!
# RecurringWork.Settings.Variables

**Settings from variables.** Each setting has a variable of its own; one that is not
set leaves the default. Values are read in a fixed order and the first that cannot be
read is reported. The two backoff variables count only when the variable that turns
repetition on is set.
-/

namespace RecurringWork.Settings

/-- A source of variables. -/
abbrev Variables := String → Option String

/-- The value of a variable, read by `read` without the blanks around it. -/
def reading {α : Type} (read : List Char → Except Text.Flaw α) (vars : Variables)
    (name : String) : Except Error (Option α) :=
  match vars name with
  | none => .ok none
  | some raw =>
      match read (Text.trim raw.toList) with
      | .ok a => .ok (some a)
      | .error flaw =>
          .error (.configuration ("Invalid value for " ++ name ++ ": " ++ Text.shown raw ++
            " (" ++ flaw.message ++ ")"))

/-- A number that fits 64 bits. -/
def number64 : Variables → String → Except Error (Option Nat) :=
  reading (Text.natural 18446744073709551616)

/-- A number that fits 32 bits. -/
def number32 : Variables → String → Except Error (Option Nat) :=
  reading (Text.natural 4294967296)

/-- The retry policy, if the variable that asks for one is set. -/
def retryOfVariables (vars : Variables) : Except Error (Option RetryPolicy) := do
  match ← number64 vars "HERALD_RETRY_MAX_FAILURES" with
  | none => pure none
  | some maxFailures =>
      let base ← number64 vars "HERALD_RETRY_BASE_BACKOFF_MS"
      let longest ← number64 vars "HERALD_RETRY_MAX_BACKOFF_MS"
      pure (some
        { RetryPolicy.standard with
          maxFailures
          baseBackoff := base.getD RetryPolicy.standard.baseBackoff
          maxBackoff := longest.getD RetryPolicy.standard.maxBackoff })

/-- The settings that variables give, if an engine can run with them. -/
def ofVariables (vars : Variables) : Except Error Settings := do
  let shutdownTimeout ← number64 vars "HERALD_SHUTDOWN_TIMEOUT_MS"
  let batchLimit ← number64 vars "HERALD_BATCH_LIMIT"
  let idlePollInterval ← number64 vars "HERALD_IDLE_POLL_MS"
  let deferDelay ← number64 vars "HERALD_DEFER_DELAY_MS"
  let maxDeferCount ← number32 vars "HERALD_MAX_DEFER_COUNT"
  let transactionTimeout ← number64 vars "HERALD_TRANSACTION_TIMEOUT_MS"
  let retry ← retryOfVariables vars
  let json ← reading Text.truth vars "HERALD_LOG_JSON"
  let read : Settings :=
    { shutdownTimeout := shutdownTimeout.getD standard.shutdownTimeout
      batchLimit := batchLimit.getD standard.batchLimit
      idlePollInterval := idlePollInterval.getD standard.idlePollInterval
      deferDelay := deferDelay.getD standard.deferDelay
      maxDeferCount := maxDeferCount.getD standard.maxDeferCount
      transactionTimeout := transactionTimeout.getD standard.transactionTimeout
      retry := retry
      logging :=
        { filter := (vars "HERALD_LOG").getD LogSettings.standard.filter
          json := json.getD LogSettings.standard.json
          directory := vars "HERALD_LOG_DIR" } }
  read.validate

end RecurringWork.Settings
