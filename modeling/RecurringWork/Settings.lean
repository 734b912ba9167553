import RecurringWork.Actor.Failures
import RecurringWork.Dispatch.Run
import RecurringWork.Error
import RecurringWork.Work.Item

/-!
# RecurringWork.Settings

**The settings of an engine**, with their defaults, the conditions under which an
engine can run with them (`Settings.validate`), and their stored form. Times are in
milliseconds.

A text of settings may leave out what is to stay as it is by default; it is judged
only once it has been read as a whole.
-/

namespace RecurringWork

/-- What is logged, and where. -/
structure LogSettings where
  /-- A filter directive. -/
  filter : String
  /-- Log in JSON. -/
  json : Bool
  /-- Also log into files of this directory. -/
  directory : Option String
  deriving DecidableEq, Repr

/-- The settings of an engine. -/
structure Settings where
  /-- How long shutdown waits for running actors. -/
  shutdownTimeout : Nat
  /-- The most items that an actor processes in one run. -/
  batchLimit : Nat
  /-- The longest sleep of an actor that has nothing to do. -/
  idlePollInterval : Nat
  /-- How far a deferred item moves into the future. -/
  deferDelay : Nat
  /-- How often an item may be deferred that does not say. -/
  maxDeferCount : Nat
  transactionTimeout : Nat
  /-- When failed runs are repeated; never without. -/
  retry : Option RetryPolicy
  logging : LogSettings
  deriving DecidableEq, Repr

namespace LogSettings

def standard : LogSettings := ⟨"herald=info", false, none⟩

def toJson (l : LogSettings) : Json :=
  .obj [("dir", .ofOption .str l.directory), ("filter", .str l.filter), ("json", .bool l.json)]

def ofJson? (j : Json) : Option LogSettings := do
  let ms ← j.partialRecord? ["filter", "json", "dir"]
  pure ⟨← Json.defaulted? standard.filter Json.text? "filter" ms,
    ← Json.defaulted? standard.json Json.bool? "json" ms, ← Json.optional? Json.text? "dir" ms⟩

end LogSettings

namespace Settings

def standard : Settings where
  shutdownTimeout := 30000
  batchLimit := 100
  idlePollInterval := 60000
  deferDelay := 5000
  maxDeferCount := WorkItem.defaultMaxDeferCount
  transactionTimeout := 30000
  retry := none
  logging := .standard

/-- How the workers of an engine with these settings pace themselves. -/
def pace (s : Settings) : Pace :=
  ⟨s.batchLimit, .ofMillis s.idlePollInterval, .ofMillis s.deferDelay⟩

def retryFlaw? (p : RetryPolicy) : Option String :=
  if p.maxFailures = 0 then some "retry_policy.max_failures must be positive"
  else if p.maxBackoff < p.baseBackoff then
    some "retry_policy.base_backoff_ms exceeds max_backoff_ms"
  else none

/-- What is wrong with the settings, the first flaw of several. -/
def flaw? (s : Settings) : Option String :=
  if s.batchLimit = 0 then some "batch_limit must be positive"
  else if s.idlePollInterval = 0 then some "idle_poll_interval_ms must be positive"
  else if s.transactionTimeout = 0 then some "transaction_timeout_ms must be positive"
  else s.retry.bind retryFlaw?

/-- The settings, if an engine can run with them. -/
def validate (s : Settings) : Except Error Settings :=
  match s.flaw? with
  | none => .ok s
  | some flaw => .error (.configuration flaw)

def toJson (s : Settings) : Json :=
  .obj [("batch_limit", .ofNat s.batchLimit), ("default_max_defer_count", .ofNat s.maxDeferCount),
    ("defer_delay_ms", .ofNat s.deferDelay), ("idle_poll_interval_ms", .ofNat s.idlePollInterval),
    ("logging", s.logging.toJson), ("retry_policy", .ofOption RetryPolicy.toJson s.retry),
    ("shutdown_timeout_ms", .ofNat s.shutdownTimeout),
    ("transaction_timeout_ms", .ofNat s.transactionTimeout)]

/-- The fields in the order in which an array lists them. -/
def fieldNames : List String :=
  ["shutdown_timeout_ms", "batch_limit", "idle_poll_interval_ms", "defer_delay_ms",
    "default_max_defer_count", "transaction_timeout_ms", "retry_policy", "logging"]

/-- The settings that a value stands for, usable or not. -/
def ofJson? (j : Json) : Option Settings := do
  let ms ← j.partialRecord? fieldNames
  pure
    { shutdownTimeout :=
        ← Json.defaulted? standard.shutdownTimeout Json.nat64? "shutdown_timeout_ms" ms
      batchLimit := ← Json.defaulted? standard.batchLimit Json.nat64? "batch_limit" ms
      idlePollInterval :=
        ← Json.defaulted? standard.idlePollInterval Json.nat64? "idle_poll_interval_ms" ms
      deferDelay := ← Json.defaulted? standard.deferDelay Json.nat64? "defer_delay_ms" ms
      maxDeferCount :=
        ← Json.defaulted? standard.maxDeferCount Json.nat32? "default_max_defer_count" ms
      transactionTimeout :=
        ← Json.defaulted? standard.transactionTimeout Json.nat64? "transaction_timeout_ms" ms
      retry := ← Json.optional? RetryPolicy.ofJson? "retry_policy" ms
      logging := ← Json.defaulted? standard.logging LogSettings.ofJson? "logging" ms }

def decode (text : String) : Except Error Settings :=
  match (Json.read? text).bind ofJson? with
  | none => .error .serialization
  | some s => s.validate

/-- Only usable settings are accepted, and as they are. -/
theorem validate_eq_ok {s t : Settings} : s.validate = .ok t ↔ s.flaw? = none ∧ t = s := by
  cases h : s.flaw? <;> simp [validate, h, eq_comm]

end Settings

end RecurringWork
