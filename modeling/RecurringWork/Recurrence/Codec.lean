import RecurringWork.Json.Decode
import RecurringWork.Recurrence

/-!
# RecurringWork.Recurrence.Codec

**The stored form of a recurrence**, a variant with the cases `cron` and
`fixed_delay`. Writing gives every field; reading lets the zone and the initial delay
be missing.
-/

namespace RecurringWork

namespace Recurrence

def toJson : Recurrence → Json
  | .cron expression zone =>
      .obj [("expression", .str expression), ("timezone", .ofOption .str zone),
        ("type", .str "cron")]
  | .fixedDelay delay initialDelay =>
      .obj [("delay_ms", .ofNat delay), ("initial_delay_ms", .ofNat initialDelay),
        ("type", .str "fixed_delay")]

/-- The recurrence that a value stands for. -/
def ofJson? (place : Json.Place) : Json → Option Recurrence :=
  Json.variant? place
    [⟨"cron", ["expression", "timezone"], fun ms => do
        pure (.cron (← Json.required? Json.text? "expression" ms)
          (← Json.optional? Json.text? "timezone" ms))⟩,
      ⟨"fixed_delay", ["delay_ms", "initial_delay_ms"], fun ms => do
        pure (.fixedDelay (← Json.required? Json.nat64? "delay_ms" ms)
          (← Json.defaulted? 0 Json.nat64? "initial_delay_ms" ms))⟩]

def decode? (text : String) : Option Recurrence :=
  (Json.read? text).bind (ofJson? (.text 0))

end Recurrence

namespace History

def toJson (h : History) : Json :=
  .obj [("last_actual_execution_time", .ofOption .int h.lastActual),
    ("last_completion_time", .ofOption .int h.lastCompletion),
    ("last_scheduled_execution_time", .ofOption .int h.lastScheduled)]

end History

end RecurringWork
