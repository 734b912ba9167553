import RecurringWork.Recurrence.Codec
import RecurringWork.Work.Item

/-!
# RecurringWork.Work.Codec

**The stored form of a work item**, a record of twelve fields. Writing gives every
field; reading lets the optional ones be missing. The payload of a message is any
JSON value and is kept in canonical form.
-/

namespace RecurringWork

namespace WorkKind

def toJson : WorkKind → Json
  | .job name trigger =>
      .obj [("name", .str name), ("trigger", trigger.toJson), ("type", .str "job")]
  | .jobInstance id cursor =>
      .obj [("cursor", .ofOption .str cursor), ("job_id", .ofNat id),
        ("type", .str "job_instance")]
  | .notification channel payload =>
      .obj [("channel_type", .str channel), ("payload", payload), ("type", .str "notification")]

/-- The kind that a value stands for. It is held when its trigger is decoded. -/
def ofJson? (place : Json.Place) : Json → Option WorkKind :=
  Json.variant? place
    [⟨"job", ["name", "trigger"], fun ms => do
        pure (.job (← Json.required? Json.text? "name" ms)
          (← Json.required? (Recurrence.ofJson? .held) "trigger" ms))⟩,
      ⟨"job_instance", ["job_id", "cursor"], fun ms => do
        pure (.jobInstance (← Json.required? Json.nat64? "job_id" ms)
          (← Json.optional? Json.text? "cursor" ms))⟩,
      ⟨"notification", ["channel_type", "payload"], fun ms => do
        pure (.notification (← Json.required? Json.text? "channel_type" ms)
          (← Json.required? (some ∘ Json.canonical) "payload" ms))⟩]

end WorkKind

namespace WorkState

def toJson (s : WorkState) : Json := .str s.name

def ofJson? (j : Json) : Option WorkState := j.name?.bind ofName?

end WorkState

namespace WorkItem

/-- The fields in the order in which an array lists them. -/
def fieldNames : List String :=
  ["id", "kind", "partition_key", "state", "schedule_time", "creation_time",
    "last_execution_time", "state_changed_at", "defer_count", "max_defer_count", "deadline",
    "schedule"]

/-- The fields with their values, by name. -/
def members (i : WorkItem) : List (String × Json) :=
  [("creation_time", .int i.creationTime),
   ("deadline", .ofOption .int i.deadline),
   ("defer_count", .ofNat i.deferCount),
   ("id", .ofNat i.id),
   ("kind", i.kind.toJson),
   ("last_execution_time", .ofOption .int i.lastExecutionTime),
   ("max_defer_count", .ofOption .ofNat i.maxDeferCount),
   ("partition_key", .str i.route),
   ("schedule", .ofOption Recurrence.toJson i.recurrence),
   ("schedule_time", .ofOption .int i.scheduleTime),
   ("state", i.state.toJson),
   ("state_changed_at", .int i.stateChangedAt)]

def toJson (i : WorkItem) : Json := .obj i.members

def ofJson? (j : Json) : Option WorkItem := do
  let ms ← j.record? fieldNames
  pure
    { id := ← Json.required? Json.nat64? "id" ms
      kind := ← Json.required? (WorkKind.ofJson? (.text 1)) "kind" ms
      route := ← Json.required? Json.text? "partition_key" ms
      state := ← Json.required? WorkState.ofJson? "state" ms
      scheduleTime := ← Json.optional? Json.instant? "schedule_time" ms
      creationTime := ← Json.required? Json.instant? "creation_time" ms
      lastExecutionTime := ← Json.optional? Json.instant? "last_execution_time" ms
      stateChangedAt := ← Json.required? Json.instant? "state_changed_at" ms
      deferCount := ← Json.required? Json.nat32? "defer_count" ms
      maxDeferCount := ← Json.optional? Json.nat32? "max_defer_count" ms
      deadline := ← Json.optional? Json.instant? "deadline" ms
      recurrence := ← Json.optional? (Recurrence.ofJson? (.text 1)) "schedule" ms }

def decode? (text : String) : Option WorkItem := (Json.read? text).bind ofJson?

/-- The item with some fields of its stored form replaced, if that is an item
again. -/
def patched? (i : WorkItem) (fields : List (String × Json)) : Option WorkItem :=
  ofJson? (.obj (fields.foldl (fun ms f => Json.insertMember f.1 f.2 ms) i.members))

end WorkItem

end RecurringWork
