import RecurringWork.Cluster.Event
import RecurringWork.Proofs.Cluster.AddressText
import RecurringWork.Proofs.Json.Fields
import RecurringWork.Proofs.Json.Order
import RecurringWork.Work.Codec

/-!
# RecurringWork.Proofs.Json.RoundTrip

**Decoding undoes encoding** (`decode?_render`), for recurrences, work items and events. The
values for which this holds are those that the types of the fields allow: `Fits` bounds the
numbers, and a payload is a value with integers of 64 bits whose members are sorted
(`Json.IsPayload`). Texts and addresses are not restricted, and what is absent may be so in
any combination.

For each type it is shown that what is written is exact, so that the text is read back as
the JSON value it was written from; how deep that value is nested; and that it is decoded to
the value encoded, if the variant in it can be held. The last needs the nesting only: the
kind of an item or an event stands one container deep, and nothing beside it goes deeper.

What is written has its members sorted. That a text in which they stand as they are declared,
or in any other order, is read back as well, follows from the decoders being blind to the
order (`blind_ofJson?`).
-/

namespace RecurringWork

namespace Recurrence

/-- The delays fit 64 bits. -/
def Fits : Recurrence → Prop
  | .cron _ _ => True
  | .fixedDelay delay initialDelay => Json.Nat64 delay ∧ Json.Nat64 initialDelay

theorem isExact_toJson {r : Recurrence} (fits : r.Fits) : r.toJson.isExact := by
  match r, fits with
  | .cron _ none, _ | .cron _ (some _), _ => rfl
  | .fixedDelay delay initialDelay, ⟨fits, initialFits⟩ =>
    simp [toJson, Json.isExact, Json.isExactMembers, Json.isExact_ofNat fits,
      Json.isExact_ofNat initialFits]

theorem depth_toJson (r : Recurrence) : r.toJson.depth = 1 := by
  match r with
  | .cron _ none | .cron _ (some _) | .fixedDelay _ _ => rfl

theorem ofJson?_toJson {r : Recurrence} (fits : r.Fits) {place : Json.Place}
    (holds : place.holds r.toJson) : ofJson? place r.toJson = some r := by
  match r, fits with
  | .cron expression zone, _ =>
    refine Json.variant?_of_case holds rfl rfl (by rfl) ?_
    dsimp only
    refine Json.bind_of_some (a := expression) rfl ?_
    refine Json.bind_of_some (Json.optional?_of_member (e := .str) (o := zone) rfl ?_ ?_) rfl
    · exact fun _ => Json.noConfusion
    · exact fun _ _ => rfl
  | .fixedDelay delay initialDelay, ⟨fits, initialFits⟩ =>
    refine Json.variant?_of_case holds rfl rfl (by rfl) ?_
    dsimp only
    refine Json.bind_of_some (Json.required?_of_member rfl (Json.nat64?_ofNat fits)) ?_
    exact Json.bind_of_some (Json.nat64?_ofNat initialFits) rfl

/-- What is written of a recurrence is read back. -/
theorem decode?_toJson {r : Recurrence} (fits : r.Fits) : decode? r.toJson.render = some r := by
  have exact := isExact_toJson fits
  rw [decode?, Json.read?_render exact, Option.bind_some]
  refine ofJson?_toJson fits ?_
  rw [Json.holds_text exact, depth_toJson]
  rfl

theorem blind_ofJson? (place : Json.Place) : Json.Blind (ofJson? place) := by
  refine Json.blind_variant? place (List.forall_mem_cons.mpr
    ⟨fun ⦃ms ns⦄ h => ?cron, List.forall_mem_singleton.mpr fun ⦃ms ns⦄ h => ?fixedDelay⟩)
  case cron => simp only [h.required? Json.blind_text?, h.optional? Json.blind_text?]
  case fixedDelay => simp only [h.required? Json.blind_nat64?, h.defaulted? Json.blind_nat64?]

theorem toJson_ne_null (r : Recurrence) : r.toJson ≠ .null := by
  cases r <;> exact Json.noConfusion

end Recurrence

namespace WorkKind

/-- The numbers fit 64 bits, those of a payload too. -/
def Fits : WorkKind → Prop
  | .job _ trigger => trigger.Fits
  | .jobInstance jobId _ => Json.Nat64 jobId
  | .notification _ payload => payload.IsPayload

theorem isExact_toJson {k : WorkKind} (fits : k.Fits) : k.toJson.isExact := by
  match k, fits with
  | .job name trigger, fits =>
    simp [toJson, Json.isExact, Json.isExactMembers, Recurrence.isExact_toJson fits]
  | .jobInstance jobId cursor, fits =>
    simp [toJson, Json.isExact, Json.isExactMembers, Json.isExact_ofNat fits]
  | .notification channel payload, fits =>
    simp [toJson, Json.isExact, Json.isExactMembers, Json.IsPayload.exact fits]

theorem depth_toJson_pos (k : WorkKind) : 0 < k.toJson.depth := by
  cases k <;> exact Nat.succ_pos _

theorem ofJson?_toJson {k : WorkKind} (fits : k.Fits) {place : Json.Place}
    (holds : place.holds k.toJson) : ofJson? place k.toJson = some k := by
  match k, fits with
  | .job name trigger, fits =>
    refine Json.variant?_of_case holds rfl rfl (by rfl) ?_
    dsimp only
    refine Json.bind_of_some (a := name) rfl ?_
    exact Json.bind_of_some (Json.required?_of_member rfl (Recurrence.ofJson?_toJson fits rfl)) rfl
  | .jobInstance jobId cursor, fits =>
    refine Json.variant?_of_case holds rfl rfl (by rfl) ?_
    dsimp only
    refine Json.bind_of_some (Json.required?_of_member rfl (Json.nat64?_ofNat fits)) ?_
    exact Json.bind_of_some (Json.optional?_of_member (e := .str) (o := cursor) rfl
      (fun _ => Json.noConfusion) fun _ _ => rfl) rfl
  | .notification channel payload, fits =>
    refine Json.variant?_of_case holds rfl rfl (by rfl) ?_
    dsimp only
    refine Json.bind_of_some (a := channel) rfl ?_
    exact Json.bind_of_some (Json.required?_of_member rfl (Json.IsPayload.kept fits)) rfl

theorem blind_ofJson? (place : Json.Place) : Json.Blind (ofJson? place) := by
  refine Json.blind_variant? place (List.forall_mem_cons.mpr
    ⟨fun ⦃ms ns⦄ h => ?job, List.forall_mem_cons.mpr
      ⟨fun ⦃ms ns⦄ h => ?jobInstance,
        List.forall_mem_singleton.mpr fun ⦃ms ns⦄ h => ?notification⟩⟩)
  case job =>
    simp only [h.required? Json.blind_text?, h.required? (Recurrence.blind_ofJson? .held)]
  case jobInstance => simp only [h.required? Json.blind_nat64?, h.optional? Json.blind_text?]
  case notification => simp only [h.required? Json.blind_text?, h.required? Json.blind_canonical]

end WorkKind

namespace WorkItem

/-- The numbers fit their fields. -/
structure Fits (i : WorkItem) : Prop where
  id : Json.Nat64 i.id
  kind : i.kind.Fits
  scheduleTime : ∀ t ∈ i.scheduleTime, Instant.Fits t
  creationTime : Instant.Fits i.creationTime
  lastExecutionTime : ∀ t ∈ i.lastExecutionTime, Instant.Fits t
  stateChangedAt : Instant.Fits i.stateChangedAt
  deferCount : Json.Nat32 i.deferCount
  maxDeferCount : ∀ n ∈ i.maxDeferCount, Json.Nat32 n
  deadline : ∀ t ∈ i.deadline, Instant.Fits t
  recurrence : ∀ r ∈ i.recurrence, r.Fits

theorem isExact_toJson {i : WorkItem} (fits : i.Fits) : i.toJson.isExact := by
  have instants {o : Option Int} (h : ∀ t ∈ o, Instant.Fits t) : (Json.ofOption .int o).isExact :=
    Json.isExact_ofOption fun t mem => Json.isExact_of_fits64 (Json.fits64_of_instant (h t mem))
  have counts {n : Nat} (h : Json.Nat32 n) : (Json.ofNat n).isExact :=
    Json.isExact_ofNat (Nat.lt_trans h (by decide))
  simp [toJson, members, Json.isExact, Json.isExactMembers, WorkState.toJson,
    instants fits.scheduleTime, instants fits.lastExecutionTime, instants fits.deadline,
    Json.fits64_of_instant fits.creationTime, Json.fits64_of_instant fits.stateChangedAt,
    Json.isExact_ofNat fits.id, WorkKind.isExact_toJson fits.kind, counts fits.deferCount,
    Json.isExact_ofOption fun n mem => counts (fits.maxDeferCount n mem),
    Json.isExact_ofOption fun r mem => Recurrence.isExact_toJson (fits.recurrence r mem)]

theorem depth_toJson (i : WorkItem) : i.toJson.depth = i.kind.toJson.depth + 1 := by
  have kind := i.kind.depth_toJson_pos
  have instants (o : Option Int) : (Json.ofOption .int o).depth = 0 := by cases o <;> rfl
  have counts (o : Option Nat) : (Json.ofOption .ofNat o).depth = 0 := by cases o <;> rfl
  have recurrence : (Json.ofOption Recurrence.toJson i.recurrence).depth ≤ 1 := by
    cases i.recurrence with
    | none => exact Nat.zero_le 1
    | some r => exact Nat.le_of_eq r.depth_toJson
  simp [toJson, members, Json.depth, Json.depthMembers, WorkState.toJson, instants, counts,
    Json.ofNat]
  omega

theorem ofJson?_toJson {i : WorkItem} (fits : i.Fits)
    (holds : Json.Place.holds (.text 1) i.kind.toJson) : ofJson? i.toJson = some i := by
  have instants {name : String} {o : Option Int} (h : ∀ t ∈ o, Instant.Fits t)
      (found : Json.member? name i.members = some (.ofOption .int o)) :
      Json.optional? Json.instant? name i.members = some o :=
    Json.optional?_of_member found (fun _ => Json.noConfusion) fun t mem =>
      Json.instant?_int (h t mem)
  have recurrence : ∀ r ∈ i.recurrence, Recurrence.ofJson? (.text 1) r.toJson = some r := by
    intro r mem
    have fits := fits.recurrence r mem
    refine Recurrence.ofJson?_toJson fits ?_
    rw [Json.holds_text (Recurrence.isExact_toJson fits), r.depth_toJson]
    rfl
  unfold ofJson?
  refine Json.bind_of_some (a := i.members) rfl ?_
  refine Json.bind_of_some (Json.required?_of_member rfl (Json.nat64?_ofNat fits.id)) ?_
  refine Json.bind_of_some
    (Json.required?_of_member rfl (WorkKind.ofJson?_toJson fits.kind holds)) ?_
  refine Json.bind_of_some (a := i.route) rfl ?_
  refine Json.bind_of_some
    (Json.required?_of_member (j := i.state.toJson) rfl (WorkState.ofName?_name i.state)) ?_
  refine Json.bind_of_some (instants fits.scheduleTime rfl) ?_
  refine Json.bind_of_some (Json.required?_of_member rfl (Json.instant?_int fits.creationTime)) ?_
  refine Json.bind_of_some (instants fits.lastExecutionTime rfl) ?_
  refine Json.bind_of_some
    (Json.required?_of_member rfl (Json.instant?_int fits.stateChangedAt)) ?_
  refine Json.bind_of_some (Json.required?_of_member rfl (Json.nat32?_ofNat fits.deferCount)) ?_
  refine Json.bind_of_some (Json.optional?_of_member (e := .ofNat) rfl
    (fun _ => Json.noConfusion) fun n mem => Json.nat32?_ofNat (fits.maxDeferCount n mem)) ?_
  refine Json.bind_of_some (instants fits.deadline rfl) ?_
  exact Json.bind_of_some
    (Json.optional?_of_member rfl Recurrence.toJson_ne_null recurrence) rfl

theorem decode?_toJson {i : WorkItem} (fits : i.Fits) :
    decode? i.toJson.render = if i.toJson.depth ≤ Json.nestingLimit then some i else none := by
  have holds := Json.holds_text (WorkKind.isExact_toJson fits.kind) 1
  rw [Nat.add_comm] at holds
  rw [decode?, Json.read?_render (isExact_toJson fits), Option.bind_some, depth_toJson]
  split
  · next few => exact ofJson?_toJson fits (holds.trans (decide_eq_true few))
  · next many =>
    have kind : WorkKind.ofJson? (.text 1) i.kind.toJson = none :=
      Json.variant?_of_not_holds _ (holds.trans (decide_eq_false many))
    unfold ofJson?
    refine Json.bind_of_some (a := i.members) rfl ?_
    refine Json.bind_of_some (Json.required?_of_member rfl (Json.nat64?_ofNat fits.id)) ?_
    exact Json.bind_of_none (Json.required?_of_member rfl kind)

theorem blind_ofJson? : Json.Blind ofJson? := by
  refine Json.blind_record? fun ⦃ms ns⦄ h => ?_
  have state : Json.Blind WorkState.ofJson? := Json.blind_name?.bind WorkState.ofName?
  simp only [h.required? Json.blind_nat64?, h.required? (WorkKind.blind_ofJson? (.text 1)),
    h.required? Json.blind_text?, h.required? state, h.optional? Json.blind_instant?,
    h.required? Json.blind_instant?, h.required? Json.blind_nat32?,
    h.optional? Json.blind_nat32?, h.optional? (Recurrence.blind_ofJson? (.text 1))]

end WorkItem

namespace Category

theorem ofName?_name (c : Category) : ofName? c.name = some c := by cases c <;> rfl

end Category

namespace Address

theorem isExact_toJson (a : Address) : a.toJson.isExact := by
  have port : Json.Nat64 a.port.toNat := Nat.lt_trans a.port.toNat_lt (by decide)
  simp [toJson, Json.isExact, Json.isExactMembers, Json.isExact_ofNat port]

theorem ofJson?_toJson (a : Address) : ofJson? a.toJson = some a := by
  unfold ofJson?
  refine Json.bind_of_some rfl ?_
  refine Json.bind_of_some
    (Json.required?_of_member (j := .str a.ip.render) rfl a.ip.read?_render) ?_
  refine Json.bind_of_some
    (Json.required?_of_member rfl (Json.natBelow?_ofNat a.port.toNat_lt)) ?_
  simp

theorem blind_ofJson? : Json.Blind ofJson? := by
  refine Json.blind_record? fun ⦃ms ns⦄ h => ?_
  simp only [h.required? (Json.blind_text?.bind Ip.read?), h.required? Json.blind_nat16?]

end Address

namespace EventKind

/-- The numbers fit 64 bits, those of a payload too. -/
def Fits : EventKind → Prop
  | .rescheduleActor _ delay => Instant.Fits delay
  | .backlogChanged _ due => Instant.Fits due
  | .custom _ payload => payload.IsPayload

theorem isExact_toJson {k : EventKind} (fits : k.Fits) : k.toJson.isExact := by
  match k, fits with
  | .rescheduleActor actor delay, fits | .backlogChanged route due, fits =>
    simp [toJson, Json.isExact, Json.isExactMembers, Json.fits64_of_instant fits]
  | .custom topic payload, fits =>
    simp [toJson, Json.isExact, Json.isExactMembers, Json.IsPayload.exact fits]

theorem depth_toJson_pos (k : EventKind) : 0 < k.toJson.depth := by
  cases k <;> exact Nat.succ_pos _

theorem ofJson?_toJson {k : EventKind} (fits : k.Fits) {place : Json.Place}
    (holds : place.holds k.toJson) : ofJson? place k.toJson = some k := by
  match k, fits with
  | .rescheduleActor actor delay, fits =>
    refine Json.variant?_of_case holds rfl rfl (by rfl) ?_
    dsimp only
    refine Json.bind_of_some (a := actor) rfl ?_
    exact Json.bind_of_some (Json.required?_of_member rfl (Json.instant?_int fits)) rfl
  | .backlogChanged route due, fits =>
    refine Json.variant?_of_case holds rfl rfl (by rfl) ?_
    dsimp only
    refine Json.bind_of_some (a := route) rfl ?_
    exact Json.bind_of_some (Json.required?_of_member rfl (Json.instant?_int fits)) rfl
  | .custom topic payload, fits =>
    refine Json.variant?_of_case holds rfl rfl (by rfl) ?_
    dsimp only
    refine Json.bind_of_some (a := topic) rfl ?_
    exact Json.bind_of_some (Json.required?_of_member rfl (Json.IsPayload.kept fits)) rfl

theorem blind_ofJson? (place : Json.Place) : Json.Blind (ofJson? place) := by
  refine Json.blind_variant? place (List.forall_mem_cons.mpr
    ⟨fun ⦃ms ns⦄ h => ?rescheduleActor, List.forall_mem_cons.mpr
      ⟨fun ⦃ms ns⦄ h => ?backlogChanged, List.forall_mem_singleton.mpr fun ⦃ms ns⦄ h => ?custom⟩⟩)
  case custom => simp only [h.required? Json.blind_text?, h.required? Json.blind_canonical]
  all_goals simp only [h.required? Json.blind_text?, h.required? Json.blind_instant?]

end EventKind

namespace Event

/-- The numbers of its kind fit; an address has none that do not. -/
def Fits (e : Event) : Prop := e.kind.Fits

theorem isExact_categories (cs : List Category) :
    Json.isExactElements (cs.map fun c => .str c.name) := by
  induction cs with
  | nil => rfl
  | cons c cs ih => exact ih

theorem depth_categories (cs : List Category) :
    Json.depthElements (cs.map fun c => .str c.name) = 0 := by
  induction cs with
  | nil => rfl
  | cons c cs ih => simpa [Json.depthElements, Json.depth] using ih

theorem list?_categories (cs : List Category) :
    Json.list? (fun c => c.name?.bind Category.ofName?)
      (.arr (cs.map fun c => .str c.name)) = some cs := by
  rw [Json.list?]
  induction cs with
  | nil => rfl
  | cons c cs ih =>
    rw [List.map_cons, List.mapM_cons]
    simp only [ih]
    exact Json.bind_of_some c.ofName?_name rfl

theorem isExact_toJson {e : Event} (fits : e.Fits) : e.toJson.isExact := by
  simp [toJson, Json.isExact, Json.isExactMembers, isExact_categories,
    EventKind.isExact_toJson fits, Json.isExact_ofOption fun a _ => Address.isExact_toJson a]

theorem depth_toJson (e : Event) : e.toJson.depth = e.kind.toJson.depth + 1 := by
  have kind := e.kind.depth_toJson_pos
  have origin : (Json.ofOption Address.toJson e.origin).depth ≤ 1 := by
    cases e.origin with
    | none => exact Nat.zero_le 1
    | some a => exact Nat.le_refl 1
  simp [toJson, Json.depth, Json.depthMembers, depth_categories]
  omega

theorem ofJson?_toJson {e : Event} (fits : e.Fits)
    (holds : Json.Place.holds (.text 1) e.kind.toJson) : ofJson? e.toJson = some e := by
  unfold ofJson?
  refine Json.bind_of_some rfl ?_
  refine Json.bind_of_some
    (Json.required?_of_member rfl (EventKind.ofJson?_toJson fits holds)) ?_
  refine Json.bind_of_some (Json.required?_of_member rfl (list?_categories e.categories)) ?_
  exact Json.bind_of_some (Json.optional?_of_member rfl (fun _ => Json.noConfusion)
    fun a _ => a.ofJson?_toJson) rfl

theorem decode?_toJson {e : Event} (fits : e.Fits) :
    decode? e.toJson.render = if e.toJson.depth ≤ Json.nestingLimit then some e else none := by
  have holds := Json.holds_text (EventKind.isExact_toJson fits) 1
  rw [Nat.add_comm] at holds
  rw [decode?, Json.read?_render (isExact_toJson fits), Option.bind_some, depth_toJson]
  split
  · next few => exact ofJson?_toJson fits (holds.trans (decide_eq_true few))
  · next many =>
    have kind : EventKind.ofJson? (.text 1) e.kind.toJson = none :=
      Json.variant?_of_not_holds _ (holds.trans (decide_eq_false many))
    unfold ofJson?
    refine Json.bind_of_some rfl ?_
    exact Json.bind_of_none (Json.required?_of_member rfl kind)

theorem blind_ofJson? : Json.Blind ofJson? := by
  refine Json.blind_record? fun ⦃ms ns⦄ h => ?_
  have categories := (Json.blind_name?.bind Category.ofName?).list?
  simp only [h.required? (EventKind.blind_ofJson? (.text 1)), h.required? categories,
    h.optional? Address.blind_ofJson?]

end Event

/-- Decoding undoes encoding. The text written of a recurrence, a work item or an event whose
numbers fit their fields is read back as that value, and so is a text with the same members in
any other order. A work item or an event is read back up to the limit of nesting, and beyond
it not at all. -/
theorem decode?_render :
    (∀ r : Recurrence, r.Fits → Recurrence.decode? r.toJson.render = some r ∧
      ∀ j : Json, j.Reorders r.toJson →
        Recurrence.decode? j.render = Recurrence.decode? r.toJson.render) ∧
    (∀ i : WorkItem, i.Fits →
      WorkItem.decode? i.toJson.render =
        (if i.toJson.depth ≤ Json.nestingLimit then some i else none) ∧
      ∀ j : Json, j.Reorders i.toJson →
        WorkItem.decode? j.render = WorkItem.decode? i.toJson.render) ∧
    (∀ e : Event, e.Fits →
      Event.decode? e.toJson.render =
        (if e.toJson.depth ≤ Json.nestingLimit then some e else none) ∧
      ∀ j : Json, j.Reorders e.toJson →
        Event.decode? j.render = Event.decode? e.toJson.render) := by
  refine ⟨fun r fits => ⟨Recurrence.decode?_toJson fits, fun j h => ?_⟩,
    fun i fits => ⟨WorkItem.decode?_toJson fits, fun j h => ?_⟩,
    fun e fits => ⟨Event.decode?_toJson fits, fun j h => ?_⟩⟩
  · exact h.decoded (Recurrence.isExact_toJson fits) (Recurrence.blind_ofJson? (.text 0))
  · exact h.decoded (WorkItem.isExact_toJson fits) WorkItem.blind_ofJson?
  · exact h.decoded (Event.isExact_toJson fits) Event.blind_ofJson?

/-- A message for a channel, at the limits of its numbers. -/
def extremeItem : WorkItem where
  id := 18446744073709551615
  kind := .notification "mail" (.obj [("", .null), ("a", .arr [.int (-9223372036854775808),
    .int 18446744073709551615])])
  route := "mail \"\n"
  state := .deadlineReached
  scheduleTime := some 9223372036854775807
  creationTime := -9223372036854775808
  lastExecutionTime := none
  stateChangedAt := 0
  deferCount := 4294967295
  maxDeferCount := some 4294967295
  deadline := none
  recurrence := some (.fixedDelay 18446744073709551615 0)

/-- An event from a node with an address of the mapped range. -/
def mappedEvent : Event where
  kind := .custom "topic" (.arr [.obj [("b", .bool true)]])
  categories := [.custom, .any, .custom]
  origin := some ⟨.v6 #v[0, 0, 0, 0, 0, 0xffff, 0x7f00, 1], 65535⟩

/-- The members of that event in the order in which its fields are declared. -/
def declaredEvent : Json :=
  .obj [("kind", .obj [("type", .str "custom"), ("topic", .str "topic"),
      ("payload", .arr [.obj [("b", .bool true)]])]),
    ("categories", .arr [.str "custom", .str "any", .str "custom"]),
    ("origin", .obj [("ip", .str "::ffff:127.0.0.1"), ("port", .int 65535)])]

theorem decode?_render_of_extremes :
    Recurrence.decode? (Recurrence.fixedDelay 18446744073709551615 0).toJson.render =
      some (.fixedDelay 18446744073709551615 0) ∧
    WorkItem.decode? extremeItem.toJson.render = some extremeItem ∧
    Event.decode? mappedEvent.toJson.render = some mappedEvent ∧
    Event.decode? declaredEvent.render = some mappedEvent := by
  obtain ⟨recurrences, items, events⟩ := decode?_render
  have item : extremeItem.Fits :=
    { id := by decide
      kind := ⟨rfl, rfl⟩
      scheduleTime := by decide
      creationTime := by decide
      lastExecutionTime := by decide
      stateChangedAt := by decide
      deferCount := by decide
      maxDeferCount := by decide
      deadline := by decide
      recurrence := fun r mem => by cases mem; exact ⟨by decide, by decide⟩ }
  obtain ⟨read, reordered⟩ := events mappedEvent ⟨rfl, rfl⟩
  have event : Event.decode? mappedEvent.toJson.render = some mappedEvent :=
    read.trans (if_pos (by decide))
  refine ⟨(recurrences (.fixedDelay _ _) ⟨by decide, by decide⟩).1, ?_, event, ?_⟩
  · exact (items _ item).1.trans (if_pos (by decide))
  · exact (reordered declaredEvent ⟨rfl, rfl⟩).trans event

end RecurringWork
