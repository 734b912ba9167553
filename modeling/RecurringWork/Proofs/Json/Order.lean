import Mathlib.Data.Option.Basic
import RecurringWork.Proofs.Json.Canonical
import RecurringWork.Proofs.Json.Reading

/-!
# RecurringWork.Proofs.Json.Order

**A decoder does not see the order in which members are written** (`Json.Blind`), as long as
no name occurs twice: it does with a value what it does with the canonical form. This holds
of the scalars and is kept by each way to put decoders together, since a decoder looks at
members by their names only (`Json.Rewrites`) and at the whole only for its nesting and for
parts without a value (`Json.Alike`).

The writer puts members in the order of their names. So a text in which they stand in another
order, as that of the declaration, is decoded as the text written (`Json.Reorders.decoded`).
-/

namespace RecurringWork.Json

open scoped List

/-! ### What the canonical form shares with the value -/

/-- Nested alike, with parts of which all or none have a value and are exact. -/
structure Alike (j k : Json) : Prop where
  depth : k.depth = j.depth
  whole : k.isWhole = j.isWhole
  exact : k.isExact = j.isExact

namespace Alike

variable {j k : Json} {ms ns : List (String × Json)}

theorem refl (j : Json) : Alike j j := ⟨rfl, rfl, rfl⟩

theorem trans {l : Json} (h : Alike j k) (h' : Alike k l) : Alike j l :=
  ⟨h'.depth.trans h.depth, h'.whole.trans h.whole, h'.exact.trans h.exact⟩

theorem element {xs ys : List Json} (first : Alike j k) (later : Alike (.arr xs) (.arr ys)) :
    Alike (.arr (j :: xs)) (.arr (k :: ys)) where
  depth := by
    have depth : depthElements ys = depthElements xs := Nat.succ.inj later.depth
    simp only [Json.depth, depthElements, first.depth, depth]
  whole := congrArg₂ and first.whole later.whole
  exact := congrArg₂ and first.exact later.exact

theorem member {m n : String} (first : Alike j k) (later : Alike (.obj ms) (.obj ns)) :
    Alike (.obj ((m, j) :: ms)) (.obj ((n, k) :: ns)) where
  depth := by
    have depth : depthMembers ns = depthMembers ms := Nat.succ.inj later.depth
    simp only [Json.depth, depthMembers, first.depth, depth]
  whole := congrArg₂ and first.whole later.whole
  exact := congrArg₂ and first.exact later.exact

theorem of_perm (h : ms ~ ns) : Alike (.obj ms) (.obj ns) := by
  induction h with
  | nil => exact refl _
  | cons m _ ih => exact (refl m.2).member ih
  | swap m n ms =>
    constructor
    · simp only [Json.depth, depthMembers, Nat.max_left_comm]
    · simp only [isWhole, isWholeMembers, Bool.and_left_comm]
    · simp only [isExact, isExactMembers, Bool.and_left_comm]
  | trans _ _ ih ih' => exact ih.trans ih'

end Alike

mutual

theorem alike_canonical : ∀ {j : Json}, j.isDistinct → Alike j j.canonical
  | .null, _ | .bool _, _ | .int _, _ | .number _, _ | .str _, _ | .void, _ => .refl _
  | .arr _, distinct => alike_canonicalElements distinct
  | .obj _, distinct => by
    obtain ⟨names, values⟩ := Bool.and_eq_true_iff.mp distinct
    have perm := canonicalMembers_nil_perm (of_decide_eq_true names)
    exact (alike_canonicalMember values).trans (.of_perm perm.symm)

theorem alike_canonicalElements : ∀ {xs : List Json}, isDistinctElements xs →
    Alike (.arr xs) (.arr (canonicalElements xs))
  | [], _ => .refl _
  | _ :: _, distinct => by
    obtain ⟨here, later⟩ := Bool.and_eq_true_iff.mp distinct
    exact (alike_canonical here).element (alike_canonicalElements later)

theorem alike_canonicalMember : ∀ {ms : List (String × Json)}, isDistinctMembers ms →
    Alike (.obj ms) (.obj (ms.map canonicalMember))
  | [], _ => .refl _
  | (_, _) :: _, distinct => by
    obtain ⟨here, later⟩ := Bool.and_eq_true_iff.mp distinct
    exact (alike_canonical here).member (alike_canonicalMember later)

end

/-! ### Members under the same names -/

/-- Under each name there stands the canonical form of what stood there. -/
structure Rewrites (ms ns : List (String × Json)) : Prop where
  found (name : String) : member? name ns = (member? name ms).map canonical
  distinct {name : String} {v : Json} : member? name ms = some v → v.isDistinct

theorem isDistinctMembers_iff {ms : List (String × Json)} :
    isDistinctMembers ms ↔ ∀ m ∈ ms, m.2.isDistinct := by
  induction ms with
  | nil => simp [isDistinctMembers]
  | cons m ms ih => simp [isDistinctMembers, ih]

theorem isDistinct_of_member? {ms : List (String × Json)} (values : isDistinctMembers ms)
    {name : String} {v : Json} (found : member? name ms = some v) : v.isDistinct := by
  obtain ⟨m, mem, rfl⟩ := Option.map_eq_some_iff.mp found
  exact isDistinctMembers_iff.mp values m (List.mem_of_find?_eq_some mem)

theorem rewrites_canonicalMembers {ms : List (String × Json)} (names : (ms.map Prod.fst).Nodup)
    (values : isDistinctMembers ms) : Rewrites ms (canonicalMembers ms []) :=
  ⟨member?_canonicalMembers names, isDistinct_of_member? values⟩

theorem rewrites_canonicalMember {ms : List (String × Json)} (values : isDistinctMembers ms) :
    Rewrites ms (ms.map canonicalMember) :=
  ⟨fun name => member?_canonicalMember name ms, isDistinct_of_member? values⟩

/-! ### Decoders -/

/-- The order of members makes no difference. -/
def Blind {α : Type} (d : Json → Option α) : Prop :=
  ∀ ⦃j : Json⦄, j.isDistinct → d j.canonical = d j

/-- The fields may be rewritten. -/
def BlindFields {α : Type} (d : List (String × Json) → Option α) : Prop :=
  ∀ ⦃ms ns : List (String × Json)⦄, Rewrites ms ns → d ns = d ms

theorem blind_natBelow? (limit : Nat) : Blind (natBelow? limit) := fun ⦃j⦄ _ => by cases j <;> rfl

theorem blind_nat64? : Blind nat64? := blind_natBelow? _

theorem blind_nat32? : Blind nat32? := blind_natBelow? _

theorem blind_nat16? : Blind nat16? := blind_natBelow? _

theorem blind_instant? : Blind instant? := fun ⦃j⦄ _ => by cases j <;> rfl

theorem blind_text? : Blind text? := fun ⦃j⦄ _ => by cases j <;> rfl

theorem blind_canonical : Blind (some ∘ canonical) := fun ⦃j⦄ _ =>
  congrArg some (canonical_canonical j)

theorem name?_of_two (m n : String × Json) (ms : List (String × Json)) :
    name? (.obj (m :: n :: ms)) = none := by
  obtain ⟨_, v⟩ := m
  cases v <;> rfl

theorem blind_name? : Blind name? := fun ⦃j⦄ distinct => by
  match j, distinct with
  | .null, _ | .bool _, _ | .int _, _ | .number _, _ | .str _, _ | .void, _ | .arr _, _
  | .obj [], _ => rfl
  | .obj [(n, v)], _ => cases v <;> rfl
  | .obj (m :: n :: ms), distinct =>
    obtain ⟨names, -⟩ := Bool.and_eq_true_iff.mp distinct
    have perm := canonicalMembers_nil_perm (of_decide_eq_true names)
    have length := perm.length_eq
    rw [canonical, name?_of_two]
    generalize canonicalMembers (m :: n :: ms) [] = sorted at length
    match sorted, length with
    | _ :: _ :: _, _ => exact name?_of_two _ _ _

namespace Blind

variable {α β : Type} {d : Json → Option α}

theorem bind (blind : Blind d) (f : α → Option β) : Blind fun j => (d j).bind f :=
  fun _ distinct => congrArg (Option.bind · f) (blind distinct)

theorem list? (blind : Blind d) : Blind (list? d) := fun ⦃j⦄ distinct => by
  match j, distinct with
  | .null, _ | .bool _, _ | .int _, _ | .number _, _ | .str _, _ | .void, _ | .obj _, _ => rfl
  | .arr xs, distinct =>
    have elements : isDistinctElements xs := distinct
    rw [canonical, Json.list?, Json.list?]
    induction xs with
    | nil => rfl
    | cons x xs ih =>
      obtain ⟨here, later⟩ := Bool.and_eq_true_iff.mp elements
      rw [canonicalElements, List.mapM_cons, List.mapM_cons, blind here, ih later later]

end Blind

namespace Rewrites

variable {α : Type} {d : Json → Option α} {ms ns : List (String × Json)}

theorem required? (h : Rewrites ms ns) (blind : Blind d) (name : String) :
    required? d name ns = required? d name ms := by
  rw [Json.required?, Json.required?, h.found]
  cases there : member? name ms with
  | none => rfl
  | some v => exact blind (h.distinct there)

theorem optional? (h : Rewrites ms ns) (blind : Blind d) (name : String) :
    optional? d name ns = optional? d name ms := by
  rw [Json.optional?, Json.optional?, h.found]
  cases there : member? name ms with
  | none => rfl
  | some v =>
    have same := blind (h.distinct there)
    cases v with
    | null => rfl
    | _ => exact congrArg (Option.map some) same

theorem defaulted? (h : Rewrites ms ns) (blind : Blind d) (fallback : α) (name : String) :
    defaulted? fallback d name ns = defaulted? fallback d name ms := by
  rw [Json.defaulted?, Json.defaulted?, h.found]
  cases there : member? name ms with
  | none => rfl
  | some v => exact blind (h.distinct there)

end Rewrites

section Composite

variable {α : Type} {d : List (String × Json) → Option α} {names : List String}

theorem blind_object? (blind : BlindFields d) : Blind fun j => (object? names j).bind d :=
  fun ⦃j⦄ distinct => by
  match j, distinct with
  | .null, _ | .bool _, _ | .int _, _ | .number _, _ | .str _, _ | .void, _ | .arr _, _ => rfl
  | .obj ms, distinct =>
    obtain ⟨once, values⟩ := Bool.and_eq_true_iff.mp distinct
    have once := of_decide_eq_true once
    simp only [canonical, object?, eachOnce_of_nodup once,
      eachOnce_of_nodup (nodup_canonicalMembers once), if_true, Option.bind_some]
    exact blind (rewrites_canonicalMembers once values)

theorem canonicalElements_eq_map (xs : List Json) : canonicalElements xs = xs.map canonical := by
  induction xs with
  | nil => rfl
  | cons x xs ih => rw [canonicalElements, ih, List.map_cons]

theorem rewrites_zip {xs : List Json} (distinct : isDistinctElements xs) :
    Rewrites (names.zip xs) (names.zip (canonicalElements xs)) := by
  have values : isDistinctMembers (names.zip xs) := by
    induction names generalizing xs with
    | nil => rfl
    | cons n names ih =>
      cases xs with
      | nil => rfl
      | cons x xs =>
        obtain ⟨here, later⟩ := Bool.and_eq_true_iff.mp distinct
        exact Bool.and_eq_true_iff.mpr ⟨here, ih later⟩
  rw [canonicalElements_eq_map, List.zip_map_right]
  exact rewrites_canonicalMember values

/-- Fields that are listed without their names, if there are as many as there may be. -/
theorem bind_listed (blind : BlindFields d) {xs : List Json} (distinct : isDistinctElements xs)
    (fit : Nat → Prop) [DecidablePred fit] :
    (if fit (canonicalElements xs).length then some (names.zip (canonicalElements xs))
      else none).bind d =
    (if fit xs.length then some (names.zip xs) else none).bind d := by
  have length : (canonicalElements xs).length = xs.length := by
    rw [canonicalElements_eq_map, List.length_map]
  rw [length]
  split
  · exact blind (rewrites_zip distinct)
  · rfl

theorem blind_record? (blind : BlindFields d) : Blind fun j => (record? names j).bind d :=
  fun ⦃j⦄ distinct => by
  match j, distinct with
  | .null, _ | .bool _, _ | .int _, _ | .number _, _ | .str _, _ | .void, _ => rfl
  | .obj ms, distinct => exact blind_object? blind distinct
  | .arr xs, distinct =>
    exact bind_listed blind distinct (· = names.length)

theorem blind_partialRecord? (blind : BlindFields d) :
    Blind fun j => (partialRecord? names j).bind d := fun ⦃j⦄ distinct => by
  match j, distinct with
  | .null, _ | .bool _, _ | .int _, _ | .number _, _ | .str _, _ | .void, _ => rfl
  | .obj ms, distinct => exact blind_object? blind distinct
  | .arr xs, distinct =>
    exact bind_listed blind distinct (· ≤ names.length)

theorem holds_canonical (place : Place) {j : Json} (distinct : j.isDistinct) :
    place.holds j.canonical = place.holds j := by
  have alike := alike_canonical distinct
  cases place with
  | text around => rw [Place.holds, Place.holds, alike.depth, alike.whole]
  | held => rfl

theorem blind_case? (place : Place) (cases : List (Case α)) : Blind (place.case? cases) :=
  fun ⦃tag⦄ _ => by cases tag <;> rfl

theorem mem_of_case? {place : Place} {cases : List (Case α)} {tag : Json} {c : Case α}
    (found : place.case? cases tag = some c) : c ∈ cases := by
  match tag with
  | .str _ => exact List.mem_of_find?_eq_some found
  | .int _ =>
    rw [Place.case?] at found
    split at found
    · exact List.mem_of_getElem? found
    · cases found

/-- A variant does not see the order of members if none of its cases does. -/
theorem blind_variant? (place : Place) {cases : List (Case α)}
    (blind : ∀ c ∈ cases, BlindFields c.decode) : Blind (variant? place cases) := by
  intro j distinct
  unfold variant?
  rw [holds_canonical place distinct]
  refine congrArg ((guard (place.holds j = true) : Option Unit) >>= ·) (funext fun _ => ?_)
  match j, distinct with
  | .null, _ | .bool _, _ | .int _, _ | .number _, _ | .str _, _ | .void, _ | .arr [], _ => rfl
  | .arr (tag :: xs), distinct =>
    obtain ⟨here, later⟩ := Bool.and_eq_true_iff.mp distinct
    simp only [canonical, canonicalElements, blind_case? place cases here]
    cases found : place.case? cases tag with
    | none => rfl
    | some c => exact blind_partialRecord? (blind c (mem_of_case? found)) (j := .arr xs) later
  | .obj ms, distinct =>
    obtain ⟨once, values⟩ := Bool.and_eq_true_iff.mp distinct
    have once := of_decide_eq_true once
    have rewrites := rewrites_canonicalMembers once values
    have case? : (member? "type" (canonicalMembers ms [])).bind (place.case? cases) =
        (member? "type" ms).bind (place.case? cases) :=
      rewrites.required? (blind_case? place cases) "type"
    simp only [canonical, eachOnce_of_nodup once,
      eachOnce_of_nodup (nodup_canonicalMembers once), case?]
    cases found : (member? "type" ms).bind (place.case? cases) with
    | none => rfl
    | some c =>
      obtain ⟨_, _, found⟩ := Option.bind_eq_some_iff.mp found
      exact blind_object? (blind c (mem_of_case? found)) (j := .obj ms) distinct

end Composite

/-! ### Texts -/

/-- The members of a value with those of each object put in some order, each name once. -/
structure Reorders (j k : Json) : Prop where
  distinct : j.isDistinct
  canonical : j.canonical = k

/-- What is decoded from a text in another order is what is decoded from the text. -/
theorem Reorders.decoded {j k : Json} (h : j.Reorders k) (exact : k.isExact) {α : Type}
    {d : Json → Option α} (blind : Blind d) :
    (read? j.render).bind d = (read? k.render).bind d := by
  have same : j.isExact := by
    rw [← (alike_canonical h.distinct).exact, h.canonical]
    exact exact
  rw [read?_render same, read?_render exact, ← h.canonical]
  exact (blind h.distinct).symm

end RecurringWork.Json
