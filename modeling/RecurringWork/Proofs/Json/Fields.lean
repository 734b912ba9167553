import Mathlib.Data.Option.Basic
import RecurringWork.Json.Decode
import RecurringWork.Proofs.Json.Canonical
import RecurringWork.Proofs.Json.Reading

/-!
# RecurringWork.Proofs.Json.Fields

**Fields, records and variants are decoded from the form in which they are written.** A
scalar is read back if it fits its field (`Nat64`, `Nat32`, `Instant.Fits`), and then the
text of it is exact. A record is decoded field by field, so a decoder is followed with one
lemma for each bind (`bind_of_some`) and one for each way to look up a field; the lookups
themselves are computed.

A variant in a text is held before its case is known. That it can be held is decided by its
nesting alone (`holds_text`), because every part of what is written has a value.
-/

namespace RecurringWork

/-- The instant can be stored. -/
def Instant.Fits (t : Int) : Prop := Instant.minimum ≤ t ∧ t ≤ Instant.maximum

instance : DecidablePred Instant.Fits := fun _ => inferInstanceAs (Decidable (_ ∧ _))

namespace Json

/-! ### Scalars -/

/-- A count that fits 64 bits. -/
abbrev Nat64 (n : Nat) : Prop := n < 18446744073709551616

/-- A count that fits 32 bits. -/
abbrev Nat32 (n : Nat) : Prop := n < 4294967296

theorem natBelow?_ofNat {limit n : Nat} (h : n < limit) :
    natBelow? limit (ofNat n) = some n := by
  simp [natBelow?, ofNat, h]

theorem nat64?_ofNat {n : Nat} (h : Nat64 n) : nat64? (ofNat n) = some n :=
  natBelow?_ofNat h

theorem nat32?_ofNat {n : Nat} (h : Nat32 n) : nat32? (ofNat n) = some n :=
  natBelow?_ofNat h

theorem instant?_int {t : Int} (h : Instant.Fits t) : instant? (.int t) = some t := if_pos h

theorem isExact_of_fits64 {n : Int} (fits : Fits64 n) : (Json.int n).isExact := by
  simp [isExact, fits]

theorem isExact_ofNat {n : Nat} (h : Nat64 n) : (ofNat n).isExact :=
  isExact_of_fits64 ⟨by omega, by omega⟩

theorem fits64_of_instant {t : Int} (h : Instant.Fits t) : Fits64 t := by
  simp only [Instant.Fits, Instant.minimum, Instant.maximum] at h
  exact ⟨by omega, by omega⟩

theorem isExact_ofOption {α : Type} {e : α → Json} {o : Option α}
    (h : ∀ a ∈ o, (e a).isExact) : (ofOption e o).isExact := by
  cases o with
  | none => rfl
  | some a => exact h a rfl

@[simp] theorem isExact_ofOption_str (o : Option String) : (ofOption .str o).isExact :=
  isExact_ofOption fun _ _ => rfl

/-- A value that can be handed over and is the same when it comes back. -/
structure IsPayload (j : Json) : Prop where
  exact : j.isExact
  sorted : j.isSorted

theorem IsPayload.kept {j : Json} (h : j.IsPayload) : (some ∘ canonical) j = some j :=
  congrArg some (canonical_of_isSorted h.sorted)

/-! ### Records and variants -/

theorem bind_of_some {α β : Type} {o : Option α} {f : α → Option β} {a : α} {b : Option β}
    (first : o = some a) (next : f a = b) : (o >>= f) = b := by
  rw [first]
  exact next

theorem bind_of_none {α β : Type} {o : Option α} {f : α → Option β} (first : o = none) :
    (o >>= f) = none := by
  rw [first]
  rfl

section Fields

variable {α : Type} {name : String} {ms : List (String × Json)}

theorem required?_of_member {d : Json → Option α} {j : Json} (found : member? name ms = some j)
    {o : Option α} (read : d j = o) : required? d name ms = o := by
  rw [required?, found, Option.bind_some, read]

/-- A field that is written as null when it is absent. -/
theorem optional?_of_member {d : Json → Option α} {e : α → Json} {o : Option α}
    (found : member? name ms = some (ofOption e o)) (notNull : ∀ a, e a ≠ .null)
    (read : ∀ a ∈ o, d (e a) = some a) : optional? d name ms = some o := by
  rw [optional?, found]
  cases o with
  | none => rfl
  | some a =>
    rw [ofOption]
    split
    · next missing => cases missing
    · next null => exact absurd (Option.some.inj null) (notNull a)
    · next same =>
      cases same
      rw [read a rfl, Option.map_some]

/-- A value can be held in a text up to the limit of nesting. -/
theorem holds_text {j : Json} (exact : j.isExact) (around : Nat) :
    Place.holds (.text around) j = decide (around + j.depth ≤ nestingLimit) := by
  rw [Place.holds, isWhole_of_isExact exact, Bool.true_and]

/-- A variant is decoded as the case of its tag. -/
theorem variant?_of_case {place : Place} {cases : List (Case α)} {c : Case α} {t : String}
    (holds : place.holds (.obj ms)) (tag : member? "type" ms = some (.str t))
    (found : (cases.find? fun d => d.tag == t) = some c) (once : eachOnce ("type" :: c.fields) ms)
    {a : α} (read : c.decode ms = some a) : variant? place cases (.obj ms) = some a := by
  obtain ⟨type, fields⟩ := Bool.and_eq_true_iff.mp once
  have type : eachOnce ["type"] ms := by simpa [eachOnce] using type
  have fields : object? c.fields (.obj ms) = some ms := if_pos fields
  simp [variant?, holds, type, tag, Place.case?, found, fields, read]

/-- Nothing is decoded that cannot be held. -/
theorem variant?_of_not_holds {place : Place} (cases : List (Case α)) {j : Json}
    (h : place.holds j = false) : variant? place cases j = none := by
  unfold variant?
  rw [h]
  rfl

end Fields

end Json

end RecurringWork
