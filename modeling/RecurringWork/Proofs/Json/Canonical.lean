import Mathlib.Data.String.Basic
import RecurringWork.Json.Decode

/-!
# RecurringWork.Proofs.Json.Canonical

**The canonical form of a value** is sorted (`Json.isSorted_canonical`), and a value that is
sorted is in canonical form (`Json.canonical_of_isSorted`). It is built by inserting the
members one after the other. If no name occurs twice, nothing is replaced: the members of
the canonical form are those of the value in another order
(`Json.canonicalMembers_perm`), and each name stands for the same
(`Json.member?_canonicalMembers`).
-/

namespace RecurringWork.Json

open scoped List

mutual

/-- The members of every object stand in the order of their names, each name once. -/
def isSorted : Json → Bool
  | .arr xs => isSortedElements xs
  | .obj ms => decide ((ms.map Prod.fst).Pairwise (· < ·)) && isSortedMembers ms
  | _ => true

def isSortedElements : List Json → Bool
  | [] => true
  | x :: xs => isSorted x && isSortedElements xs

def isSortedMembers : List (String × Json) → Bool
  | [] => true
  | (_, v) :: rest => isSorted v && isSortedMembers rest

end

mutual

/-- In no object a name occurs twice. -/
def isDistinct : Json → Bool
  | .arr xs => isDistinctElements xs
  | .obj ms => decide (ms.map Prod.fst).Nodup && isDistinctMembers ms
  | _ => true

def isDistinctElements : List Json → Bool
  | [] => true
  | x :: xs => isDistinct x && isDistinctElements xs

def isDistinctMembers : List (String × Json) → Bool
  | [] => true
  | (_, v) :: rest => isDistinct v && isDistinctMembers rest

end

/-! ### Sorted values -/

/-- A member behind all others is put at the end. -/
theorem insertMember_of_forall_lt {name : String} {value : Json} {ms : List (String × Json)}
    (h : ∀ m ∈ ms, m.1 < name) : insertMember name value ms = ms ++ [(name, value)] := by
  induction ms with
  | nil => rfl
  | cons m ms ih =>
    rw [List.forall_mem_cons] at h
    have behind : ¬name < m.1 := String.lt_asymm h.1
    have other : name ≠ m.1 := fun same => String.lt_irrefl _ (same ▸ h.1)
    rw [insertMember, if_neg behind, if_neg other, ih h.2, List.cons_append]

mutual

/-- A sorted value is in canonical form. -/
theorem canonical_of_isSorted : ∀ {j : Json}, j.isSorted → j.canonical = j
  | .null, _ | .bool _, _ | .int _, _ | .number _, _ | .str _, _ | .void, _ => rfl
  | .arr xs, sorted => by
    rw [canonical, canonicalElements_of_isSorted sorted]
  | .obj ms, sorted => by
    obtain ⟨names, values⟩ := Bool.and_eq_true_iff.mp sorted
    rw [canonical, canonicalMembers_of_isSorted (of_decide_eq_true names) values (by simp),
      List.nil_append]

theorem canonicalElements_of_isSorted : ∀ {xs : List Json}, isSortedElements xs →
    canonicalElements xs = xs
  | [], _ => rfl
  | x :: xs, sorted => by
    obtain ⟨here, later⟩ := Bool.and_eq_true_iff.mp sorted
    rw [canonicalElements, canonical_of_isSorted here, canonicalElements_of_isSorted later]

/-- Members whose names lie behind those that are there are put at the end. -/
theorem canonicalMembers_of_isSorted : ∀ {ms done : List (String × Json)},
    (ms.map Prod.fst).Pairwise (· < ·) → isSortedMembers ms →
    (∀ d ∈ done, ∀ m ∈ ms, d.1 < m.1) → canonicalMembers ms done = done ++ ms
  | [], done, _, _, _ => (List.append_nil done).symm
  | (n, v) :: ms, done, names, values, behind => by
    obtain ⟨here, later⟩ := Bool.and_eq_true_iff.mp values
    rw [List.map_cons, List.pairwise_cons] at names
    have next : ∀ d ∈ done ++ [(n, v)], ∀ m ∈ ms, d.1 < m.1 := by
      intro d mem m mem'
      rcases List.mem_append.mp mem with before | last
      · exact behind d before m (List.mem_cons_of_mem _ mem')
      · cases List.mem_singleton.mp last
        exact names.1 m.1 (List.mem_map_of_mem mem')
    rw [canonicalMembers, canonical_of_isSorted here,
      insertMember_of_forall_lt fun d mem => behind d mem (n, v) List.mem_cons_self,
      canonicalMembers_of_isSorted names.2 later next, List.append_assoc, List.singleton_append]

end

theorem mem_insertMember {name : String} {value : Json} {ms : List (String × Json)}
    {m : String × Json} (mem : m ∈ insertMember name value ms) : m = (name, value) ∨ m ∈ ms := by
  induction ms with
  | nil => exact .inl (List.mem_singleton.mp mem)
  | cons n ms ih =>
    rw [insertMember] at mem
    split_ifs at mem with before same
    · exact List.mem_cons.mp mem
    · exact (List.mem_cons.mp mem).imp_right (List.mem_cons_of_mem _)
    · rcases List.mem_cons.mp mem with first | later
      · exact .inr (first ▸ List.mem_cons_self)
      · exact (ih later).imp_right (List.mem_cons_of_mem _)

theorem pairwise_insertMember {name : String} {value : Json} {ms : List (String × Json)}
    (h : (ms.map Prod.fst).Pairwise (· < ·)) :
    ((insertMember name value ms).map Prod.fst).Pairwise (· < ·) := by
  induction ms with
  | nil => exact List.pairwise_singleton _ _
  | cons n ms ih =>
    obtain ⟨first, later⟩ := List.pairwise_cons.mp h
    rw [insertMember]
    split_ifs with before same
    · refine List.pairwise_cons.mpr ⟨fun key mem => ?_, h⟩
      rcases List.mem_cons.mp mem with rfl | mem
      · exact before
      · exact before.trans (first key mem)
    · exact same ▸ h
    · have behind : n.1 < name := lt_of_le_of_ne (not_lt.mp before) (Ne.symm same)
      refine List.pairwise_cons.mpr ⟨fun key mem => ?_, ih later⟩
      obtain ⟨m, inside, rfl⟩ := List.mem_map.mp mem
      rcases mem_insertMember inside with rfl | old
      · exact behind
      · exact first m.1 (List.mem_map_of_mem old)

theorem isSortedMembers_iff {ms : List (String × Json)} :
    isSortedMembers ms ↔ ∀ m ∈ ms, m.2.isSorted := by
  induction ms with
  | nil => simp [isSortedMembers]
  | cons m ms ih => simp [isSortedMembers, ih]

mutual

/-- The canonical form is sorted. -/
theorem isSorted_canonical : ∀ j : Json, j.canonical.isSorted
  | .null | .bool _ | .int _ | .number _ | .str _ | .void => rfl
  | .arr xs => isSorted_canonicalElements xs
  | .obj ms => isSorted_canonicalMembers ms [] .nil rfl

theorem isSorted_canonicalElements : ∀ xs : List Json, isSortedElements (canonicalElements xs)
  | [] => rfl
  | x :: xs =>
    Bool.and_eq_true_iff.mpr ⟨isSorted_canonical x, isSorted_canonicalElements xs⟩

theorem isSorted_canonicalMembers : ∀ ms done : List (String × Json),
    (done.map Prod.fst).Pairwise (· < ·) → isSortedMembers done →
    (Json.obj (canonicalMembers ms done)).isSorted
  | [], done, names, values => Bool.and_eq_true_iff.mpr ⟨decide_eq_true names, values⟩
  | (n, v) :: ms, done, names, values => by
    refine isSorted_canonicalMembers ms _ (pairwise_insertMember names) ?_
    rw [isSortedMembers_iff] at values ⊢
    intro m mem
    rcases mem_insertMember mem with rfl | old
    · exact isSorted_canonical v
    · exact values m old

end

theorem canonical_canonical (j : Json) : j.canonical.canonical = j.canonical :=
  canonical_of_isSorted (isSorted_canonical j)

/-! ### Values without repetitions -/

/-- A member under the name of its canonical form. -/
def canonicalMember (m : String × Json) : String × Json := (m.1, m.2.canonical)

theorem insertMember_perm {name : String} {value : Json} {ms : List (String × Json)}
    (new : name ∉ ms.map Prod.fst) :
    insertMember name value ms ~ (name, value) :: ms := by
  induction ms with
  | nil => exact .refl _
  | cons m ms ih =>
    obtain ⟨other, new⟩ := List.ne_and_not_mem_of_not_mem_cons new
    rw [insertMember]
    split_ifs with before
    · exact .refl _
    · exact ((ih new).cons m).trans (.swap _ _ _)

/-- Without repetitions, the members are put in order and nothing else. -/
theorem canonicalMembers_perm {ms done : List (String × Json)}
    (names : ((done ++ ms).map Prod.fst).Nodup) :
    canonicalMembers ms done ~ done ++ ms.map canonicalMember := by
  induction ms generalizing done with
  | nil => simp [canonicalMembers]
  | cons m ms ih =>
    have front : ((m :: (done ++ ms)).map Prod.fst).Nodup :=
      ((List.perm_middle.map Prod.fst).nodup_iff).mp names
    have new : m.1 ∉ done.map Prod.fst := fun mem =>
      (List.nodup_cons.mp front).1 (by simpa using Or.inl (List.mem_map.mp mem))
    have inserted : insertMember m.1 m.2.canonical done ~ canonicalMember m :: done :=
      insertMember_perm new
    have later : ((insertMember m.1 m.2.canonical done ++ ms).map Prod.fst).Nodup :=
      (((inserted.append_right ms).map Prod.fst).nodup_iff).mpr front
    calc canonicalMembers (m :: ms) done
      _ ~ insertMember m.1 m.2.canonical done ++ ms.map canonicalMember := ih later
      _ ~ canonicalMember m :: done ++ ms.map canonicalMember := inserted.append_right _
      _ ~ done ++ (m :: ms).map canonicalMember := List.perm_middle.symm

theorem map_fst_canonicalMember (ms : List (String × Json)) :
    (ms.map canonicalMember).map Prod.fst = ms.map Prod.fst := by
  rw [List.map_map]
  rfl

theorem canonicalMembers_nil_perm {ms : List (String × Json)} (names : (ms.map Prod.fst).Nodup) :
    canonicalMembers ms [] ~ ms.map canonicalMember :=
  @canonicalMembers_perm ms [] names

theorem nodup_canonicalMembers {ms : List (String × Json)} (names : (ms.map Prod.fst).Nodup) :
    ((canonicalMembers ms []).map Prod.fst).Nodup := by
  rw [((canonicalMembers_nil_perm names).map Prod.fst).nodup_iff, map_fst_canonicalMember]
  exact names

/-! ### What a name stands for -/

theorem member?_eq_some_iff {ms : List (String × Json)} (names : (ms.map Prod.fst).Nodup)
    {name : String} {v : Json} : member? name ms = some v ↔ (name, v) ∈ ms := by
  induction ms with
  | nil => simp [member?]
  | cons m ms ih =>
    obtain ⟨n, w⟩ := m
    obtain ⟨new, names⟩ := List.nodup_cons.mp names
    by_cases here : n = name
    · subst here
      have later : (n, v) ∉ ms := fun mem => new (List.mem_map.mpr ⟨(n, v), mem, rfl⟩)
      simp [member?, later, eq_comm]
    · have skipped : member? name ((n, w) :: ms) = member? name ms := by simp [member?, here]
      rw [skipped, ih names]
      simp [Ne.symm here]

theorem member?_canonicalMember (name : String) (ms : List (String × Json)) :
    member? name (ms.map canonicalMember) = (member? name ms).map canonical := by
  simp only [member?, List.find?_map, Option.map_map]
  rfl

/-- In the canonical form a name stands for the canonical form of what it stood for. -/
theorem member?_canonicalMembers {ms : List (String × Json)} (names : (ms.map Prod.fst).Nodup)
    (name : String) :
    member? name (canonicalMembers ms []) = (member? name ms).map canonical := by
  rw [← member?_canonicalMember]
  refine Option.ext fun v => ?_
  rw [member?_eq_some_iff (nodup_canonicalMembers names),
    (canonicalMembers_nil_perm names).mem_iff,
    member?_eq_some_iff (by rwa [map_fst_canonicalMember])]

/-- No name occurs twice among members that are distinct. -/
theorem eachOnce_of_nodup {ms : List (String × Json)} (names : (ms.map Prod.fst).Nodup)
    (fields : List String) : eachOnce fields ms := by
  have once (n : String) : occurrences n ms = (ms.map Prod.fst).count n := by
    rw [occurrences, ← List.countP_eq_length_filter, List.count, List.countP_map]
    rfl
  simp [eachOnce, once, List.nodup_iff_count.mp names]

end RecurringWork.Json
