import Mathlib.Data.List.Lex
import Mathlib.Data.List.Sort
import Mathlib.Data.Prod.Lex
import RecurringWork.Cluster.View
import RecurringWork.Work.Key

/-!
# RecurringWork.Proofs.Cluster.Order

**Every node sorts the members alike.** A node compares addresses of both families byte by
byte and then by port. This is the dictionary order of what the addresses are made of
(`Address.key`), in which no two addresses agree; so it is a linear order, and sorted members
come in it, each once (`Address.pairwise_sorted`).

The place of a member among them is its *rank*: how many members come before it
(`Address.idxOf?_sorted`). Ranks are the numbers below the size of the cluster, each taken by
exactly one member (`Address.existsUnique_rank`), and so a partition of the identities of
all items (`Address.existsUnique_inPartition`).
-/

namespace RecurringWork

/-! ### Bytes -/

/-- The two bytes of a group determine it. -/
theorem Ip.flatMap_bytes_injective : ∀ {gs hs : List UInt16},
    (gs.flatMap fun g => [g.toNat / 256, g.toNat % 256]) =
      (hs.flatMap fun h => [h.toNat / 256, h.toNat % 256]) → gs = hs
  | [], [], _ => rfl
  | [], _ :: _, same | _ :: _, [], same => by simp at same
  | g :: gs, h :: hs, same => by
      simp only [List.flatMap_cons, List.cons_append, List.nil_append, List.cons.injEq] at same
      obtain ⟨high, low, rest⟩ := same
      have heads : g.toNat = h.toNat := by omega
      rw [UInt16.toNat_inj.mp heads, flatMap_bytes_injective rest]

theorem Ip.length_octets_v4 (os : Vector UInt8 4) : (Ip.v4 os).octets.length = 4 := by
  simp [Ip.octets]

theorem Ip.length_octets_v6 (gs : Vector UInt16 8) : (Ip.v6 gs).octets.length = 16 := by
  simp [Ip.octets, List.length_flatMap]

/-- No two addresses have the same bytes, in whichever family they are. -/
theorem Ip.octets_injective : Function.Injective Ip.octets := by
  rintro (os | gs) (ps | hs) same
  case v4.v4 =>
    have lists := List.map_injective_iff.mpr (fun _ _ => UInt8.toNat_inj.mp) same
    rw [Vector.toList_inj.mp lists]
  case v6.v6 => rw [Vector.toList_inj.mp (flatMap_bytes_injective same)]
  case v4.v6 =>
    have lengths := congrArg List.length same
    rw [length_octets_v4, length_octets_v6] at lengths
    omega
  case v6.v4 =>
    have lengths := congrArg List.length same
    rw [length_octets_v4, length_octets_v6] at lengths
    omega

namespace Address

/-! ### The order -/

/-- What addresses are ordered by: the bytes of the IP address, then the port. -/
def key (a : Address) : List Nat ×ₗ Nat := toLex (a.ip.octets, a.port.toNat)

/-- Addresses that are ordered alike are the same. -/
theorem key_injective : Function.Injective key := by
  intro a b same
  obtain ⟨octets, port⟩ := Prod.ext_iff.mp (toLex_inj.mp same)
  cases a
  cases b
  rw [Address.mk.injEq]
  exact ⟨Ip.octets_injective octets, UInt16.toNat_inj.mp port⟩

/-- Byte strings are compared as in a dictionary. -/
theorem compares_compareOctets (as bs : List Nat) : (compareOctets as bs).Compares as bs := by
  induction as generalizing bs with
  | nil => cases bs <;> simp [compareOctets, Ordering.Compares]
  | cons a as ih =>
      cases bs with
      | nil => simp [compareOctets, Ordering.Compares]
      | cons b bs =>
          rw [compareOctets]
          split_ifs with less greater
          · exact List.Lex.rel less
          · exact List.Lex.rel greater
          · obtain rfl : a = b := by omega
            specialize ih bs
            cases found : compareOctets as bs <;> rw [found] at ih
            · exact List.Lex.cons ih
            · exact congrArg (a :: ·) ih
            · exact List.Lex.cons ih

/-- Addresses are compared by their keys. -/
theorem compares_order (a b : Address) : (a.order b).Compares a.key b.key := by
  have bytes := compares_compareOctets a.ip.octets b.ip.octets
  unfold order key
  cases found : compareOctets a.ip.octets b.ip.octets <;> rw [found] at bytes
  · exact Prod.Lex.toLex_lt_toLex.mpr (.inl bytes)
  · cases ports : compare a.port.toNat b.port.toNat
    · exact Prod.Lex.toLex_lt_toLex.mpr (.inr ⟨bytes, Nat.compare_eq_lt.mp ports⟩)
    · exact congrArg toLex (Prod.ext bytes (Nat.compare_eq_eq.mp ports))
    · exact Prod.Lex.toLex_lt_toLex.mpr (.inr ⟨bytes.symm, Nat.compare_eq_gt.mp ports⟩)
  · exact Prod.Lex.toLex_lt_toLex.mpr (.inl bytes)

theorem isOrdered_iff {a b : Address} : a.isOrdered b ↔ a.key ≤ b.key := by
  have gt := (compares_order a b).eq_gt
  simp only [isOrdered, bne_iff_ne, ne_eq, gt, not_lt]

/-! ### The sorted members -/

theorem mem_sorted {ms : List Address} {a : Address} : a ∈ sorted ms ↔ a ∈ ms := by
  simp [sorted]

/-- Without repetitions an ascending list ascends strictly. -/
theorem pairwise_eraseDups {l : List Address} (ascending : l.Pairwise (·.key ≤ ·.key)) :
    l.eraseDups.Pairwise (·.key < ·.key) := by
  match l with
  | [] => simp
  | a :: as =>
      obtain ⟨first, rest⟩ := List.pairwise_cons.mp ascending
      rw [List.eraseDups_cons]
      refine List.pairwise_cons.mpr ⟨fun b later => ?_, pairwise_eraseDups (rest.filter _)⟩
      obtain ⟨mem, other⟩ := List.mem_filter.mp (List.mem_eraseDups.mp later)
      have apart : a ≠ b := by
        rintro rfl
        simp at other
      exact (first b mem).lt_of_ne (key_injective.ne apart)
termination_by l.length
decreasing_by exact Nat.lt_succ_of_le (List.length_filter_le _ _)

/-- The sorted members ascend strictly. -/
theorem pairwise_sorted (ms : List Address) : (sorted ms).Pairwise (·.key < ·.key) := by
  refine pairwise_eraseDups ?_
  have total (a b : Address) : (a.isOrdered b || b.isOrdered a) = true := by
    simpa only [Bool.or_eq_true, isOrdered_iff] using le_total a.key b.key
  have trans (a b c : Address) (ab : a.isOrdered b = true) (bc : b.isOrdered c = true) :
      a.isOrdered c = true :=
    isOrdered_iff.mpr ((isOrdered_iff.mp ab).trans (isOrdered_iff.mp bc))
  exact (List.pairwise_mergeSort trans total ms).imp isOrdered_iff.mp

theorem nodup_sorted (ms : List Address) : (sorted ms).Nodup :=
  (pairwise_sorted ms).imp fun before same => before.ne (congrArg key same)

/-- Sorting loses nobody. -/
theorem sorted_perm {ms : List Address} (nodup : ms.Nodup) : (sorted ms).Perm ms :=
  (List.perm_ext_iff_of_nodup (nodup_sorted ms) nodup).mpr fun _ => mem_sorted

/-- The bytes of an IPv4 address come before those of an IPv6 address that begins with them. -/
example :
    let a : Address := ⟨.v4 #v[32, 1, 13, 184], 7000⟩
    let b : Address := ⟨.v6 #v[0x2001, 0xdb8, 0, 0, 0, 0, 0, 1], 80⟩
    sorted [b, a, ⟨.localhost, 1⟩] = [a, b, ⟨.localhost, 1⟩] := by
  cbv

/-! ### Ranks -/

/-- How many of the members come before an address. -/
def rank (ms : List Address) (a : Address) : Nat := ms.countP fun b => b.key < a.key

/-- In an ascending list an address stands behind those that come before it. -/
theorem idxOf?_of_pairwise {l : List Address} {a : Address}
    (ascending : l.Pairwise (·.key < ·.key)) (mem : a ∈ l) : l.idxOf? a = some (rank l a) := by
  induction l with
  | nil => cases mem
  | cons b l ih =>
      obtain ⟨first, rest⟩ := List.pairwise_cons.mp ascending
      by_cases here : b = a
      · subst here
        have least : rank (b :: l) b = 0 := by
          refine List.countP_eq_zero.mpr fun c mem => ?_
          rcases List.mem_cons.mp mem with rfl | later
          · simp
          · simpa using (first c later).le
        simp [List.idxOf?_cons, least]
      · have later : a ∈ l := (List.mem_cons.mp mem).resolve_left (Ne.symm here)
        simp [List.idxOf?_cons, here, ih rest later, rank, first a later]

/-- **The index of a member is its rank.** -/
theorem idxOf?_sorted {ms : List Address} {a : Address} (nodup : ms.Nodup) (mem : a ∈ ms) :
    (sorted ms).idxOf? a = some (rank ms a) := by
  rw [idxOf?_of_pairwise (pairwise_sorted ms) (mem_sorted.mpr mem), rank, rank,
    (sorted_perm nodup).countP_eq]

/-- **Ranks number the members**: each number below their count is the rank of exactly one. -/
theorem existsUnique_rank {ms : List Address} (nodup : ms.Nodup) {i : Nat} (h : i < ms.length) :
    ∃! a, a ∈ ms ∧ rank ms a = i := by
  have bound : i < (sorted ms).length := by rwa [(sorted_perm nodup).length_eq]
  have index {a : Address} (mem : a ∈ ms) :
      rank ms a = i ↔ (sorted ms).idxOf? a = some i := by
    rw [idxOf?_sorted nodup mem, Option.some_inj]
  have here : (sorted ms)[i] ∈ ms := mem_sorted.mp (List.getElem_mem bound)
  refine ⟨(sorted ms)[i], ⟨here, (index here).mpr ?_⟩, fun b ⟨mem, same⟩ => ?_⟩
  · refine List.idxOf?_eq_some_iff.mpr ⟨bound, rfl, fun j earlier equal => ?_⟩
    have ascends := List.pairwise_iff_getElem.mp (pairwise_sorted ms) j i (by omega) bound earlier
    exact ascends.ne (congrArg key equal)
  · obtain ⟨_, found, -⟩ := List.idxOf?_eq_some_iff.mp ((index mem).mp same)
    exact found.symm

/-- Ranks are numbers below the count of the members. -/
theorem rank_lt {ms : List Address} {a : Address} (nodup : ms.Nodup) (mem : a ∈ ms) :
    rank ms a < ms.length := by
  obtain ⟨bound, -⟩ := List.idxOf?_eq_some_iff.mp (idxOf?_sorted nodup mem)
  rwa [(sorted_perm nodup).length_eq] at bound

/-- **Ranks divide the items**: each identity belongs to exactly one member. -/
theorem existsUnique_inPartition {ms : List Address} (nodup : ms.Nodup) (inhabited : ms ≠ [])
    (id : Nat) : ∃! a, a ∈ ms ∧ inPartition id (rank ms a) ms.length := by
  have positive : 0 < ms.length := List.length_pos_iff.mpr inhabited
  obtain ⟨a, ⟨mem, place⟩, unique⟩ := existsUnique_rank nodup (Nat.mod_lt id positive)
  rcases Nat.lt_or_ge 1 ms.length with several | alone
  · simp only [inPartition_iff several, eq_comm (a := id % ms.length)]
    exact ⟨a, ⟨mem, place⟩, unique⟩
  · -- A single member holds everything.
    refine ⟨a, ⟨mem, by simp [inPartition, alone]⟩, fun b ⟨other, _⟩ => unique b ⟨other, ?_⟩⟩
    have first := rank_lt nodup other
    have last := Nat.mod_lt id positive
    omega

end Address

end RecurringWork
