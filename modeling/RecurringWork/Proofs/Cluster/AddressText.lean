import RecurringWork.Cluster.Address
import RecurringWork.Proofs.Json.Tokens

/-!
# RecurringWork.Proofs.Cluster.AddressText

**The text of an IP address is read back as that address** (`Ip.read?_render`), in either
family and in each of the three forms that an IPv6 address can have.

The scanner tries four decimal bytes wherever a group may stand, so it has to be shown that
they are not there. A text without a point holds none (`Ip.Scan.octets_eq_none`), and the
only point in a written address is one between such bytes. The two colons of a shortened
address stand for as many zeros as are missing from eight groups, whichever run of zeros
they were written for; of the choice of the run only that it is one is used
(`Ip.exists_longestZeros`).
-/

namespace RecurringWork.Ip

/-! ### Separated parts -/

theorem intercalate_cons (separator : Char) (x : List Char) (xs : List (List Char)) :
    List.intercalate [separator] (x :: xs) = x ++ xs.flatMap (separator :: ·) := by
  induction xs generalizing x with
  | nil => simp
  | cons y ys ih => simp [List.intercalate_cons_cons, ih]

/-- Bytes with a point in front of each. -/
def pointed (os : List Nat) : List Char := os.flatMap fun o => '.' :: decimalDigits o

/-- Groups with a colon in front of each. -/
def coloned (gs : List Nat) : List Char := gs.flatMap fun g => ':' :: Nat.toDigits 16 g

theorem dotted_cons (o : Nat) (os : List Nat) :
    dotted (o :: os) = decimalDigits o ++ pointed os := by
  rw [dotted, List.map_cons, intercalate_cons, List.flatMap_map, pointed]

theorem colonSeparated_cons (g : Nat) (gs : List Nat) :
    colonSeparated (g :: gs) = Nat.toDigits 16 g ++ coloned gs := by
  rw [colonSeparated, List.map_cons, intercalate_cons, List.flatMap_map, coloned]

namespace Scan

/-! ### Bytes -/

/-- A byte is read back. -/
theorem octet_decimalDigits {n : Nat} (byte : n < 256) {rest : List Char}
    (stop : Stops Char.isDigit rest) : octet (decimalDigits n ++ rest) = some (n, rest) := by
  have short : (decimalDigits n).length ≤ 3 :=
    (Nat.length_toDigits_le_iff (by decide) (by decide)).mpr (by omega)
  have plain : ¬(1 < (decimalDigits n).length ∧ (decimalDigits n).head? = some '0') := by
    rintro ⟨long, zero⟩
    obtain ⟨ds, same⟩ := List.head?_eq_some_iff.mp zero
    rw [same, eq_nil_of_decimalDigits same] at long
    exact absurd long (by decide)
  simp only [octet, takeWhile_run (fun _ => isDigit_of_mem_decimalDigits) stop,
    dropWhile_run (fun _ => isDigit_of_mem_decimalDigits) stop, digitsValue_decimalDigits]
  refine if_neg ?_
  rintro (none | long | large | padded)
  · exact decimalDigits_ne_nil none
  · omega
  · omega
  · exact plain padded

theorem mem_of_octet {cs r : List Char} {n : Nat} (h : octet cs = some (n, r)) {c : Char}
    (mem : c ∈ r) : c ∈ cs := by
  simp only [octet] at h
  split at h
  · cases h
  · cases h
    exact (List.dropWhile_sublist _).subset mem

/-- A byte and `count` more behind it. -/
def octetThen (count : Nat) (cs : List Char) : Option (List Nat × List Char) :=
  (octet cs).bind fun (o, r) => (octets count r).bind fun (os, r) => some (o :: os, r)

/-- The first of four bytes has no point in front. -/
theorem octets_four (cs : List Char) : octets 4 cs = octetThen 3 cs := by
  rw [octets.eq_def]
  rfl

/-- Each other byte has one. -/
theorem octets_point {count : Nat} (few : count + 1 < 4) (cs : List Char) :
    octets (count + 1) ('.' :: cs) = octetThen count cs := by
  rw [octets, if_neg (Nat.ne_of_lt few)]
  rfl

theorem octets_of_not_point {count : Nat} (few : count + 1 < 4) {cs : List Char}
    (h : ∀ r, cs ≠ '.' :: r) : octets (count + 1) cs = none := by
  rw [octets, if_neg (Nat.ne_of_lt few)]
  · rfl
  · exact fun r same => h r same

theorem stops_pointed (os : List Nat) {rest : List Char} (stop : Stops Char.isDigit rest) :
    Stops Char.isDigit (pointed os ++ rest) := by
  cases os with
  | nil => exact stop
  | cons o os => exact stops_cons rfl

theorem octets_pointed {count : Nat} (few : count < 4) {os : List Nat}
    (length : os.length = count) (bytes : ∀ o ∈ os, o < 256) {rest : List Char}
    (stop : Stops Char.isDigit rest) : octets count (pointed os ++ rest) = some (os, rest) := by
  induction os generalizing count with
  | nil =>
    subst length
    rfl
  | cons o os ih =>
    subst length
    rw [List.forall_mem_cons] at bytes
    have here := octet_decimalDigits bytes.1 (stops_pointed os stop)
    have later := ih (Nat.lt_of_succ_lt few) rfl bytes.2
    have text : pointed (o :: os) ++ rest = '.' :: (decimalDigits o ++ (pointed os ++ rest)) := by
      simp [pointed]
    rw [text, List.length_cons, octets_point few, octetThen, here]
    simp [later]

/-- Four bytes are read back. -/
theorem octets_dotted {os : List Nat} (length : os.length = 4) (bytes : ∀ o ∈ os, o < 256)
    {rest : List Char} (stop : Stops Char.isDigit rest) :
    octets 4 (dotted os ++ rest) = some (os, rest) := by
  match os with
  | o :: os =>
    rw [List.forall_mem_cons] at bytes
    have here := octet_decimalDigits bytes.1 (stops_pointed os stop)
    have later := octets_pointed (by decide) (Nat.succ_inj.mp length) bytes.2 stop
    rw [dotted_cons, List.append_assoc, octets_four, octetThen, here]
    simp [later]

theorem octets_eq_none_of_octet {cs : List Char} (h : octet cs = none) : octets 4 cs = none := by
  rw [octets_four, octetThen, h, Option.bind_none]

/-- A text without a point holds no four bytes. -/
theorem octets_eq_none {cs : List Char} (h : '.' ∉ cs) : octets 4 cs = none := by
  rw [octets_four, octetThen]
  cases first : octet cs with
  | none => rfl
  | some found =>
    have noPoint (r : List Char) : found.2 ≠ '.' :: r := fun point =>
      h (mem_of_octet first (point ▸ List.mem_cons_self))
    have more : octets 3 found.2 = none := octets_of_not_point (by decide) noPoint
    simp [more]

/-! ### Groups -/

theorem exists_hexDigit_of_mem_toDigits {n : Nat} {c : Char} (h : c ∈ Nat.toDigits 16 n) :
    ∃ k < 16, c = hexDigit k := by
  induction n using Nat.strongRecOn with
  | ind n ih =>
    rcases Nat.lt_or_ge n 16 with small | large
    · rw [Nat.toDigits_of_lt_base small, List.mem_singleton] at h
      exact ⟨n, small, h⟩
    · rw [Nat.toDigits_of_base_le (by decide) large, List.mem_append, List.mem_singleton] at h
      rcases h with front | last
      · exact ih (n / 16) (by omega) front
      · exact ⟨n % 16, by omega, last⟩

theorem isHexDigit_of_mem_toDigits {n : Nat} {c : Char} (h : c ∈ Nat.toDigits 16 n) :
    isHexDigit c := by
  obtain ⟨k, small, rfl⟩ := exists_hexDigit_of_mem_toDigits h
  rw [isHexDigit, Json.Scan.hexValue?_hexDigit k small]
  rfl

theorem hexValue_toDigits (n : Nat) : hexValue (Nat.toDigits 16 n) = n := by
  induction n using Nat.strongRecOn with
  | ind n ih =>
    rcases Nat.lt_or_ge n 16 with small | large
    · rw [Nat.toDigits_of_lt_base small]
      have digit := Json.Scan.hexValue?_hexDigit n small
      simp [hexValue, ← hexDigit.eq_1, digit]
    · rw [Nat.toDigits_of_base_le (by decide) large, hexValue, List.foldl_append]
      have front := ih (n / 16) (by omega)
      have digit := Json.Scan.hexValue?_hexDigit (n % 16) (by omega)
      rw [hexValue] at front
      simp [front, ← hexDigit.eq_1, digit]
      omega

/-- A group is read back. -/
theorem group_toDigits {n : Nat} (word : n < 65536) {rest : List Char}
    (stop : Stops isHexDigit rest) : group (Nat.toDigits 16 n ++ rest) = some (n, rest) := by
  have short : (Nat.toDigits 16 n).length ≤ 4 :=
    (Nat.length_toDigits_le_iff (by decide) (by decide)).mpr (by omega)
  simp only [group, takeWhile_run (fun _ => isHexDigit_of_mem_toDigits) stop,
    dropWhile_run (fun _ => isHexDigit_of_mem_toDigits) stop, hexValue_toDigits]
  refine if_neg ?_
  rintro (none | long)
  · exact Nat.toDigits_ne_nil none
  · omega

theorem group_eq_none {rest : List Char} (stop : Stops isHexDigit rest) : group rest = none := by
  simp [group, takeWhile_of_stops stop]

/-- No four bytes stand where the next group is looked for. -/
def NoBytes (first : Bool) (cs : List Char) : Prop :=
  (separated first cs).bind (octets 4) = none

theorem noBytes_of_not_mem {first : Bool} {cs : List Char} (h : '.' ∉ cs) : NoBytes first cs := by
  unfold NoBytes separated
  split
  · exact octets_eq_none h
  split
  · exact octets_eq_none fun mem => h (List.mem_cons_of_mem _ mem)
  · rfl

section Steps

variable {first : Bool} {count : Nat} {cs t r : List Char}

theorem groups_stop (noBytes : NoBytes first cs) (h : (separated first cs).bind group = none) :
    groups first count cs = ([], false, cs) := by
  cases count with
  | zero => rfl
  | succ count =>
    rw [NoBytes] at noBytes
    rw [groups, noBytes, h, ite_self]

theorem groups_group (noBytes : NoBytes first cs) (text : separated first cs = some t) {g : Nat}
    (h : group t = some (g, r)) {gs : List Nat} {isTail : Bool} {rest : List Char}
    (more : groups false count r = (gs, isTail, rest)) :
    groups first (count + 1) cs = (g :: gs, isTail, rest) := by
  rw [NoBytes] at noBytes
  rw [groups, noBytes, text, Option.bind_some, h, ite_self]
  simp only [more]

theorem groups_bytes (text : separated first cs = some t) {a b c d : Nat}
    (h : octets 4 t = some ([a, b, c, d], r)) :
    groups first (count + 2) cs = ([a * 256 + b, c * 256 + d], true, r) := by
  rw [groups, text, Option.bind_some, h, if_neg (Nat.succ_ne_zero count)]

end Steps

/-- What follows holds no point and continues no list of groups. -/
structure Ends (rest : List Char) : Prop where
  noPoint : '.' ∉ rest
  noDigit : Stops isHexDigit rest
  noGroup : (separated false rest).bind group = none

theorem ends_nil : Ends [] := ⟨by simp, stops_nil, rfl⟩

theorem ends_colons {cs : List Char} (noPoint : '.' ∉ cs) : Ends (':' :: ':' :: cs) where
  noPoint := by simpa using noPoint
  noDigit := stops_cons rfl
  noGroup := by
    have stop : Stops isHexDigit (':' :: cs) := stops_cons rfl
    exact group_eq_none stop

theorem not_mem_toDigits {n : Nat} : '.' ∉ Nat.toDigits 16 n := fun mem => by
  have digit := isHexDigit_of_mem_toDigits mem
  exact absurd digit (by decide)

theorem not_mem_coloned (gs : List Nat) : '.' ∉ coloned gs := by
  simp [coloned, not_mem_toDigits]

theorem not_mem_colonSeparated (gs : List Nat) : '.' ∉ colonSeparated gs := by
  cases gs with
  | nil => exact List.not_mem_nil
  | cons g gs => simp [colonSeparated_cons, not_mem_toDigits, not_mem_coloned]

theorem stops_coloned (gs : List Nat) {rest : List Char} (ends : Ends rest) :
    Stops isHexDigit (coloned gs ++ rest) := by
  cases gs with
  | nil => exact ends.noDigit
  | cons g gs => exact stops_cons rfl

theorem groups_coloned {gs : List Nat} {count : Nat} (few : gs.length ≤ count)
    (words : ∀ g ∈ gs, g < 65536) {rest : List Char} (ends : Ends rest) :
    groups false count (coloned gs ++ rest) = (gs, false, rest) := by
  induction gs generalizing count with
  | nil => exact groups_stop (noBytes_of_not_mem ends.noPoint) ends.noGroup
  | cons g gs ih =>
    match count with
    | count + 1 =>
      rw [List.forall_mem_cons] at words
      have here := group_toDigits words.1 (stops_coloned gs ends)
      have text : coloned (g :: gs) ++ rest =
          ':' :: (Nat.toDigits 16 g ++ (coloned gs ++ rest)) := by simp [coloned]
      have noPoint : '.' ∉ coloned (g :: gs) ++ rest := by
        simp [not_mem_coloned, ends.noPoint]
      rw [text] at noPoint ⊢
      exact groups_group (noBytes_of_not_mem noPoint) rfl here
        (ih (Nat.le_of_succ_le_succ few) words.2)

/-- Groups are read back. -/
theorem groups_colonSeparated {gs : List Nat} {count : Nat} (few : gs.length ≤ count)
    (words : ∀ g ∈ gs, g < 65536) {rest : List Char} (ends : Ends rest) :
    groups true count (colonSeparated gs ++ rest) = (gs, false, rest) := by
  have noPoint : '.' ∉ colonSeparated gs ++ rest := by
    simp [not_mem_colonSeparated, ends.noPoint]
  match gs, count with
  | [], _ => exact groups_stop (noBytes_of_not_mem noPoint) (group_eq_none ends.noDigit)
  | g :: gs, count + 1 =>
    rw [List.forall_mem_cons] at words
    have here := group_toDigits words.1 (stops_coloned gs ends)
    rw [colonSeparated_cons, List.append_assoc] at noPoint ⊢
    exact groups_group (noBytes_of_not_mem noPoint) rfl here
      (groups_coloned (Nat.le_of_succ_le_succ few) words.2 ends)

/-! ### Eight groups -/

/-- Eight groups that are all written are read back. -/
theorem v6_colonSeparated {gs : List Nat} (length : gs.length = 8)
    (words : ∀ g ∈ gs, g < 65536) : v6 (colonSeparated gs) = some (gs, []) := by
  have read := groups_colonSeparated (Nat.le_of_eq length) words ends_nil
  rw [List.append_nil] at read
  simp [v6, read, length]

/-- The two colons stand for the groups that are missing. -/
theorem v6_of_groups {cs r rest : List Char} {front back : List Nat} {isTail : Bool}
    (first : groups true 8 cs = (front, false, ':' :: ':' :: r)) (few : front.length ≠ 8)
    (second : groups true (7 - front.length) r = (back, isTail, rest)) :
    v6 cs = some
      (front ++ List.replicate (8 - front.length - back.length) 0 ++ back, rest) := by
  simp only [v6, first, second]
  rw [if_neg few]
  rfl

/-- Groups with two colons in the place of zeros are read back with the zeros. -/
theorem v6_shortened {front back : List Nat} {zeros : Nat} (found : 0 < zeros)
    (length : front.length + zeros + back.length = 8) (before : ∀ g ∈ front, g < 65536)
    (behind : ∀ g ∈ back, g < 65536) :
    v6 (colonSeparated front ++ ':' :: ':' :: colonSeparated back) =
      some (front ++ List.replicate zeros 0 ++ back, []) := by
  have first : groups true 8 (colonSeparated front ++ ':' :: ':' :: colonSeparated back) =
      (front, false, ':' :: ':' :: colonSeparated back) :=
    groups_colonSeparated (by omega) before (ends_colons (not_mem_colonSeparated back))
  have second : groups true (7 - front.length) (colonSeparated back ++ []) =
      (back, false, []) :=
    groups_colonSeparated (by omega) behind ends_nil
  have missing : 8 - front.length - back.length = zeros := by omega
  rw [List.append_nil] at second
  rw [v6_of_groups first (by omega) second, missing]

/-- An address of the mapped range is read back from the IPv4 address behind its prefix. -/
theorem v6_mapped {g h : Nat} (high : g < 65536) (low : h < 65536) :
    v6 (':' :: ':' :: 'f' :: 'f' :: 'f' :: 'f' :: ':' ::
      dotted [g / 256, g % 256, h / 256, h % 256]) =
      some ([0, 0, 0, 0, 0, 0xffff, g, h], []) := by
  have small : ∀ o ∈ [g / 256, g % 256, h / 256, h % 256], o < 256 := by
    simp only [List.forall_mem_cons]
    refine ⟨?_, ?_, ?_, ?_, List.forall_mem_nil _⟩ <;> omega
  have bytes := octets_dotted rfl small stops_nil
  rw [List.append_nil] at bytes
  generalize dotted [g / 256, g % 256, h / 256, h % 256] = ds at bytes ⊢
  have front : groups true 8 (':' :: ':' :: 'f' :: 'f' :: 'f' :: 'f' :: ':' :: ds) =
      ([], false, ':' :: ':' :: 'f' :: 'f' :: 'f' :: 'f' :: ':' :: ds) :=
    groups_stop (octets_eq_none_of_octet rfl) rfl
  have noBytes : NoBytes true ('f' :: 'f' :: 'f' :: 'f' :: ':' :: ds) :=
    octets_eq_none_of_octet rfl
  have back : groups true 7 ('f' :: 'f' :: 'f' :: 'f' :: ':' :: ds) =
      ([0xffff, g / 256 * 256 + g % 256, h / 256 * 256 + h % 256], true, []) :=
    groups_group noBytes rfl (group_toDigits (n := 0xffff) (by decide) (stops_cons rfl))
      (groups_bytes rfl bytes)
  rw [v6_of_groups front (by decide) back, Nat.div_add_mod', Nat.div_add_mod']
  rfl

end Scan

/-! ### The written forms -/

theorem replicate_leadingZeros (gs : List Nat) :
    ∃ rest, gs = List.replicate (leadingZeros gs) 0 ++ rest := by
  refine ⟨gs.dropWhile (· == 0), ?_⟩
  have zeros : gs.takeWhile (· == 0) = List.replicate (leadingZeros gs) 0 :=
    List.eq_replicate_of_mem fun g mem => by
      simpa using List.all_eq_true.mp List.all_takeWhile g mem
  rw [← zeros, List.takeWhile_append_dropWhile]

/-- What counts as the longest run of zeros is a run of zeros. -/
theorem exists_longestZeros (gs : List Nat) (index : Nat) :
    ∃ front back, gs = front ++ List.replicate (longestZeros index gs).2 0 ++ back ∧
      (0 < (longestZeros index gs).2 → (longestZeros index gs).1 = index + front.length) := by
  induction gs generalizing index with
  | nil => exact ⟨[], [], rfl, fun pos => absurd pos (by simp [longestZeros])⟩
  | cons g gs ih =>
    obtain ⟨front, back, split, position⟩ := ih (index + 1)
    simp only [longestZeros]
    split_ifs with here
    · obtain ⟨rest, zeros⟩ := replicate_leadingZeros (g :: gs)
      exact ⟨[], rest, zeros, fun _ => rfl⟩
    · refine ⟨g :: front, back, congrArg (g :: ·) split, fun pos => ?_⟩
      rw [position pos, List.length_cons]
      omega

/-- An address outside the mapped range is written in full, or two colons stand for
zeros. -/
theorem compressed_cases (gs : List Nat) :
    compressed gs = colonSeparated gs ∨
    ∃ front zeros back, 0 < zeros ∧ gs = front ++ List.replicate zeros 0 ++ back ∧
      compressed gs = colonSeparated front ++ ':' :: ':' :: colonSeparated back := by
  obtain ⟨front, back, split, position⟩ := exists_longestZeros gs 0
  unfold compressed
  generalize longestZeros 0 gs = run at split position ⊢
  obtain ⟨start, zeros⟩ := run
  dsimp only at split position ⊢
  split_ifs with long
  · have start_eq : start = front.length := by simpa using position (by omega)
    refine .inr ⟨front, zeros, back, by omega, split, ?_⟩
    subst split start_eq
    simp
  · exact .inl rfl

theorem mapped?_eq_some {gs os : List Nat} (h : mapped? gs = some os) :
    ∃ g k, gs = [0, 0, 0, 0, 0, 0xffff, g, k] ∧ os = [g / 256, g % 256, k / 256, k % 256] := by
  unfold mapped? at h
  split at h
  · cases h
    exact ⟨_, _, rfl, rfl⟩
  · cases h

/-- The written form of a shortened or full address is read back. -/
theorem v6_compressed {gs : List Nat} (length : gs.length = 8) (words : ∀ g ∈ gs, g < 65536) :
    Scan.v6 (compressed gs) = some (gs, []) := by
  rcases compressed_cases gs with full | ⟨front, zeros, back, found, rfl, text⟩
  · rw [full, Scan.v6_colonSeparated length words]
  · rw [text]
    simp only [List.length_append, List.length_replicate] at length
    exact Scan.v6_shortened found length (fun g mem => words g (by simp [mem]))
      (fun g mem => words g (by simp [mem]))

theorem not_mem_compressed (gs : List Nat) : '.' ∉ compressed gs := by
  rcases compressed_cases gs with full | ⟨front, zeros, back, -, -, text⟩
  · rw [full]
    exact Scan.not_mem_colonSeparated gs
  · rw [text]
    simp [Scan.not_mem_colonSeparated]

theorem ofOctets?_toNat (os : Vector UInt8 4) :
    ofOctets? (os.toList.map UInt8.toNat) = some (.v4 os) := by
  obtain ⟨⟨l⟩, length⟩ := os
  match l, length with
  | [a, b, c, d], _ => simp [ofOctets?]

theorem ofGroups?_toNat (gs : Vector UInt16 8) :
    ofGroups? (gs.toList.map UInt16.toNat) = some (.v6 gs) := by
  obtain ⟨⟨l⟩, length⟩ := gs
  match l, length with
  | [a, b, c, d, e, f, g, h], _ => simp [ofGroups?]

theorem read?_of_octets {cs : List Char} {os : List Nat} {ip : Ip}
    (read : Scan.octets 4 cs = some (os, [])) (whole : ofOctets? os = some ip) :
    read? (String.ofList cs) = some ip := by
  simp [read?, read, whole]

theorem read?_of_v6 {cs : List Char} {gs : List Nat} {ip : Ip}
    (noBytes : Scan.octets 4 cs = none) (read : Scan.v6 cs = some (gs, []))
    (whole : ofGroups? gs = some ip) : read? (String.ofList cs) = some ip := by
  simp [read?, noBytes, read, whole]

/-- The text of an address is read back as the address. -/
theorem read?_render (ip : Ip) : read? ip.render = some ip := by
  cases ip with
  | v4 os =>
    have bytes : ∀ o ∈ os.toList.map UInt8.toNat, o < 256 :=
      List.forall_mem_map.mpr fun o _ => o.toNat_lt
    have read := Scan.octets_dotted (by simp) bytes stops_nil
    rw [List.append_nil] at read
    exact read?_of_octets read (ofOctets?_toNat os)
  | v6 gs =>
    have words : ∀ g ∈ gs.toList.map UInt16.toNat, g < 65536 :=
      List.forall_mem_map.mpr fun g _ => g.toNat_lt
    have whole := ofGroups?_toNat gs
    simp only [render]
    split
    · next os mapped =>
      obtain ⟨g, k, same, rfl⟩ := mapped?_eq_some mapped
      rw [same] at words whole
      refine read?_of_v6 (Scan.octets_eq_none_of_octet rfl) (Scan.v6_mapped ?_ ?_) whole
      · exact words g (by simp)
      · exact words k (by simp)
    · exact read?_of_v6 (Scan.octets_eq_none (not_mem_compressed _))
        (v6_compressed (by simp) words) whole

/-- Of two runs of zeros that are equally long the first is left out. -/
example : (Ip.v6 #v[0x2001, 0xdb8, 0, 0, 1, 0, 0, 1]).render = "2001:db8::1:0:0:1" := by decide

end RecurringWork.Ip
