import RecurringWork.Proofs.Json.Tokens

/-!
# RecurringWork.Proofs.Json.Reading

**The text of a value is read back as that value** (`Json.read?_render`), if every number in
it is an integer of 64 bits and every part has a value (`Json.isExact`). Members need be
neither sorted nor distinct, and nesting is not bounded here.

What a scanner does in one call is said by one lemma for each case (`value?_bracket`,
`elements?_more` and so on). With these the three scanners are followed through a whole text
by one mutual induction on the calls that are left. Twice as many are enough as there are
characters in front of a scanner: of a call and the one inside it, one consumes a character.
-/

namespace RecurringWork.Json

mutual

/-- Every number is an integer that fits 64 bits, and every part has a value. -/
def isExact : Json → Bool
  | .int n => decide (Fits64 n)
  | .number _ | .void => false
  | .arr xs => isExactElements xs
  | .obj ms => isExactMembers ms
  | _ => true

def isExactElements : List Json → Bool
  | [] => true
  | x :: xs => isExact x && isExactElements xs

def isExactMembers : List (String × Json) → Bool
  | [] => true
  | (_, v) :: rest => isExact v && isExactMembers rest

end

mutual

/-- Of an exact value every part has a value. -/
theorem isWhole_of_isExact : ∀ {j : Json}, j.isExact → j.isWhole
  | .null, _ | .bool _, _ | .int _, _ | .str _, _ => rfl
  | .arr _, exact => isWholeElements_of_isExact exact
  | .obj _, exact => isWholeMembers_of_isExact exact

theorem isWholeElements_of_isExact : ∀ {xs : List Json}, isExactElements xs → isWholeElements xs
  | [], _ => rfl
  | x :: xs, exact => by
    obtain ⟨here, later⟩ := Bool.and_eq_true_iff.mp exact
    exact Bool.and_eq_true_iff.mpr ⟨isWhole_of_isExact here, isWholeElements_of_isExact later⟩

theorem isWholeMembers_of_isExact : ∀ {ms : List (String × Json)}, isExactMembers ms →
    isWholeMembers ms
  | [], _ => rfl
  | (_, v) :: ms, exact => by
    obtain ⟨here, later⟩ := Bool.and_eq_true_iff.mp exact
    exact Bool.and_eq_true_iff.mpr ⟨isWhole_of_isExact here, isWholeMembers_of_isExact later⟩

end

namespace Scan

/-! ### What stands in front -/

theorem skipBlanks_cons {c : Char} (h : isBlank c = false) (cs : List Char) :
    skipBlanks (c :: cs) = c :: cs :=
  List.dropWhile_cons_of_neg (by simp [h])

/-- A character with which a number begins. -/
def Numeric (c : Char) : Prop := c = '-' ∨ c.isDigit

theorem Numeric.ne {c d : Char} (numeric : Numeric c) (sign : d ≠ '-') (digit : d.isDigit = false) :
    c ≠ d := by
  rintro rfl
  rcases numeric with h | h
  · exact sign h
  · simp [digit] at h

theorem Numeric.isBlank {c : Char} (numeric : Numeric c) : isBlank c = false := by
  simp [Scan.isBlank, numeric.ne (d := ' ') (by decide) rfl,
    numeric.ne (d := '\t') (by decide) rfl, numeric.ne (d := '\n') (by decide) rfl,
    numeric.ne (d := '\r') (by decide) rfl]

theorem exists_integerChars_eq_cons (n : Int) :
    ∃ c cs, integerChars n = c :: cs ∧ Numeric c := by
  unfold integerChars
  split
  · exact ⟨_, _, rfl, .inl rfl⟩
  · obtain ⟨c, cs, same⟩ := List.exists_cons_of_ne_nil (decimalDigits_ne_nil (n := n.natAbs))
    exact ⟨c, cs, same, .inr (isDigit_of_mem_decimalDigits (same ▸ List.mem_cons_self))⟩

/-- The first character of a value is no blank and closes nothing. -/
theorem exists_chars_eq_cons {j : Json} (exact : j.isExact) :
    ∃ c cs, j.chars = c :: cs ∧ isBlank c = false ∧ c ≠ ']' := by
  match j with
  | .null | .bool true | .bool false | .str _ | .arr [] | .arr (_ :: _) | .obj []
  | .obj (_ :: _) => exact ⟨_, _, rfl, rfl, by decide⟩
  | .int n =>
    obtain ⟨c, cs, same, numeric⟩ := exists_integerChars_eq_cons n
    exact ⟨c, cs, same, numeric.isBlank, numeric.ne (by decide) rfl⟩

theorem length_chars_pos {j : Json} (exact : j.isExact) : 0 < j.chars.length := by
  obtain ⟨c, cs, same, -, -⟩ := exists_chars_eq_cons exact
  simp [same]

theorem quote_append (n : String) (cs : List Char) :
    quote n ++ cs = '"' :: (n.toList.flatMap escape ++ '"' :: cs) := by
  simp [quote]

/-! ### One call of a scanner -/

section Calls

variable {fuel : Nat} {c : Char} {cs r rest : List Char} {j : Json}

theorem value?_numeric (numeric : Numeric c) : value? (fuel + 1) (c :: cs) = number? (c :: cs) := by
  rw [value?, skipBlanks_cons numeric.isBlank]
  -- each of the six other cases begins with a character that begins no number
  split
  case h_7 => rfl
  all_goals
    next same =>
    cases same
    exact absurd rfl (numeric.ne (by decide) rfl)

theorem value?_quote (s : String) : value? (fuel + 1) (quote s ++ rest) = some (.str s, rest) := by
  rw [quote_append, value?, skipBlanks_cons rfl]
  simp [text?_escape, textValue]

theorem value?_bracket (visible : isBlank c = false) (more : c ≠ ']') {xs : List Json}
    (h : elements? fuel (c :: cs) = some (xs, rest)) :
    value? (fuel + 1) ('[' :: c :: cs) = some (.arr xs, rest) := by
  rw [value?, skipBlanks_cons rfl]
  simp only [skipBlanks_cons visible]
  split
  · next closed =>
    cases closed
    exact absurd rfl more
  · rw [h]
    rfl

theorem value?_brace {ms : List (Option (List Char) × Json)}
    (h : members? fuel ('"' :: cs) = some (ms, rest)) :
    value? (fuel + 1) ('{' :: '"' :: cs) = some (objectOf ms, rest) := by
  rw [value?, skipBlanks_cons rfl]
  simp [skipBlanks_cons (c := '"') rfl, h]

theorem elements?_last (h : value? fuel cs = some (j, ']' :: rest)) :
    elements? (fuel + 1) cs = some ([j], rest) := by
  simp [elements?, h, skipBlanks_cons (c := ']') rfl]

theorem elements?_more (h : value? fuel cs = some (j, ',' :: r)) {xs : List Json}
    (t : elements? fuel r = some (xs, rest)) :
    elements? (fuel + 1) cs = some (j :: xs, rest) := by
  simp [elements?, h, t, skipBlanks_cons (c := ',') rfl]

theorem members?_last {n : String} (h : value? fuel cs = some (j, '}' :: rest)) :
    members? (fuel + 1) (quote n ++ ':' :: cs) = some ([(some n.toList, j)], rest) := by
  simp [members?, quote_append, skipBlanks_cons (c := '"') rfl, text?_escape,
    skipBlanks_cons (c := ':') rfl, h, skipBlanks_cons (c := '}') rfl]

theorem members?_more {n : String} (h : value? fuel cs = some (j, ',' :: r))
    {ms : List (Option (List Char) × Json)} (t : members? fuel r = some (ms, rest)) :
    members? (fuel + 1) (quote n ++ ':' :: cs) = some ((some n.toList, j) :: ms, rest) := by
  simp [members?, quote_append, skipBlanks_cons (c := '"') rfl, text?_escape,
    skipBlanks_cons (c := ':') rfl, h, skipBlanks_cons (c := ',') rfl, t]

end Calls

/-! ### The whole text -/

/-- The members as the scanner gives them. -/
def named (ms : List (String × Json)) : List (Option (List Char) × Json) :=
  ms.map fun m => (some m.1.toList, m.2)

theorem mapM_named (ms : List (String × Json)) :
    ((named ms).mapM fun (name, v) => name.map fun n => (String.ofList n, v)) = some ms := by
  induction ms with
  | nil => rfl
  | cons m ms ih =>
      rw [named, List.map_cons, List.mapM_cons]
      simp only [named] at ih
      simp [ih]

theorem objectOf_named (ms : List (String × Json)) : objectOf (named ms) = .obj ms := by
  rw [objectOf, mapM_named]

theorem closed_elementsTail (xs : List Json) (rest : List Char) :
    Closed (elementsTail xs ++ rest) := by
  cases xs <;> simp [Closed, elementsTail]

theorem closed_membersTail (ms : List (String × Json)) (rest : List Char) :
    Closed (membersTail ms ++ rest) := by
  cases ms <;> simp [Closed, membersTail]

mutual

/-- A value is read back. -/
theorem value?_chars : ∀ {j : Json} {fuel : Nat} {rest : List Char}, j.isExact →
    2 * j.chars.length ≤ fuel → Closed rest → value? fuel (j.chars ++ rest) = some (j, rest)
  | .null, fuel + 1, rest, _, _, _ => by simp [value?, chars, skipBlanks, isBlank]
  | .bool true, fuel + 1, rest, _, _, _ => by simp [value?, chars, skipBlanks, isBlank]
  | .bool false, fuel + 1, rest, _, _, _ => by simp [value?, chars, skipBlanks, isBlank]
  | .int n, fuel + 1, rest, exact, _, closed => by
    obtain ⟨c, cs, same, numeric⟩ := exists_integerChars_eq_cons n
    have fits : Fits64 n := of_decide_eq_true exact
    rw [chars, same, List.cons_append, value?_numeric numeric, ← List.cons_append, ← same]
    exact number?_integerChars fits closed
  | .str s, fuel + 1, rest, _, _, _ => value?_quote s
  | .arr [], fuel + 1, rest, _, _, _ => by simp [value?, chars, skipBlanks, isBlank]
  | .arr (x :: xs), fuel + 1, rest, exact, enough, _ => by
    obtain ⟨here, later⟩ := Bool.and_eq_true_iff.mp exact
    obtain ⟨c, cs, same, visible, more⟩ := exists_chars_eq_cons here
    simp only [chars, List.length_cons] at enough
    have read : elements? fuel (x.chars ++ elementsTail xs ++ rest) = some (x :: xs, rest) :=
      elements?_chars here later (by omega)
    rw [same, List.cons_append, List.cons_append] at read
    rw [chars, same, List.cons_append, List.cons_append, List.cons_append]
    exact value?_bracket visible more read
  | .obj [], fuel + 1, rest, _, _, _ => by simp [value?, chars, skipBlanks, isBlank]
  | .obj ((n, v) :: ms), fuel + 1, rest, exact, enough, _ => by
    obtain ⟨here, later⟩ := Bool.and_eq_true_iff.mp exact
    simp only [chars, List.length_cons] at enough
    have read : members? fuel (quote n ++ ':' :: (v.chars ++ membersTail ms) ++ rest) =
        some (named ((n, v) :: ms), rest) :=
      members?_chars here later (by omega)
    rw [List.append_assoc, quote_append] at read
    rw [chars, List.cons_append, List.append_assoc, quote_append, ← objectOf_named]
    exact value?_brace read
  | j, 0, rest, exact, enough, _ => by
    have := length_chars_pos exact
    omega

/-- Elements are read back with the bracket that closes them. -/
theorem elements?_chars : ∀ {x : Json} {xs : List Json} {fuel : Nat} {rest : List Char},
    x.isExact → isExactElements xs → 2 * (x.chars ++ elementsTail xs).length ≤ fuel →
    elements? fuel (x.chars ++ elementsTail xs ++ rest) = some (x :: xs, rest)
  | x, xs, 0, rest, exact, _, enough => by
    have := length_chars_pos exact
    rw [List.length_append] at enough
    omega
  | x, xs, fuel + 1, rest, exact, exacts, enough => by
    rw [List.length_append] at enough
    have tail : 0 < (elementsTail xs).length := by cases xs <;> simp [elementsTail]
    have read : value? fuel (x.chars ++ (elementsTail xs ++ rest)) =
        some (x, elementsTail xs ++ rest) :=
      value?_chars exact (by omega) (closed_elementsTail xs rest)
    rw [List.append_assoc]
    match xs with
    | [] => exact elements?_last read
    | y :: ys =>
      obtain ⟨next, later⟩ := Bool.and_eq_true_iff.mp exacts
      simp only [elementsTail, List.length_cons] at enough
      exact elements?_more read (elements?_chars next later (by omega))

/-- Members are read back with the brace that closes them. -/
theorem members?_chars : ∀ {n : String} {v : Json} {ms : List (String × Json)} {fuel : Nat}
    {rest : List Char}, v.isExact → isExactMembers ms →
    2 * (quote n ++ ':' :: (v.chars ++ membersTail ms)).length ≤ fuel →
    members? fuel (quote n ++ ':' :: (v.chars ++ membersTail ms) ++ rest) =
      some (named ((n, v) :: ms), rest)
  | n, v, ms, 0, rest, exact, _, enough => by
    simp [quote] at enough
  | n, v, ms, fuel + 1, rest, exact, exacts, enough => by
    have := length_chars_pos exact
    rw [List.length_append, List.length_cons, List.length_append] at enough
    have read : value? fuel (v.chars ++ (membersTail ms ++ rest)) =
        some (v, membersTail ms ++ rest) :=
      value?_chars exact (by omega) (closed_membersTail ms rest)
    rw [List.append_assoc, List.cons_append, List.append_assoc]
    match ms with
    | [] => exact members?_last read
    | (m, w) :: ms =>
      obtain ⟨next, later⟩ := Bool.and_eq_true_iff.mp exacts
      simp only [membersTail, List.length_cons] at enough
      exact members?_more read (members?_chars next later (by omega))

end

end Scan

/-- The text of a value is read back as the value. -/
theorem read?_render {j : Json} (exact : j.isExact) : read? j.render = some j := by
  have read : Scan.value? (2 * j.chars.length + 1) (j.chars ++ []) = some (j, []) :=
    Scan.value?_chars exact (by omega) Scan.closed_nil
  rw [List.append_nil] at read
  simp [read?, render, read, Scan.skipBlanks]

end RecurringWork.Json
