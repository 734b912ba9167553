import Mathlib.Data.List.Basic
import RecurringWork.Json.Printer
import RecurringWork.Json.Reader

/-!
# RecurringWork.Proofs.Json.Tokens

**A written number and a written text are read back.** A scanner takes what it can, so a
token is read back in front of whatever cannot continue it: `Stops` says that of a run of
characters of one class, `Json.Closed` of a whole value, behind which there is nothing, a
comma or a closing bracket.

A text needs no such condition, its quote ends it (`Json.Scan.text?_escape`). Every
character is either escaped or stands for itself, so the text is read back character by
character, and no surrogate is ever pending.
-/

namespace RecurringWork

/-! ### Runs of characters -/

/-- No character of the class `p` stands in front. -/
def Stops (p : Char → Bool) (rest : List Char) : Prop := ∀ c ∈ rest.head?, p c = false

section Runs

variable {p : Char → Bool} {ds rest : List Char}

theorem stops_nil : Stops p [] := by simp [Stops]

theorem stops_cons {c : Char} (h : p c = false) : Stops p (c :: rest) := by simpa [Stops] using h

theorem takeWhile_of_stops (stop : Stops p rest) : rest.takeWhile p = [] := by
  cases rest with
  | nil => rfl
  | cons c r => exact List.takeWhile_cons_of_neg (by simp [stop c rfl])

theorem dropWhile_of_stops (stop : Stops p rest) : rest.dropWhile p = rest := by
  cases rest with
  | nil => rfl
  | cons c r => exact List.dropWhile_cons_of_neg (by simp [stop c rfl])

theorem takeWhile_run (run : ∀ c ∈ ds, p c) (stop : Stops p rest) :
    (ds ++ rest).takeWhile p = ds := by
  rw [List.takeWhile_append_of_pos run, takeWhile_of_stops stop, List.append_nil]

theorem dropWhile_run (run : ∀ c ∈ ds, p c) (stop : Stops p rest) :
    (ds ++ rest).dropWhile p = rest := by
  rw [List.dropWhile_append_of_pos run, dropWhile_of_stops stop]

end Runs

/-! ### Decimal digits -/

theorem decimalDigits_ne_nil {n : Nat} : decimalDigits n ≠ [] := Nat.toDigits_ne_nil

theorem isDigit_of_mem_decimalDigits {n : Nat} {c : Char} (h : c ∈ decimalDigits n) :
    c.isDigit :=
  Nat.isDigit_of_mem_toDigits (by decide) (by decide) h

theorem digitsValue_decimalDigits (n : Nat) : digitsValue (decimalDigits n) = n := by
  have read : Nat.ofDigitChars 10 (decimalDigits n) 0 = n :=
    Nat.ofDigitChars_toDigits (by decide) (by decide)
  rw [Nat.ofDigitChars_eq_foldl] at read
  simpa only [digitsValue, Nat.mul_comm] using read

theorem head?_decimalDigits {n : Nat} (pos : n ≠ 0) : (decimalDigits n).head? ≠ some '0' := by
  unfold decimalDigits
  induction n using Nat.strongRecOn with
  | ind n ih =>
    rcases Nat.lt_or_ge n 10 with small | large
    · rw [Nat.toDigits_of_lt_base small]
      intro zero
      have code := Nat.toNat_digitChar_of_lt_ten small
      rw [Option.some.inj zero] at code
      exact pos (Nat.add_left_cancel code).symm
    · rw [Nat.toDigits_of_base_le (by decide) large,
        List.head?_append_of_ne_nil _ Nat.toDigits_ne_nil]
      exact ih (n / 10) (by omega) (by omega)

/-- Only the number zero is written with a zero in front. -/
theorem eq_nil_of_decimalDigits {n : Nat} {ds : List Char} (h : decimalDigits n = '0' :: ds) :
    ds = [] := by
  rcases eq_or_ne n 0 with rfl | pos
  · cases h
    rfl
  · exact absurd (by rw [h]; rfl) (head?_decimalDigits pos)

namespace Json

/-- The integers that fit 64 bits, signed or unsigned. -/
def Fits64 (n : Int) : Prop := -9223372036854775808 ≤ n ∧ n < 18446744073709551616

instance : DecidablePred Fits64 := fun _ => inferInstanceAs (Decidable (_ ∧ _))

namespace Scan

/-! ### Numbers -/

/-- Nothing follows, or the comma or the bracket behind a value. -/
def Closed (rest : List Char) : Prop := ∀ c ∈ rest.head?, c = ',' ∨ c = ']' ∨ c = '}'

theorem closed_nil : Closed [] := by simp [Closed]

theorem Closed.stops {p : Char → Bool} {rest : List Char} (closed : Closed rest)
    (comma : p ',' = false) (bracket : p ']' = false) (brace : p '}' = false) : Stops p rest :=
  fun c mem => by
    rcases closed c mem with rfl | rfl | rfl
    · exact comma
    · exact bracket
    · exact brace

theorem whole?_decimalDigits (n : Nat) {rest : List Char} (closed : Closed rest) :
    whole? (decimalDigits n ++ rest) = some (decimalDigits n, rest) := by
  have stop : Stops Char.isDigit rest := closed.stops rfl rfl rfl
  have found : digits (decimalDigits n ++ rest) = (decimalDigits n, rest) := by
    rw [digits, takeWhile_run (fun _ => isDigit_of_mem_decimalDigits) stop,
      dropWhile_run (fun _ => isDigit_of_mem_decimalDigits) stop]
  unfold whole?
  rw [found]
  split
  · next r none =>
    exact absurd (congrArg Prod.fst none) decimalDigits_ne_nil
  · next zero =>
    cases eq_nil_of_decimalDigits (congrArg Prod.fst zero)
  · rfl

theorem fraction?_of_closed {rest : List Char} (closed : Closed rest) :
    fraction? rest = some ([], rest) := by
  unfold fraction?
  split
  · exact absurd (closed '.' rfl) (by decide)
  · rfl

theorem exponent?_of_closed {rest : List Char} (closed : Closed rest) :
    exponent? rest = some ((false, 0), rest) := by
  cases rest with
  | nil => rfl
  | cons c r =>
    unfold exponent?
    refine if_neg ?_
    rcases closed c rfl with rfl | rfl | rfl <;> decide

section Signs

variable {n : Int} {ds rest : List Char} (closed : Closed rest)
  (whole : whole? (ds ++ rest) = some (ds, rest))

include closed whole

theorem number?_minus (value : integer? true (digitsValue ds) = some n) :
    number? ('-' :: ds ++ rest) = some (.int n, rest) := by
  unfold number?
  simp only [List.cons_append, whole, fraction?_of_closed closed, exponent?_of_closed closed,
    value, Option.bind_eq_bind, Option.bind_some, List.isEmpty_nil, Bool.not_false,
    Bool.and_true, if_true]
  rfl

theorem number?_unsigned (value : integer? false (digitsValue ds) = some n) :
    number? (ds ++ rest) = some (.int n, rest) := by
  have unsigned : ∀ r, ds ++ rest ≠ '-' :: r := by
    intro r same
    rw [same] at whole
    cases whole
  unfold number?
  split
  next sign =>
    split at sign
    · next same => exact absurd same (unsigned _)
    · cases sign
      simp only [whole, fraction?_of_closed closed, exponent?_of_closed closed, value,
        Option.bind_eq_bind, Option.bind_some, List.isEmpty_nil, Bool.not_false,
        Bool.and_true, if_true]
      rfl

end Signs

/-- An integer is read back. -/
theorem number?_integerChars {n : Int} (fits : Fits64 n) {rest : List Char}
    (closed : Closed rest) : number? (integerChars n ++ rest) = some (.int n, rest) := by
  obtain ⟨low, high⟩ := fits
  have whole := whole?_decimalDigits n.natAbs closed
  unfold integerChars
  split
  · next negative =>
    refine number?_minus closed whole ?_
    rw [digitsValue_decimalDigits, integer?, if_pos rfl, if_neg (by omega)]
    congr 1
    omega
  · next natural =>
    refine number?_unsigned closed whole ?_
    rw [digitsValue_decimalDigits, integer?, if_neg (by decide), if_pos (by omega)]
    congr 1
    omega

/-! ### Texts -/

/-- An escape of one letter. -/
theorem textFrom_letter {e c : Char} (letter : escaped? e = some c) (cs : List Char) :
    textFrom none ('\\' :: e :: cs) = withChar c (textFrom none cs) := by
  have notUnit : e ≠ 'u' := by
    rintro rfl
    cases letter
  rw [textFrom]
  · rw [letter]
    rfl
  · exact fun _ _ _ _ _ unit => absurd unit notUnit

theorem hexValue?_hexDigit : ∀ n < 16, hexValue? (hexDigit n) = some n := by decide

/-- An escape of a control character by its code. -/
theorem textFrom_code {c : Char} (control : c.toNat < 32) (cs : List Char) :
    textFrom none ('\\' :: 'u' :: '0' :: '0' :: hexDigit (c.toNat / 16) ::
      hexDigit (c.toNat % 16) :: cs) = withChar c (textFrom none cs) := by
  have unit : hexUnit? '0' '0' (hexDigit (c.toNat / 16)) (hexDigit (c.toNat % 16)) =
      some c.toNat := by
    have zero : hexValue? '0' = some 0 := rfl
    rw [hexUnit?, zero, hexValue?_hexDigit _ (by omega), hexValue?_hexDigit _ (by omega)]
    simp only [Option.bind_eq_bind, Option.bind_some, Option.pure_def, Option.some.injEq]
    omega
  have low : isLowSurrogate c.toNat = false := by
    simp only [isLowSurrogate, Bool.and_eq_false_iff, decide_eq_false_iff_not]
    omega
  have high : isHighSurrogate c.toNat = false := by
    simp only [isHighSurrogate, Bool.and_eq_false_iff, decide_eq_false_iff_not]
    omega
  simp [textFrom, unit, low, high, withPending, Char.ofNat_toNat]

/-- A character is read back from its escape. -/
theorem textFrom_escape (c : Char) (cs : List Char) :
    textFrom none (escape c ++ cs) = withChar c (textFrom none cs) := by
  unfold escape
  split_ifs with quote backslash backspace feed newline carriage tab control
  · exact quote ▸ textFrom_letter (e := '"') rfl cs
  · exact backslash ▸ textFrom_letter (e := '\\') rfl cs
  · exact backspace ▸ textFrom_letter (e := 'b') rfl cs
  · exact feed ▸ textFrom_letter (e := 'f') rfl cs
  · exact newline ▸ textFrom_letter (e := 'n') rfl cs
  · exact carriage ▸ textFrom_letter (e := 'r') rfl cs
  · exact tab ▸ textFrom_letter (e := 't') rfl cs
  · exact textFrom_code control cs
  · have plain : ¬(c.toNat < 32 ∨ c = '\\') := not_or_intro control backslash
    rw [List.singleton_append, textFrom, if_neg plain]
    · rfl
    · exact fun quoted => quote quoted
    · exact fun _ _ _ _ _ slash => absurd slash backslash
    · exact fun _ _ slash => absurd slash backslash

/-- A text is read back up to its closing quote. -/
theorem text?_escape (cs rest : List Char) :
    text? (cs.flatMap escape ++ '"' :: rest) = some (some cs, rest) := by
  unfold text?
  induction cs with
  | nil => rfl
  | cons c cs ih =>
    rw [List.flatMap_cons, List.append_assoc, textFrom_escape, ih]
    rfl

end Scan

end Json

end RecurringWork
