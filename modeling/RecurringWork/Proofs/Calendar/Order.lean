import RecurringWork.Calendar

/-!
# RecurringWork.Proofs.Calendar.Order

**Days and seconds count what the calendar shows.** A date that exists is later than another
one exactly if it lies more days after 1970-01-01 (`Date.Before.toDays_lt`), and every day is
the day of a date that exists (`Date.ofDays_spec`). The same holds of clock faces and seconds
(`Civil.Before.toSeconds_lt`, `Civil.toSeconds_ofSeconds`), so that one can be taken for the
other (`Civil.ofSeconds_toSeconds`).

All of it comes down to three facts: a year ends where the next one starts
(`Date.daysBeforeYear_succ`), the months fill their year (`Date.daysBeforeMonth_add_le`), and
the estimate of the year is at most one off (`Date.yearOfDays_spec`).
-/

namespace RecurringWork

namespace Date

/-! ### Years and months -/

def yearLength (year : Int) : Nat := if isLeap year then 366 else 365

theorem daysBeforeYear_succ (year : Int) :
    daysBeforeYear (year + 1) = daysBeforeYear year + yearLength year := by
  unfold daysBeforeYear yearLength isLeap
  by_cases four : year % 4 = 0
  · by_cases hundred : year % 100 = 0
    · by_cases fourHundred : year % 400 = 0
      · simp only [four, hundred, fourHundred]
        simp
        omega
      · simp only [four, hundred]
        simp [fourHundred]
        omega
    · simp only [four]
      simp [hundred]
      omega
  · simp [four]
    omega

/-- The months that are over do not reach into the next one, nor beyond the year. -/
theorem daysBeforeMonth_add_le (year : Int) {month : Nat} (low : 0 < month) (high : month ≤ 12) :
    daysBeforeMonth year month + monthLength year month ≤ yearLength year ∧
      ∀ later, month < later → later ≤ 12 →
        daysBeforeMonth year month + monthLength year month ≤ daysBeforeMonth year later := by
  unfold daysBeforeMonth monthLength yearLength
  generalize isLeap year = leap
  have months : ∀ leap : Bool, ∀ month < 13, 0 < month →
      ((monthLengths leap).take (month - 1)).foldr (· + ·) 0 +
        (if month = 0 then 0 else ((monthLengths leap)[month - 1]?).getD 0) ≤
          (if leap then 366 else 365) ∧
      ∀ later < 13, month < later →
        ((monthLengths leap).take (month - 1)).foldr (· + ·) 0 +
          (if month = 0 then 0 else ((monthLengths leap)[month - 1]?).getD 0) ≤
            ((monthLengths leap).take (later - 1)).foldr (· + ·) 0 := by
    decide
  obtain ⟨year, later⟩ := months leap month (by omega) low
  exact ⟨year, fun l above below => later l (by omega) above⟩

/-- A month with days is one of the twelve. -/
theorem month_of_isReal {d : Date} (real : d.isReal = true) :
    0 < d.month ∧ d.month ≤ 12 ∧ 0 < d.day ∧ d.day ≤ monthLength d.year d.month := by
  unfold isReal at real
  simp only [Bool.and_eq_true, decide_eq_true_eq] at real
  obtain ⟨low, high⟩ := real
  refine ⟨?_, ?_, low, high⟩
  · refine Nat.pos_of_ne_zero fun none => ?_
    rw [monthLength, if_pos none] at high
    omega
  · refine Nat.le_of_not_lt fun beyond => ?_
    have short : (monthLengths (isLeap d.year)).length = 12 := rfl
    rw [monthLength, if_neg (by omega), List.getElem?_eq_none (by omega)] at high
    exact absurd high (by simp; omega)

/-! ### The order of dates -/

/-- A date lies within its year. -/
theorem toDays_mem_year {d : Date} (real : d.isReal = true) :
    daysBeforeYear d.year ≤ d.toDays ∧ d.toDays < daysBeforeYear (d.year + 1) := by
  obtain ⟨low, high, first, last⟩ := month_of_isReal real
  have fits := (daysBeforeMonth_add_le d.year low high).1
  rw [daysBeforeYear_succ]
  unfold toDays
  omega

theorem daysBeforeYear_mono {a b : Int} (h : a ≤ b) : daysBeforeYear a ≤ daysBeforeYear b := by
  unfold daysBeforeYear
  dsimp only
  omega

/-- The order of dates: by year, then by month, then by day. -/
inductive Before : Date → Date → Prop
  | year {c d : Date} : c.year < d.year → Before c d
  | month {c d : Date} : c.year = d.year → c.month < d.month → Before c d
  | day {c d : Date} : c.year = d.year → c.month = d.month → c.day < d.day → Before c d

/-- **An earlier date is an earlier day.** -/
theorem Before.toDays_lt {c d : Date} (h : Before c d) (first : c.isReal = true)
    (second : d.isReal = true) : c.toDays < d.toDays := by
  cases h with
  | year lt =>
      have mono := daysBeforeYear_mono (show c.year + 1 ≤ d.year by omega)
      have := (toDays_mem_year first).2
      have := (toDays_mem_year second).1
      omega
  | month same lt =>
      obtain ⟨low, high, -, last⟩ := month_of_isReal first
      obtain ⟨-, below, start, -⟩ := month_of_isReal second
      have fits := (daysBeforeMonth_add_le c.year low high).2 d.month lt below
      unfold toDays
      rw [← same]
      omega
  | day year month lt =>
      unfold toDays
      rw [← year, ← month]
      omega

theorem before_or_eq (c d : Date) : c.Before d ∨ c = d ∨ d.Before c := by
  obtain ⟨y, m, k⟩ := c
  obtain ⟨y', m', k'⟩ := d
  rcases Int.lt_trichotomy y y' with lt | rfl | gt
  · exact .inl (.year lt)
  · rcases Nat.lt_trichotomy m m' with lt | rfl | gt
    · exact .inl (.month rfl lt)
    · rcases Nat.lt_trichotomy k k' with lt | rfl | gt
      · exact .inl (.day rfl rfl lt)
      · exact .inr (.inl rfl)
      · exact .inr (.inr (.day rfl rfl gt))
    · exact .inr (.inr (.month rfl gt))
  · exact .inr (.inr (.year gt))

/-! ### The date of a day -/

/-- A day lies within its year. -/
theorem yearOfDays_spec (days : Int) :
    daysBeforeYear (yearOfDays days) ≤ days ∧ days < daysBeforeYear (yearOfDays days + 1) := by
  -- The mean length of a year keeps the estimate within one of the year.
  have close : daysBeforeYear ((days + 719162) * 400 / 146097 + 1 - 1) ≤ days ∧
      days < daysBeforeYear ((days + 719162) * 400 / 146097 + 1 + 1 + 1) := by
    unfold daysBeforeYear
    dsimp only
    omega
  unfold yearOfDays
  dsimp only
  split
  · next early =>
      rw [Int.sub_add_cancel]
      exact ⟨close.1, early⟩
  · next late =>
      split
      · next beyond => exact ⟨beyond, close.2⟩
      · next within => exact ⟨by omega, by omega⟩

/-- The walk ends in the month in which the rest runs out. -/
theorem walkMonths_spec {lengths : List Nat} (month : Nat) {rest : Nat}
    (short : rest < lengths.foldr (· + ·) 0) :
    ∃ i length, lengths[i]? = some length ∧
      (lengths.take i).foldr (· + ·) 0 ≤ rest ∧
      rest < (lengths.take i).foldr (· + ·) 0 + length ∧
      walkMonths lengths month rest =
        (month + i, rest - (lengths.take i).foldr (· + ·) 0 + 1) := by
  induction lengths generalizing month rest with
  | nil => exact absurd short (Nat.not_lt_zero _)
  | cons first later ih =>
      unfold walkMonths
      by_cases here : rest < first
      · rw [if_pos here]
        exact ⟨0, first, rfl, Nat.zero_le _, by simpa using here, rfl⟩
      · rw [if_neg here]
        rw [List.foldr_cons] at short
        have left : rest - first < later.foldr (· + ·) 0 := by omega
        obtain ⟨i, length, found, low, high, walk⟩ := ih (month + 1) left
        refine ⟨i + 1, length, found, ?_, ?_, ?_⟩
        · rw [List.take_succ_cons, List.foldr_cons]
          omega
        · rw [List.take_succ_cons, List.foldr_cons]
          omega
        · rw [walk, List.take_succ_cons, List.foldr_cons, Nat.sub_sub, Nat.add_assoc,
            Nat.add_comm 1 i]

theorem sum_monthLengths (leap : Bool) :
    (monthLengths leap).foldr (· + ·) 0 = if leap then 366 else 365 := by
  cases leap <;> rfl

/-- **Every day is that of a date that exists.** -/
theorem ofDays_spec (days : Int) : (ofDays days).isReal = true ∧ (ofDays days).toDays = days := by
  obtain ⟨low, high⟩ := yearOfDays_spec days
  rw [daysBeforeYear_succ, yearLength] at high
  generalize inYear : yearOfDays days = year at low high
  have short : (days - daysBeforeYear year).toNat <
      (monthLengths (isLeap year)).foldr (· + ·) 0 := by
    rw [sum_monthLengths]
    omega
  obtain ⟨i, length, found, before, within, walk⟩ := walkMonths_spec 1 short
  have date : ofDays days = ⟨year, 1 + i, (days - daysBeforeYear year).toNat -
      ((monthLengths (isLeap year)).take i).foldr (· + ·) 0 + 1⟩ := by
    unfold ofDays
    dsimp only
    rw [inYear, walk]
  rw [date]
  constructor
  · unfold isReal monthLength
    rw [if_neg (show 1 + i ≠ 0 by omega), Nat.add_sub_cancel_left, found]
    simp only [Option.getD_some, Bool.and_eq_true, decide_eq_true_eq]
    omega
  · unfold toDays daysBeforeMonth
    dsimp only
    rw [Nat.add_sub_cancel_left]
    omega

end Date

namespace Civil

/-- The face exists. -/
structure Real (c : Civil) : Prop where
  date : c.date.isReal = true
  hour : c.hour < 24
  minute : c.minute < 60
  second : c.second < 60

/-- The order of faces: by date, then by hour, minute and second. -/
inductive Before : Civil → Civil → Prop
  | date {c d : Civil} : c.date.Before d.date → Before c d
  | hour {c d : Civil} : c.date = d.date → c.hour < d.hour → Before c d
  | minute {c d : Civil} : c.date = d.date → c.hour = d.hour → c.minute < d.minute → Before c d
  | second {c d : Civil} : c.date = d.date → c.hour = d.hour → c.minute = d.minute →
      c.second < d.second → Before c d

/-- **An earlier face is an earlier second.** -/
theorem Before.toSeconds_lt {c d : Civil} (h : Before c d) (first : c.Real) (second : d.Real) :
    c.toSeconds < d.toSeconds := by
  obtain ⟨date, hour, minute, sec⟩ := first
  obtain ⟨date', hour', minute', sec'⟩ := second
  unfold toSeconds secondsPerDay
  cases h with
  | date before =>
      have := before.toDays_lt date date'
      omega
  | hour same lt =>
      rw [same]
      omega
  | minute same hours lt =>
      rw [same]
      omega
  | second same hours minutes lt =>
      rw [same]
      omega

theorem before_or_eq (c d : Civil) : c.Before d ∨ c = d ∨ d.Before c := by
  obtain ⟨date, h, m, s⟩ := c
  obtain ⟨date', h', m', s'⟩ := d
  rcases date.before_or_eq date' with before | rfl | after
  · exact .inl (.date before)
  · rcases Nat.lt_trichotomy h h' with lt | rfl | gt
    · exact .inl (.hour rfl lt)
    · rcases Nat.lt_trichotomy m m' with lt | rfl | gt
      · exact .inl (.minute rfl rfl lt)
      · rcases Nat.lt_trichotomy s s' with lt | rfl | gt
        · exact .inl (.second rfl rfl rfl lt)
        · exact .inr (.inl rfl)
        · exact .inr (.inr (.second rfl rfl rfl gt))
      · exact .inr (.inr (.minute rfl rfl gt))
    · exact .inr (.inr (.hour rfl gt))
  · exact .inr (.inr (.date after))

theorem real_ofSeconds (seconds : Int) : (ofSeconds seconds).Real := by
  have range : (seconds % secondsPerDay).toNat < 86400 := by
    unfold secondsPerDay
    omega
  refine ⟨(Date.ofDays_spec _).1, ?_, ?_, ?_⟩ <;> dsimp only [ofSeconds] <;> omega

/-- **Every second is that of a face that exists.** -/
theorem toSeconds_ofSeconds (seconds : Int) : (ofSeconds seconds).toSeconds = seconds := by
  unfold toSeconds ofSeconds
  dsimp only
  rw [(Date.ofDays_spec _).2]
  unfold secondsPerDay
  omega

/-- **A face that exists is that of its second.** -/
theorem ofSeconds_toSeconds {c : Civil} (real : c.Real) : ofSeconds c.toSeconds = c := by
  have other := real_ofSeconds c.toSeconds
  have same := toSeconds_ofSeconds c.toSeconds
  rcases (ofSeconds c.toSeconds).before_or_eq c with before | eq | after
  · have := before.toSeconds_lt other real
    omega
  · exact eq
  · have := after.toSeconds_lt real other
    omega

end Civil

end RecurringWork
