import RecurringWork.Proofs.Calendar.Order
import RecurringWork.Zone

/-!
# RecurringWork.Proofs.Calendar.Zones

**What the clocks of a zone show.** A face denotes the first instant at which it is shown, and a
face that is never shown denotes none (`Zone.instant?_eq_some_iff`).

Where clocks are set back they show again what they showed before, and nothing else
(`Zone.Steady.shown_before`). This needs two things: that they are a day off at most, and that
they are not changed twice within two days (`Zone.Steady`). The second is plain from the
description of a zone that lists its changes. For a zone with summer time it takes the calendar:
if there is a month before the one turn, one between the two and one after, the spans of all years
are far from each other (`Zone.Spaced`). Every zone that has a name passes these checks
(`Zone.Regular`, `Zone.steady_of_ofName`).
-/

namespace RecurringWork

namespace Zone

/-! ### What clocks show -/

/-- The second that the clocks of a zone show at an instant, counted as if they had never been
changed. -/
def shown (z : Zone) (t : Int) : Int := t + z.offsetAt t

theorem toSeconds_civilAt (z : Zone) (t : Int) : (z.civilAt t).toSeconds = z.shown t :=
  Civil.toSeconds_ofSeconds _

theorem mem_offsets (z : Zone) (t : Int) : z.offsetAt t ∈ z.offsets := by
  cases z with
  | fixed offset => exact List.mem_singleton_self _
  | yearly outside inside start stop =>
      unfold offsetAt offsets
      dsimp only
      simp only [List.mem_cons, List.not_mem_nil, or_false]
      split <;> omega
  | changes initial later =>
      have among : ∀ (changes : List (Int × Int)) (offset : Int),
          offset ∈ initial :: later.map Prod.snd → (∀ c ∈ changes, c ∈ later) →
          changes.foldl (fun offset c => if c.1 ≤ t then c.2 else offset) offset ∈
            initial :: later.map Prod.snd := by
        intro changes
        induction changes with
        | nil => exact fun offset mem _ => mem
        | cons c rest ih =>
            intro offset mem sub
            refine ih _ ?_ fun d here => sub d (List.mem_cons_of_mem _ here)
            dsimp only
            split
            · exact List.mem_cons_of_mem _ (List.mem_map_of_mem (sub c List.mem_cons_self))
            · exact mem
      rw [offsets, List.mem_mergeSort, List.mem_eraseDups]
      exact among later initial List.mem_cons_self fun c mem => mem

theorem pairwise_offsets (z : Zone) : z.offsets.Pairwise (· ≥ ·) := by
  cases z with
  | fixed offset => exact List.pairwise_singleton _ _
  | yearly outside inside start stop =>
      refine List.pairwise_pair.mpr ?_
      omega
  | changes initial later =>
      have trans : ∀ a b c : Int,
          decide (b ≤ a) = true → decide (c ≤ b) = true → decide (c ≤ a) = true := by
        simp only [decide_eq_true_eq]
        omega
      have total : ∀ a b : Int, (decide (b ≤ a) || decide (a ≤ b)) = true := by
        simp only [Bool.or_eq_true, decide_eq_true_eq]
        omega
      exact (List.pairwise_mergeSort trans total _).imp fun le => of_decide_eq_true le

/-- A face that denotes no instant is never shown. -/
theorem instant?_eq_none_iff {z : Zone} {c : Civil} :
    z.instant? c = none ↔ ∀ v, z.shown v ≠ c.toSeconds := by
  unfold instant?
  rw [List.findSome?_eq_none_iff]
  constructor
  · intro none v same
    have missed := none _ (z.mem_offsets v)
    have instant : c.toSeconds - z.offsetAt v = v := by
      unfold shown at same
      omega
    rw [instant] at missed
    simp at missed
  · intro unseen offset _
    dsimp only
    split
    · next inForce =>
        refine absurd ?_ (unseen (c.toSeconds - offset))
        unfold shown
        omega
    · rfl

/-- **A face denotes the first instant at which it is shown.** -/
theorem instant?_eq_some_iff {z : Zone} {c : Civil} {u : Int} : z.instant? c = some u ↔
    z.shown u = c.toSeconds ∧ ∀ v, z.shown v = c.toSeconds → u ≤ v := by
  have found : ∀ {u}, z.instant? c = some u →
      z.shown u = c.toSeconds ∧ ∀ v, z.shown v = c.toSeconds → u ≤ v := by
    intro u found
    obtain ⟨before, offset, rest, split, here, missed⟩ := List.findSome?_eq_some_iff.mp found
    obtain ⟨inForce, rfl⟩ :
        z.offsetAt (c.toSeconds - offset) = offset ∧ c.toSeconds - offset = u := by
      simpa using here
    refine ⟨by unfold shown; omega, fun v same => ?_⟩
    -- An offset under which the face was shown earlier would have been tried before.
    have instant : c.toSeconds - z.offsetAt v = v := by
      unfold shown at same
      omega
    have mem := z.mem_offsets v
    have sorted := z.pairwise_offsets
    rw [split] at mem sorted
    have smaller : z.offsetAt v ≤ offset := by
      rcases List.mem_append.mp mem with early | late
      · have none := missed _ early
        rw [instant] at none
        simp at none
      · rcases List.mem_cons.mp late with same | late
        · omega
        · exact (List.pairwise_cons.mp (List.pairwise_append.mp sorted).2.1).1 _ late
    omega
  refine ⟨found, fun first => ?_⟩
  cases search : z.instant? c with
  | none => exact absurd first.1 (instant?_eq_none_iff.mp search u)
  | some v =>
      obtain ⟨shows, least⟩ := found search
      have le := least u first.1
      have ge := first.2 v shows
      exact congrArg some (Int.le_antisymm ge le).symm

/-- What is shown at some instant denotes one. -/
theorem isSome_instant?_shown (z : Zone) (v : Int) :
    (z.instant? (.ofSeconds (z.shown v))).isSome = true := by
  refine Option.isSome_iff_ne_none.mpr fun none => instant?_eq_none_iff.mp none v ?_
  rw [Civil.toSeconds_ofSeconds]

/-! ### Clocks that are seldom changed -/

/-- An offset of a day at most. -/
def Near (offset : Int) : Prop := -Civil.secondsPerDay ≤ offset ∧ offset ≤ Civil.secondsPerDay

/-- Clocks that are a day off at most, and changed at most once in two days. -/
structure Steady (z : Zone) : Prop where
  near : ∀ t, Near (z.offsetAt t)
  rare : ∀ {a b c}, a ≤ b → b ≤ c → c ≤ a + 2 * Civil.secondsPerDay →
    z.offsetAt a = z.offsetAt b ∨ z.offsetAt b = z.offsetAt c

/-- **A face that comes again has come before.** If clocks have been set back, all that they show
from then on until they have caught up has been shown before. -/
theorem Steady.shown_before {z : Zone} (steady : z.Steady) {u i f : Int} (earlier : u < i)
    (low : z.shown i ≤ f) (high : f ≤ z.shown u) : ∃ v ≤ u, z.shown v = f := by
  obtain ⟨-, most⟩ := steady.near u
  obtain ⟨least, -⟩ := steady.near i
  unfold shown at low high ⊢
  refine ⟨u - (u + z.offsetAt u - f), by omega, ?_⟩
  rcases steady.rare (a := u - (u + z.offsetAt u - f)) (b := u) (c := i)
    (by omega) (by omega) (by omega) with same | same
  · omega
  · omega

/-! ### Years with a span -/

/-- Days before a year, in seconds. -/
def yearStart (year : Int) : Int := Date.daysBeforeYear year * Civil.secondsPerDay

theorem yearStart_mono {x y : Int} (h : x ≤ y) : yearStart x ≤ yearStart y := by
  have days := Date.daysBeforeYear_mono h
  unfold yearStart Civil.secondsPerDay
  omega

/-- An instant lies within its year. -/
theorem mem_year (t : Int) :
    yearStart (Civil.ofSeconds t).date.year ≤ t ∧
      t < yearStart ((Civil.ofSeconds t).date.year + 1) := by
  have spec := Date.yearOfDays_spec (t / Civil.secondsPerDay)
  have year : (Civil.ofSeconds t).date.year = Date.yearOfDays (t / Civil.secondsPerDay) := rfl
  rw [year]
  unfold yearStart Civil.secondsPerDay at *
  omega

/-- An instant is not before a year if and only if its own year is not. -/
theorem le_year_iff {year t : Int} : year ≤ (Civil.ofSeconds t).date.year ↔ yearStart year ≤ t := by
  obtain ⟨first, last⟩ := mem_year t
  constructor
  · intro le
    exact Int.le_trans (yearStart_mono le) first
  · intro le
    refine Int.not_lt.mp fun lt => ?_
    have := yearStart_mono (show (Civil.ofSeconds t).date.year + 1 ≤ year by omega)
    omega

/-- The span between two turns lies well within its year, and is long. -/
structure Spaced (start stop : Turn) : Prop where
  opens : ∀ y, yearStart y + Civil.secondsPerDay ≤ start.second y
  lasts : ∀ y, start.second y + 2 * Civil.secondsPerDay < stop.second y
  closes : ∀ y, stop.second y + Civil.secondsPerDay ≤ yearStart (y + 1)

namespace Spaced

variable {start stop : Turn}

/-- An instant is in the span of its year if it is in any. -/
theorem inside_iff (spaced : Spaced start stop) (t : Int) :
    (start.second (Civil.ofSeconds t).date.year ≤ t ∧
      t < stop.second (Civil.ofSeconds t).date.year) ↔
      ∃ y, start.second y ≤ t ∧ t < stop.second y := by
  refine ⟨fun inside => ⟨_, inside⟩, ?_⟩
  rintro ⟨y, low, high⟩
  obtain ⟨first, last⟩ := mem_year t
  have opens := spaced.opens y
  have closes := spaced.closes y
  have positive : (0 : Int) < Civil.secondsPerDay := by decide
  rcases Int.lt_trichotomy y (Civil.ofSeconds t).date.year with lt | same | gt
  · have := yearStart_mono (show y + 1 ≤ (Civil.ofSeconds t).date.year by omega)
    omega
  · exact same ▸ ⟨low, high⟩
  · have := yearStart_mono (show (Civil.ofSeconds t).date.year + 1 ≤ y by omega)
    omega

/-- The spans of two years are far from each other. -/
theorem apart (spaced : Spaced start stop) {x y : Int} (lt : x < y) :
    stop.second x + 2 * Civil.secondsPerDay ≤ start.second y := by
  have closes := spaced.closes x
  have opens := spaced.opens y
  have := yearStart_mono (show x + 1 ≤ y by omega)
  omega

open scoped Classical in
/-- **A zone with summer time is steady.** Between two changes lies a span, or what lies between two
of them. -/
theorem steady (spaced : Spaced start stop) {outside inside : Int}
    (first : Near outside) (second : Near inside) :
    (yearly outside inside start stop).Steady where
  near := by
    intro t
    unfold offsetAt
    dsimp only
    split
    · exact second
    · exact first
  rare := by
    intro a b c ab bc close
    have offset : ∀ t, (yearly outside inside start stop).offsetAt t =
        if ∃ y, start.second y ≤ t ∧ t < stop.second y then inside else outside := by
      intro t
      unfold offsetAt
      exact ite_congr (propext (spaced.inside_iff t)) (fun _ => rfl) fun _ => rfl
    rw [offset, offset, offset]
    by_cases middle : ∃ y, start.second y ≤ b ∧ b < stop.second y
    · obtain ⟨y, low, high⟩ := middle
      have lasts := spaced.lasts y
      by_cases early : start.second y ≤ a
      · exact .inl (by rw [if_pos ⟨y, early, by omega⟩, if_pos ⟨y, low, high⟩])
      · exact .inr (by rw [if_pos ⟨y, low, high⟩, if_pos ⟨y, by omega, by omega⟩])
    · by_cases before : ∃ x, start.second x ≤ a ∧ a < stop.second x
      · by_cases after : ∃ y, start.second y ≤ c ∧ c < stop.second y
        · -- The span would have to go on from the one to the other.
          obtain ⟨x, low, high⟩ := before
          obtain ⟨y, low', high'⟩ := after
          rcases Int.lt_trichotomy x y with lt | rfl | gt
          · have := spaced.apart lt
            omega
          · exact absurd ⟨x, by omega, by omega⟩ middle
          · have := spaced.apart gt
            have : (0 : Int) < Civil.secondsPerDay := by decide
            omega
        · exact .inr (by rw [if_neg middle, if_neg after])
      · exact .inl (by rw [if_neg before, if_neg middle])

end Spaced

/-! ### Turns -/

theorem le_monthLength (year : Int) {month : Nat} (low : 0 < month) (high : month ≤ 12) :
    28 ≤ Date.monthLength year month := by
  unfold Date.monthLength
  generalize Date.isLeap year = leap
  have months : ∀ leap : Bool, ∀ month < 13, 0 < month →
      28 ≤ if month = 0 then 0 else ((Date.monthLengths leap)[month - 1]?).getD 0 := by
    decide
  exact months leap month (by omega) low

/-- The Sundays of a month are days of it. -/
theorem sunday_mem (s : Sunday) (year : Int) {month : Nat} (low : 0 < month) (high : month ≤ 12) :
    1 ≤ s.day year month ∧ s.day year month ≤ Date.monthLength year month := by
  have long := le_monthLength year low high
  unfold Sunday.day
  generalize Date.weekday ⟨year, month, 1⟩ = weekday
  cases s <;> (dsimp only; omega)

/-- A turn is in its month, but for the seconds that it lies off midnight. -/
theorem turn_mem (t : Turn) (year : Int) (low : 0 < t.month) (high : t.month ≤ 12) :
    yearStart year + Date.daysBeforeMonth year t.month * Civil.secondsPerDay + t.seconds ≤
        t.second year ∧
      t.second year + Civil.secondsPerDay ≤ yearStart year +
        (Date.daysBeforeMonth year t.month + Date.monthLength year t.month : Nat) *
          Civil.secondsPerDay + t.seconds := by
  obtain ⟨first, last⟩ := sunday_mem t.sunday year low high
  unfold Turn.second Date.toDays yearStart Civil.secondsPerDay
  dsimp only
  omega

/-- Two turns are well spaced if there is a month before them, one between and one after. -/
theorem spaced_of_months {start stop : Turn} (early : 2 ≤ start.month)
    (between : start.month + 2 ≤ stop.month) (late : stop.month ≤ 11)
    (first : Near start.seconds) (second : Near stop.seconds) : Spaced start stop := by
  obtain ⟨first, first'⟩ := first
  obtain ⟨second, second'⟩ := second
  have months : ∀ y,
      Date.daysBeforeMonth y 1 + Date.monthLength y 1 ≤ Date.daysBeforeMonth y start.month ∧
      Date.daysBeforeMonth y start.month + Date.monthLength y start.month ≤
        Date.daysBeforeMonth y (start.month + 1) ∧
      Date.daysBeforeMonth y (start.month + 1) + Date.monthLength y (start.month + 1) ≤
        Date.daysBeforeMonth y stop.month ∧
      Date.daysBeforeMonth y stop.month + Date.monthLength y stop.month ≤
        Date.daysBeforeMonth y 12 ∧
      Date.daysBeforeMonth y 12 + Date.monthLength y 12 ≤ Date.yearLength y := fun y =>
    ⟨(Date.daysBeforeMonth_add_le y (by omega) (by omega)).2 _ (by omega) (by omega),
      (Date.daysBeforeMonth_add_le y (by omega) (by omega)).2 _ (by omega) (by omega),
      (Date.daysBeforeMonth_add_le y (by omega) (by omega)).2 _ (by omega) (by omega),
      (Date.daysBeforeMonth_add_le y (by omega) (by omega)).2 _ (by omega) (by omega),
      (Date.daysBeforeMonth_add_le y (by omega) (by omega)).1⟩
  refine ⟨fun y => ?_, fun y => ?_, fun y => ?_⟩
  · obtain ⟨before, -⟩ := months y
    have long : 28 ≤ Date.monthLength y 1 := le_monthLength y (by omega) (by omega)
    obtain ⟨low, -⟩ := turn_mem start y (by omega) (by omega)
    unfold Civil.secondsPerDay at *
    omega
  · obtain ⟨-, month, gap, -⟩ := months y
    have long : 28 ≤ Date.monthLength y (start.month + 1) :=
      le_monthLength y (by omega) (by omega)
    obtain ⟨-, high⟩ := turn_mem start y (by omega) (by omega)
    obtain ⟨low, -⟩ := turn_mem stop y (by omega) (by omega)
    unfold Civil.secondsPerDay at *
    omega
  · obtain ⟨-, -, -, month, rest⟩ := months y
    have long : 28 ≤ Date.monthLength y 12 := le_monthLength y (by omega) (by omega)
    obtain ⟨-, high⟩ := turn_mem stop y (by omega) (by omega)
    have next := Date.daysBeforeYear_succ y
    unfold yearStart Civil.secondsPerDay at *
    omega

/-! ### Zones that have a name -/

theorem steady_fixed {offset : Int} (near : Near offset) : (fixed offset).Steady :=
  ⟨fun _ => near, fun _ _ _ => .inl rfl⟩

/-- Before the first change nothing is changed. -/
theorem offsetAt_changes_of_lt {initial t : Int} {later : List (Int × Int)}
    (before : ∀ change ∈ later, t < change.1) : (changes initial later).offsetAt t = initial := by
  induction later with
  | nil => rfl
  | cons change rest ih =>
      have first := before change List.mem_cons_self
      show (changes (if change.1 ≤ t then change.2 else initial) rest).offsetAt t = initial
      rw [if_neg (by omega)]
      exact ih fun c mem => before c (List.mem_cons_of_mem _ mem)

/-- A zone whose changes are more than two days apart is steady. -/
theorem steady_changes {initial : Int} {later : List (Int × Int)}
    (bounded : ∀ offset ∈ initial :: later.map Prod.snd, Near offset)
    (sparse : later.Pairwise fun first second =>
      first.1 + 2 * Civil.secondsPerDay < second.1) : (changes initial later).Steady where
  near := by
    intro t
    have mem := (changes initial later).mem_offsets t
    rw [offsets, List.mem_mergeSort, List.mem_eraseDups] at mem
    exact bounded _ mem
  rare := by
    intro a b c ab bc close
    clear bounded
    induction later generalizing initial with
    | nil => exact .inl rfl
    | cons change rest ih =>
        obtain ⟨next, sparse⟩ := List.pairwise_cons.mp sparse
        have positive : (0 : Int) < Civil.secondsPerDay := by decide
        have step : ∀ t, (changes initial (change :: rest)).offsetAt t =
          (changes (if change.1 ≤ t then change.2 else initial) rest).offsetAt t := fun _ => rfl
        rw [step, step, step]
        by_cases past : change.1 ≤ a
        · rw [if_pos past, if_pos (by omega), if_pos (by omega)]
          exact ih sparse
        · -- No later change is near.
          have alone : ∀ t ≤ c, ∀ offset, (changes offset rest).offsetAt t = offset := by
            intro t le offset
            refine offsetAt_changes_of_lt fun other mem => ?_
            have := next other mem
            omega
          rw [alone a (by omega), alone b bc, alone c (by omega), if_neg past]
          by_cases now : change.1 ≤ b
          · exact .inr (by rw [if_pos now, if_pos (by omega)])
          · exact .inl (by rw [if_neg now])

/-- What the description of a zone has to say so that its clocks are steady. -/
def Regular : Zone → Prop
  | fixed offset => Near offset
  | yearly outside inside start stop =>
      Near outside ∧ Near inside ∧ Near start.seconds ∧ Near stop.seconds ∧
        2 ≤ start.month ∧ start.month + 2 ≤ stop.month ∧ stop.month ≤ 11
  | changes initial later =>
      (∀ offset ∈ initial :: later.map Prod.snd, Near offset) ∧
        later.Pairwise fun first second => first.1 + 2 * Civil.secondsPerDay < second.1

instance : DecidablePred Near := fun _ => inferInstanceAs (Decidable (_ ∧ _))

instance : DecidablePred Regular
  | fixed offset => inferInstanceAs (Decidable (Near offset))
  | yearly _ _ _ _ => inferInstanceAs (Decidable (_ ∧ _))
  | changes _ _ => inferInstanceAs (Decidable (_ ∧ _))

theorem Regular.steady {z : Zone} (regular : z.Regular) : z.Steady := by
  cases z with
  | fixed offset => exact steady_fixed regular
  | yearly outside inside start stop =>
      obtain ⟨first, second, low, high, early, between, late⟩ := regular
      exact (spaced_of_months early between late low high).steady first second
  | changes initial later => exact steady_changes regular.1 regular.2

/-- **Every zone that has a name is steady.** -/
theorem steady_of_ofName {name : String} {z : Zone} (known : ofName? name = some z) : z.Steady := by
  have regular : ∀ p ∈ named, p.2.Regular := by decide
  obtain ⟨p, found, rfl⟩ := Option.map_eq_some_iff.mp known
  exact (regular p (List.mem_of_find?_eq_some found)).steady

end Zone
end RecurringWork
