import RecurringWork.Cron.Reader
import RecurringWork.Cron.Search
import RecurringWork.Proofs.Calendar.Zones

/-!
# RecurringWork.Proofs.Cron.Search

**The search for the next time finds the least face.** Of the faces that match and that a zone
shows, it finds the least that is not before the one at which it starts, and answers with the
instant which that denotes (`LeastAt`). The search goes through the faces level by level, and on
each level through the values of a field in increasing order. A level whose field is larger lies
behind one whose field is smaller, whatever comes below; that is all that a level has to know to
find the least face of all of its values, if each value finds its own (`least_level`).

In universal time every face is shown, by the second that it stands for. There the least face is
the earliest second in which the expression fires (`Expression.firesAt`, `next_utc`).

The bound is the same on every level: no second before that of the face at which the search
starts. A level is told whether it lies on the way to that face or wholly behind it
(`Ahead`), and that is enough to leave out the values that lie before it.
-/

namespace RecurringWork.Cron

/-! ### The sets of a field -/

namespace Expression

/-- The sets are taken from the ranges of their fields, in their order. -/
structure Ranged (e : Expression) : Prop where
  seconds : e.seconds.Sublist Field.second.range
  minutes : e.minutes.Sublist Field.minute.range
  hours : e.hours.Sublist Field.hour.range
  daysOfMonth : e.daysOfMonth.Sublist Field.dayOfMonth.range
  months : e.months.Sublist Field.month.range
  daysOfWeek : e.daysOfWeek.Sublist Field.dayOfWeek.range
  years : e.years.Sublist Field.year.range

end Expression

theorem pairwise_range (f : Field) : f.range.Pairwise (· < ·) := by
  rw [Field.range, List.pairwise_map]
  refine List.pairwise_lt_range.imp fun lt => ?_
  exact Nat.add_lt_add_right lt _

theorem mem_of_sublist {f : Field} {set : List Nat} (h : set.Sublist f.range) {n : Nat}
    (mem : n ∈ set) : f.low ≤ n ∧ n ≤ f.high :=
  Field.mem_range.mp (h.subset mem)

theorem sublist_field {f : Field} {cs rest : List Char} {set : List Nat}
    (h : Scan.field f cs = some (set, rest)) : set.Sublist f.range := by
  unfold Scan.field at h
  obtain ⟨⟨i, r⟩, -, h⟩ := Option.bind_eq_some_iff.mp h
  obtain ⟨found, read, h⟩ := Option.bind_eq_some_iff.mp h
  cases h
  obtain ⟨lists, -, rfl⟩ := Option.map_eq_some_iff.mp read
  exact List.filter_sublist

theorem ranged_fields {cs : List Char} {e : Expression} (h : Scan.fields cs = some e) :
    e.Ranged := by
  unfold Scan.fields at h
  obtain ⟨⟨seconds, r₁⟩, first, h⟩ := Option.bind_eq_some_iff.mp h
  obtain ⟨⟨minutes, r₂⟩, second, h⟩ := Option.bind_eq_some_iff.mp h
  obtain ⟨⟨hours, r₃⟩, third, h⟩ := Option.bind_eq_some_iff.mp h
  obtain ⟨⟨days, r₄⟩, fourth, h⟩ := Option.bind_eq_some_iff.mp h
  obtain ⟨⟨months, r₅⟩, fifth, h⟩ := Option.bind_eq_some_iff.mp h
  obtain ⟨⟨weekdays, r₆⟩, sixth, h⟩ := Option.bind_eq_some_iff.mp h
  -- Years that cannot be read are all years.
  have years : ((Scan.field .year r₆).getD (Field.year.range, r₆)).1.Sublist Field.year.range := by
    cases last : Scan.field .year r₆ with
    | none => exact List.Sublist.refl _
    | some found =>
        obtain ⟨set, rest⟩ := found
        exact sublist_field last
  dsimp only at h
  split at h
  · cases h
    exact ⟨sublist_field first, sublist_field second, sublist_field third, sublist_field fourth,
      sublist_field fifth, sublist_field sixth, years⟩
  · cases h

/-- **Whatever can be read has sets within the ranges of the fields.** -/
theorem ranged_of_read {text : String} {e : Expression} (h : Expression.read? text = some e) :
    e.Ranged := by
  unfold Expression.read? at h
  split at h <;> exact ranged_fields h

/-! ### The least of several -/

/-- What is found is the least number with a property, and none only if there is none. -/
def Least (P : Int → Prop) : Option Int → Prop
  | some t => P t ∧ ∀ u, P u → t ≤ u
  | none => ∀ u, ¬P u

/-- What is found is what the least number with a property stands for. -/
def LeastAt (denotes : Int → Option Int) (P : Int → Prop) : Option Int → Prop
  | some u => ∃ t, denotes t = some u ∧ P t ∧ ∀ s, P s → t ≤ s
  | none => ∀ t, ¬P t

theorem LeastAt.congr {denotes : Int → Option Int} {P Q : Int → Prop} {found : Option Int}
    (h : LeastAt denotes P found) (same : ∀ t, P t ↔ Q t) : LeastAt denotes Q found := by
  have : P = Q := funext fun t => propext (same t)
  exact this ▸ h

/-- Of several ranges of numbers, each behind those before it, the first that has a number has
the least. -/
theorem least_findSome {denotes : Int → Option Int} {values : List Nat} {Q : Nat → Int → Prop}
    {find : Nat → Option Int} (sorted : values.Pairwise (· < ·))
    (apart : ∀ {v w s t}, v < w → Q v s → Q w t → s < t)
    (finds : ∀ v ∈ values, LeastAt denotes (Q v) (find v)) :
    LeastAt denotes (fun t => ∃ v ∈ values, Q v t) (values.findSome? find) := by
  induction values with
  | nil => simp [LeastAt]
  | cons v rest ih =>
      obtain ⟨before, sorted⟩ := List.pairwise_cons.mp sorted
      have here := finds v List.mem_cons_self
      rw [List.findSome?_cons]
      cases found : find v with
      | some u =>
          rw [found] at here
          obtain ⟨t, stands, holds, least⟩ := here
          refine ⟨t, stands, ⟨v, List.mem_cons_self, holds⟩, ?_⟩
          rintro s ⟨w, mem, other⟩
          rcases List.mem_cons.mp mem with rfl | mem
          · exact least s other
          · exact Int.le_of_lt (apart (before w mem) holds other)
      | none =>
          rw [found] at here
          refine (ih sorted fun w mem => finds w (List.mem_cons_of_mem v mem)).congr fun t => ?_
          simp [here t]

/-- Of values in increasing order, those are dropped that lie below a bound. -/
theorem mem_dropWhile {values : List Nat} (sorted : values.Pairwise (· < ·)) {b v : Nat} :
    v ∈ values.dropWhile (· < b) ↔ v ∈ values ∧ b ≤ v := by
  induction values with
  | nil => simp
  | cons w rest ih =>
      obtain ⟨before, sorted⟩ := List.pairwise_cons.mp sorted
      rw [List.dropWhile_cons]
      by_cases below : w < b
      · rw [if_pos (decide_eq_true below), ih sorted, List.mem_cons]
        constructor
        · exact fun h => ⟨.inr h.1, h.2⟩
        · rintro ⟨rfl | mem, le⟩
          · omega
          · exact ⟨mem, le⟩
      · rw [if_neg (by simpa using below)]
        refine ⟨fun mem => ⟨mem, ?_⟩, fun h => h.1⟩
        rcases List.mem_cons.mp mem with rfl | mem
        · omega
        · have := before v mem
          omega

/-! ### One level of the search -/

/-- The seconds of the faces that match and have a property besides. -/
def Expression.Shown (e : Expression) (here : Civil → Prop) (t : Int) : Prop :=
  ∃ c : Civil, c.Real ∧ e.isMatch c = true ∧ here c ∧ c.toSeconds = t

/-- A level of the search lies on the way to the face from which the search starts, or does not
lie before it. -/
def Ahead (from_ : Civil) (here : Civil → Prop) (bound : Bool) : Prop :=
  if bound then here from_ else ∀ c, c.Real → here c → from_.toSeconds ≤ c.toSeconds

variable {e : Expression} {from_ : Civil} {z : Zone}

/-- A face that a zone shows, of a second not before that of the face from which the search
starts. -/
def Within (z : Zone) (from_ : Civil) (t : Int) : Prop :=
  (z.instant? (.ofSeconds t)).isSome ∧ from_.toSeconds ≤ t

/-- **If each value of a level finds its least second, the level finds the least of all.** -/
theorem least_level {values : List Nat} (sorted : values.Pairwise (· < ·)) (real : from_.Real)
    {here : Civil → Prop} (field : Civil → Nat) (bound : Bool) {next : Nat → Bool → Option Int}
    (listed : ∀ c, e.isMatch c = true → field c ∈ values)
    (apart : ∀ {c d}, here c → here d → field c < field d → c.Before d)
    (ahead : Ahead from_ here bound)
    (finds : ∀ v ∈ values, ∀ bound', Ahead from_ (fun c => here c ∧ field c = v) bound' →
      LeastAt (z.instant? <| .ofSeconds ·)
        (fun t => e.Shown (fun c => here c ∧ field c = v) t ∧ Within z from_ t) (next v bound')) :
    LeastAt (z.instant? <| .ofSeconds ·) (fun t => e.Shown here t ∧ Within z from_ t)
      (firstFrom values (boundIf bound (field from_)) next) := by
  have behind : ∀ {v w s t},
      v < w → e.Shown (fun c => here c ∧ field c = v) s ∧ Within z from_ s →
      e.Shown (fun c => here c ∧ field c = w) t ∧ Within z from_ t → s < t := by
    rintro v w s t lt ⟨⟨c, first, -, ⟨there, rfl⟩, rfl⟩, -⟩ ⟨⟨d, second, -, ⟨there', rfl⟩, rfl⟩, -⟩
    exact (apart there there' lt).toSeconds_lt first second
  cases bound with
  | false =>
      -- Nothing lies before the start, so every value counts.
      refine (least_findSome sorted behind fun v mem => finds v mem false ?_).congr fun t => ?_
      · exact fun c there within => ahead c there within.1
      · constructor
        · rintro ⟨v, -, ⟨c, there, fires, within, same⟩, le⟩
          exact ⟨⟨c, there, fires, within.1, same⟩, le⟩
        · rintro ⟨⟨c, there, fires, within, same⟩, le⟩
          exact ⟨field c, listed c fires, ⟨c, there, fires, ⟨within, rfl⟩, same⟩, le⟩
  | true =>
      have ahead : here from_ := ahead
      have kept := fun v => mem_dropWhile sorted (b := field from_) (v := v)
      refine (least_findSome (sorted.sublist (List.dropWhile_sublist _)) behind
        fun v mem => finds v ((kept v).mp mem).1 _ ?_).congr fun t => ?_
      · obtain ⟨-, le⟩ := (kept v).mp mem
        by_cases same : v = field from_
        · rw [beq_iff_eq.mpr same]
          exact ⟨ahead, same.symm⟩
        · rw [beq_eq_false_iff_ne.mpr same]
          intro c there within
          have lt : field from_ < field c := by omega
          exact Int.le_of_lt ((apart ahead within.1 lt).toSeconds_lt real there)
      · constructor
        · rintro ⟨v, -, ⟨c, there, fires, within, same⟩, le⟩
          exact ⟨⟨c, there, fires, within.1, same⟩, le⟩
        · rintro ⟨⟨c, there, fires, within, rfl⟩, le⟩
          refine ⟨field c, (kept _).mpr ⟨listed c fires, ?_⟩, ⟨c, there, fires, ⟨within, rfl⟩, rfl⟩,
            le⟩
          -- A face whose field is smaller would lie before the start.
          refine Nat.le_of_not_lt fun lt => ?_
          have := (apart within ahead lt).toSeconds_lt there real
          have := le.2
          omega

/-! ### All levels -/

theorem instant?_utc (c : Civil) : Zone.utc.instant? c = some c.toSeconds := by
  simp [Zone.instant?, Zone.utc, Zone.offsets, Zone.offsetAt]

theorem isMatch_iff {c : Civil} : e.isMatch c = true ↔
    c.date.isReal = true ∧ 0 ≤ c.date.year ∧ c.date.year.toNat ∈ e.years ∧
      c.date.month ∈ e.months ∧ c.date.day ∈ e.daysOfMonth ∧ c.date.weekday ∈ e.daysOfWeek ∧
      c.hour ∈ e.hours ∧ c.minute ∈ e.minutes ∧ c.second ∈ e.seconds := by
  simp [Expression.isMatch, Expression.matchesDate, and_assoc]

/-- **The earliest time of day.** -/
theorem least_firstTime (ranged : e.Ranged) (real : from_.Real) {date : Date}
    (matches_ : e.matchesDate date = true) {bound : Bool}
    (ahead : Ahead from_ (fun c => c.date = date) bound) :
    LeastAt (z.instant? <| .ofSeconds ·)
      (fun t => e.Shown (fun c => c.date = date) t ∧ Within z from_ t)
      (e.firstTime? z date from_ bound) := by
  unfold Expression.firstTime?
  refine least_level ((pairwise_range _).sublist ranged.hours) real Civil.hour _
    (fun c fires => (isMatch_iff.mp fires).2.2.2.2.2.2.1) (fun c d lt => .hour (c.trans d.symm) lt)
    ahead fun h hour onHour ahead => ?_
  refine least_level ((pairwise_range _).sublist ranged.minutes) real Civil.minute _
    (fun c fires => (isMatch_iff.mp fires).2.2.2.2.2.2.2.1)
    (fun c d lt => .minute (c.1.trans d.1.symm) (c.2.trans d.2.symm) lt)
    ahead fun m minute onMinute ahead => ?_
  refine least_level ((pairwise_range _).sublist ranged.seconds) real Civil.second _
    (fun c fires => (isMatch_iff.mp fires).2.2.2.2.2.2.2.2)
    (fun c d lt =>
      .second (c.1.1.trans d.1.1.symm) (c.1.2.trans d.1.2.symm) (c.2.trans d.2.symm) lt)
    ahead fun s second onSecond ahead => ?_
  -- Only one face is left, and it matches.
  have fires : e.isMatch ⟨date, h, m, s⟩ = true := by
    simp [Expression.isMatch, matches_, hour, minute, second]
  have there : Civil.Real ⟨date, h, m, s⟩ :=
    ⟨(isMatch_iff.mp fires).1, Nat.lt_succ_of_le (mem_of_sublist ranged.hours hour).2,
      Nat.lt_succ_of_le (mem_of_sublist ranged.minutes minute).2,
      Nat.lt_succ_of_le (mem_of_sublist ranged.seconds second).2⟩
  have face : Civil.ofSeconds (Civil.toSeconds ⟨date, h, m, s⟩) = ⟨date, h, m, s⟩ :=
    Civil.ofSeconds_toSeconds there
  have only : ∀ t, e.Shown
      (fun c => ((c.date = date ∧ c.hour = h) ∧ c.minute = m) ∧ c.second = s) t →
      t = Civil.toSeconds ⟨date, h, m, s⟩ := by
    rintro t ⟨c, -, -, ⟨⟨⟨rfl, rfl⟩, rfl⟩, rfl⟩, rfl⟩
    rfl
  cases shown : z.instant? ⟨date, h, m, s⟩ with
  | none =>
      rintro t ⟨matching, visible, -⟩
      rw [only t matching, face, shown] at visible
      cases visible
  | some u =>
      refine ⟨_, (congrArg z.instant? face).trans shown,
        ⟨⟨_, there, fires, ⟨⟨⟨rfl, rfl⟩, rfl⟩, rfl⟩, rfl⟩, ?_, ?_⟩, ?_⟩
      · rw [face, shown]
        rfl
      · cases onSecond with
        | true =>
            obtain ⟨⟨⟨rfl, rfl⟩, rfl⟩, rfl⟩ := ahead
            exact Int.le_refl _
        | false => exact ahead _ there ⟨⟨⟨rfl, rfl⟩, rfl⟩, rfl⟩
      · rintro t ⟨matching, -⟩
        exact Int.le_of_eq (only t matching).symm

/-- **The earliest second of all.** -/
theorem least_firstSecond (ranged : e.Ranged) (real : from_.Real) (year : 0 ≤ from_.date.year) :
    LeastAt (z.instant? <| .ofSeconds ·)
      (fun t => e.Shown (fun c => 0 ≤ c.date.year) t ∧ Within z from_ t)
      (e.firstSecond? z from_) := by
  unfold Expression.firstSecond?
  refine least_level ((pairwise_range _).sublist ranged.years) real
    (fun c => c.date.year.toNat) true (fun c fires => (isMatch_iff.mp fires).2.2.1)
    (fun c d lt => .date (.year (by omega))) year fun y inYears onYear ahead => ?_
  refine least_level ((pairwise_range _).sublist ranged.months) real
    (fun c => c.date.month) _ (fun c fires => (isMatch_iff.mp fires).2.2.2.1)
    (fun c d lt => .date (.month (by omega) lt)) ahead fun m inMonths onMonth ahead => ?_
  refine least_level ((pairwise_range _).sublist ranged.daysOfMonth) real
    (fun c => c.date.day) _ (fun c fires => (isMatch_iff.mp fires).2.2.2.2.1)
    (fun c d lt => .date (.day (by omega) (c.2.trans d.2.symm) lt)) ahead
    fun d inDays onDay ahead => ?_
  -- What the levels have fixed is the date.
  have date : ∀ c : Civil, ((0 ≤ c.date.year ∧ c.date.year.toNat = y) ∧ c.date.month = m) ∧
      c.date.day = d ↔ c.date = ⟨y, m, d⟩ := by
    intro c
    obtain ⟨⟨y', m', d'⟩, h, mi, s⟩ := c
    simp only [Date.mk.injEq]
    omega
  have same : (fun c : Civil => ((0 ≤ c.date.year ∧ c.date.year.toNat = y) ∧ c.date.month = m) ∧
      c.date.day = d) = fun c => c.date = ⟨y, m, d⟩ := funext fun c => propext (date c)
  rw [same] at ahead ⊢
  dsimp only
  split
  · next exists_ =>
      simp only [Bool.and_eq_true, List.contains_iff_mem] at exists_
      refine least_firstTime ranged real ?_ ahead
      simp [Expression.matchesDate, exists_, inYears, inMonths, inDays]
  · next missing =>
      rintro u ⟨⟨c, -, fires, within, -⟩, -⟩
      obtain ⟨isReal, -, -, -, -, weekday, -⟩ := isMatch_iff.mp fires
      rw [within] at isReal weekday
      simp [isReal, weekday] at missing

/-! ### The next time -/

/-- The expression fires in the second, which is in universal time. -/
def Expression.firesAt (e : Expression) (second : Int) : Bool := e.isMatch (.ofSeconds second)

theorem shown_iff {t : Int} :
    e.Shown (fun c => 0 ≤ c.date.year) t ↔ e.firesAt t = true := by
  constructor
  · rintro ⟨c, real, fires, -, rfl⟩
    rw [Expression.firesAt, Civil.ofSeconds_toSeconds real]
    exact fires
  · intro fires
    exact ⟨_, Civil.real_ofSeconds t, fires, (isMatch_iff.mp fires).2.1,
      Civil.toSeconds_ofSeconds t⟩

/-- A later second is not in an earlier year. -/
theorem year_mono {s t : Int} (le : s ≤ t) :
    (Civil.ofSeconds s).date.year ≤ (Civil.ofSeconds t).date.year := by
  refine Int.not_lt.mp fun lt => ?_
  have before : (Civil.ofSeconds t).Before (Civil.ofSeconds s) := .date (.year lt)
  have := before.toSeconds_lt (Civil.real_ofSeconds t) (Civil.real_ofSeconds s)
  rw [Civil.toSeconds_ofSeconds, Civil.toSeconds_ofSeconds] at this
  omega

/-- The year of an instant, in universal time. -/
def yearAt (ms : Int) : Int := (Civil.ofSeconds (ms / 1000)).date.year

/-- An instant that the calendar reaches is not moved. -/
theorem seconds_ofInstant_of_mem {ms : Int} (first : Civil.firstSecond ≤ ms / 1000)
    (last : ms / 1000 < Civil.lastSecond) : (Timestamp.ofInstant ms).seconds = ms / 1000 := by
  unfold Timestamp.ofInstant
  rw [if_neg (by omega), if_neg (by omega)]

/-- An instant of a year that an expression can have is far from the ends of the calendar. -/
theorem seconds_ofInstant {ms : Int} (low : 0 ≤ yearAt ms) (high : yearAt ms ≤ 2100) :
    (Timestamp.ofInstant ms).seconds = ms / 1000 ∧ ms / 1000 < Civil.lastSecond := by
  have real := Civil.real_ofSeconds (ms / 1000)
  have first : Civil.firstSecond < ms / 1000 := by
    have before : Civil.Before ⟨⟨-262143, 1, 1⟩, 0, 0, 0⟩ (Civil.ofSeconds (ms / 1000)) :=
      .date (.year (show -262143 < yearAt ms by omega))
    have := before.toSeconds_lt ⟨by decide, by decide, by decide, by decide⟩ real
    rwa [Civil.toSeconds_ofSeconds] at this
  have last : ms / 1000 < Civil.lastSecond := by
    have before : (Civil.ofSeconds (ms / 1000)).Before ⟨⟨262142, 12, 31⟩, 23, 59, 59⟩ :=
      .date (.year (show yearAt ms < 262142 by omega))
    have := before.toSeconds_lt real ⟨by decide, by decide, by decide, by decide⟩
    rwa [Civil.toSeconds_ofSeconds] at this
  exact ⟨seconds_ofInstant_of_mem (Int.le_of_lt first) last, last⟩

/-- **The search finds the first face from which on the expression fires**, of those that the zone
shows, unless it starts before the year 0 or behind the end of the calendar. -/
theorem next_of_within (ranged : e.Ranged) {after : Int}
    (seconds : (Timestamp.ofInstant after).seconds = after / 1000)
    (within : after / 1000 < Civil.lastSecond)
    (year : 0 ≤ (z.civilAt (after / 1000 + 1)).date.year) :
    ∃ found, LeastAt (z.instant? <| .ofSeconds ·)
      (fun t => e.firesAt t = true ∧ Within z (z.civilAt (after / 1000 + 1)) t) found ∧
      e.next z after = found.elim .never fun s => .at (s * 1000) := by
  refine ⟨e.firstSecond? z (z.civilAt (after / 1000 + 1)), ?_, ?_⟩
  · exact (least_firstSecond ranged (Civil.real_ofSeconds _) year).congr fun t =>
      and_congr_left fun _ => shown_iff
  · unfold Expression.next
    dsimp only
    rw [seconds, if_neg (by omega), if_neg (by omega)]
    cases e.firstSecond? z (z.civilAt (after / 1000 + 1)) <;> rfl

/-- Every face is shown in universal time, by the second that it stands for. -/
theorem instant?_ofSeconds_utc : (Zone.utc.instant? <| .ofSeconds ·) = some := by
  funext t
  rw [instant?_utc, Civil.toSeconds_ofSeconds]

theorem least_of_leastAt {P : Int → Prop} {found : Option Int} (h : LeastAt some P found) :
    Least P found := by
  cases found with
  | none => exact h
  | some u =>
      obtain ⟨t, same, least⟩ := h
      cases same
      exact least

/-- **The search finds the first second after an instant in which the expression fires**, in
universal time, and finds nothing only if there is none. -/
theorem next_utc_of_within (ranged : e.Ranged) {after : Int}
    (seconds : (Timestamp.ofInstant after).seconds = after / 1000)
    (within : after / 1000 < Civil.lastSecond)
    (year : 0 ≤ (Civil.ofSeconds (after / 1000 + 1)).date.year) :
    ∃ found, Least (fun s => e.firesAt s = true ∧ after < s * 1000) found ∧
      e.next .utc after = found.elim .never fun s => .at (s * 1000) := by
  have face : Zone.utc.civilAt (after / 1000 + 1) = .ofSeconds (after / 1000 + 1) := by
    simp [Zone.civilAt, Zone.utc, Zone.offsetAt]
  obtain ⟨found, least, next⟩ := next_of_within (z := .utc) ranged seconds within (face ▸ year)
  rw [instant?_ofSeconds_utc] at least
  refine ⟨found, least_of_leastAt (least.congr fun t => and_congr_right fun _ => ?_), next⟩
  rw [Within, face, instant?_utc, Civil.toSeconds_ofSeconds, Civil.toSeconds_ofSeconds,
    Option.isSome_some]
  simp only [true_and]
  omega

/-- It does so in all the years that an expression can have. -/
theorem next_utc (ranged : e.Ranged) {after : Int} (low : 0 ≤ yearAt after)
    (high : yearAt after ≤ 2100) :
    ∃ found, Least (fun s => e.firesAt s = true ∧ after < s * 1000) found ∧
      e.next .utc after = found.elim .never fun s => .at (s * 1000) := by
  obtain ⟨seconds, last⟩ := seconds_ofInstant low high
  exact next_utc_of_within ranged seconds last (Int.le_trans low (year_mono (by omega)))

end RecurringWork.Cron
