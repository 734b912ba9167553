import Mathlib.Algebra.Group.Nat.Defs
import RecurringWork.Proofs.Actor.Call

/-!
# RecurringWork.Proofs.Actor.Window

**A tracker counts the failures within a sliding window.** What counts of a name at a time are
its failures since it was last cleared or forgotten that are younger than the window then
(`sinceCleared`), and in total it has failed as often as since it was last forgotten
(`sinceForgotten`). A tracker keeps less than that: it drops what has left the window whenever
it records a failure. What it keeps agrees with the whole history in all that still counts
(`Agrees`), and no later count can tell the difference, because time does not go back
(`Agrees.hear`).

A name is told apart from all others: the log of a name is what comes of the part of the
history that concerns it (`log_after_concerning`).
-/

namespace RecurringWork

/-! ### Waits -/

namespace Backoff

/-- The wait doubles with each failure from the threshold on. -/
theorem nanos_delay (b : Backoff) (failures : Nat) :
    (b.delay failures).nanos =
      if failures < b.threshold then 0
      else min (min (b.base.nanos * 2 ^ min (failures - b.threshold) 10) Duration.longest.nanos)
        b.longest.nanos := by
  unfold delay
  split
  · rfl
  · rw [Nat.one_shiftLeft]
    rfl

/-- **More failures are never followed by a shorter wait.** -/
theorem delay_mono (b : Backoff) {f g : Nat} (h : f ≤ g) :
    (b.delay f).nanos ≤ (b.delay g).nanos := by
  rw [nanos_delay, nanos_delay]
  by_cases below : f < b.threshold
  · rw [if_pos below]
    exact Nat.zero_le _
  · rw [if_neg below, if_neg (by omega)]
    have doublings : min (f - b.threshold) 10 ≤ min (g - b.threshold) 10 := by omega
    have power : 2 ^ min (f - b.threshold) 10 ≤ 2 ^ min (g - b.threshold) 10 :=
      Nat.pow_le_pow_right (by decide) doublings
    have product := Nat.mul_le_mul_left b.base.nanos power
    omega

end Backoff

namespace FailureTracker

/-! ### Histories -/

/-- What a tracker is told. -/
inductive Message
  | failed (name : String)
  | cleared (name : String)
  | forgotten (name : String)
  deriving DecidableEq, Repr

/-- The name that a message is about. -/
def Message.name : Message → String
  | failed name | cleared name | forgotten name => name

/-- A tracker is told something. -/
def hear (t : FailureTracker) (now : Int) : Message → FailureTracker
  | .failed name => (t.record name now).2
  | .cleared name => t.clear name
  | .forgotten name => t.forget name

/-- What becomes of a tracker that is told one thing after the other. The latest comes first. -/
def after (b : Backoff) : List (Int × Message) → FailureTracker
  | [] => ofBackoff b
  | (now, m) :: earlier => (after b earlier).hear now m

/-- When a name failed, the latest time first. -/
def failuresOf (name : String) (h : List (Int × Message)) : List Int :=
  (h.filter fun e => e.2 = .failed name).map Prod.fst

/-- The failures of a name since it was last cleared or forgotten. -/
def sinceCleared (name : String) (h : List (Int × Message)) : List Int :=
  failuresOf name (h.takeWhile fun e => e.2 ≠ .cleared name ∧ e.2 ≠ .forgotten name)

/-- The failures of a name since it was last forgotten. -/
def sinceForgotten (name : String) (h : List (Int × Message)) : List Int :=
  failuresOf name (h.takeWhile fun e => e.2 ≠ .forgotten name)

/-- Time does not go back. -/
def Chronological (h : List (Int × Message)) : Prop :=
  h.Pairwise fun later earlier => earlier.1 ≤ later.1

instance (h : List (Int × Message)) : Decidable (Chronological h) :=
  inferInstanceAs (Decidable (h.Pairwise _))

/-- The part of a history that concerns a name. -/
def concerning (name : String) (h : List (Int × Message)) : List (Int × Message) :=
  h.filter fun e => e.2.name = name

/-! ### The log of a name -/

theorem log_clear_self (t : FailureTracker) (name : String) :
    (t.clear name).log name = { t.log name with recent := [] } := by
  unfold log clear
  dsimp only
  rw [List.find?_map]
  have names : ((fun l : String × FailureLog => l.1 == name) ∘ fun l : String × FailureLog =>
      if l.1 == name then (l.1, { l.2 with recent := [] }) else l) = fun l => l.1 == name := by
    funext l
    dsimp only [Function.comp]
    split <;> rfl
  rw [names]
  cases found : t.logs.find? fun l => l.1 == name with
  | none => rfl
  | some l =>
      have named : l.1 = name := by simpa using List.find?_some found
      simp [named]

theorem log_forget_self (t : FailureTracker) (name : String) :
    (t.forget name).log name = .empty := by
  have gone : (t.forget name).logs.find? (fun l => l.1 == name) = none := by
    rw [List.find?_eq_none]
    intro l mem same
    have other : l.1 ≠ name := by simpa using (List.mem_filter.mp mem).2
    exact other (by simpa using same)
  rw [log, gone]
  rfl

theorem backoff_after (b : Backoff) (h : List (Int × Message)) : (after b h).backoff = b := by
  induction h with
  | nil => rfl
  | cons e earlier ih =>
      obtain ⟨now, m⟩ := e
      cases m <;> exact ih

/-- What a tracker is told of one name is no matter to another. -/
theorem log_hear_of_ne (t : FailureTracker) (now : Int) {m : Message} {name : String}
    (apart : m.name ≠ name) : (t.hear now m).log name = t.log name := by
  cases m with
  | failed other => exact t.log_put_of_ne (Ne.symm apart) _
  | cleared other => exact t.log_clear_of_ne (Ne.symm apart)
  | forgotten other => exact t.log_forget_of_ne (Ne.symm apart)

/-- What a tracker makes of a message about a name depends on what it knows of the name. -/
theorem log_hear_congr {t u : FailureTracker} (same : t.backoff = u.backoff) (now : Int)
    (m : Message) (known : t.log m.name = u.log m.name) :
    (t.hear now m).log m.name = (u.hear now m).log m.name := by
  cases m with
  | failed name =>
      have known : t.log name = u.log name := known
      show (t.record name now).2.log name = (u.record name now).2.log name
      rw [log_record_self, log_record_self, known, same]
  | cleared name =>
      have known : t.log name = u.log name := known
      show (t.clear name).log name = (u.clear name).log name
      rw [log_clear_self, log_clear_self, known]
  | forgotten name =>
      show (t.forget name).log name = (u.forget name).log name
      rw [log_forget_self, log_forget_self]

/-- **The log of a name is what comes of the messages about it.** -/
theorem log_after_concerning (b : Backoff) (name : String) (h : List (Int × Message)) :
    (after b (concerning name h)).log name = (after b h).log name := by
  induction h with
  | nil => rfl
  | cons e earlier ih =>
      obtain ⟨now, m⟩ := e
      by_cases here : m.name = name
      · subst here
        rw [concerning, List.filter_cons_of_pos (by simp)]
        exact log_hear_congr ((backoff_after b _).trans (backoff_after b _).symm) now m ih
      · rw [concerning, List.filter_cons_of_neg (by simpa using here)]
        exact ih.trans (log_hear_of_ne _ now here).symm

/-! ### What counts -/

/-- What a tracker has kept of a name agrees with its history in all that counts from `now` on. -/
structure Agrees (b : Backoff) (name : String) (h : List (Int × Message)) (now : Int) : Prop where
  recent : ∀ later, now ≤ later → ((after b h).log name).recentAt b.window later =
    (sinceCleared name h).countP fun t => later - t < b.window.nanos
  total : ((after b h).log name).total = (sinceForgotten name h).length

theorem agrees_nil (b : Backoff) (name : String) (now : Int) : Agrees b name [] now :=
  ⟨fun _ _ => rfl, rfl⟩

/-- **What is told goes on to agree.** What a failure makes the tracker drop counts no more. -/
theorem Agrees.hear {b : Backoff} {name : String} {h : List (Int × Message)} {before now : Int}
    (agrees : Agrees b name h before) (later : before ≤ now) (m : Message) :
    Agrees b name ((now, m) :: h) now := by
  have window : (after b h).backoff.window = b.window := congrArg Backoff.window (backoff_after b h)
  by_cases here : m.name = name
  · cases m with
    | failed name =>
        obtain rfl : name = _ := here
        have log : (after b ((now, .failed name) :: h)).log name =
            ((after b h).log name).record b.window now := window ▸ log_record_self _ name now
        refine ⟨fun t le => ?_, ?_⟩
        · rw [log, FailureLog.recentAt_record le, agrees.recent t (Int.le_trans later le)]
          simp [sinceCleared, failuresOf, List.countP_cons, FailureLog.counts]
        · rw [log]
          simp [FailureLog.record, agrees.total, sinceForgotten, failuresOf]
    | cleared name =>
        obtain rfl : name = _ := here
        have log : (after b ((now, .cleared name) :: h)).log name =
            { (after b h).log name with recent := [] } := log_clear_self _ name
        refine ⟨fun t _ => ?_, ?_⟩
        · rw [log]
          simp [FailureLog.recentAt, sinceCleared, failuresOf]
        · rw [log]
          simp [agrees.total, sinceForgotten, failuresOf]
    | forgotten name =>
        obtain rfl : name = _ := here
        have log : (after b ((now, .forgotten name) :: h)).log name = .empty :=
          log_forget_self _ name
        refine ⟨fun t _ => ?_, ?_⟩
        · rw [log]
          simp [FailureLog.recentAt, FailureLog.empty, sinceCleared, failuresOf]
        · rw [log]
          simp [FailureLog.empty, sinceForgotten, failuresOf]
  · have log : (after b ((now, m) :: h)).log name = (after b h).log name :=
      log_hear_of_ne _ now here
    have others : m ≠ .failed name ∧ m ≠ .cleared name ∧ m ≠ .forgotten name := by
      refine ⟨?_, ?_, ?_⟩ <;> (rintro rfl; exact here rfl)
    obtain ⟨failed, cleared, forgotten⟩ := others
    refine ⟨fun t le => ?_, ?_⟩
    · rw [log, agrees.recent t (Int.le_trans later le)]
      simp [sinceCleared, failuresOf, failed, cleared, forgotten]
    · rw [log, agrees.total]
      simp [sinceForgotten, failuresOf, failed, forgotten]

theorem Agrees.mono {b : Backoff} {name : String} {h : List (Int × Message)} {before now : Int}
    (agrees : Agrees b name h before) (later : before ≤ now) : Agrees b name h now :=
  ⟨fun t le => agrees.recent t (Int.le_trans later le), agrees.total⟩

/-- So a tracker agrees with every history in which time does not go back. -/
theorem agrees_after (b : Backoff) (name : String) {h : List (Int × Message)}
    (chronological : Chronological h) {now : Int} (past : ∀ e ∈ h, e.1 ≤ now) :
    Agrees b name h now := by
  induction h generalizing now with
  | nil => exact agrees_nil b name now
  | cons e earlier ih =>
      obtain ⟨first, rest⟩ := List.pairwise_cons.mp chronological
      have before : Agrees b name earlier e.1 := ih rest first
      exact (before.hear (Int.le_refl _) e.2).mono (past e List.mem_cons_self)

/-- **A tracker equals its sliding window.** After whatever it has been told, at times that do not
go back, let so many failures of a name *count* as have come since the name was last cleared or
forgotten and are younger than the window.

* To record another failure answers with one more than count, and with the wait for that many.
* So many are recent as count, and the total is that of all failures since the name was last
  forgotten.
* What was told of other names makes no difference.
* There is no wait below the threshold. From there on it doubles with each failure, ten times at
  most, as long as it can be stored and is not longer than the longest; so it never falls as
  failures add up, and never exceeds the longest. -/
theorem counts_within_window (b : Backoff) {h : List (Int × Message)}
    (chronological : Chronological h) {now : Int} (past : ∀ e ∈ h, e.1 ≤ now) (name : String) :
    let t := after b h
    let counted := (sinceCleared name h).countP fun at_ => now - at_ < b.window.nanos
    (t.record name now).1 = (counted + 1, b.delay (counted + 1)) ∧
      t.recent name now = counted ∧
      t.total name = (sinceForgotten name h).length ∧
      (after b (concerning name h)).log name = t.log name ∧
      (∀ failures, (b.delay failures).nanos =
        if failures < b.threshold then 0
        else min (min (b.base.nanos * 2 ^ min (failures - b.threshold) 10) Duration.longest.nanos)
          b.longest.nanos) ∧
      (∀ fewer more, fewer ≤ more → (b.delay fewer).nanos ≤ (b.delay more).nanos) ∧
      ∀ failures, (b.delay failures).nanos ≤ b.longest.nanos := by
  intro t counted
  have agrees := agrees_after b name chronological past
  have backoff : t.backoff = b := backoff_after b h
  have recent : (t.log name).recentAt b.window now = counted := agrees.recent now (Int.le_refl _)
  -- What is kept of the past when a failure is recorded is what counts of it.
  have recorded : ((t.log name).record b.window now).recent.length = counted + 1 := by
    rw [← recent]
    simp [FailureLog.record, FailureLog.recentAt]
  refine ⟨?_, ?_, agrees.total, log_after_concerning b name h, b.nanos_delay,
    fun fewer more le => b.delay_mono le, b.delay_le⟩
  · unfold record
    dsimp only
    rw [backoff, recorded]
  · rw [FailureTracker.recent, backoff, recent]

/-- Waits of a hundred nanoseconds from the second failure within ten nanoseconds on. -/
def quick : Backoff := ⟨⟨100⟩, ⟨150⟩, ⟨10⟩, 2⟩

/-- Two names, one of which was forgotten, has failed, was cleared and has failed twice more. -/
def twoNames : List (Int × Message) :=
  [(9, .failed "a"), (8, .failed "b"), (7, .cleared "b"), (6, .failed "a"), (3, .cleared "a"),
    (2, .failed "a"), (1, .forgotten "a"), (0, .failed "a")]

/-- A failure is as old as the window ten nanoseconds after it, and then it counts no more. -/
theorem counts_within_window_of_twoNames :
    let t := after quick twoNames
    (t.record "a" 15).1 = (3, ⟨150⟩) ∧ (t.record "a" 16).1 = (2, ⟨100⟩) ∧
      t.recent "a" 16 = 1 ∧ t.total "a" = 3 := by
  intro t
  have chronological : Chronological twoNames := by decide
  have past : ∀ e ∈ twoNames, e.1 ≤ 15 := by decide
  have later : ∀ e ∈ twoNames, e.1 ≤ 16 := by decide
  obtain ⟨first, -⟩ := counts_within_window quick chronological past "a"
  obtain ⟨second, recent, total, -⟩ := counts_within_window quick chronological later "a"
  exact ⟨first.trans (by decide), second.trans (by decide), recent.trans (by decide),
    total.trans (by decide)⟩

end FailureTracker

end RecurringWork
