import RecurringWork.Json.Decode
import RecurringWork.Time

/-!
# RecurringWork.Actor.Failures

**How often an actor failed lately, and how long to wait for it.** Failures count
while they are younger than a window. From a threshold on, each one more doubles the
wait, ten times at most and never beyond a longest wait (`Backoff.delay`).

A `FailureTracker` keeps the times of the failures of each name. It forgets those that
have left the window whenever it records another one, which no later count can notice
(`FailureLog.recentAt_record`). A success clears what is recent but not the total.
-/

namespace RecurringWork

/-- When failed runs are repeated. Times are in milliseconds. -/
structure RetryPolicy where
  /-- So many recent failures end the repetition. -/
  maxFailures : Nat
  baseBackoff : Nat
  maxBackoff : Nat
  failureWindow : Nat
  deriving DecidableEq, Repr

namespace RetryPolicy

/-- Five failures within ten minutes, waits of one second up to five minutes. -/
def standard : RetryPolicy := ⟨5, 1000, 300000, 600000⟩

def toJson (p : RetryPolicy) : Json :=
  .obj [("base_backoff_ms", .ofNat p.baseBackoff), ("failure_window_ms", .ofNat p.failureWindow),
    ("max_backoff_ms", .ofNat p.maxBackoff), ("max_failures", .ofNat p.maxFailures)]

/-- The policy that a value stands for. What is missing is as in the standard one. -/
def ofJson? (j : Json) : Option RetryPolicy := do
  let ms ← j.partialRecord?
    ["max_failures", "base_backoff_ms", "max_backoff_ms", "failure_window_ms"]
  pure ⟨← Json.defaulted? standard.maxFailures Json.nat64? "max_failures" ms,
    ← Json.defaulted? standard.baseBackoff Json.nat64? "base_backoff_ms" ms,
    ← Json.defaulted? standard.maxBackoff Json.nat64? "max_backoff_ms" ms,
    ← Json.defaulted? standard.failureWindow Json.nat64? "failure_window_ms" ms⟩

end RetryPolicy

/-- How waits grow with failures. -/
structure Backoff where
  base : Duration
  longest : Duration
  /-- How long a failure counts. -/
  window : Duration
  /-- The first number of failures that is followed by a wait. -/
  threshold : Nat
  deriving DecidableEq, Repr

namespace Backoff

/-- The waits of the standard policy, from the first failure on. -/
def standard : Backoff := ⟨.ofSeconds 1, .ofSeconds 300, .ofSeconds 600, 1⟩

def ofPolicy (p : RetryPolicy) : Backoff :=
  ⟨.ofMillis p.baseBackoff, .ofMillis p.maxBackoff, .ofMillis p.failureWindow, 1⟩

/-- How often the wait doubles at most. -/
def maxDoublings : Nat := 10

/-- The wait after so many recent failures. -/
def delay (b : Backoff) (failures : Nat) : Duration :=
  if failures < b.threshold then .zero
  else (b.base.scale (1 <<< min (failures - b.threshold) maxDoublings)).shorter b.longest

/-- No wait is longer than the longest. -/
theorem delay_le (b : Backoff) (failures : Nat) : (b.delay failures).nanos ≤ b.longest.nanos := by
  unfold delay
  split
  · exact Nat.zero_le _
  · exact Nat.min_le_right _ _

end Backoff

/-- The failures of one name. Times are in nanoseconds of a clock that never goes
back. -/
structure FailureLog where
  /-- When failures happened, the oldest first. -/
  recent : List Int
  /-- All failures there ever were. -/
  total : Nat
  deriving DecidableEq, Repr

namespace FailureLog

def empty : FailureLog := ⟨[], 0⟩

/-- A failure at `t` still counts at `now`. -/
def counts (window : Duration) (now t : Int) : Bool := now - t < window.nanos

/-- The number of failures that count at `now`. -/
def recentAt (l : FailureLog) (window : Duration) (now : Int) : Nat :=
  (l.recent.filter (counts window now)).length

/-- One more failure. Those that no longer count are dropped. -/
def record (l : FailureLog) (window : Duration) (now : Int) : FailureLog :=
  -- What no longer counts now will never count again.
  ⟨l.recent.filter (counts window now) ++ [now], l.total + 1⟩

/-- What counts later is not changed by what was dropped. -/
theorem recentAt_record {l : FailureLog} {window : Duration} {now later : Int} (h : now ≤ later) :
    (l.record window now).recentAt window later =
      l.recentAt window later + (if counts window later now then 1 else 0) := by
  have absorb : (l.recent.filter (counts window now)).filter (counts window later) =
      l.recent.filter (counts window later) := by
    rw [List.filter_filter]
    refine List.filter_congr fun t _ => ?_
    simp only [counts, Bool.and_eq_left_iff_imp, decide_eq_true_eq]
    intro ht
    omega
  simp only [recentAt, record, List.filter_append, List.length_append, absorb]
  by_cases hc : counts window later now <;> simp [hc]

end FailureLog

/-- The failures of all names. -/
structure FailureTracker where
  backoff : Backoff
  logs : List (String × FailureLog)
  deriving DecidableEq, Repr

namespace FailureTracker

def ofBackoff (b : Backoff) : FailureTracker := ⟨b, []⟩

/-- The failures of a name, none if it never failed. -/
def log (t : FailureTracker) (name : String) : FailureLog :=
  ((t.logs.find? fun l => l.1 == name).map Prod.snd).getD .empty

/-- Put a log under its name, replacing what is there. -/
def put (name : String) (l : FailureLog) : List (String × FailureLog) → List (String × FailureLog)
  | [] => [(name, l)]
  | (n, old) :: rest => if n == name then (n, l) :: rest else (n, old) :: put name l rest

/-- Record a failure of a name. The answer is the number of its recent failures with
this one, and the wait that follows. -/
def record (t : FailureTracker) (name : String) (now : Int) :
    (Nat × Duration) × FailureTracker :=
  let l := (t.log name).record t.backoff.window now
  ((l.recent.length, t.backoff.delay l.recent.length), { t with logs := put name l t.logs })

def recent (t : FailureTracker) (name : String) (now : Int) : Nat :=
  (t.log name).recentAt t.backoff.window now

def total (t : FailureTracker) (name : String) : Nat := (t.log name).total

/-- Nothing of a name counts any more. -/
def clear (t : FailureTracker) (name : String) : FailureTracker :=
  { t with logs := t.logs.map fun l => if l.1 == name then (l.1, { l.2 with recent := [] }) else l }

def forget (t : FailureTracker) (name : String) : FailureTracker :=
  { t with logs := t.logs.filter fun l => l.1 != name }

/-- The number of names, of names with recent failures, and of all failures. -/
def summary (t : FailureTracker) (now : Int) : Nat × Nat × Nat :=
  (t.logs.length, (t.logs.filter fun l => 0 < l.2.recentAt t.backoff.window now).length,
    t.logs.foldr (fun l n => l.2.total + n) 0)

end FailureTracker

end RecurringWork
