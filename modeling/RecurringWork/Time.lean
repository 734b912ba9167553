/-!
# RecurringWork.Time

**Instants are whole milliseconds since the epoch and durations are whole
nanoseconds.** An instant is an `Int`, the milliseconds since
1970-01-01T00:00:00Z with leap seconds not counted. Both are unbounded here; the
64-bit limits of the stored form are a matter of three named operations:

* `Instant.clamp` — the nearest instant that can be stored, used wherever a sum
  saturates;
* `Instant.wrap` — the representative modulo `2 ^ 64`, used by a clock that is
  moved past the end of its range; and
* `Duration.cap` — the nearest duration that can be stored.

Code that adds two times therefore says at the place of the addition which of the
three it means.
-/

namespace RecurringWork

namespace Instant

/-- The earliest instant that can be stored. -/
def minimum : Int := -9223372036854775808

/-- The latest instant that can be stored. -/
def maximum : Int := 9223372036854775807

/-- The nearest instant that can be stored. -/
def clamp (t : Int) : Int := max minimum (min t maximum)

/-- The instant that a 64-bit counter shows after counting to `t`. -/
def wrap (t : Int) : Int := t.bmod 18446744073709551616

theorem clamp_of_mem {t : Int} (low : minimum ≤ t) (high : t ≤ maximum) : clamp t = t := by
  simp only [clamp]; omega

theorem minimum_le_clamp (t : Int) : minimum ≤ clamp t := by
  simp only [clamp]; omega

theorem clamp_le_maximum (t : Int) : clamp t ≤ maximum := by
  simp only [clamp, minimum, maximum]; omega

/-- Saturation keeps the order of two instants. -/
theorem clamp_le_clamp {s t : Int} (h : s ≤ t) : clamp s ≤ clamp t := by
  simp only [clamp]; omega

end Instant

/-- A length of time in nanoseconds. -/
structure Duration where
  nanos : Nat
  deriving DecidableEq, Repr, Inhabited

namespace Duration

/-- One more than the number of whole seconds that can be stored. -/
def secondsLimit : Nat := 18446744073709551616

def nanosPerSecond : Nat := 1000000000

def nanosPerMilli : Nat := 1000000

/-- No time at all. -/
def zero : Duration := ⟨0⟩

/-- The longest duration that can be stored. -/
def longest : Duration := ⟨secondsLimit * nanosPerSecond - 1⟩

def ofMillis (ms : Nat) : Duration := ⟨ms * nanosPerMilli⟩

def ofSeconds (s : Nat) : Duration := ⟨s * nanosPerSecond⟩

/-- The duration of `secs` seconds and `nanos` nanoseconds. -/
def ofParts (secs nanos : Nat) : Duration := ⟨secs * nanosPerSecond + nanos⟩

/-- The duration of `secs` seconds and `nanos` nanoseconds, if it can be stored. -/
def ofParts? (secs nanos : Nat) : Option Duration :=
  let d := ofParts secs nanos
  if d.nanos ≤ longest.nanos then some d else none

/-- Whole seconds. -/
def seconds (d : Duration) : Nat := d.nanos / nanosPerSecond

/-- Nanoseconds beyond the whole seconds. -/
def subsecond (d : Duration) : Nat := d.nanos % nanosPerSecond

/-- Whole milliseconds, the rest discarded. -/
def wholeMillis (d : Duration) : Nat := d.nanos / nanosPerMilli

/-- Milliseconds, a started one counted in full. A timer never fires early, so this
is how long one waits. -/
def ticks (d : Duration) : Nat := (d.nanos + (nanosPerMilli - 1)) / nanosPerMilli

/-- The longest that anything sleeps, in milliseconds: thirty years of 365 days. A limit
on how long something may take has no such bound. -/
def longestTimer : Nat := 30 * 365 * 24 * 60 * 60 * 1000

/-- For how many milliseconds something sleeps that is to wait so long. -/
def timer (d : Duration) : Nat := min d.ticks longestTimer

/-- Whole milliseconds as a difference of instants, saturating at the latest one. -/
def toMillis (d : Duration) : Int := min (d.wholeMillis : Int) Instant.maximum

def shorter (a b : Duration) : Duration := ⟨min a.nanos b.nanos⟩

/-- The nearest duration that can be stored. -/
def cap (d : Duration) : Duration := d.shorter longest

/-- `d` taken `n` times, saturating at the longest duration. -/
def scale (d : Duration) (n : Nat) : Duration := (⟨d.nanos * n⟩ : Duration).cap

@[simp] theorem wholeMillis_ofMillis (ms : Nat) : (ofMillis ms).wholeMillis = ms := by
  simp [ofMillis, wholeMillis, nanosPerMilli]

@[simp] theorem ticks_ofMillis (ms : Nat) : (ofMillis ms).ticks = ms := by
  simp only [ofMillis, ticks, nanosPerMilli]; omega

theorem timer_le_ticks (d : Duration) : d.timer ≤ d.ticks := Nat.min_le_left _ _

@[simp] theorem nanos_shorter (a b : Duration) : (a.shorter b).nanos = min a.nanos b.nanos := rfl

theorem ofParts_seconds_subsecond (d : Duration) : ofParts d.seconds d.subsecond = d := by
  cases d with
  | mk n => simp only [ofParts, seconds, subsecond, nanosPerSecond, mk.injEq]; omega

/-- The digits of `fraction` written on `places` places, without trailing zeros. -/
private def fractionDigits (fraction places : Nat) : List Char :=
  let digits := (Nat.repr fraction).toList
  let padded := List.replicate (places - digits.length) '0' ++ digits
  (padded.reverse.dropWhile (· == '0')).reverse

/-- `value` units and `fraction` of the `10 ^ places` parts of one. -/
private def renderUnit (value fraction places : Nat) (unit : String) : String :=
  if fraction = 0 then toString value ++ unit
  else toString value ++ "." ++ String.ofList (fractionDigits fraction places) ++ unit

/-- The duration in the largest of seconds, milli-, micro- and nanoseconds that is
not below one, with exactly the decimals it needs. -/
def render (d : Duration) : String :=
  if 0 < d.seconds then renderUnit d.seconds d.subsecond 9 "s"
  else if 1000000 ≤ d.nanos then renderUnit (d.nanos / 1000000) (d.nanos % 1000000) 6 "ms"
  else if 1000 ≤ d.nanos then renderUnit (d.nanos / 1000) (d.nanos % 1000) 3 "µs"
  else renderUnit d.nanos 0 0 "ns"

end Duration

/-- How long to wait at `now` for something due at `due`: nothing when it is due
already. -/
def delayUntil (due now : Int) : Duration :=
  Duration.ofMillis (Instant.clamp (due - now)).toNat

/-- The instant `d` after `now`, saturating. -/
def Instant.after (now : Int) (d : Duration) : Int := clamp (now + d.toMillis)

theorem delayUntil_of_le {due now : Int} (h : due ≤ now) : delayUntil due now = .zero := by
  have : (Instant.clamp (due - now)).toNat = 0 := by
    simp only [Instant.clamp, Instant.minimum, Instant.maximum]
    omega
  simp [delayUntil, this, Duration.ofMillis, Duration.zero]

end RecurringWork
