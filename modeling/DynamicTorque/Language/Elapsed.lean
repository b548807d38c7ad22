import DynamicTorque.Language.Builtins

/-!
# Elapsed time

What `timedelta.seconds` says of the time between two instants. Python normalises a difference to
days, seconds and microseconds, so the middle part is the number of whole seconds only if the
difference is shorter than a day and the earlier instant is subtracted from the later one.

* `lt_timedeltaSeconds_iff`: when comparing `.seconds` with a limit is comparing the age with it.
* `lt_timedeltaSeconds_swap_iff`: the same where the later instant is subtracted from the earlier.
-/

namespace Python

/-- The seconds of a day. -/
def secondsPerDay : ℤ := 86400

/-- The whole seconds from `a` to `b`. -/
def wholeSeconds (a b : Time) : ℤ := (b - a) / 1000000

/-- The seconds from `a` to `b`, with a part of a second counted as one. -/
def startedSeconds (a b : Time) : ℤ := -((a - b) / 1000000)

/-- What is missing from a number of seconds to the next whole day. -/
def untilNextDay (n : ℤ) : ℤ := -n % secondsPerDay

section

variable {a b : Time} {n : ℤ}

theorem timedeltaSeconds_eq : timedeltaSeconds a b = wholeSeconds a b % secondsPerDay := rfl

theorem timedeltaSeconds_swap : timedeltaSeconds b a = untilNextDay (startedSeconds a b) := by
  rw [untilNextDay, startedSeconds, neg_neg]
  rfl

theorem wholeSeconds_nonneg (h : a ≤ b) : 0 ≤ wholeSeconds a b :=
  Int.ediv_nonneg (Int.sub_nonneg_of_le h) (by decide)

/-- More than `n` seconds have passed. -/
theorem lt_startedSeconds_iff : n < startedSeconds a b ↔ n * 1000000 < b - a := by
  rw [startedSeconds]
  omega

/-- **`.seconds` against a limit.** The answer is right while the whole seconds do not exceed the
limit, and later on if what is left of them after whole days does. -/
theorem lt_timedeltaSeconds_iff (h : a ≤ b) :
    (n < timedeltaSeconds a b ↔ n < wholeSeconds a b) ↔
      wholeSeconds a b ≤ n ∨ n < wholeSeconds a b % secondsPerDay := by
  have hnonneg := wholeSeconds_nonneg h
  have hle : wholeSeconds a b % secondsPerDay ≤ wholeSeconds a b := by
    rw [secondsPerDay]
    omega
  rw [timedeltaSeconds_eq]
  omega

/-- **`.seconds` against a limit, with the operands in the other order.** The answer is right if the
seconds that have passed and those that are missing to a whole day are on the same side of the
limit. -/
theorem lt_timedeltaSeconds_swap_iff :
    (n < timedeltaSeconds b a ↔ n * 1000000 < b - a) ↔
      (n < untilNextDay (startedSeconds a b) ∧ n < startedSeconds a b) ∨
        (untilNextDay (startedSeconds a b) ≤ n ∧ startedSeconds a b ≤ n) := by
  rw [timedeltaSeconds_swap, ← lt_startedSeconds_iff]
  omega

end

end Python
