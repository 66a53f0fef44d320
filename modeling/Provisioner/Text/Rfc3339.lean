import Mathlib.Algebra.Order.Floor.Ring
import Mathlib.Data.Rat.Floor
import Mathlib.Tactic.FieldSimp
import Mathlib.Tactic.Linarith
import Mathlib.Tactic.Positivity
import Mathlib.Tactic.Ring

/-!
# Timestamps of RFC 3339

A timestamp is a date, a time of day with any number of fractional digits, and a zone. Its
text is the one the standard prescribes, and it denotes an exact instant: a rational number
of microseconds since 1970-01-01T00:00:00Z.
-/

namespace Rfc3339

/-- The zone of a timestamp: `Z`, or how far the wall clock is ahead or behind. -/
inductive Zone where
  | zulu
  | numeric (behind : Bool) (hours : Fin 24) (minutes : Fin 60)
  deriving DecidableEq

/-- Whether a year has a 29th of February. -/
def isLeap (year : Nat) : Bool :=
  year % 4 = 0 ∧ (year % 100 ≠ 0 ∨ year % 400 = 0)

/-- The lengths of the months. -/
def daysInMonth (year : Nat) : Nat → Nat
  | 2 => if isLeap year then 29 else 28
  | 4 | 6 | 9 | 11 => 30
  | _ => 31

/-- A timestamp that exists. -/
structure Timestamp where
  year : Nat
  month : Nat
  day : Nat
  hour : Fin 24
  minute : Fin 60
  second : Fin 60
  fraction : List (Fin 10)
  zone : Zone
  yearRange : 1 ≤ year ∧ year ≤ 9999
  monthRange : 1 ≤ month ∧ month ≤ 12
  dayRange : 1 ≤ day ∧ day ≤ daysInMonth year month

/-! ## The text -/

/-- The character of a digit. -/
def digit (value : Fin 10) : Char :=
  Nat.digitChar value

/-- A number in two digits. -/
def two (number : Nat) : List Char :=
  [digit (Fin.ofNat 10 (number / 10)), digit (Fin.ofNat 10 number)]

/-- A number in four digits. -/
def four (number : Nat) : List Char :=
  two (number / 100) ++ two number

/-- The text of a zone. -/
def Zone.text : Zone → List Char
  | .zulu => ['Z']
  | .numeric behind hours minutes =>
      (if behind then '-' else '+') :: two hours ++ ':' :: two minutes

/-- The text of a fraction, which has a point only if it has digits. -/
def fractionText : List (Fin 10) → List Char
  | [] => []
  | digits => '.' :: digits.map digit

namespace Timestamp

/-- The text up to the whole second. -/
def front (stamp : Timestamp) : List Char :=
  four stamp.year ++ '-' :: two stamp.month ++ '-' :: two stamp.day ++
    'T' :: two stamp.hour ++ ':' :: two stamp.minute ++ ':' :: two stamp.second

/-- The text of a timestamp. -/
def text (stamp : Timestamp) : String :=
  .ofList (stamp.front ++ fractionText stamp.fraction ++ stamp.zone.text)

end Timestamp

/-! ## The instant -/

/-- The days before a year, counted from the first day of year 1. -/
def daysBeforeYear (year : Nat) : Nat :=
  (year - 1) * 365 + (year - 1) / 4 - (year - 1) / 100 + (year - 1) / 400

/-- The days of a year before a month. -/
def daysBeforeMonth (year month : Nat) : Nat :=
  ((List.range (month - 1)).map fun earlier => daysInMonth year (earlier + 1)).sum

/-- The days from 1970-01-01 to a date. -/
def daysSinceEpoch (year month day : Nat) : Int :=
  (daysBeforeYear year + daysBeforeMonth year month + day : Nat) - 719163

/-- The microseconds by which the wall clock is ahead of universal time. -/
def Zone.offset : Zone → Int
  | .zulu => 0
  | .numeric behind hours minutes =>
      (if behind then -1 else 1) * (hours * 60 + minutes) * 60 * 1000000

/-- The part of a second that fractional digits denote. -/
def fractionValue : List (Fin 10) → ℚ
  | [] => 0
  | value :: digits => (value.val + fractionValue digits) / 10

namespace Timestamp

/-- The whole seconds on the wall clock since 1970-01-01T00:00:00. -/
def wallSeconds (stamp : Timestamp) : Int :=
  daysSinceEpoch stamp.year stamp.month stamp.day * 86400 +
    ((stamp.hour * 60 + stamp.minute) * 60 + stamp.second : Nat)

/-- The exact time on the wall clock, in microseconds. -/
def wall (stamp : Timestamp) : ℚ :=
  stamp.wallSeconds * 1000000 + fractionValue stamp.fraction * 1000000

/-- The exact instant, in microseconds. -/
def denoted (stamp : Timestamp) : ℚ :=
  stamp.wall - stamp.zone.offset

end Timestamp

/-! ## Truncation -/

theorem fractionValue_range (digits : List (Fin 10)) :
    0 ≤ fractionValue digits ∧ fractionValue digits < 1 := by
  induction digits with
  | nil => exact ⟨le_refl 0, zero_lt_one⟩
  | cons value digits inductionHypothesis =>
      have low : (0 : ℚ) ≤ value.val := Nat.cast_nonneg _
      have high : (value.val : ℚ) ≤ 9 := by
        exact_mod_cast Nat.le_of_lt_succ value.isLt
      unfold fractionValue
      constructor <;> linarith [inductionHypothesis.1, inductionHypothesis.2]

/-- Truncating the digits is rounding down. -/
theorem floor_fractionValue (digits : List (Fin 10)) (places : Nat) :
    (⌊fractionValue digits * 10 ^ places⌋ : ℚ) =
      fractionValue (digits.take places) * 10 ^ places := by
  induction places generalizing digits with
  | zero =>
      have range := fractionValue_range digits
      rw [pow_zero, mul_one, mul_one, List.take_zero, Int.floor_eq_zero_iff.mpr range]
      exact Int.cast_zero
  | succ places inductionHypothesis =>
      cases digits with
      | nil =>
          rw [List.take_nil, fractionValue, zero_mul, Int.floor_zero]
          exact Int.cast_zero
      | cons value digits =>
          have shift (rest : ℚ) : (value.val + rest) / 10 * 10 ^ (places + 1) =
              ((value.val * 10 ^ places : ℕ) : ℤ) + rest * 10 ^ places := by
            push_cast
            ring
          rw [List.take_succ_cons, fractionValue, fractionValue, shift, shift,
            Int.floor_intCast_add, Int.cast_add, inductionHypothesis]

end Rfc3339
