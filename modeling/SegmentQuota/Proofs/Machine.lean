import Mathlib
import SegmentQuota.Bar

/-!
Whole-number arithmetic as a machine does it. A step whose result has no place in
its width traps, and so do a division by zero, a look-up past the end and a range
that is none of the sequence's. A step that does not trap has the exact result.
-/

namespace SegmentQuota.Machine

inductive Trap where
  | tooLarge
  | belowZero
  | divisionByZero
  | outside
  /-- Bounds were refused where nothing is left to do but drop them. -/
  | refused
  deriving DecidableEq

def wide : Nat := 340282366920938463463374607431768211455

/-- `value` in a width whose largest number is `top`. -/
def fit (top value : Nat) : Except Trap Nat :=
  if value ≤ top then .ok value else .error .tooLarge

def add (top a b : Nat) : Except Trap Nat := fit top (a + b)

def mul (top a b : Nat) : Except Trap Nat := fit top (a * b)

def sub (a b : Nat) : Except Trap Nat := if b ≤ a then .ok (a - b) else .error .belowZero

def div (a b : Nat) : Except Trap Nat := if b = 0 then .error .divisionByZero else .ok (a / b)

def ceilDiv (top a b : Nat) : Except Trap Nat := do
  let quotient ← div a b
  if a % b = 0 then return quotient else add top quotient 1

def get {α : Type} (list : List α) (position : Nat) : Except Trap α :=
  match list[position]? with
  | some element => .ok element
  | none => .error .outside

def middle (low high : Nat) : Except Trap Nat := do
  add Count.largest low (← div (← sub high low) 2)

variable {top a b : Nat}

@[simp]
theorem ok_bind {α β : Type} (value : α) (next : α → Except Trap β) :
    (Except.ok value >>= next) = next value := rfl

theorem fit_of_le (fits : a ≤ top) : fit top a = .ok a := if_pos fits

theorem add_of_le (fits : a + b ≤ top) : add top a b = .ok (a + b) := fit_of_le fits

theorem add_of_lt (passed : top < a + b) : add top a b = .error .tooLarge :=
  if_neg (Nat.not_le.mpr passed)

theorem mul_of_le (fits : a * b ≤ top) : mul top a b = .ok (a * b) := fit_of_le fits

theorem sub_of_le (ordered : b ≤ a) : sub a b = .ok (a - b) := if_pos ordered

theorem div_of_pos (positive : 0 < b) : div a b = .ok (a / b) :=
  if_neg (Nat.pos_iff_ne_zero.mp positive)

/-- Twice the width is enough for every product of two numbers. -/
theorem mul_le_wide (left : a ≤ Count.largest) (right : b ≤ Count.largest) : a * b ≤ wide :=
  Nat.le_trans (Nat.mul_le_mul left right) (by decide)

/-- Rounding up passes no bound that the dividend keeps: a remainder is left only by
divisors from two on. -/
theorem ceilDiv_of_pos (positive : 0 < b) (fits : a ≤ top) :
    ceilDiv top a b = .ok (Bar.ceilDiv a b) := by
  have parts : a / b * b + a % b = a := Nat.div_add_mod' a b
  have small := Nat.mod_lt a positive
  simp only [ceilDiv, div_of_pos positive, ok_bind, Bar.ceilDiv]
  split
  case isTrue whole =>
    have same : (a + b - 1) / b = a / b := by
      rw [Nat.div_eq_iff positive]
      omega
    rw [same]
    rfl
  case isFalse left =>
    have same : (a + b - 1) / b = a / b + 1 := by
      rw [Nat.div_eq_iff positive, Nat.add_mul]
      omega
    have many : 1 < b := by
      by_contra one
      exact left (by rw [show b = 1 by omega, Nat.mod_one])
    have below : a / b < a := Nat.div_lt_self (by omega) many
    rw [same, add_of_le (by omega)]

theorem eq_of_add {sum : Nat} (summed : add top a b = .ok sum) : sum = a + b := by
  rw [add, fit] at summed
  split at summed
  · exact (Except.ok.inj summed).symm
  · cases summed

theorem get_of_lt {α : Type} {list : List α} {position : Nat} (inside : position < list.length) :
    get list position = .ok list[position] := by
  simp only [get, List.getElem?_eq_getElem inside]

/-- No window is too high for its middle: the half is added to the lower end. -/
theorem middle_of_le {low high : Nat} (ordered : low ≤ high) (fits : high ≤ Count.largest) :
    middle low high = .ok (low + (high - low) / 2) := by
  simp only [middle, sub_of_le ordered, div_of_pos Nat.two_pos, ok_bind]
  exact add_of_le (by omega)

theorem middle_within {low high position : Nat} (more : low < high)
    (halved : middle low high = .ok position) : low ≤ position ∧ position < high := by
  simp only [middle, sub_of_le (Nat.le_of_lt more), div_of_pos Nat.two_pos, ok_bind] at halved
  have middle := eq_of_add halved
  omega

end SegmentQuota.Machine
