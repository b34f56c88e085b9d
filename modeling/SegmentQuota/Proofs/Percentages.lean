import Mathlib
import SegmentQuota.Ledger

/-!
Limits by percentage as numbers. A finite double stands for a rational, and what a
percentage of the segments comes to is the double next to the product and the quotient,
rounded down: the rounding on the way to it is that of the format, so a limit can be
smaller than the exact percentage would give.
-/

namespace SegmentQuota

namespace Decimal

open Float.Model Float.Model.UnpackedFloat

def rational? (x : Float) : Option ℚ :=
  match x.toModel.unpack with
  | .zero _ => some 0
  | .finite sign mantissa exponent _ => some (sign.apply mantissa * 2 ^ exponent)
  | .infinity _ | .notANumber => none

/-- The double rounded down, cut off at zero and at the largest count. -/
inductive RoundsDown (x : Float) : Nat → Prop where
  | number {q : ℚ} (exact : rational? x = some q) : RoundsDown x (min ⌊q⌋₊ Count.largest)
  | upward (endless : x.toModel.unpack = .infinity .positive) : RoundsDown x Count.largest
  | downward (endless : x.toModel.unpack = .infinity .negative) : RoundsDown x 0
  | nothing (undefined : x.toModel.unpack = .notANumber) : RoundsDown x 0

theorem mantissa_shiftRight (em : ExtendedMantissa) (places : Nat) :
    (em >>> places).mantissa = em.mantissa / 2 ^ places := by
  induction places with
  | zero => exact (Nat.div_one _).symm
  | succ places ih =>
      have step : (em >>> (places + 1)).mantissa = (em >>> places).mantissa / 2 := rfl
      rw [step, ih, Nat.div_div_eq_div_mul, pow_succ]

-- A positive exponent shifts to the left and a negative one to the right, never both.
theorem floor_scaled (mantissa : Nat) (exponent : Int) :
    ⌊(mantissa * 2 ^ exponent : ℚ)⌋₊ =
      mantissa * 2 ^ exponent.toNat / 2 ^ (-exponent).toNat := by
  rcases Int.le_total 0 exponent with up | down
  · obtain ⟨places, rfl⟩ := Int.eq_ofNat_of_zero_le up
    have whole : (mantissa * 2 ^ (places : Int) : ℚ) = ((mantissa * 2 ^ places : Nat) : ℚ) := by
      push_cast
      rw [zpow_natCast]
    rw [whole, Nat.floor_natCast]
    simp
  · obtain ⟨places, negated⟩ := Int.eq_ofNat_of_zero_le (Int.neg_nonneg.mpr down)
    obtain rfl : exponent = -(places : Int) := by omega
    have quotient : (mantissa * 2 ^ (-(places : Int)) : ℚ) =
        (mantissa : ℚ) / ((2 ^ places : Nat) : ℚ) := by
      push_cast
      rw [zpow_neg, zpow_natCast, div_eq_mul_inv]
    rw [quotient, Nat.floor_div_eq_div]
    simp

theorem roundToInt_eq (sign : Sign) (mantissa : Nat) (exponent : Int) :
    roundToInt sign mantissa exponent =
      sign.apply (⌊(mantissa * 2 ^ exponent : ℚ)⌋₊ : Nat) := by
  rw [floor_scaled, roundToInt]
  simp only [decreaseExponent, shiftToExponent, mantissa_shiftRight,
    ExtendedMantissa.ofMantissaAndAccuracy, Nat.shiftLeft_eq, Int.sub_zero]
  congr 4
  omega

theorem toNat_roundToInt (sign : Sign) (mantissa : Nat) (exponent : Int) :
    (roundToInt sign mantissa exponent).toNat =
      ⌊(sign.apply mantissa * 2 ^ exponent : ℚ)⌋₊ := by
  have size : (0 : ℚ) ≤ mantissa * 2 ^ exponent := by positivity
  rw [roundToInt_eq]
  cases sign with
  | positive => simp [Sign.apply]
  | negative => simp [Sign.apply, Nat.floor_of_nonpos, size]

theorem toNat_ofNatClamp (n : Nat) : (UInt64.ofNatClamp n).toNat = min n Count.largest := by
  rw [UInt64.ofNatClamp]
  split
  next fits =>
    rw [UInt64.toNat_ofNatLT]
    exact (Nat.min_eq_left (Nat.le_of_lt_succ fits)).symm
  next exceeds =>
    rw [UInt64.toNat_ofNatLT]
    exact (Nat.min_eq_right (Nat.le_of_succ_le (Nat.le_of_not_lt exceeds))).symm

theorem roundsDown_toUInt64 (x : Float) : RoundsDown x x.toUInt64.toNat := by
  have clamped : x.toUInt64.toNat =
      min (toInt 0 (UInt64.size - 1 : Nat) x.toModel.unpack).toNat Count.largest :=
    toNat_ofNatClamp _
  rw [clamped]
  cases unpacked : x.toModel.unpack with
  | notANumber => exact .nothing unpacked
  | infinity sign =>
      cases sign with
      | positive => exact .upward unpacked
      | negative => exact .downward unpacked
  | zero sign =>
      have exact : rational? x = some 0 := by rw [rational?, unpacked]
      simpa [toInt] using RoundsDown.number exact
  | finite sign mantissa exponent positive =>
      rw [toInt, toNat_roundToInt]
      exact .number (by rw [rational?, unpacked])

theorem roundsDown_unique {x : Float} {m n : Nat} (left : RoundsDown x m)
    (right : RoundsDown x n) : m = n := by
  cases left <;> cases right <;> simp_all [rational?]

theorem roundsDown_iff (x : Float) (n : Nat) : RoundsDown x n ↔ x.toUInt64.toNat = n := by
  constructor
  · exact roundsDown_unique (roundsDown_toUInt64 x)
  · rintro rfl
    exact roundsDown_toUInt64 x

theorem positive_iff (x : Float) :
    (x.isFinite && 0.0 < x) ↔ ∃ q, rational? x = some q ∧ 0 < q := by
  have zero : (0.0 : Float).toModel.unpack = .zero .positive := rfl
  have less_iff : 0.0 < x ↔ (UnpackedFloat.zero .positive).compare x.toModel.unpack = some .lt := by
    rw [← zero]
    exact decide_eq_true_iff.trans beq_iff_eq
  have finite_eq : x.isFinite = x.toModel.unpack.isFinite := rfl
  rw [Bool.and_eq_true, decide_eq_true_eq, less_iff, finite_eq, rational?]
  cases x.toModel.unpack with
  | notANumber => simp [UnpackedFloat.isFinite]
  | infinity sign => simp [UnpackedFloat.isFinite]
  | zero sign => simp [UnpackedFloat.compare]
  | finite sign mantissa exponent positive =>
      have size : (0 : ℚ) < mantissa * 2 ^ exponent := by positivity
      cases sign with
      | positive => simpa [UnpackedFloat.isFinite, UnpackedFloat.compare, Sign.apply] using size
      | negative => simpa [UnpackedFloat.isFinite, UnpackedFloat.compare, Sign.apply] using size.le

end Decimal

namespace Ledger

open Decimal

inductive Share (segments : Nat) (percent : Float) : Nat → Prop where
  | useless (unusable : ∀ q, rational? percent = some q → q ≤ 0) : Share segments percent 0
  | part {q : ℚ} {limit : Nat} (exact : rational? percent = some q) (positive : 0 < q)
      (rounded : RoundsDown (Float.ofNat segments * percent / 100.0) limit) :
      Share segments percent limit

theorem share_iff (segments : Nat) (percent : Float) (limit : Nat) :
    Share segments percent limit ↔ limitOfPercent segments percent = limit := by
  rw [limitOfPercent]
  split
  next usable =>
    obtain ⟨q, exact, positive⟩ := (positive_iff percent).mp usable
    rw [← roundsDown_iff]
    constructor
    · rintro (unusable | ⟨_, _, rounded⟩)
      · exact absurd positive (not_lt.mpr (unusable q exact))
      · exact rounded
    · exact .part exact positive
  next unusable =>
    rw [positive_iff] at unusable
    push Not at unusable
    constructor
    · rintro (_ | ⟨exact, positive, _⟩)
      · rfl
      · exact absurd positive (not_lt.mpr (unusable _ exact))
    · rintro rfl
      exact .useless unusable

-- The exact share is 69, but the double nearest to 4.6 is a little less, and so is the product.
example : limitOfPercent 1500 4.6 = 68 := by decide +kernel

end Ledger

end SegmentQuota
