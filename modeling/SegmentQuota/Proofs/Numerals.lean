import Mathlib
import SegmentQuota.Number

/-!
Decimal numerals and the numbers they stand for. A numeral is any string of
digits, so a number has many; the one that is written is the one that does not
begin with a zero.
-/

namespace SegmentQuota.Decimal

def placeValue (text : List Char) : Nat :=
  Nat.ofDigits 10 (text.reverse.map fun c => c.toNat - '0'.toNat)

theorem value_append_digit (text : List Char) (c : Char) :
    value (text ++ [c]) = 10 * value text + (c.toNat - '0'.toNat) := by
  rw [value, Nat.ofDigitChars_append, Nat.ofDigitChars_cons, Nat.ofDigitChars_nil]
  rfl

theorem placeValue_append_digit (text : List Char) (c : Char) :
    placeValue (text ++ [c]) = 10 * placeValue text + (c.toNat - '0'.toNat) := by
  rw [placeValue, List.reverse_concat, List.map_cons, Nat.ofDigits_cons, Nat.add_comm]
  rfl

theorem value_eq_placeValue (text : List Char) : value text = placeValue text := by
  induction text using List.reverseRecOn with
  | nil => rfl
  | append_singleton text c ih => rw [value_append_digit, placeValue_append_digit, ih]

structure Numeral (text : List Char) (n : Nat) : Prop where
  nonempty : text ≠ []
  digits : ∀ c ∈ text, c.isDigit
  stands_for : placeValue text = n

theorem numeral_digits (n : Nat) : Numeral (digits n) n where
  nonempty := Nat.toDigits_ne_nil
  digits := List.all_eq_true.mp (digits_are_digits n)
  stands_for := by rw [← value_eq_placeValue, value_digits]

theorem numeral_iff (text : List Char) (n : Nat) :
    Numeral text n ↔ isNumeral text ∧ value text = n := by
  simp only [isNumeral, value_eq_placeValue, Bool.and_eq_true, Bool.not_eq_true', List.all_eq_true,
    List.isEmpty_eq_false_iff]
  constructor
  · rintro ⟨nonempty, digits, stands_for⟩
    exact ⟨⟨nonempty, digits⟩, stands_for⟩
  · rintro ⟨⟨nonempty, digits⟩, stands_for⟩
    exact ⟨nonempty, digits, stands_for⟩

theorem Numeral.not_mem {text : List Char} {n : Nat} (numeral : Numeral text n) (c : Char)
    (other : ¬c.isDigit) : c ∉ text := fun member => other (numeral.digits c member)

/-- A numeral, with a plus sign in front or without, of a number that can be counted to. -/
def IsCount (text : List Char) (n : Nat) : Prop :=
  (∃ digits, (text = digits ∨ text = '+' :: digits) ∧ Numeral digits n) ∧ n ≤ Count.largest

theorem withoutPlus_cases (text : List Char) :
    text = withoutPlus text ∨ text = '+' :: withoutPlus text := by
  fun_cases withoutPlus text with
  | case1 rest => exact Or.inr rfl
  | case2 => exact Or.inl rfl

theorem withoutPlus_of_numeral {text digits : List Char} {n : Nat} (numeral : Numeral digits n)
    (plus : text = digits ∨ text = '+' :: digits) : withoutPlus text = digits := by
  rcases plus with rfl | rfl
  · rcases withoutPlus_cases text with same | signed
    · exact same.symm
    · exact absurd (signed ▸ List.mem_cons_self) (numeral.not_mem '+' (by decide))
  · rfl

theorem readCount_eq_some_iff (text : List Char) (n : Nat) :
    readCount? text = some n ↔ IsCount text n := by
  simp only [readCount?, Option.ite_none_right_eq_some, Bool.and_eq_true, decide_eq_true_eq,
    Option.some.injEq]
  constructor
  · rintro ⟨⟨numeral, bounded⟩, rfl⟩
    exact ⟨⟨_, withoutPlus_cases text, (numeral_iff _ _).mpr ⟨numeral, rfl⟩⟩, bounded⟩
  · rintro ⟨⟨digits, plus, numeral⟩, bounded⟩
    obtain ⟨all_digits, rfl⟩ := (numeral_iff digits n).mp numeral
    rw [withoutPlus_of_numeral numeral plus]
    exact ⟨⟨all_digits, bounded⟩, rfl⟩

theorem digitChar_of_isDigit (c : Char) (digit : c.isDigit) :
    Nat.digitChar (c.toNat - '0'.toNat) = c ∧ c.toNat - '0'.toNat < 10 := by
  obtain ⟨low, high⟩ := Char.isDigit_iff_toNat.mp digit
  have bounded : c.toNat - '0'.toNat < 10 := by
    simp only [Char.reduceToNat] at *
    omega
  refine ⟨?_, bounded⟩
  apply Char.toNat_inj.mp
  rw [Nat.toNat_digitChar_of_lt_ten bounded]
  simp only [Char.reduceToNat] at *
  omega

theorem head_digits_ne_zero (n : Nat) (positive : 0 < n) : (digits n).head? ≠ some '0' := by
  induction n using Nat.strong_induction_on with
  | _ n ih =>
      rw [digits, Nat.toDigits_eq_if (by decide)]
      split
      next small =>
        rw [List.head?_cons, Ne, Option.some_inj, Nat.digitChar_eq_zero]
        exact Nat.ne_of_gt positive
      next large =>
        rw [List.head?_append_of_ne_nil _ Nat.toDigits_ne_nil]
        exact ih (n / 10) (by omega) (by omega)

/-- Without a zero in front, the digits of the value are the digits that were read. -/
theorem digits_value (text : List Char) (nonempty : text ≠ []) (digit : ∀ c ∈ text, c.isDigit)
    (leading : text.head? ≠ some '0') : digits (value text) = text := by
  induction text using List.reverseRecOn with
  | nil => exact absurd rfl nonempty
  | append_singleton text c ih =>
      obtain ⟨earlier, last⟩ := List.forall_mem_append.mp digit
      obtain ⟨restored, bounded⟩ := digitChar_of_isDigit c (last c List.mem_cons_self)
      have single : Nat.toDigits 10 (c.toNat - '0'.toNat) = [c] := by
        rw [Nat.toDigits_of_lt_base bounded, restored]
      rw [value_append_digit, digits]
      by_cases first : text = []
      · subst first
        rw [value, Nat.ofDigitChars_nil, Nat.mul_zero, Nat.zero_add]
        exact single
      · rw [List.head?_append_of_ne_nil text first] at leading
        have shorter := ih first earlier leading
        have positive : 0 < value text := by
          refine Nat.pos_of_ne_zero fun zero => leading ?_
          rw [← shorter, zero]
          rfl
        rw [← Nat.toDigits_append_toDigits (by decide) positive bounded, single]
        exact congrArg (· ++ [c]) shorter

/-- Of the numerals of a positive number, the one without a zero in front is written. -/
theorem Numeral.digits_eq_iff {text : List Char} {n : Nat} (numeral : Numeral text n)
    (positive : 0 < n) : Decimal.digits n = text ↔ text.head? ≠ some '0' := by
  constructor
  · intro same
    rw [← same]
    exact head_digits_ne_zero n positive
  · intro leading
    rw [← numeral.stands_for, ← value_eq_placeValue]
    exact digits_value text numeral.nonempty numeral.digits leading

end SegmentQuota.Decimal
