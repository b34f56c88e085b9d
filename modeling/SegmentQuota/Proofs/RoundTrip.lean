import SegmentQuota.Ledger
import SegmentQuota.Proofs.Spelling

/-!
Writing and reading selections. What is written is read back, whatever selection
it is, so no two are written alike. The other way around a text is what would be
written for it unless it has a zero in front of a bound or a range of one
segment: nothing else in the grammar gives a choice.
-/

namespace SegmentQuota

open Decimal (Numeral placeValue)

namespace Fragment

theorem spells_text (f : Fragment) : Spells f.text f.first f.last := by
  rw [text]
  split
  next same =>
    rw [← same]
    exact .alone (Decimal.numeral_digits f.first)
  next => exact .bounds (Decimal.numeral_digits f.first) (Decimal.numeral_digits f.last)

theorem Spells.ne_nil {piece : List Char} {first last : Nat}
    (spelled : Spells piece first last) : piece ≠ [] := by
  cases spelled with
  | alone numeral => exact numeral.nonempty
  | bounds lower upper => simp

theorem Spells.no_comma {piece : List Char} {first last : Nat}
    (spelled : Spells piece first last) : ',' ∉ piece := by
  cases spelled with
  | alone numeral => exact numeral.not_mem ',' (by decide)
  | bounds lower upper =>
      have absent_low := lower.not_mem ',' (by decide)
      have absent_high := upper.not_mem ',' (by decide)
      simp [absent_low, absent_high]

/-- No bound has a zero in front, and a range has two bounds that differ. -/
def Tidy (piece : List Char) : Prop :=
  (∀ bound ∈ piece.splitOn '-', bound.head? ≠ some '0') ∧
    ∀ low high, piece = low ++ '-' :: high → placeValue low ≠ placeValue high

theorem tidy_of_no_dash (piece : List Char) (plain : '-' ∉ piece) :
    Tidy piece ↔ piece.head? ≠ some '0' := by
  rw [Tidy, List.splitOn_eq_singleton plain, List.forall_mem_singleton, and_iff_left]
  rintro low high rfl
  exact absurd (by simp) plain

theorem tidy_of_dash (low high : List Char) (plain_low : '-' ∉ low) (plain_high : '-' ∉ high) :
    Tidy (low ++ '-' :: high) ↔
      (low.head? ≠ some '0' ∧ high.head? ≠ some '0') ∧ placeValue low ≠ placeValue high := by
  rw [Tidy, List.splitOn_append_cons_self_of_not_mem plain_low,
    List.splitOn_eq_singleton plain_high, List.forall_mem_cons, List.forall_mem_singleton]
  refine and_congr_right fun _ => ?_
  constructor
  · intro differ
    exact differ low high rfl
  · intro differ low' high' same
    obtain ⟨rfl, _, rfl⟩ := (List.append_cons_inj_of_notMem plain_low plain_high).mp same
    exact differ

/-- Among the ways to spell a fragment, the tidy one is the one that is written. -/
theorem text_eq_iff_tidy (piece : List Char) (f : Fragment)
    (spelled : Spells piece f.first f.last) : f.text = piece ↔ Tidy piece := by
  have last_pos : 0 < f.last := Nat.lt_of_lt_of_le f.first_pos f.first_le_last
  by_cases dashed : '-' ∈ piece
  · obtain ⟨low, high, rfl, plain_low⟩ := List.eq_append_cons_of_mem dashed
    obtain ⟨lower, upper⟩ := (spells_of_dash low high _ _).mp spelled
    rw [tidy_of_dash low high plain_low (no_dash upper), lower.stands_for, upper.stands_for,
      ← lower.digits_eq_iff f.first_pos, ← upper.digits_eq_iff last_pos, text]
    split
    next same =>
      refine iff_of_false ?_ fun tidy => tidy.2 same
      -- A single number is written without a dash.
      intro written
      exact no_dash (Decimal.numeral_digits f.first) (written ▸ dashed)
    next differ =>
      rw [and_iff_left differ, List.append_cons_inj_of_notMem
        (no_dash (Decimal.numeral_digits _)) (no_dash (Decimal.numeral_digits _))]
      simp only [true_and]
  · obtain ⟨numeral, same⟩ := (spells_of_no_dash piece _ _ dashed).mp spelled
    rw [tidy_of_no_dash piece dashed, text, if_pos same.symm]
    exact numeral.digits_eq_iff f.first_pos

end Fragment

namespace Selection

open Fragment (Spells Tidy)

theorem pieces_encode (s : Selection) (nonempty : s ≠ []) :
    pieces (encode s) = s.map Fragment.text := by
  rw [pieces_eq_iff]
  refine ⟨by simpa using nonempty, ?_, ?_⟩
  · intro piece member
    obtain ⟨f, _, rfl⟩ := List.mem_map.mp member
    exact f.spells_text.no_comma
  · rw [encode, String.toList_ofList, text]

theorem encode_ne_empty (f : Fragment) (rest : Selection) : encode (f :: rest) ≠ "" := by
  intro empty
  have cut := pieces_encode (f :: rest) (List.cons_ne_nil f rest)
  rw [empty, List.map_cons] at cut
  exact f.spells_text.ne_nil (List.cons.inj cut).1.symm

theorem parse_encode (s : Selection) : parse (encode s) = .ok s := by
  cases s with
  | nil => rfl
  | cons f rest =>
      rw [parse_eq_ok_iff, pieces_encode _ (List.cons_ne_nil f rest)]
      refine Or.inr ⟨encode_ne_empty f rest, ?_⟩
      rw [List.forall₂_map_left_iff, List.forall₂_same]
      exact fun g _ => g.spells_text

theorem encode_injective : Function.Injective encode := by
  intro s t same
  have read := congrArg parse same
  rw [parse_encode, parse_encode] at read
  exact Except.ok.inj read

theorem ofValue_toValue (s : Selection) : ofValue (toValue s) = .ok s := by
  rw [toValue, ofValue, parse_encode]

theorem encode_eq_iff (s : Selection) (nonempty : s ≠ []) (text : String) :
    encode s = text ↔ s.map Fragment.text = pieces text := by
  constructor
  · rintro rfl
    exact (pieces_encode s nonempty).symm
  · intro same
    obtain ⟨_, _, joined⟩ := (pieces_eq_iff text _).mp same.symm
    rw [encode, Selection.text, joined, String.ofList_toList]

theorem texts_eq_iff_tidy (pieces : List (List Char)) (s : Selection)
    (spelled : List.Forall₂ (fun piece f => Spells piece f.first f.last) pieces s) :
    s.map Fragment.text = pieces ↔ ∀ piece ∈ pieces, Tidy piece := by
  induction spelled with
  | nil => simp
  | @cons piece f pieces s first _ ih =>
      rw [List.map_cons, List.cons.injEq, List.forall_mem_cons, ih,
        Fragment.text_eq_iff_tidy piece f first]

theorem encode_eq_iff_tidy (text : String) (s : Selection) (read : parse text = .ok s) :
    encode s = text ↔ ∀ piece ∈ pieces text, Tidy piece := by
  rcases (parse_eq_ok_iff text s).mp read with ⟨rfl, rfl⟩ | ⟨given, spelled⟩
  · refine iff_of_true rfl fun piece member => ?_
    have empty : piece = [] := by simpa [pieces] using member
    subst empty
    rw [Fragment.tidy_of_no_dash [] List.not_mem_nil]
    simp
  · have nonempty : s ≠ [] := by
      rintro rfl
      exact List.splitOn_ne_nil ',' text.toList (List.forall₂_nil_right_iff.mp spelled)
    rw [encode_eq_iff s nonempty, texts_eq_iff_tidy _ s spelled]

theorem encodeShifted_eq (offset : Nat) (s : Selection) :
    encodeShifted offset s = (s.shift offset).map encode := by
  rw [encodeShifted]
  cases s.shift offset <;> rfl

theorem encodeShifted_ok_iff (offset : Nat) (s : Selection) :
    (∃ written, encodeShifted offset s = .ok written) ↔ ∃ moved, s.shift offset = .ok moved := by
  rw [encodeShifted_eq]
  cases s.shift offset with
  | error fault => simp [Except.map]
  | ok moved => simp [Except.map]

theorem parse_of_encodeShifted (offset : Nat) (s : Selection) (written : String)
    (shifted : encodeShifted offset s = .ok written) :
    ∃ moved, s.shift offset = .ok moved ∧ parse written = .ok moved := by
  rw [encodeShifted_eq] at shifted
  cases moving : s.shift offset with
  | error fault =>
      rw [moving] at shifted
      cases shifted
  | ok moved =>
      rw [moving] at shifted
      cases shifted
      exact ⟨moved, rfl, parse_encode moved⟩

/-- Writing and reading are inverse: every selection is read back from its text, from
its value, and after a shift from the shifted text. A text that is read is written
again as it was just when all its pieces are tidy. -/
theorem writing_and_reading_invert (s : Selection) (text : String) (offset : Nat) :
    parse (encode s) = .ok s ∧
      ofValue (toValue s) = .ok s ∧
      Function.Injective encode ∧
      (∀ t, parse text = .ok t → (encode t = text ↔ ∀ piece ∈ pieces text, Tidy piece)) ∧
      ((∃ written, encodeShifted offset s = .ok written) ↔
        ∃ moved, s.shift offset = .ok moved) ∧
      ∀ written, encodeShifted offset s = .ok written →
        ∃ moved, s.shift offset = .ok moved ∧ parse written = .ok moved :=
  ⟨parse_encode s, ofValue_toValue s, encode_injective, encode_eq_iff_tidy text,
    encodeShifted_ok_iff offset s, parse_of_encodeShifted offset s⟩

/-- A zero in front is read, but not written again, nor is it after a shift. -/
theorem leading_zero_not_written :
    encode [.fromTo 3 3, .fromTo 5 8] ≠ "3,05-8" ∧
      ∃ moved, shift [.fromTo 3 3, .fromTo 5 8] 100 = .ok moved ∧
        parse "103,105-108" = .ok moved := by
  obtain ⟨_, _, _, rewritten, _, shifted⟩ :=
    writing_and_reading_invert [.fromTo 3 3, .fromTo 5 8] "3,05-8" 100
  refine ⟨?_, shifted "103,105-108" (by decide +kernel)⟩
  rw [Ne, rewritten _ (by decide +kernel)]
  intro tidy
  have bounds := (tidy ['0', '5', '-', '8'] (by decide +kernel)).1
  exact bounds ['0', '5'] (by decide +kernel) rfl

end Selection

end SegmentQuota
