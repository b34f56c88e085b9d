import SegmentQuota.Proofs.FirstFault
import SegmentQuota.Proofs.Numerals
import SegmentQuota.Selection.Text

/-!
Which texts are read as selections, and as which. The grammar of a piece is
stated on its own, by numerals and the numbers they stand for; the reader
accepts exactly the pieces of the grammar whose numbers are in order and in
range. A text is read piece by piece from the left, so the fault it ends with is
that of the first piece outside the grammar, and nothing after it matters.
-/

namespace SegmentQuota

open Decimal (Numeral)

namespace Fragment

/-- The piece is one numeral, or two with a dash between them. -/
inductive Spells : List Char → Nat → Nat → Prop
  | alone {piece : List Char} {n : Nat} (numeral : Numeral piece n) : Spells piece n n
  | bounds {low high : List Char} {first last : Nat} (lower : Numeral low first)
      (upper : Numeral high last) : Spells (low ++ '-' :: high) first last

def Admissible (piece : List Char) : Prop :=
  ∃ first last, Spells piece first last ∧ 1 ≤ first ∧ first ≤ last ∧ last < 2 ^ 64

theorem largest_lt : Count.largest < 2 ^ 64 := by decide

theorem admissible_iff (piece : List Char) :
    Admissible piece ↔ ∃ f : Fragment, Spells piece f.first f.last := by
  constructor
  · rintro ⟨first, last, spelled, positive, ordered, bounded⟩
    exact ⟨⟨first, last, positive, ordered, Nat.le_of_lt_succ bounded⟩, spelled⟩
  · rintro ⟨f, spelled⟩
    exact ⟨f.first, f.last, spelled, f.first_pos, f.first_le_last,
      Nat.lt_of_le_of_lt f.last_le largest_lt⟩

theorem no_dash {text : List Char} {n : Nat} (numeral : Numeral text n) : '-' ∉ text :=
  numeral.not_mem '-' (by decide)

theorem spells_of_no_dash (piece : List Char) (first last : Nat) (plain : '-' ∉ piece) :
    Spells piece first last ↔ Numeral piece first ∧ last = first := by
  constructor
  · intro spelled
    cases spelled with
    | alone numeral => exact ⟨numeral, rfl⟩
    | bounds lower upper => exact absurd (by simp) plain
  · rintro ⟨numeral, rfl⟩
    exact .alone numeral

theorem spells_of_dash (low high : List Char) (first last : Nat) :
    Spells (low ++ '-' :: high) first last ↔ Numeral low first ∧ Numeral high last := by
  constructor
  · generalize written : low ++ '-' :: high = piece
    intro spelled
    cases spelled with
    | alone numeral => exact absurd (by simp [← written]) (no_dash numeral)
    | bounds lower upper =>
        -- The numerals hold no dash, so the two ways of cutting the piece are one.
        obtain ⟨rfl, _, rfl⟩ :=
          (List.append_cons_inj_of_notMem (no_dash lower) (no_dash upper)).mp written.symm
        exact ⟨lower, upper⟩
  · rintro ⟨lower, upper⟩
    exact .bounds lower upper

theorem readBound_eq_ok_iff (text : List Char) (nonempty : text ≠ [])
    (bound : { n : Nat // n ≤ Count.largest }) :
    readBound text = .ok bound ↔ Numeral text bound.val := by
  rw [readBound]
  constructor
  · intro read
    split at read
    next digits =>
      split at read
      next fits =>
        cases read
        exact ⟨nonempty, List.all_eq_true.mp digits, (Decimal.value_eq_placeValue text).symm⟩
      next => cases read
    next => cases read
  · intro numeral
    have same : Decimal.value text = bound.val :=
      (Decimal.value_eq_placeValue text).trans numeral.stands_for
    rw [if_pos (List.all_eq_true.mpr numeral.digits), dif_pos (same ▸ bound.property)]
    exact congrArg Except.ok (Subtype.ext same)

theorem between_eq_ok_iff (first last : { n : Nat // n ≤ Count.largest }) (f : Fragment) :
    between first last = .ok f ↔ f.first = first.val ∧ f.last = last.val := by
  rw [between]
  constructor
  · intro made
    split at made
    next => cases made
    next =>
      split at made
      next =>
        cases made
        exact ⟨rfl, rfl⟩
      next => cases made
  · rintro ⟨same_first, same_last⟩
    have positive := f.first_pos
    have ordered := f.first_le_last
    rw [dif_neg (by omega), dif_pos (by omega), Except.ok.injEq, Fragment.mk.injEq]
    exact ⟨same_first.symm, same_last.symm⟩

theorem bne_dash_of_not_mem (text : List Char) (plain : '-' ∉ text) :
    ∀ c ∈ text, (c != '-') = true := by
  intro c member
  exact bne_iff_ne.mpr (ne_of_mem_of_not_mem member plain)

theorem readPiece_of_no_dash (piece : List Char) (nonempty : piece ≠ []) (plain : '-' ∉ piece) :
    readPiece piece = (readBound piece).bind fun bound => between bound bound := by
  have kept := bne_dash_of_not_mem piece plain
  rw [readPiece, if_neg (by simpa using nonempty), List.span_eq_takeWhile_dropWhile,
    List.takeWhile_eq_self_iff.mpr kept, List.dropWhile_eq_nil_iff.mpr kept]
  dsimp only
  cases readBound piece <;> rfl

theorem readPiece_of_dash (low high : List Char) (plain : '-' ∉ low) :
    readPiece (low ++ '-' :: high) =
      if low.isEmpty then .error .firstMissing
      else if high.isEmpty then .error .lastMissing
      else if high.contains '-' then .error .secondDash
      else
        (readBound low).bind fun first =>
          (readBound high).bind fun last => between first last := by
  have kept := bne_dash_of_not_mem low plain
  have cut : (low ++ '-' :: high).span (· != '-') = (low, '-' :: high) := by
    rw [List.span_eq_takeWhile_dropWhile, List.takeWhile_append_of_pos kept,
      List.dropWhile_append_of_pos kept]
    simp
  rw [readPiece, if_neg (by simp), cut]
  dsimp only
  cases readBound low with
  | error cause => rfl
  | ok first => cases readBound high <;> rfl

theorem readPiece_alone_iff (piece : List Char) (f : Fragment) (plain : '-' ∉ piece) :
    readPiece piece = .ok f ↔ Numeral piece f.first ∧ f.last = f.first := by
  by_cases nonempty : piece = []
  · subst nonempty
    constructor
    · intro read
      cases read
    · rintro ⟨numeral, _⟩
      exact absurd rfl numeral.nonempty
  · rw [readPiece_of_no_dash piece nonempty plain, bind_eq_ok_iff]
    constructor
    · rintro ⟨bound, read, made⟩
      obtain ⟨same_first, same_last⟩ := (between_eq_ok_iff bound bound f).mp made
      rw [same_first, same_last]
      exact ⟨(readBound_eq_ok_iff piece nonempty bound).mp read, rfl⟩
    · rintro ⟨numeral, same⟩
      have bounded : f.first ≤ Count.largest := Nat.le_trans f.first_le_last f.last_le
      exact ⟨⟨f.first, bounded⟩, (readBound_eq_ok_iff piece nonempty _).mpr numeral,
        (between_eq_ok_iff _ _ f).mpr ⟨rfl, same⟩⟩

theorem readPiece_bounds_iff (low high : List Char) (f : Fragment) (plain : '-' ∉ low) :
    readPiece (low ++ '-' :: high) = .ok f ↔ Numeral low f.first ∧ Numeral high f.last := by
  rw [readPiece_of_dash low high plain]
  constructor
  · intro read
    split at read
    next => cases read
    next low_given =>
      split at read
      next => cases read
      next high_given =>
        split at read
        next => cases read
        next =>
          rw [List.isEmpty_iff] at low_given high_given
          obtain ⟨first, read_low, read⟩ := (bind_eq_ok_iff _ _ _).mp read
          obtain ⟨last, read_high, made⟩ := (bind_eq_ok_iff _ _ _).mp read
          obtain ⟨same_first, same_last⟩ := (between_eq_ok_iff first last f).mp made
          rw [same_first, same_last]
          exact ⟨(readBound_eq_ok_iff low low_given first).mp read_low,
            (readBound_eq_ok_iff high high_given last).mp read_high⟩
  · rintro ⟨lower, upper⟩
    have bounded : f.first ≤ Count.largest := Nat.le_trans f.first_le_last f.last_le
    have read_low := (readBound_eq_ok_iff low lower.nonempty ⟨f.first, bounded⟩).mpr lower
    have read_high := (readBound_eq_ok_iff high upper.nonempty ⟨f.last, f.last_le⟩).mpr upper
    rw [if_neg (by simpa using lower.nonempty), if_neg (by simpa using upper.nonempty),
      if_neg (by simpa using no_dash upper), read_low, read_high]
    exact (between_eq_ok_iff _ _ f).mpr ⟨rfl, rfl⟩

theorem readPiece_eq_ok_iff (piece : List Char) (f : Fragment) :
    readPiece piece = .ok f ↔ Spells piece f.first f.last := by
  by_cases dashed : '-' ∈ piece
  · obtain ⟨low, high, rfl, plain⟩ := List.eq_append_cons_of_mem dashed
    rw [readPiece_bounds_iff low high f plain, spells_of_dash]
  · rw [readPiece_alone_iff piece f dashed, spells_of_no_dash piece _ _ dashed]

theorem readable_iff (piece : List Char) :
    (∃ f, readPiece piece = .ok f) ↔ Admissible piece := by
  simp only [readPiece_eq_ok_iff, admissible_iff]

theorem not_admissible_of_error (piece : List Char) (cause : Misspelling)
    (failed : readPiece piece = .error cause) : ¬Admissible piece := by
  rw [← readable_iff, failed]
  rintro ⟨f, read⟩
  cases read

end Fragment

namespace Selection

open Fragment (Spells Admissible)

def pieces (text : String) : List (List Char) := text.toList.splitOn ','

theorem no_comma_of_mem_splitOn (text piece : List Char) (member : piece ∈ text.splitOn ',') :
    ',' ∉ piece := by
  induction text generalizing piece with
  | nil =>
      rw [List.splitOn_nil, List.mem_singleton] at member
      simp [member]
  | cons c text ih =>
      rw [List.splitOn_cons_eq_if_modifyHead] at member
      obtain ⟨first, others, cut⟩ := List.exists_cons_of_ne_nil (List.splitOn_ne_nil ',' text)
      rw [cut] at ih member
      obtain ⟨first_plain, others_plain⟩ := List.forall_mem_cons.mp ih
      split at member
      next =>
        rcases List.mem_cons.mp member with rfl | later
        · exact List.not_mem_nil
        · exact ih piece later
      next other =>
        rw [List.modifyHead_cons] at member
        rcases List.mem_cons.mp member with rfl | later
        · rw [List.mem_cons, not_or]
          exact ⟨fun same => other (beq_iff_eq.mpr same.symm), first_plain⟩
        · exact others_plain piece later

/-- The pieces of a text are the one way to cut it at all its commas. -/
theorem pieces_eq_iff (text : String) (parts : List (List Char)) :
    pieces text = parts ↔
      parts ≠ [] ∧ (∀ part ∈ parts, ',' ∉ part) ∧ [','].intercalate parts = text.toList := by
  constructor
  · rintro rfl
    exact ⟨List.splitOn_ne_nil ',' text.toList,
      fun part member => no_comma_of_mem_splitOn text.toList part member,
      List.intercalate_splitOn ','⟩
  · rintro ⟨nonempty, plain, joined⟩
    rw [pieces, ← joined, List.splitOn_intercalate ',' plain nonempty]

theorem parse_empty : parse "" = .ok [] := rfl

theorem parse_of_ne_empty (text : String) (given : text ≠ "") :
    parse text = readPieces 0 (pieces text) := by
  have nonempty : text.toList ≠ [] := fun none => given (String.toList_eq_nil_iff.mp none)
  rw [parse, readText, if_neg (by simpa using nonempty), pieces]

theorem readPieces_eq_ok_iff (position : Nat) (pieces : List (List Char)) (s : Selection) :
    readPieces position pieces = .ok s ↔
      List.Forall₂ (fun piece f => Spells piece f.first f.last) pieces s := by
  simp only [← Fragment.readPiece_eq_ok_iff]
  induction pieces generalizing position s with
  | nil =>
      rw [readPieces, List.forall₂_nil_left_iff, Except.ok.injEq]
      exact eq_comm
  | cons piece rest ih =>
      rw [readPieces, List.forall₂_cons_left_iff]
      simp only [← ih (position + 1)]
      cases Fragment.readPiece piece with
      | error cause => simp
      | ok f =>
          cases readPieces (position + 1) rest with
          | error fault => simp
          | ok later => simp [eq_comm]

theorem readPieces_of_error (position : Nat) (good : List (List Char)) (bad : List Char)
    (rest : List (List Char)) (cause : Fragment.Misspelling)
    (readable : ∀ piece ∈ good, Admissible piece)
    (failed : Fragment.readPiece bad = .error cause) :
    readPieces position (good ++ bad :: rest) =
      .error (.misspelled (String.ofList bad) (position + good.length) cause) := by
  induction good generalizing position with
  | nil =>
      rw [List.nil_append, readPieces, failed]
      rfl
  | cons piece good ih =>
      obtain ⟨first, others⟩ := List.forall_mem_cons.mp readable
      obtain ⟨f, read⟩ := (Fragment.readable_iff piece).mpr first
      rw [List.cons_append, readPieces, read]
      simp only [ih (position + 1) others, List.length_cons]
      rw [Nat.add_right_comm, Nat.add_assoc]

theorem admissible_or_first_bad (pieces : List (List Char)) :
    (∀ piece ∈ pieces, Admissible piece) ∨
      ∃ good bad rest cause, pieces = good ++ bad :: rest ∧
        (∀ piece ∈ good, Admissible piece) ∧ Fragment.readPiece bad = .error cause := by
  induction pieces with
  | nil => exact Or.inl (List.forall_mem_nil _)
  | cons piece pieces ih =>
      cases read : Fragment.readPiece piece with
      | error cause =>
          exact Or.inr ⟨[], piece, pieces, cause, rfl, List.forall_mem_nil _, read⟩
      | ok f =>
          have admissible := (Fragment.readable_iff piece).mp ⟨f, read⟩
          rcases ih with all | ⟨good, bad, rest, cause, cut, earlier, failed⟩
          · exact Or.inl (List.forall_mem_cons.mpr ⟨admissible, all⟩)
          · refine Or.inr ⟨piece :: good, bad, rest, cause, ?_, ?_, failed⟩
            · rw [cut, List.cons_append]
            · exact List.forall_mem_cons.mpr ⟨admissible, earlier⟩

theorem parse_eq_ok_iff (text : String) (s : Selection) :
    parse text = .ok s ↔
      text = "" ∧ s = [] ∨
        text ≠ "" ∧ List.Forall₂ (fun piece f => Spells piece f.first f.last) (pieces text) s := by
  by_cases given : text = ""
  · subst given
    simp [parse_empty, eq_comm]
  · rw [parse_of_ne_empty text given, readPieces_eq_ok_iff]
    simp [given]

/-- What a fault says depends on the pieces up to the one it names. -/
theorem parse_of_first_bad (text : String) (good : List (List Char)) (bad : List Char)
    (cause : Fragment.Misspelling) (given : text ≠ "")
    (begins : good ++ [bad] <+: pieces text) (readable : ∀ piece ∈ good, Admissible piece)
    (failed : Fragment.readPiece bad = .error cause) :
    parse text = .error (.misspelled (String.ofList bad) good.length cause) := by
  obtain ⟨rest, cut⟩ := begins
  rw [List.append_assoc, List.singleton_append] at cut
  rw [parse_of_ne_empty text given, ← cut,
    readPieces_of_error 0 good bad rest cause readable failed, Nat.zero_add]

theorem exists_spelled_iff (pieces : List (List Char)) :
    (∃ s : Selection, List.Forall₂ (fun piece f => Spells piece f.first f.last) pieces s) ↔
      ∀ piece ∈ pieces, Admissible piece := by
  induction pieces with
  | nil => exact ⟨fun _ => List.forall_mem_nil _, fun _ => ⟨[], .nil⟩⟩
  | cons piece rest ih =>
      rw [List.forall_mem_cons, ← ih, Fragment.admissible_iff]
      constructor
      · rintro ⟨s, spelled⟩
        obtain ⟨f, later, first, others, _⟩ := List.forall₂_cons_left_iff.mp spelled
        exact ⟨⟨f, first⟩, ⟨later, others⟩⟩
      · rintro ⟨⟨f, first⟩, ⟨later, others⟩⟩
        exact ⟨f :: later, .cons first others⟩

theorem parse_ok_iff (text : String) :
    (∃ s, parse text = .ok s) ↔ text = "" ∨ ∀ piece ∈ pieces text, Admissible piece := by
  by_cases given : text = ""
  · subst given
    exact iff_of_true ⟨[], parse_empty⟩ (Or.inl rfl)
  · simp only [parse_of_ne_empty text given, readPieces_eq_ok_iff, exists_spelled_iff, given,
      false_or]

theorem parse_error_cases (text : String) (fault : Fragment.Fault)
    (failed : parse text = .error fault) :
    ∃ good bad rest cause, pieces text = good ++ bad :: rest ∧
      (∀ piece ∈ good, Admissible piece) ∧ Fragment.readPiece bad = .error cause ∧
      fault = .misspelled (String.ofList bad) good.length cause := by
  have refused : ¬∃ s, parse text = .ok s := by
    rintro ⟨s, read⟩
    rw [failed] at read
    cases read
  rw [parse_ok_iff, not_or] at refused
  obtain ⟨given, not_all⟩ := refused
  rcases admissible_or_first_bad (pieces text) with all | ⟨good, bad, rest, cause, cut, found⟩
  · exact absurd all not_all
  · have begins : good ++ [bad] <+: pieces text := ⟨rest, by simp [cut]⟩
    rw [parse_of_first_bad text good bad cause given begins found.1 found.2] at failed
    cases failed
    exact ⟨good, bad, rest, cause, cut, found.1, found.2, rfl⟩

/-- A text is read just when it is empty or all its pieces follow the grammar, as
the fragments that they stand for in their order. Any other text is refused for its
first piece that does not, in the same words whatever comes after that piece. -/
theorem reading_follows_grammar (text : String) :
    ((∃ s, parse text = .ok s) ↔ text = "" ∨ ∀ piece ∈ pieces text, Admissible piece) ∧
      (∀ s, parse text = .ok s ↔
        text = "" ∧ s = [] ∨
          text ≠ "" ∧
            List.Forall₂ (fun piece f => Spells piece f.first f.last) (pieces text) s) ∧
      ∀ fault, parse text = .error fault →
        ∃ good bad rest cause, pieces text = good ++ bad :: rest ∧
          (∀ piece ∈ good, Admissible piece) ∧ ¬Admissible bad ∧
          fault = .misspelled (String.ofList bad) good.length cause ∧
          ∀ other, other ≠ "" → good ++ [bad] <+: pieces other →
            parse other = .error fault := by
  refine ⟨parse_ok_iff text, parse_eq_ok_iff text, ?_⟩
  intro fault failed
  obtain ⟨good, bad, rest, cause, cut, readable, misread, named⟩ :=
    parse_error_cases text fault failed
  refine ⟨good, bad, rest, cause, cut, readable,
    Fragment.not_admissible_of_error bad cause misread, named, ?_⟩
  intro other given begins
  rw [named]
  exact parse_of_first_bad other good bad cause given begins readable misread

/-- The second piece is refused for its letter, and what follows it is never looked at. -/
theorem fault_of_second_piece :
    parse "1-3,7-x,9" = .error (.misspelled "7-x" 1 .notDigits) ∧
      parse "1-3,7-x,5-3,," = .error (.misspelled "7-x" 1 .notDigits) := by
  have refused : parse "1-3,7-x,9" = .error (.misspelled "7-x" 1 .notDigits) := by
    decide +kernel
  obtain ⟨good, bad, rest, cause, cut, _, _, named, alike⟩ :=
    (reading_follows_grammar "1-3,7-x,9").2.2 _ refused
  refine ⟨refused, alike _ (by decide) ?_⟩
  have position : 1 = good.length := (Fragment.Fault.misspelled.inj named).2.1
  have begins : good ++ [bad] = (pieces "1-3,7-x,9").take 2 := by
    have two : (good ++ [bad]).length = 2 := by rw [List.length_append, ← position]; rfl
    rw [cut, List.append_cons good bad rest, ← two, List.take_left]
  rw [begins]
  decide +kernel

end Selection

end SegmentQuota
