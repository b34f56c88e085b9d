import SegmentQuota.Command.Run
import SegmentQuota.Proofs.Intersection
import SegmentQuota.Proofs.Lookup
import SegmentQuota.Proofs.RoundTrip

/-!
Commands agree on what a text holds. For an accepted text, looking for a segment
succeeds just when the selection that was read holds it, and the size is the number of
segments that can be found. What an intersection writes is accepted in turn, because the
overlaps of two selections in order are in order and are read back as they were.
-/

namespace SegmentQuota.Command

theorem accept_eq_ok_iff (name text : String) (s : Selection) :
    accept name text = .ok s ↔ Selection.parse text = .ok s ∧ s.normalized := by
  rw [accept]
  cases Selection.parse text with
  | error fault => simp
  | ok read =>
      by_cases normal : read.normalized
      · simp only [normal, if_true, Except.ok.injEq, iff_self_and]
        rintro rfl
        exact normal
      · simp only [normal]
        constructor
        · intro refused
          cases refused
        · rintro ⟨same, ordered⟩
          cases same
          exact absurd ordered normal

/-- Whichever argument the text is given for, it is a selection in order. -/
def Accepted (text : String) : Prop := ∃ s, ∀ name, accept name text = .ok s

theorem accepted_iff (text : String) :
    Accepted text ↔ ∃ s, Selection.parse text = .ok s ∧ s.normalized := by
  simp only [Accepted, accept_eq_ok_iff, forall_const]

section

variable (packages : Packages) (surroundings : Settings.Surroundings) (named : Option String)

def Ends (command : Command) (status : Nat) : Prop :=
  ∃ output, run packages surroundings named command = .ok ⟨status, output⟩

def Finds (text : String) (segment : Nat) : Prop :=
  Ends packages surroundings named (.find text segment) 0

theorem run_intersect (textA textB : String) (a b : Selection)
    (read_a : Selection.parse textA = .ok a) (read_b : Selection.parse textB = .ok b)
    (normal_a : a.normalized) (normal_b : b.normalized) :
    run packages surroundings named (.intersect textA textB) =
      .ok (answer (Selection.inter a b).encode) := by
  have accepted_a := (accept_eq_ok_iff "a" textA a).mpr ⟨read_a, normal_a⟩
  have accepted_b := (accept_eq_ok_iff "b" textB b).mpr ⟨read_b, normal_b⟩
  rw [run_intersect_eq, accepted_a, accepted_b]
  rfl

variable (text : String) (s : Selection) (read : Selection.parse text = .ok s)
  (normal : s.normalized)

include read normal

theorem run_size :
    run packages surroundings named (.size text) = .ok (answer (toString s.total)) := by
  have accepted := (accept_eq_ok_iff "set" text s).mpr ⟨read, normal⟩
  rw [run_size_eq, accepted]
  rfl

theorem find_ends_iff (segment status : Nat) :
    Ends packages surroundings named (.find text segment) status ↔
      status = if s.Holds segment then 0 else notFoundStatus := by
  have accepted := (accept_eq_ok_iff "set" text s).mpr ⟨read, normal⟩
  have searched := s.find_isSome_iff_holds normal segment
  simp only [Ends, run_find_eq, accepted, Except.bind]
  cases found : s.find? segment 0 s.length with
  | none =>
      have absent : ¬s.Holds segment := by simpa [found] using searched
      simp [absent, eq_comm]
  | some position =>
      have holds : s.Holds segment := by simpa [found] using searched
      simp [holds, answer, eq_comm]

theorem finds_iff_holds (segment : Nat) :
    Finds packages surroundings named text segment ↔ s.Holds segment := by
  rw [Finds, find_ends_iff packages surroundings named text s read normal]
  by_cases holds : s.Holds segment
  · simp [holds]
  · simp [holds, notFoundStatus]

theorem size_counts_found :
    run packages surroundings named (.size text) =
      .ok (answer (toString
        {segment | segment ≤ Count.largest ∧
          Finds packages surroundings named text segment}.ncard)) := by
  have held :
      {segment | segment ≤ Count.largest ∧ Finds packages surroundings named text segment} =
        ↑(Selection.positions s) := by
    ext segment
    simp only [finds_iff_holds packages surroundings named text s read normal,
      ← Selection.mem_positions]
    constructor
    · exact And.right
    · intro member
      exact ⟨(Finset.mem_Icc.mp (s.positions_subset member)).2, member⟩
  rw [run_size packages surroundings named text s read normal, held, Set.ncard_coe_finset,
    s.total_of_normalized normal]

end

/-- The commands agree with one another. Two accepted texts have an intersection that is
accepted too. A segment is found in it just when it is found in both texts, and is
reported as not found otherwise; its size is the number of segments found in both, as the
size of either text is the number of segments found there. -/
theorem commands_agree (packages : Packages) (surroundings : Settings.Surroundings)
    (named : Option String) (textA textB : String) (accepted_a : Accepted textA)
    (accepted_b : Accepted textB) :
    ∃ shared, run packages surroundings named (.intersect textA textB) = .ok ⟨0, shared ++ "\n"⟩ ∧
      Accepted shared ∧
      (∀ segment,
        (Finds packages surroundings named shared segment ↔
          Finds packages surroundings named textA segment ∧
            Finds packages surroundings named textB segment) ∧
        (¬(Finds packages surroundings named textA segment ∧
            Finds packages surroundings named textB segment) →
          Ends packages surroundings named (.find shared segment) 3)) ∧
      run packages surroundings named (.size shared) =
        .ok ⟨0, toString
          {segment | segment ≤ Count.largest ∧ Finds packages surroundings named textA segment ∧
            Finds packages surroundings named textB segment}.ncard ++ "\n"⟩ ∧
      run packages surroundings named (.size textA) =
        .ok ⟨0, toString
          {segment | segment ≤ Count.largest ∧
            Finds packages surroundings named textA segment}.ncard ++ "\n"⟩ := by
  obtain ⟨a, read_a, normal_a⟩ := (accepted_iff textA).mp accepted_a
  obtain ⟨b, read_b, normal_b⟩ := (accepted_iff textB).mp accepted_b
  have read := Selection.parse_encode (Selection.inter a b)
  have normal := Selection.inter_normalized a b normal_a normal_b
  have found_in_both (segment : Nat) :
      Finds packages surroundings named (Selection.inter a b).encode segment ↔
        Finds packages surroundings named textA segment ∧
          Finds packages surroundings named textB segment := by
    rw [finds_iff_holds packages surroundings named _ _ read normal,
      finds_iff_holds packages surroundings named _ _ read_a normal_a,
      finds_iff_holds packages surroundings named _ _ read_b normal_b]
    simp only [← Selection.mem_positions, Selection.positions_inter a b normal_a normal_b,
      Finset.mem_inter]
  refine ⟨(Selection.inter a b).encode, ?_, ?_, ?_, ?_, ?_⟩
  · exact run_intersect packages surroundings named textA textB a b read_a read_b normal_a normal_b
  · exact (accepted_iff _).mpr ⟨_, read, normal⟩
  · intro segment
    refine ⟨found_in_both segment, fun missing => ?_⟩
    rw [← found_in_both, finds_iff_holds packages surroundings named _ _ read normal] at missing
    rw [find_ends_iff packages surroundings named _ _ read normal, if_neg missing]
    rfl
  · rw [size_counts_found packages surroundings named _ _ read normal]
    simp only [found_in_both]
    rfl
  · exact size_counts_found packages surroundings named textA a read_a normal_a

/-- Fragments that touch stay apart, a zero in front is not written again, and the last
segment there can be is found. -/
theorem touching_fragments_found_in_both :
    let packages : Packages := ⟨.toml, fun _ => ""⟩
    let surroundings : Settings.Surroundings :=
      ⟨"", fun _ => none, fun _ => none, .ok [], none, none, none⟩
    let textA := "1-4,5,07-18446744073709551615"
    let textB := "4-6,18446744073709551615"
    ∃ shared, run packages surroundings none (.intersect textA textB) = .ok ⟨0, shared ++ "\n"⟩ ∧
      Finds packages surroundings none shared 18446744073709551615 ∧
      Ends packages surroundings none (.find shared 6) 3 := by
  intro packages surroundings textA textB
  have read_a : Selection.parse textA =
      .ok [.fromTo 1 4, .fromTo 5 5, .fromTo 7 18446744073709551615] := by decide +kernel
  have read_b : Selection.parse textB =
      .ok [.fromTo 4 6, .fromTo 18446744073709551615 18446744073709551615] := by decide +kernel
  obtain ⟨shared, written, _, found, _⟩ := commands_agree packages surroundings none textA textB
    ((accepted_iff textA).mpr ⟨_, read_a, by decide⟩)
    ((accepted_iff textB).mpr ⟨_, read_b, by decide⟩)
  refine ⟨shared, written, (found _).1.mpr ⟨?_, ?_⟩, (found 6).2 ?_⟩
  · exact (finds_iff_holds packages surroundings none textA _ read_a (by decide) _).mpr (by decide)
  · exact (finds_iff_holds packages surroundings none textB _ read_b (by decide) _).mpr (by decide)
  · rintro ⟨found_a, _⟩
    have holds :=
      (finds_iff_holds packages surroundings none textA _ read_a (by decide) _).mp found_a
    exact absurd holds (by decide)

end SegmentQuota.Command
