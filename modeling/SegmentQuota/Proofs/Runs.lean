import SegmentQuota.Proofs.Gaps
import SegmentQuota.Selection

/-!
Selections gathered from segment numbers. Whatever the order of the numbers, just these
segments are held, and only a zero among them is refused. From ascending numbers come
runs with a gap before each next one, so gathering the segments of a normalized selection
anew gives the one form with gaps of what it holds.
-/

namespace SegmentQuota

namespace Fragment

theorem single_eq_ok_iff (segment : Nat) (f : Fragment) :
    single segment = .ok f ↔ f.first = segment ∧ f.last = segment := by
  obtain ⟨first, last, first_pos, ordered, bounded⟩ := f
  simp only [single, ofBounds, fromTo]
  split
  · simp [eq_comm]
  · simp only [reduceCtorEq, false_iff]
    omega

theorem contains_of_single {segment : Nat} {f : Fragment} (alone : single segment = .ok f)
    (other : Nat) : f.contains other ↔ other = segment := by
  obtain ⟨begins, ends⟩ := (single_eq_ok_iff segment f).mp alone
  rw [contains_iff]
  omega

theorem single_eq_error_iff (segment : Nat) (bounded : segment ≤ Count.largest)
    (fault : Fault) :
    single segment = .error fault ↔ segment = 0 ∧ fault = .noSuchRange 0 0 := by
  rw [single, ofBounds]
  split
  next proper => simp [Nat.ne_of_gt proper.1]
  next improper =>
    have zero : segment = 0 := by omega
    simp [zero, eq_comm]

theorem contains_extend (f : Fragment) (room : f.last < Count.largest) (segment : Nat) :
    (f.extend room).contains segment ↔ f.contains segment ∨ segment = f.last + 1 := by
  have ordered := f.first_le_last
  simp only [contains_iff, extend]
  omega

end Fragment

namespace Selection

theorem gather_eq_error_iff (run : Fragment) (rest : List Nat)
    (bounded : ∀ segment ∈ rest, segment ≤ Count.largest) (fault : Fragment.Fault) :
    gather run rest = .error fault ↔ 0 ∈ rest ∧ fault = .noSuchRange 0 0 := by
  fun_induction gather run rest with
  | case1 run => simp
  | case2 run segment rest inside ih =>
      have positive := Nat.lt_of_lt_of_le run.first_pos ((run.contains_iff segment).mp inside).1
      rw [ih (List.forall_mem_of_forall_mem_cons bounded)]
      simp [Nat.ne_of_lt positive]
  | case3 run segment rest outside next ih =>
      rw [ih (List.forall_mem_of_forall_mem_cons bounded)]
      simp [next.1]
  | case4 run segment rest outside apart refusal refused =>
      obtain ⟨rfl, rfl⟩ :=
        (Fragment.single_eq_error_iff segment (bounded segment List.mem_cons_self) _).mp refused
      simp [eq_comm]
  | case5 run segment rest outside apart fresh alone refusal refused ih =>
      obtain ⟨rfl, _⟩ := (Fragment.single_eq_ok_iff segment fresh).mp alone
      rw [← refused, ih (List.forall_mem_of_forall_mem_cons bounded)]
      simp [Nat.ne_of_lt fresh.first_pos]
  | case6 run segment rest outside apart fresh alone later gathered ih =>
      obtain ⟨rfl, _⟩ := (Fragment.single_eq_ok_iff segment fresh).mp alone
      have kept := ih (List.forall_mem_of_forall_mem_cons bounded)
      rw [gathered] at kept
      simp [Nat.ne_of_lt fresh.first_pos, ← kept]

theorem holds_of_gather (run : Fragment) (rest : List Nat) (s : Selection)
    (gathered : gather run rest = .ok s) (segment : Nat) :
    s.Holds segment ↔ run.contains segment ∨ segment ∈ rest := by
  fun_induction gather run rest generalizing s with
  | case1 run =>
      cases gathered
      simp [Holds]
  | case2 run next rest inside ih =>
      rw [ih s gathered, List.mem_cons]
      constructor
      · exact Or.imp_right Or.inr
      · rintro (within | rfl | later)
        · exact Or.inl within
        · exact Or.inl inside
        · exact Or.inr later
  | case3 run next rest outside follows ih =>
      rw [ih s gathered, Fragment.contains_extend, ← follows.1, List.mem_cons, or_assoc]
  | case4 run next rest outside apart fault refused => cases gathered
  | case5 run next rest outside apart fresh alone fault refused ih => cases gathered
  | case6 run next rest outside apart fresh alone later collected ih =>
      cases gathered
      rw [holds_cons, ih later collected, List.mem_cons, Fragment.contains_of_single alone]

-- Later numbers only lengthen the run that was begun.
theorem head_of_gather (run : Fragment) (rest : List Nat) (s : Selection)
    (gathered : gather run rest = .ok s) : ∃ f later, s = f :: later ∧ f.first = run.first := by
  fun_induction gather run rest generalizing s with
  | case1 run =>
      cases gathered
      exact ⟨run, [], rfl, rfl⟩
  | case2 run next rest inside ih => exact ih s gathered
  | case3 run next rest outside follows ih => exact ih s gathered
  | case4 run next rest outside apart fault refused => cases gathered
  | case5 run next rest outside apart fresh alone fault refused ih => cases gathered
  | case6 run next rest outside apart fresh alone later collected ih =>
      cases gathered
      exact ⟨run, later, rfl, rfl⟩

-- In ascending order no number lies before the end of the run that is being gathered.
theorem spaced_of_gather (run : Fragment) (rest : List Nat) (s : Selection)
    (bounded : ∀ segment ∈ rest, segment ≤ Count.largest)
    (ascending : rest.Pairwise (· ≤ ·)) (past : ∀ segment ∈ rest, run.last ≤ segment)
    (gathered : gather run rest = .ok s) : s.Spaced := by
  fun_induction gather run rest generalizing s with
  | case1 run =>
      cases gathered
      exact List.isChain_singleton run
  | case2 run next rest inside ih =>
      exact ih s (List.forall_mem_of_forall_mem_cons bounded) (List.pairwise_cons.mp ascending).2
        (List.forall_mem_of_forall_mem_cons past) gathered
  | case3 run next rest outside follows ih =>
      obtain ⟨later, ascending_rest⟩ := List.pairwise_cons.mp ascending
      refine ih s (List.forall_mem_of_forall_mem_cons bounded) ascending_rest ?_ gathered
      rw [follows.1] at later
      exact later
  | case4 run next rest outside apart fault refused => cases gathered
  | case5 run next rest outside apart fresh alone fault refused ih => cases gathered
  | case6 run next rest outside apart fresh alone later collected ih =>
      cases gathered
      obtain ⟨begins, ends⟩ := (Fragment.single_eq_ok_iff next fresh).mp alone
      obtain ⟨after, ascending_rest⟩ := List.pairwise_cons.mp ascending
      have spaced := ih later (List.forall_mem_of_forall_mem_cons bounded) ascending_rest
        (by rwa [ends]) collected
      obtain ⟨f, others, rfl, same⟩ := head_of_gather fresh rest later collected
      refine List.isChain_cons_cons.mpr ⟨?_, spaced⟩
      -- Had `next` followed the run directly, there would have been room to extend it.
      have reached := past next List.mem_cons_self
      have numbered := bounded next List.mem_cons_self
      have ordered := run.first_le_last
      rw [Fragment.contains_iff] at outside
      simp only [Fragment.Clears]
      omega

theorem ofSegments_eq_error_iff (numbers : List Nat)
    (bounded : ∀ segment ∈ numbers, segment ≤ Count.largest) (fault : Fragment.Fault) :
    ofSegments numbers = .error fault ↔ 0 ∈ numbers ∧ fault = .noSuchRange 0 0 := by
  cases numbers with
  | nil => simp [ofSegments]
  | cons segment rest =>
      have numbered := bounded segment List.mem_cons_self
      rw [ofSegments]
      cases alone : Fragment.single segment with
      | error refusal =>
          obtain ⟨rfl, rfl⟩ := (Fragment.single_eq_error_iff segment numbered refusal).mp alone
          simp [eq_comm]
      | ok run =>
          obtain ⟨rfl, _⟩ := (Fragment.single_eq_ok_iff segment run).mp alone
          simp only [gather_eq_error_iff run rest (List.forall_mem_of_forall_mem_cons bounded)]
          simp [Nat.ne_of_lt run.first_pos]

theorem ofSegments_cons_eq_ok_iff (segment : Nat) (rest : List Nat) (s : Selection) :
    ofSegments (segment :: rest) = .ok s ↔
      ∃ run, Fragment.single segment = .ok run ∧ gather run rest = .ok s := by
  rw [ofSegments]
  cases Fragment.single segment <;> simp

theorem holds_of_ofSegments (numbers : List Nat) (s : Selection)
    (gathered : ofSegments numbers = .ok s) (segment : Nat) :
    s.Holds segment ↔ segment ∈ numbers := by
  cases numbers with
  | nil =>
      cases gathered
      simp [Holds]
  | cons next rest =>
      obtain ⟨run, alone, gathered⟩ := (ofSegments_cons_eq_ok_iff next rest s).mp gathered
      rw [holds_of_gather run rest s gathered, List.mem_cons, Fragment.contains_of_single alone]

theorem positions_of_ofSegments (numbers : List Nat) (s : Selection)
    (gathered : ofSegments numbers = .ok s) : positions s = numbers.toFinset := by
  ext segment
  rw [mem_positions, holds_of_ofSegments numbers s gathered, List.mem_toFinset]

theorem spaced_of_ofSegments (numbers : List Nat) (s : Selection)
    (bounded : ∀ segment ∈ numbers, segment ≤ Count.largest)
    (ascending : numbers.Pairwise (· ≤ ·)) (gathered : ofSegments numbers = .ok s) :
    s.Spaced := by
  cases numbers with
  | nil =>
      cases gathered
      exact List.isChain_nil
  | cons segment rest =>
      obtain ⟨run, alone, gathered⟩ := (ofSegments_cons_eq_ok_iff segment rest s).mp gathered
      obtain ⟨_, ends⟩ := (Fragment.single_eq_ok_iff segment run).mp alone
      obtain ⟨after, ascending_rest⟩ := List.pairwise_cons.mp ascending
      exact spaced_of_gather run rest s (List.forall_mem_of_forall_mem_cons bounded)
        ascending_rest (by rwa [ends]) gathered

theorem exists_ofSegments (numbers : List Nat)
    (bounded : ∀ segment ∈ numbers, segment ≤ Count.largest) (positive : 0 ∉ numbers) :
    ∃ s, ofSegments numbers = .ok s := by
  cases gathered : ofSegments numbers with
  | ok s => exact ⟨s, rfl⟩
  | error fault =>
      have zero := ((ofSegments_eq_error_iff numbers bounded fault).mp gathered).1
      exact absurd zero positive

theorem bounds_of_mem_segments (s : Selection) (segment : Nat) (member : segment ∈ s.segments) :
    1 ≤ segment ∧ segment ≤ Count.largest := by
  have held := (mem_positions s segment).mpr ((mem_segments s segment).mp member)
  exact Finset.mem_Icc.mp (positions_subset s held)

theorem segments_ascending (s : Selection) (normal : s.normalized) :
    s.segments.Pairwise (· ≤ ·) := by
  rw [segments, List.pairwise_flatMap]
  refine ⟨fun f _ => List.pairwise_le_range' 1, ?_⟩
  refine ((normalized_iff_pairwise s).mp normal).imp fun {f g} early first in_f second in_g => ?_
  rw [Fragment.mem_segments, Fragment.contains_iff] at in_f in_g
  simp only [Fragment.Before] at early
  omega

theorem exists_spaced (s : Selection) (normal : s.normalized) :
    ∃ t, ofSegments s.segments = .ok t ∧ t.Spaced ∧ positions t = positions s := by
  have bounded : ∀ segment ∈ s.segments, segment ≤ Count.largest :=
    fun segment member => (bounds_of_mem_segments s segment member).2
  have positive : 0 ∉ s.segments :=
    fun member => Nat.not_lt_zero 0 (bounds_of_mem_segments s 0 member).1
  obtain ⟨t, gathered⟩ := exists_ofSegments s.segments bounded positive
  have spaced := spaced_of_ofSegments s.segments t bounded (segments_ascending s normal) gathered
  exact ⟨t, gathered, spaced, positions_of_ofSegments s.segments t gathered⟩

/-- Gathering numbers fails for a zero among them and for nothing else, and gives a
selection of just those numbers. Ascending ones become the fewest fragments there can be,
each with a gap after it. So a normalized selection gathered anew from its segments is
told apart from others by what it holds only, and stays as it was if none of its
fragments touch. -/
theorem gathering_is_canonical (numbers : List Nat)
    (bounded : ∀ segment ∈ numbers, segment ≤ Count.largest) (a b : Selection)
    (normal_a : a.normalized) (normal_b : b.normalized) :
    (ofSegments numbers = .error (.noSuchRange 0 0) ↔ 0 ∈ numbers) ∧
      (0 ∉ numbers → ∃ s, ofSegments numbers = .ok s ∧ positions s = numbers.toFinset ∧
        (numbers.Pairwise (· ≤ ·) → s.normalized ∧
          (s.IsChain fun f g => f.last + 1 < g.first) ∧
          ∀ t, positions t = positions s → s.length ≤ t.length)) ∧
      ∃ c d, ofSegments a.segments = .ok c ∧ ofSegments b.segments = .ok d ∧
        (c = d ↔ positions a = positions b) ∧
        (c = a ↔ a.IsChain fun f g => f.last + 1 ≠ g.first) := by
  obtain ⟨c, gathered_a, spaced_c, same_a⟩ := exists_spaced a normal_a
  obtain ⟨d, gathered_b, spaced_d, same_b⟩ := exists_spaced b normal_b
  refine ⟨?_, fun positive => ?_, c, d, gathered_a, gathered_b, ?_, ?_⟩
  · rw [ofSegments_eq_error_iff numbers bounded]
    exact and_iff_left rfl
  · obtain ⟨s, gathered⟩ := exists_ofSegments numbers bounded positive
    refine ⟨s, gathered, positions_of_ofSegments numbers s gathered, fun ascending => ?_⟩
    have spaced := spaced_of_ofSegments numbers s bounded ascending gathered
    exact ⟨normalized_of_spaced s spaced, spaced, length_le_of_spaced s spaced⟩
  · rw [← same_a, ← same_b]
    exact ⟨congrArg positions, eq_of_positions_eq c d spaced_c spaced_d⟩
  · rw [← spaced_iff_of_normalized a normal_a]
    constructor
    · rintro rfl
      exact spaced_c
    · intro spaced_a
      exact eq_of_positions_eq c a spaced_c spaced_a same_a

/-- Numbers given twice count once, and the last segment there is has no number after it.
Of the two selections only the first has fragments that touch. -/
theorem runs_up_to_the_last_segment :
    (∃ s, ofSegments [1, 2, 2, 4, 18446744073709551614, 18446744073709551615,
          18446744073709551615] = .ok s ∧
        s.length ≤ [Fragment.fromTo 1 2, .fromTo 4 4,
          .fromTo 18446744073709551614 18446744073709551615].length) ∧
      ofSegments [3, 0] = .error (.noSuchRange 0 0) ∧
      ∃ c, ofSegments (segments [.fromTo 1 4, .fromTo 5 6]) = .ok c ∧
        ofSegments (segments [.fromTo 1 6]) = .ok c ∧ c ≠ [.fromTo 1 4, .fromTo 5 6] := by
  obtain ⟨_, gathers, c, d, from_c, from_d, same, touching⟩ := gathering_is_canonical
    [1, 2, 2, 4, 18446744073709551614, 18446744073709551615, 18446744073709551615] (by decide)
    [.fromTo 1 4, .fromTo 5 6] [.fromTo 1 6] (by decide) (by decide)
  obtain ⟨refuses, _⟩ := gathering_is_canonical [3, 0] (by decide) [] [] (by decide) (by decide)
  obtain ⟨s, gathered, held, fewest⟩ := gathers (by decide)
  refine ⟨⟨s, gathered, (fewest (by decide)).2.2 _ ?_⟩, refuses.mpr (by decide), c, from_c, ?_, ?_⟩
  · rw [held]
    decide
  · rw [from_d, same.mpr (by decide)]
  · exact fun untouched => absurd (touching.mp untouched) (by decide)

end Selection

end SegmentQuota
