import SegmentQuota.Proofs.Positions
import SegmentQuota.Selection

/-!
What the binary search finds. In any selection it comes to an end without looking past
the fragments, and a position that it gives lies in its window and belongs to a fragment
with the segment. That it gives one wherever there is one takes a normalized selection:
there a fragment that ends too early rules out all before it, and one that begins too
late rules out all after it, so the search finds what a scan of the window would.
-/

namespace SegmentQuota.Selection

section Normalized

variable (s : Selection) (normal : s.normalized)

include normal

theorem before_of_lt (i j : Nat) (f g : Fragment) (earlier : i < j) (at_i : s[i]? = some f)
    (at_j : s[j]? = some g) : f.Before g := by
  obtain ⟨within_i, rfl⟩ := List.getElem?_eq_some_iff.mp at_i
  obtain ⟨within_j, rfl⟩ := List.getElem?_eq_some_iff.mp at_j
  exact (normalized_iff_getElem s).mp normal i j _ _ earlier

theorem bounds_le (i j : Nat) (f g : Fragment) (ordered : i ≤ j) (at_i : s[i]? = some f)
    (at_j : s[j]? = some g) : f.first ≤ g.first ∧ f.last ≤ g.last := by
  rcases Nat.lt_or_eq_of_le ordered with earlier | rfl
  · have apart := before_of_lt s normal i j f g earlier at_i at_j
    have bounds_f := f.first_le_last
    have bounds_g := g.first_le_last
    simp only [Fragment.Before] at apart
    omega
  · cases at_i.symm.trans at_j
    exact ⟨Nat.le_refl _, Nat.le_refl _⟩

theorem position_unique (segment i j : Nat) (f g : Fragment) (at_i : s[i]? = some f)
    (at_j : s[j]? = some g) (in_f : f.contains segment) (in_g : g.contains segment) : i = j := by
  rw [Fragment.contains_iff] at in_f in_g
  by_contra different
  rcases Nat.lt_or_gt_of_ne different with earlier | later
  · have apart := before_of_lt s normal i j f g earlier at_i at_j
    simp only [Fragment.Before] at apart
    omega
  · have apart := before_of_lt s normal j i g f later at_j at_i
    simp only [Fragment.Before] at apart
    omega

end Normalized

theorem contains_of_between (f : Fragment) (segment : Nat) (ends : ¬f.last < segment)
    (begins : ¬segment < f.first) : f.contains segment :=
  (f.contains_iff segment).mpr ⟨Nat.not_lt.mp begins, Nat.not_lt.mp ends⟩

theorem contains_of_searchWindow (s : Selection) (segment low high index : Nat)
    (inside : high ≤ s.length) (found : searchWindow s segment low high inside = some index) :
    low ≤ index ∧ index < high ∧ ∃ f, s[index]? = some f ∧ f.contains segment := by
  fun_induction searchWindow s segment low high inside with
  | case1 low high inside more middle reachable f ends ih =>
      obtain ⟨from_low, below_high, holds⟩ := ih found
      exact ⟨by omega, below_high, holds⟩
  | case2 low high inside more middle reachable f ends begins ih =>
      obtain ⟨from_low, below_high, holds⟩ := ih found
      exact ⟨from_low, by omega, holds⟩
  | case3 low high inside more middle reachable f ends begins =>
      rw [← Option.some.inj found]
      refine ⟨by omega, by omega, f, List.getElem?_eq_getElem reachable, ?_⟩
      exact contains_of_between f segment ends begins
  | case4 low high inside done => cases found

/-- The window keeps the position of the segment until the middle is at it. -/
theorem searchWindow_of_contains (s : Selection) (normal : s.normalized)
    (segment low high index : Nat) (inside : high ≤ s.length) (g : Fragment)
    (at_index : s[index]? = some g) (holds : g.contains segment)
    (from_low : low ≤ index) (below_high : index < high) :
    searchWindow s segment low high inside = some index := by
  have bounds := (g.contains_iff segment).mp holds
  fun_induction searchWindow s segment low high inside with
  | case1 low high inside more middle reachable f ends ih =>
      refine ih ?_ below_high
      by_contra early
      have reaches := bounds_le s normal index middle g f (by omega) at_index
        (List.getElem?_eq_getElem reachable)
      omega
  | case2 low high inside more middle reachable f ends begins ih =>
      refine ih from_low ?_
      by_contra late
      have reached := bounds_le s normal middle index f g (by omega)
        (List.getElem?_eq_getElem reachable) at_index
      omega
  | case3 low high inside more middle reachable f ends begins =>
      exact congrArg some (position_unique s normal segment middle index f g
        (List.getElem?_eq_getElem reachable) at_index
        (contains_of_between f segment ends begins) holds)
  | case4 low high inside done => omega

/-- The search of the window ends with this answer. It looks at the middle position, where
there has to be a fragment, and goes on above or below it. -/
inductive Narrows (s : Selection) (segment : Nat) : Nat → Nat → Option Nat → Prop where
  | closed {low high : Nat} (done : ¬low < high) : Narrows s segment low high none
  | upward {low high : Nat} {f : Fragment} {answer : Option Nat} (more : low < high)
      (looked : s[low + (high - low) / 2]? = some f) (ends : f.last < segment)
      (rest : Narrows s segment (low + (high - low) / 2 + 1) high answer) :
      Narrows s segment low high answer
  | downward {low high : Nat} {f : Fragment} {answer : Option Nat} (more : low < high)
      (looked : s[low + (high - low) / 2]? = some f) (begins : segment < f.first)
      (rest : Narrows s segment low (low + (high - low) / 2) answer) :
      Narrows s segment low high answer
  | hit {low high : Nat} {f : Fragment} (more : low < high)
      (looked : s[low + (high - low) / 2]? = some f) (holds : f.contains segment) :
      Narrows s segment low high (some (low + (high - low) / 2))

theorem narrows_searchWindow (s : Selection) (segment low high : Nat)
    (inside : high ≤ s.length) :
    Narrows s segment low high (searchWindow s segment low high inside) := by
  fun_induction searchWindow s segment low high inside with
  | case1 low high inside more middle reachable f ends ih =>
      exact .upward more (List.getElem?_eq_getElem reachable) ends ih
  | case2 low high inside more middle reachable f ends begins ih =>
      exact .downward more (List.getElem?_eq_getElem reachable) begins ih
  | case3 low high inside more middle reachable f ends begins =>
      apply Narrows.hit more (List.getElem?_eq_getElem reachable)
      exact contains_of_between f segment ends begins
  | case4 low high inside done => exact .closed done

theorem searchWindow_of_narrows {s : Selection} {segment low high : Nat} {answer : Option Nat}
    (run : Narrows s segment low high answer) (inside : high ≤ s.length) :
    searchWindow s segment low high inside = answer := by
  induction run with
  | closed done => rw [searchWindow, dif_neg done]
  | upward more looked ends rest ih =>
      obtain ⟨reachable, rfl⟩ := List.getElem?_eq_some_iff.mp looked
      rw [searchWindow, dif_pos more, if_pos ends]
      exact ih inside
  | @downward low high f answer more looked begins rest ih =>
      obtain ⟨reachable, rfl⟩ := List.getElem?_eq_some_iff.mp looked
      have bounds := Fragment.first_le_last s[low + (high - low) / 2]
      rw [searchWindow, dif_pos more, if_neg (by omega), if_pos begins]
      exact ih (Nat.le_of_lt reachable)
  | @hit low high f more looked holds =>
      obtain ⟨reachable, rfl⟩ := List.getElem?_eq_some_iff.mp looked
      have bounds := (Fragment.contains_iff _ segment).mp holds
      rw [searchWindow, dif_pos more, if_neg (by omega), if_neg (by omega)]

def FoundAt (s : Selection) (segment start stop index : Nat) : Prop :=
  start ≤ index ∧ index < min stop s.length ∧ ∃ f, s[index]? = some f ∧ f.contains segment

theorem foundAt_of_find (s : Selection) (segment start stop index : Nat)
    (found : s.find? segment start stop = some index) :
    s.FoundAt segment start stop index :=
  contains_of_searchWindow s segment start _ index _ found

theorem find_eq_some_iff (s : Selection) (normal : s.normalized)
    (segment start stop index : Nat) :
    s.find? segment start stop = some index ↔ s.FoundAt segment start stop index := by
  constructor
  · exact foundAt_of_find s segment start stop index
  · rintro ⟨from_start, before_stop, f, at_index, holds⟩
    exact searchWindow_of_contains s normal segment start _ index _ f at_index holds
      from_start before_stop

theorem find_eq_none_iff (s : Selection) (normal : s.normalized) (segment start stop : Nat) :
    s.find? segment start stop = none ↔ ∀ index, ¬s.FoundAt segment start stop index := by
  simp only [Option.eq_none_iff_forall_ne_some, ne_eq, find_eq_some_iff s normal]

/-- Over the whole of a normalized selection the search succeeds just for what it holds. -/
theorem find_isSome_iff_holds (s : Selection) (normal : s.normalized) (segment : Nat) :
    (s.find? segment 0 s.length).isSome ↔ s.Holds segment := by
  simp only [Option.isSome_iff_exists, find_eq_some_iff s normal]
  constructor
  · rintro ⟨index, _, _, f, at_index, holds⟩
    exact ⟨f, List.mem_of_getElem? at_index, holds⟩
  · rintro ⟨f, member, holds⟩
    obtain ⟨index, within, at_index⟩ := List.getElem_of_mem member
    refine ⟨index, Nat.zero_le index, by rwa [Nat.min_self], f, ?_, holds⟩
    rw [List.getElem?_eq_getElem within, at_index]

/-- The search of any selection ends with its answer, each look on the way meeting a
fragment, and a position that it answers with is one where the segment is found. In a
normalized selection it answers just so wherever a scan of the window would: there is no
second such position, and no answer means that there is none at all. -/
theorem search_agrees_with_scan (s : Selection) (segment start stop : Nat) :
    (∀ answer, Narrows s segment start (min stop s.length) answer ↔
        s.find? segment start stop = answer) ∧
      (∀ index, s.find? segment start stop = some index →
        s.FoundAt segment start stop index) ∧
      (s.normalized →
        (∀ index, s.find? segment start stop = some index ↔
          s.FoundAt segment start stop index) ∧
        (∀ i j, s.FoundAt segment start stop i → s.FoundAt segment start stop j → i = j) ∧
        (s.find? segment start stop = none ↔
          ∀ index, ¬s.FoundAt segment start stop index)) := by
  refine ⟨fun answer => ?_, foundAt_of_find s segment start stop, fun normal => ⟨?_, ?_, ?_⟩⟩
  · constructor
    · intro run
      exact searchWindow_of_narrows run (Nat.min_le_right stop s.length)
    · rintro rfl
      exact narrows_searchWindow s segment start _ (Nat.min_le_right stop s.length)
  · exact find_eq_some_iff s normal segment start stop
  · rintro i j ⟨_, _, f, at_i, in_f⟩ ⟨_, _, g, at_j, in_g⟩
    exact position_unique s normal segment i j f g at_i at_j in_f in_g
  · exact find_eq_none_iff s normal segment start stop

/-- The window begins at the second fragment and goes past the last. The segment that is
found ends the numbering; the other one lies in the gap. -/
theorem last_segment_found_past_the_end :
    find? [.fromTo 1 4, .fromTo 5 5, .fromTo 7 18446744073709551615]
        18446744073709551615 1 100 = some 2 ∧
      ∀ index, ¬FoundAt [.fromTo 1 4, .fromTo 5 5, .fromTo 7 18446744073709551615]
        6 0 100 index := by
  have scanned (segment start : Nat) := (search_agrees_with_scan
    [.fromTo 1 4, .fromTo 5 5, .fromTo 7 18446744073709551615] segment start 100).2.2 (by decide)
  exact ⟨((scanned 18446744073709551615 1).1 2).mpr ⟨by decide, by decide, _, rfl, by decide⟩,
    (scanned 6 0).2.2.mp (by decide +kernel)⟩

end SegmentQuota.Selection
