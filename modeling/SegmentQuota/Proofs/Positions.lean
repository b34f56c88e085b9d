import Mathlib
import SegmentQuota.Number
import SegmentQuota.Proofs.Overlap

/-!
Counting the segments that a selection holds. A sum that saturates after each term
is the same as the whole sum saturated once, so the order and the grouping of the
terms do not matter, and a running sum never goes down again.
-/

namespace SegmentQuota.Count

theorem foldl_add_eq_min (counts : List Nat) (start : Nat) (bounded : start ≤ largest) :
    counts.foldl add start = min (start + counts.sum) largest := by
  induction counts generalizing start with
  | nil => exact (Nat.min_eq_left bounded).symm
  | cons count rest ih =>
      rw [List.foldl_cons, ih (add start count) (add_le start count), List.sum_cons]
      simp only [add]
      omega

theorem sum_eq_min (counts : List Nat) : sum counts = min counts.sum largest := by
  simpa [sum] using foldl_add_eq_min counts 0 (Nat.zero_le _)

theorem le_foldl_add (counts : List Nat) (start : Nat) (bounded : start ≤ largest) :
    start ≤ counts.foldl add start := by
  rw [foldl_add_eq_min counts start bounded]
  exact Nat.le_min.mpr ⟨Nat.le_add_right _ _, bounded⟩

end SegmentQuota.Count

/-!
The segments of a selection are a finite set. Counting the fragments one by one
never gives less than counting the set, and gives exactly that for a normalized
selection, in which every fragment ends before each later one begins.
-/

namespace SegmentQuota.Selection

def positions (s : Selection) : Finset Nat := s.segments.toFinset

/-- The sizes of the fragments added up without a largest count. -/
def sizes (s : Selection) : Nat := (s.map Fragment.size).sum

@[simp]
theorem mem_positions (s : Selection) (segment : Nat) :
    segment ∈ positions s ↔ s.Holds segment := by
  rw [positions, List.mem_toFinset, mem_segments]

@[simp]
theorem positions_nil : positions [] = ∅ := rfl

theorem positions_cons (f : Fragment) (s : Selection) :
    positions (f :: s) = Finset.Icc f.first f.last ∪ positions s := by
  rw [positions, segments, List.flatMap_cons, List.toFinset_append, f.segments_toFinset]
  rfl

theorem positions_append (s t : Selection) : positions (s ++ t) = positions s ∪ positions t := by
  rw [positions, segments, List.flatMap_append, List.toFinset_append]
  rfl

theorem sizes_cons (f : Fragment) (s : Selection) : sizes (f :: s) = f.size + sizes s := by
  simp only [sizes, List.map_cons, List.sum_cons]

theorem total_eq_min (s : Selection) : s.total = min s.sizes Count.largest :=
  Count.sum_eq_min _

theorem positions_subset (s : Selection) : positions s ⊆ Finset.Icc 1 Count.largest := by
  intro segment member
  obtain ⟨f, _, inside⟩ := (mem_positions s segment).mp member
  rw [Fragment.contains_iff] at inside
  exact Finset.mem_Icc.mpr
    ⟨Nat.le_trans f.first_pos inside.1, Nat.le_trans inside.2 f.last_le⟩

theorem card_positions_le_largest (s : Selection) : (positions s).card ≤ Count.largest := by
  simpa using Finset.card_le_card (positions_subset s)

theorem card_union_le_largest (s t : Selection) :
    (positions s ∪ positions t).card ≤ Count.largest := by
  rw [← positions_append]
  exact card_positions_le_largest (s ++ t)

/-- The sizes add up to the length of the list of all segments, repetitions included. -/
theorem sizes_eq_length (s : Selection) : s.sizes = s.segments.length := by
  simp only [sizes, segments, List.length_flatMap, Fragment.length_segments]

theorem card_positions_le_sizes (s : Selection) : (positions s).card ≤ s.sizes := by
  rw [sizes_eq_length]
  exact s.segments.toFinset_card_le

/-- Counted fragment by fragment, no segment counts twice just when no two fragments overlap. -/
theorem card_positions_eq_sizes_iff (s : Selection) :
    (positions s).card = s.sizes ↔ s.Pairwise fun f g => ¬f.Overlaps g := by
  calc (positions s).card = s.sizes
      ↔ s.segments.Nodup := by
        rw [sizes_eq_length]
        exact Multiset.toFinset_card_eq_card_iff_nodup
    _ ↔ s.Pairwise fun f g => f.segments.Disjoint g.segments := by
        rw [segments, List.nodup_flatMap]
        exact and_iff_right fun f _ => f.nodup_segments
    _ ↔ s.Pairwise fun f g => ¬f.Overlaps g :=
        List.Pairwise.iff fun f g => f.disjoint_segments_iff g

theorem normalized_iff_isChain (s : Selection) :
    s.normalized ↔ s.IsChain Fragment.Before := by
  induction s with
  | nil => simp [normalized]
  | cons f rest ih =>
      cases rest with
      | nil => simp [normalized]
      | cons g rest =>
          rw [normalized, Bool.and_eq_true, decide_eq_true_eq, ih, List.isChain_cons_cons]

/-- Comparing neighbours is enough to compare every fragment with every later one, since no
fragment between them is empty. -/
theorem normalized_iff_pairwise (s : Selection) :
    s.normalized ↔ s.Pairwise Fragment.Before :=
  (normalized_iff_isChain s).trans List.isChain_iff_pairwise

theorem normalized_iff_getElem (s : Selection) :
    s.normalized ↔ ∀ (i j : Nat) (_ : i < s.length) (_ : j < s.length), i < j →
      s[i].Before s[j] :=
  (normalized_iff_pairwise s).trans List.pairwise_iff_getElem

theorem normalized_cons (f : Fragment) (s : Selection) :
    normalized (f :: s) ↔ (∀ g ∈ s, f.Before g) ∧ s.normalized := by
  rw [normalized_iff_pairwise, normalized_iff_pairwise, List.pairwise_cons]

theorem before_all (f g : Fragment) (s : Selection) (early : f.Before g)
    (normal : normalized (g :: s)) : ∀ h ∈ g :: s, f.Before h := by
  obtain ⟨later, _⟩ := (normalized_cons g s).mp normal
  exact List.forall_mem_cons.mpr ⟨early, fun h member => early.trans (later h member)⟩

/-- A stretch of segments is free of a selection just when each fragment lies wholly
after it or wholly before it. -/
theorem disjoint_positions_iff (low high : Nat) (s : Selection) (ordered : low ≤ high) :
    Disjoint (Finset.Icc low high) (positions s) ↔
      ∀ f ∈ s, high < f.first ∨ f.last < low := by
  constructor
  · intro apart f present
    have bounds := f.first_le_last
    by_contra meets
    have within : max low f.first ∈ Finset.Icc low high := Finset.mem_Icc.mpr (by omega)
    have member : max low f.first ∈ positions s := by
      rw [mem_positions]
      exact ⟨f, present, (f.contains_iff _).mpr (by omega)⟩
    exact Finset.disjoint_left.mp apart within member
  · intro apart
    rw [Finset.disjoint_left]
    intro segment within member
    obtain ⟨f, present, inside⟩ := (mem_positions s segment).mp member
    rw [Fragment.contains_iff] at inside
    rw [Finset.mem_Icc] at within
    have away := apart f present
    omega

theorem disjoint_positions_of_before (f : Fragment) (s : Selection)
    (early : ∀ g ∈ s, f.Before g) : Disjoint (Finset.Icc f.first f.last) (positions s) := by
  rw [disjoint_positions_iff _ _ _ f.first_le_last]
  exact fun g member => Or.inl (early g member)

theorem card_positions_of_normalized (s : Selection) (normal : s.normalized) :
    (positions s).card = s.sizes := by
  rw [card_positions_eq_sizes_iff]
  exact ((normalized_iff_pairwise s).mp normal).imp Fragment.Before.not_overlaps

/-- The total of a normalized selection is the number of its segments, and never saturates. -/
theorem total_of_normalized (s : Selection) (normal : s.normalized) :
    s.total = (positions s).card := by
  have bounded := card_positions_le_largest s
  rw [card_positions_of_normalized s normal] at bounded ⊢
  rw [total_eq_min, Nat.min_eq_left bounded]

theorem total_eq_sizes_of_normalized (s : Selection) (normal : s.normalized) :
    s.total = s.sizes := by
  rw [total_of_normalized s normal, card_positions_of_normalized s normal]

/-- Stopping at the largest count hides a segment counted twice only where there is no
segment left that could be missing. -/
theorem total_eq_card_iff (s : Selection) :
    s.total = (positions s).card ↔
      (s.Pairwise fun f g => ¬f.Overlaps g) ∨ (positions s).card = Count.largest := by
  have enough := card_positions_le_sizes s
  have within := card_positions_le_largest s
  rw [← card_positions_eq_sizes_iff, total_eq_min]
  omega

theorem card_positions_le_total (s : Selection) : (positions s).card ≤ s.total := by
  rw [total_eq_min]
  exact Nat.le_min.mpr ⟨card_positions_le_sizes s, card_positions_le_largest s⟩

/-- What the total of a selection is worth, in whatever order its fragments stand: never less
than the segments held, and exactly as many unless two fragments share one of them while some
segment is held by none. Being normalized, though asked of neighbours only, is a matter of all
pairs of fragments; where it holds the sum is never cut off and counts the segments. -/
theorem total_exact_on_disjoint (s : Selection) :
    (positions s).card ≤ s.total ∧
      (s.total = (positions s).card ↔
        (s.Pairwise fun f g => ∀ segment, ¬(f.contains segment ∧ g.contains segment)) ∨
          (positions s).card = Count.largest) ∧
      (s.normalized ↔ ∀ (i j : Nat) (_ : i < s.length) (_ : j < s.length), i < j →
        s[i].last < s[j].first) ∧
      (s.normalized →
        s.total = (s.map Fragment.size).sum ∧ s.total = (positions s).card) := by
  refine ⟨card_positions_le_total s, ?_, ?_, ?_⟩
  · simp only [total_eq_card_iff, Fragment.overlaps_iff_shared, not_exists]
  · exact normalized_iff_getElem s
  · intro normal
    exact ⟨total_eq_sizes_of_normalized s normal, total_of_normalized s normal⟩

/-- Two touching fragments that hold every segment there is bring the sum up to the largest
count, and it is not cut off there. -/
theorem touching_halves_reach_largest :
    (positions [.fromTo 1 9223372036854775807,
      .fromTo 9223372036854775808 18446744073709551615]).card = Count.largest := by
  have normal := (total_exact_on_disjoint [.fromTo 1 9223372036854775807,
    .fromTo 9223372036854775808 18446744073709551615]).2.2.2 (by decide)
  rw [← normal.2]
  decide

end SegmentQuota.Selection
