import SegmentQuota.Proofs.Positions
import SegmentQuota.Selection

/-!
What the tally of two selections measures. The sweep never counts less than the
number of distinct segments, and never more than the two totals together. On
normalized selections it counts a segment twice only where one fragment overlaps
two of the other selection, since an overlapping pair is dropped as a whole and
the longer of the two is not compared again. Stopping early at a limit is safe,
because a running sum never goes down again.
-/

namespace SegmentQuota.Selection

theorem steps_nil_left (b : Selection) : steps [] b = b.map Fragment.size := by
  rw [steps]

theorem steps_nil_right (a : Selection) : steps a [] = a.map Fragment.size := by
  cases a with
  | nil => rw [steps]
  | cons f rest => rw [steps]; simp

theorem steps_before (f g : Fragment) (a b : Selection) (early : f.Before g) :
    steps (f :: a) (g :: b) = f.size :: steps a (g :: b) := by
  rw [steps, if_pos early]

theorem steps_after (f g : Fragment) (a b : Selection) (early : g.Before f) :
    steps (f :: a) (g :: b) = g.size :: steps (f :: a) b := by
  rw [steps, if_neg early.asymm, if_pos early]

theorem steps_overlap (f g : Fragment) (a b : Selection) (shared : f.Overlaps g) :
    steps (f :: a) (g :: b) = f.spanSize g :: steps a b := by
  rw [steps, if_neg shared.1, if_neg shared.2]

/-- The shortcut for an empty second selection gives what the sweep would give. -/
theorem tally_eq_sum (a b : Selection) : tally a b = Count.sum (steps a b) := by
  cases b with
  | nil => rw [steps_nil_right]; rfl
  | cons g rest => rfl

/-- The running sum passes the limit at some step just when it has passed it at the end. -/
theorem passes_eq (limit used : Nat) (counts : List Nat) (bounded : used ≤ Count.largest)
    (within : used ≤ limit) :
    passes limit used counts = decide (limit < counts.foldl Count.add used) := by
  induction counts generalizing used with
  | nil => simp [passes, Nat.not_lt.mpr within]
  | cons count rest ih =>
      have next_bounded := Count.add_le used count
      rw [passes, List.foldl_cons]
      by_cases passed : limit < Count.add used count
      · have final : limit < rest.foldl Count.add (Count.add used count) :=
          Nat.lt_of_lt_of_le passed (Count.le_foldl_add rest _ next_bounded)
        simp [passed, final]
      · simpa [passed] using ih (Count.add used count) next_bounded (Nat.not_lt.mp passed)

theorem exceeds_eq (a b : Selection) (limit : Nat) :
    exceeds a b limit = decide (limit < tally a b) := by
  rw [tally_eq_sum]
  exact passes_eq limit 0 (steps a b) (Nat.zero_le _) (Nat.zero_le _)

theorem tally_eq_min (a b : Selection) : tally a b = min (steps a b).sum Count.largest := by
  rw [tally_eq_sum, Count.sum_eq_min]

/-- Every segment of either selection lies in a stretch that some step counts. -/
theorem card_union_le_sum_steps (a b : Selection) :
    (positions a ∪ positions b).card ≤ (steps a b).sum := by
  induction a, b using sweep_induction with
  | left_done b =>
      rw [steps_nil_left, positions_nil, Finset.empty_union]
      exact card_positions_le_sizes b
  | right_done a =>
      rw [steps_nil_right, positions_nil, Finset.union_empty]
      exact card_positions_le_sizes a
  | before f a g b early ih =>
      rw [steps_before f g a b early, List.sum_cons, positions_cons, Finset.union_assoc,
        ← f.card_Icc]
      exact Nat.le_trans (Finset.card_union_le _ _) (Nat.add_le_add_left ih _)
  | after f a g b early ih =>
      rw [steps_after f g a b early, List.sum_cons, positions_cons g, Finset.union_left_comm,
        ← g.card_Icc]
      exact Nat.le_trans (Finset.card_union_le _ _) (Nat.add_le_add_left ih _)
  | overlap f a g b shared _ _ ih =>
      rw [steps_overlap f g a b shared, List.sum_cons, positions_cons f, positions_cons g,
        Finset.union_union_union_comm, f.Icc_union_Icc g shared, ← f.card_span]
      exact Nat.le_trans (Finset.card_union_le _ _) (Nat.add_le_add_left ih _)

theorem sum_steps_le_sizes (a b : Selection) : (steps a b).sum ≤ a.sizes + b.sizes := by
  induction a, b using sweep_induction with
  | left_done b =>
      rw [steps_nil_left]
      exact Nat.le_add_left _ _
  | right_done a =>
      rw [steps_nil_right]
      exact Nat.le_add_right _ _
  | before f a g b early ih =>
      rw [steps_before f g a b early, List.sum_cons, sizes_cons f]
      omega
  | after f a g b early ih =>
      rw [steps_after f g a b early, List.sum_cons, sizes_cons g]
      omega
  | overlap f a g b shared _ _ ih =>
      have spanned := f.spanSize_le g shared
      rw [steps_overlap f g a b shared, List.sum_cons, sizes_cons f, sizes_cons g]
      omega

def MeetsAtMostOne (a b : Selection) : Prop :=
  ∀ f ∈ a, b.countP (fun g => decide (f.Overlaps g)) ≤ 1

instance (a b : Selection) : Decidable (MeetsAtMostOne a b) :=
  inferInstanceAs (Decidable (∀ f ∈ a, _))

/-- Overlapping fragments come in pairs: neither selection has a fragment that
overlaps two of the other. -/
def Paired (a b : Selection) : Prop := MeetsAtMostOne a b ∧ MeetsAtMostOne b a

theorem paired_comm (a b : Selection) : Paired a b ↔ Paired b a := And.comm

theorem meets_cons_left (f : Fragment) (a b : Selection) :
    MeetsAtMostOne (f :: a) b ↔
      b.countP (fun g => decide (f.Overlaps g)) ≤ 1 ∧ MeetsAtMostOne a b := by
  simp only [MeetsAtMostOne, List.forall_mem_cons]

theorem meets_cons_right_of_apart (f : Fragment) (a b : Selection)
    (apart : ∀ g ∈ b, ¬f.Overlaps g) :
    MeetsAtMostOne b (f :: a) ↔ MeetsAtMostOne b a := by
  refine forall₂_congr fun g member => ?_
  have missed : ¬g.Overlaps f := fun shared => apart g member ((g.overlaps_comm f).mp shared)
  simp [missed]

theorem count_overlaps_eq_zero (f : Fragment) (b : Selection) :
    b.countP (fun g => decide (f.Overlaps g)) = 0 ↔ ∀ g ∈ b, ¬f.Overlaps g := by
  simp only [List.countP_eq_zero, decide_eq_true_eq]

theorem paired_cons_of_apart (f : Fragment) (a b : Selection) (apart : ∀ g ∈ b, ¬f.Overlaps g) :
    Paired (f :: a) b ↔ Paired a b := by
  have none := (count_overlaps_eq_zero f b).mpr apart
  rw [Paired, Paired, meets_cons_left, meets_cons_right_of_apart f a b apart, none]
  simp only [Nat.zero_le, true_and]

/-- Two overlapping fragments are a pair just when neither overlaps anything else. -/
theorem paired_cons_of_overlap (f g : Fragment) (a b : Selection) (shared : f.Overlaps g) :
    Paired (f :: a) (g :: b) ↔
      (∀ h ∈ a, ¬g.Overlaps h) ∧ (∀ h ∈ b, ¬f.Overlaps h) ∧ Paired a b := by
  have back : g.Overlaps f := (f.overlaps_comm g).mp shared
  have once_f : (g :: b).countP (fun h => decide (f.Overlaps h)) ≤ 1 ↔
      ∀ h ∈ b, ¬f.Overlaps h := by
    rw [← count_overlaps_eq_zero]
    simp [shared]
  have once_g : (f :: a).countP (fun h => decide (g.Overlaps h)) ≤ 1 ↔
      ∀ h ∈ a, ¬g.Overlaps h := by
    rw [← count_overlaps_eq_zero]
    simp [back]
  rw [Paired, Paired, meets_cons_left, meets_cons_left, once_f, once_g]
  constructor
  · rintro ⟨⟨apart_f, left⟩, apart_g, right⟩
    exact ⟨apart_g, apart_f, (meets_cons_right_of_apart g b a apart_g).mp left,
      (meets_cons_right_of_apart f a b apart_f).mp right⟩
  · rintro ⟨apart_g, apart_f, left, right⟩
    exact ⟨⟨apart_f, (meets_cons_right_of_apart g b a apart_g).mpr left⟩, apart_g,
      (meets_cons_right_of_apart f a b apart_f).mpr right⟩

/-- Around an overlapping pair at the head of two normalized selections, the
counted stretch is free of the rest just when neither fragment overlaps more. -/
theorem span_apart_iff (f g : Fragment) (a b : Selection) (shared : f.Overlaps g)
    (after_f : ∀ h ∈ a, f.Before h) (after_g : ∀ h ∈ b, g.Before h) :
    Disjoint (Finset.Icc (min f.first g.first) (max f.last g.last)) (positions a ∪ positions b) ↔
      (∀ h ∈ a, ¬g.Overlaps h) ∧ (∀ h ∈ b, ¬f.Overlaps h) := by
  have ordered := f.first_le_last
  have other := g.first_le_last
  rw [Finset.disjoint_union_right, disjoint_positions_iff _ _ a (by omega),
    disjoint_positions_iff _ _ b (by omega)]
  simp only [Fragment.Overlaps, Fragment.Before] at shared after_f after_g ⊢
  refine and_congr (forall₂_congr fun h member => ?_) (forall₂_congr fun h member => ?_)
  · have later := after_f h member
    have bounds := h.first_le_last
    omega
  · have later := after_g h member
    have bounds := h.first_le_last
    omega

/-- A step adds up exactly when its stretch is free of what is still to come
and the later steps add up exactly. -/
theorem card_step_iff (stretch rest : Finset Nat) (later : Nat) (enough : rest.card ≤ later) :
    stretch.card + later = (stretch ∪ rest).card ↔ Disjoint stretch rest ∧ later = rest.card := by
  rw [← Finset.card_union_eq_card_add_card]
  have bounded := Finset.card_union_le stretch rest
  omega

/-- A fragment that ends before all others adds its own size and no overlap. -/
theorem exact_cons_of_before (f : Fragment) (a b : Selection) (later : Nat)
    (before_a : ∀ h ∈ a, f.Before h) (before_b : ∀ h ∈ b, f.Before h)
    (enough : (positions a ∪ positions b).card ≤ later)
    (exact_rest : later = (positions a ∪ positions b).card ↔ Paired a b) :
    f.size + later = (positions (f :: a) ∪ positions b).card ↔ Paired (f :: a) b := by
  have free := disjoint_positions_of_before f (a ++ b) fun h member =>
    (List.mem_append.mp member).elim (before_a h) (before_b h)
  rw [positions_append] at free
  rw [positions_cons, Finset.union_assoc, ← f.card_Icc, card_step_iff _ _ _ enough, exact_rest,
    paired_cons_of_apart f a b fun h member => (before_b h member).not_overlaps]
  exact and_iff_right free

/-- On normalized selections the steps add up to the number of distinct segments
just when the overlapping fragments come in pairs. -/
theorem sum_steps_eq_card_iff (a b : Selection) (normal_a : a.normalized)
    (normal_b : b.normalized) :
    (steps a b).sum = (positions a ∪ positions b).card ↔ Paired a b := by
  induction a, b using sweep_induction with
  | left_done b =>
      rw [steps_nil_left, positions_nil, Finset.empty_union,
        card_positions_of_normalized b normal_b]
      simp [Paired, MeetsAtMostOne, sizes]
  | right_done a =>
      rw [steps_nil_right, positions_nil, Finset.union_empty,
        card_positions_of_normalized a normal_a]
      simp [Paired, MeetsAtMostOne, sizes]
  | before f a g b early ih =>
      obtain ⟨before_a, normal_rest⟩ := (normalized_cons f a).mp normal_a
      rw [steps_before f g a b early, List.sum_cons]
      exact exact_cons_of_before f a (g :: b) _ before_a (before_all f g b early normal_b)
        (card_union_le_sum_steps a (g :: b)) (ih normal_rest normal_b)
  | after f a g b early ih =>
      obtain ⟨before_b, normal_rest⟩ := (normalized_cons g b).mp normal_b
      have enough := card_union_le_sum_steps (f :: a) b
      have exact_rest := ih normal_a normal_rest
      -- The same as before, with the two selections exchanged.
      rw [Finset.union_comm] at enough exact_rest
      rw [paired_comm] at exact_rest
      rw [steps_after f g a b early, List.sum_cons, Finset.union_comm, paired_comm]
      exact exact_cons_of_before g b (f :: a) _ before_b (before_all g f a early normal_a)
        enough exact_rest
  | overlap f a g b shared _ _ ih =>
      obtain ⟨after_f, normal_a⟩ := (normalized_cons f a).mp normal_a
      obtain ⟨after_g, normal_b⟩ := (normalized_cons g b).mp normal_b
      -- What the pair counts is free of the rest only if neither overlaps anything else.
      rw [steps_overlap f g a b shared, List.sum_cons, positions_cons f, positions_cons g,
        Finset.union_union_union_comm, f.Icc_union_Icc g shared, ← f.card_span,
        card_step_iff _ _ _ (card_union_le_sum_steps a b), ih normal_a normal_b,
        span_apart_iff f g a b shared after_f after_g, paired_cons_of_overlap f g a b shared,
        and_assoc]

theorem card_union_le_tally (a b : Selection) :
    (positions a ∪ positions b).card ≤ tally a b := by
  rw [tally_eq_min]
  exact Nat.le_min.mpr ⟨card_union_le_sum_steps a b, card_union_le_largest a b⟩

/-- The tally passes just the limits that the number of distinct segments passes
exactly where nothing is counted twice, or where no limit is left to tell the two apart. -/
theorem limits_passed_alike_iff (a b : Selection) (normal_a : a.normalized)
    (normal_b : b.normalized) :
    (∀ limit, limit < tally a b ↔ limit < (positions a ∪ positions b).card) ↔
      (positions a ∪ positions b).card = Count.largest ∨ Paired a b := by
  have enough := card_union_le_sum_steps a b
  have within := card_union_le_largest a b
  rw [← sum_steps_eq_card_iff a b normal_a normal_b, tally_eq_min]
  constructor
  · intro alike
    -- The number of distinct segments is itself a limit, and not past itself.
    have at_count := alike (positions a ∪ positions b).card
    omega
  · intro exact_count limit
    omega

/-- What the tally is worth: never less than the distinct segments, never more
than all fragments one by one, and on normalized selections exact where the
overlapping fragments come in pairs or every segment there is has been counted. -/
theorem tally_measures_coverage (a b : Selection) :
    (positions a ∪ positions b).card ≤ tally a b ∧
      tally a b ≤ min Count.largest ((a.map Fragment.size).sum + (b.map Fragment.size).sum) ∧
      (a.normalized → b.normalized →
        (tally a b = (positions a ∪ positions b).card ↔
          (positions a ∪ positions b).card = Count.largest ∨
            MeetsAtMostOne a b ∧ MeetsAtMostOne b a)) := by
  have summed := sum_steps_le_sizes a b
  simp only [sizes] at summed
  refine ⟨card_union_le_tally a b, ?_, ?_⟩
  · rw [tally_eq_min]
    omega
  · intro normal_a normal_b
    have enough := card_union_le_sum_steps a b
    have within := card_union_le_largest a b
    -- The sum may pass the largest count only if the segments themselves reach it.
    have exact_iff := sum_steps_eq_card_iff a b normal_a normal_b
    rw [Paired] at exact_iff
    rw [← exact_iff, tally_eq_min]
    omega

/-- Ten and eight segments are counted here, of which six are the same. -/
theorem long_fragment_counted_again :
    tally [.fromTo 1 10] [.fromTo 2 3, .fromTo 5 12] ≠
      (positions [.fromTo 1 10] ∪ positions [.fromTo 2 3, .fromTo 5 12]).card := by
  rw [Ne, (tally_measures_coverage _ _).2.2 (by decide) (by decide)]
  decide

end SegmentQuota.Selection
