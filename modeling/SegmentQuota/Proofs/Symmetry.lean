import SegmentQuota.Proofs.Intersection
import SegmentQuota.Proofs.Sweep

/-!
Sweeping two selections the other way round. The two orders of the arguments are told
apart in places: an empty second selection has a shortcut, and the first comparison asks
whether the first of two fragments lies before the second. None of it shows. With the
arguments exchanged every sweep takes the same steps, one by one, also where the
fragments are in no order and nothing can be said about the segments they hold.
-/

namespace SegmentQuota

namespace Fragment

theorem spanSize_comm (f g : Fragment) : f.spanSize g = g.spanSize f := by
  rw [spanSize, spanSize, Nat.max_comm, Nat.min_comm]

theorem overlap_comm (f g : Fragment) (shared : f.Overlaps g) :
    f.overlap g shared = g.overlap f ((f.overlaps_comm g).mp shared) := by
  rw [overlap, overlap, mk.injEq]
  exact ⟨Nat.max_comm _ _, Nat.min_comm _ _⟩

end Fragment

namespace Selection

theorem steps_comm (a b : Selection) : steps a b = steps b a := by
  induction a, b using sweep_induction with
  | left_done b => rw [steps_nil_left, steps_nil_right]
  | right_done a => rw [steps_nil_left, steps_nil_right]
  | before f a g b early ih => rw [steps_before f g a b early, steps_after g f b a early, ih]
  | after f a g b late ih => rw [steps_after f g a b late, steps_before g f b a late, ih]
  | overlap f a g b shared _ _ ih =>
      rw [steps_overlap f g a b shared, steps_overlap g f b a ((f.overlaps_comm g).mp shared),
        f.spanSize_comm g, ih]

theorem tally_comm (a b : Selection) : tally a b = tally b a := by
  rw [tally_eq_sum, tally_eq_sum, steps_comm]

theorem exceeds_comm (a b : Selection) (limit : Nat) : exceeds a b limit = exceeds b a limit := by
  rw [exceeds, exceeds, steps_comm]

theorem inter_comm (a b : Selection) : inter a b = inter b a := by
  induction a, b using sweep_induction with
  | left_done b => rw [inter_nil_left, inter_nil_right]
  | right_done a => rw [inter_nil_left, inter_nil_right]
  | before f a g b early ih => rw [inter_before f g a b early, inter_after g f b a early, ih]
  | after f a g b late ih => rw [inter_after f g a b late, inter_before g f b a late, ih]
  | overlap f a g b shared drop_left drop_right drop_both =>
      rw [inter_overlap f g a b shared, inter_overlap g f b a ((f.overlaps_comm g).mp shared),
        f.overlap_comm g shared, drop_left, drop_right, drop_both]
      -- Which of the two is dropped is asked in the other order.
      rcases Nat.lt_trichotomy f.last g.last with shorter | level | longer
      · rw [if_pos shorter, if_neg (Nat.lt_asymm shorter), if_pos shorter]
      · rw [level]
        simp only [Nat.lt_irrefl, if_false]
      · rw [if_neg (Nat.lt_asymm longer), if_pos longer, if_pos longer]

/-- For any two selections, in order or not, the tally, the verdict on every limit and
the list of what they share are the same whichever of the two comes first. -/
theorem measures_symmetric (a b : Selection) :
    tally a b = tally b a ∧ (∀ limit, exceeds a b limit = exceeds b a limit) ∧
      inter a b = inter b a :=
  ⟨tally_comm a b, exceeds_comm a b, inter_comm a b⟩

end Selection

end SegmentQuota
