import Mathlib
import SegmentQuota.Selection

/-!
How two fragments lie to each other, and the walk over two selections that all
sweeps follow. Either one of two fragments ends before the other begins, or they
share a segment and together make up one unbroken stretch.
-/

namespace SegmentQuota

namespace Fragment

theorem Before.trans {f g h : Fragment} (early : f.Before g) (late : g.Before h) :
    f.Before h := by
  have ordered := g.first_le_last
  simp only [Before] at *
  omega

instance : Trans Before Before Before := ⟨Before.trans⟩

theorem Before.asymm {f g : Fragment} (early : f.Before g) : ¬g.Before f := by
  have ordered := f.first_le_last
  have other := g.first_le_last
  simp only [Before] at *
  omega

theorem Before.not_overlaps {f g : Fragment} (early : f.Before g) : ¬f.Overlaps g :=
  fun shared => shared.1 early

theorem overlaps_comm (f g : Fragment) : f.Overlaps g ↔ g.Overlaps f := And.comm

/-- Two fragments overlap just when some segment lies in both. -/
theorem overlaps_iff_shared (f g : Fragment) :
    f.Overlaps g ↔ ∃ segment, f.contains segment ∧ g.contains segment := by
  have ordered := f.first_le_last
  have other := g.first_le_last
  simp only [Overlaps, Before, contains_iff]
  constructor
  · rintro ⟨reached, reaches⟩
    exact ⟨max f.first g.first, by omega⟩
  · rintro ⟨segment, inside, present⟩
    omega

/-- Listed one by one, the segments of two fragments have none in common unless they overlap. -/
theorem disjoint_segments_iff (f g : Fragment) :
    f.segments.Disjoint g.segments ↔ ¬f.Overlaps g := by
  simp only [overlaps_iff_shared, not_exists, not_and, List.Disjoint, mem_segments]

theorem nodup_segments (f : Fragment) : f.segments.Nodup := List.nodup_range'

theorem segments_toFinset (f : Fragment) : f.segments.toFinset = Finset.Icc f.first f.last := by
  ext segment
  rw [List.mem_toFinset, mem_segments, contains_iff, Finset.mem_Icc]

theorem card_Icc (f : Fragment) : (Finset.Icc f.first f.last).card = f.size := by
  have ordered := f.first_le_last
  rw [Nat.card_Icc, size]
  omega

theorem card_span (f g : Fragment) :
    (Finset.Icc (min f.first g.first) (max f.last g.last)).card = f.spanSize g := by
  have ordered := f.first_le_last
  rw [Nat.card_Icc, spanSize]
  omega

theorem Icc_union_Icc (f g : Fragment) (shared : f.Overlaps g) :
    Finset.Icc f.first f.last ∪ Finset.Icc g.first g.last =
      Finset.Icc (min f.first g.first) (max f.last g.last) := by
  ext segment
  simp only [Overlaps, Before] at shared
  simp only [Finset.mem_union, Finset.mem_Icc]
  omega

theorem spanSize_le (f g : Fragment) (shared : f.Overlaps g) :
    f.spanSize g ≤ f.size + g.size := by
  rw [← card_span, ← Icc_union_Icc f g shared, ← f.card_Icc, ← g.card_Icc]
  exact Finset.card_union_le _ _

end Fragment

namespace Selection

/-- In whatever order two fragments of the selection are taken, they stand one way or the other. -/
theorem rel_or_rel {R : Fragment → Fragment → Prop} {s : Selection} (ordered : s.Pairwise R)
    {f g : Fragment} (in_f : f ∈ s) (in_g : g ∈ s) (different : f ≠ g) : R f g ∨ R g f := by
  have : Std.Symm fun f g => R f g ∨ R g f := ⟨fun _ _ => Or.symm⟩
  have either_way : s.Pairwise fun f g => R f g ∨ R g f := ordered.imp Or.inl
  exact either_way.forall in_f in_g different

/-- Induction along a sweep: the earlier of the two foremost fragments is dropped,
and of an overlapping pair either one or both. -/
@[elab_as_elim]
theorem sweep_induction {motive : Selection → Selection → Prop}
    (left_done : ∀ b, motive [] b) (right_done : ∀ a, motive a [])
    (before : ∀ f a g b, f.Before g → motive a (g :: b) → motive (f :: a) (g :: b))
    (after : ∀ f a g b, g.Before f → motive (f :: a) b → motive (f :: a) (g :: b))
    (overlap : ∀ f a g b, f.Overlaps g → motive a (g :: b) → motive (f :: a) b → motive a b →
      motive (f :: a) (g :: b))
    (a b : Selection) : motive a b := by
  -- The outer induction drops from `a` with any `b`, the inner one from `b` under the same `a`.
  induction a generalizing b with
  | nil => exact left_done b
  | cons f a drop_left =>
      induction b with
      | nil => exact right_done (f :: a)
      | cons g b drop_right =>
          by_cases early : f.Before g
          · exact before f a g b early (drop_left (g :: b))
          · by_cases late : g.Before f
            · exact after f a g b late drop_right
            · exact overlap f a g b ⟨early, late⟩ (drop_left (g :: b)) drop_right (drop_left b)

end Selection

end SegmentQuota
