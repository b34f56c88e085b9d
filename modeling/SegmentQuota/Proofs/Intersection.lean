import SegmentQuota.Proofs.Union

/-!
What the intersection of two selections is: the list of what their fragments
share, pair by pair. The sweep drops a fragment for good, so on normalized
selections it has to be shown that a dropped one shares nothing with what is
still to come. On any other selections pairs may be missed, but whatever is
produced is the overlap of some pair.
-/

namespace SegmentQuota

namespace Fragment

theorem stretch_overlap_iff (f g : Fragment) (shared : f.Overlaps g) (low high : Nat) :
    (f.overlap g shared).first ≤ low ∧ high ≤ (f.overlap g shared).last ↔
      (f.first ≤ low ∧ high ≤ f.last) ∧ g.first ≤ low ∧ high ≤ g.last := by
  simp only [overlap]
  omega

theorem overlaps_of_stretch (f g : Fragment) (low high : Nat) (ordered : low ≤ high)
    (in_f : f.first ≤ low ∧ high ≤ f.last) (in_g : g.first ≤ low ∧ high ≤ g.last) :
    f.Overlaps g := by
  simp only [Overlaps, Before]
  omega

/-- Overlaps of fragments that lie apart on one side lie apart themselves. -/
theorem overlap_before_overlap (f f' g g' : Fragment) (shared : f.Overlaps g)
    (shared' : f'.Overlaps g') (apart : f.Before f' ∨ g.Before g') :
    (f.overlap g shared).Before (f'.overlap g' shared') := by
  simp only [Before, overlap] at *
  omega

def overlap? (f g : Fragment) : Option Fragment :=
  if shared : f.Overlaps g then some (f.overlap g shared) else none

theorem overlap?_eq_some (f g : Fragment) (shared : f.Overlaps g) :
    f.overlap? g = some (f.overlap g shared) := dif_pos shared

theorem overlap?_eq_none (f g : Fragment) (apart : ¬f.Overlaps g) :
    f.overlap? g = none := dif_neg apart

theorem overlap?_eq_some_iff (f g h : Fragment) :
    f.overlap? g = some h ↔ ∃ shared : f.Overlaps g, f.overlap g shared = h := by
  by_cases shared : f.Overlaps g
  · simp [overlap?_eq_some f g shared, shared]
  · simp [overlap?_eq_none f g shared, shared]

def bounds (f : Fragment) : Nat × Nat := (f.first, f.last)

end Fragment

namespace Selection

theorem inter_nil_left (b : Selection) : inter [] b = [] := by
  rw [inter]

theorem inter_nil_right (a : Selection) : inter a [] = [] := by
  cases a with
  | nil => rw [inter]
  | cons f a => rw [inter]; simp

theorem inter_before (f g : Fragment) (a b : Selection) (early : f.Before g) :
    inter (f :: a) (g :: b) = inter a (g :: b) := by
  rw [inter, dif_pos early]

theorem inter_after (f g : Fragment) (a b : Selection) (late : g.Before f) :
    inter (f :: a) (g :: b) = inter (f :: a) b := by
  rw [inter, dif_neg late.asymm, dif_pos late]

theorem inter_overlap (f g : Fragment) (a b : Selection) (shared : f.Overlaps g) :
    inter (f :: a) (g :: b) =
      f.overlap g shared ::
        if f.last < g.last then inter a (g :: b)
        else if g.last < f.last then inter (f :: a) b
        else inter a b := by
  rw [inter, dif_neg shared.1, dif_neg shared.2]

/-- What each fragment of `a` shares with each fragment of `b`, one entry for every
pair that shares a segment, by position in `a` and then in `b`. -/
def overlaps (a b : Selection) : Selection := a.flatMap fun f => b.filterMap f.overlap?

theorem mem_overlaps (a b : Selection) (h : Fragment) :
    h ∈ overlaps a b ↔
      ∃ f ∈ a, ∃ g ∈ b, ∃ shared : f.Overlaps g, f.overlap g shared = h := by
  simp only [overlaps, List.mem_flatMap, List.mem_filterMap, Fragment.overlap?_eq_some_iff]

theorem overlaps_cons_left (f : Fragment) (a b : Selection) :
    overlaps (f :: a) b = b.filterMap f.overlap? ++ overlaps a b := by
  rw [overlaps, List.flatMap_cons]
  rfl

theorem overlaps_pair (f g : Fragment) (a b : Selection) (shared : f.Overlaps g) :
    overlaps (f :: a) (g :: b) =
      f.overlap g shared :: (b.filterMap f.overlap? ++ overlaps a (g :: b)) := by
  rw [overlaps_cons_left, List.filterMap_cons_some (f.overlap?_eq_some g shared),
    List.cons_append]

theorem filterMap_overlap_eq_nil (f : Fragment) (b : Selection)
    (apart : ∀ g ∈ b, ¬f.Overlaps g) : b.filterMap f.overlap? = [] := by
  rw [List.filterMap_eq_nil_iff]
  exact fun g member => f.overlap?_eq_none g (apart g member)

theorem overlaps_drop_left (f : Fragment) (a b : Selection) (apart : ∀ g ∈ b, ¬f.Overlaps g) :
    overlaps (f :: a) b = overlaps a b := by
  rw [overlaps_cons_left, filterMap_overlap_eq_nil f b apart, List.nil_append]

theorem overlaps_drop_right (g : Fragment) (a b : Selection) (apart : ∀ f ∈ a, ¬f.Overlaps g) :
    overlaps a (g :: b) = overlaps a b := by
  induction a with
  | nil => rfl
  | cons f a ih =>
      obtain ⟨apart_f, apart_rest⟩ := List.forall_mem_cons.mp apart
      rw [overlaps_cons_left, overlaps_cons_left, ih apart_rest,
        List.filterMap_cons_none (f.overlap?_eq_none g apart_f)]

theorem overlaps_mono {a a' b b' : Selection} (sub_a : a ⊆ a') (sub_b : b ⊆ b') :
    overlaps a b ⊆ overlaps a' b' := by
  intro h member
  rw [mem_overlaps] at *
  obtain ⟨f, in_a, g, in_b, found⟩ := member
  exact ⟨f, sub_a in_a, g, sub_b in_b, found⟩

/-- In whatever order the fragments come, only overlaps of pairs are produced. -/
theorem inter_subset_overlaps (a b : Selection) : inter a b ⊆ overlaps a b := by
  induction a, b using sweep_induction with
  | left_done b =>
      rw [inter_nil_left]
      exact List.nil_subset _
  | right_done a =>
      rw [inter_nil_right]
      exact List.nil_subset _
  | before f a g b early ih =>
      rw [inter_before f g a b early]
      exact List.Subset.trans ih (overlaps_mono (List.subset_cons_self f a) (List.Subset.refl _))
  | after f a g b late ih =>
      rw [inter_after f g a b late]
      exact List.Subset.trans ih (overlaps_mono (List.Subset.refl _) (List.subset_cons_self g b))
  | overlap f a g b shared drop_left drop_right drop_both =>
      have fewer_a := List.subset_cons_self f a
      have fewer_b := List.subset_cons_self g b
      rw [inter_overlap f g a b shared, List.cons_subset, mem_overlaps]
      constructor
      · exact ⟨f, List.mem_cons_self, g, List.mem_cons_self, shared, rfl⟩
      · split
        · exact List.Subset.trans drop_left (overlaps_mono fewer_a (List.Subset.refl _))
        · split
          · exact List.Subset.trans drop_right (overlaps_mono (List.Subset.refl _) fewer_b)
          · exact List.Subset.trans drop_both (overlaps_mono fewer_a fewer_b)

theorem apart_of_ends_first (f g : Fragment) (b : Selection) (ends : f.last ≤ g.last)
    (following : ∀ h ∈ b, g.Before h) : ∀ h ∈ b, ¬f.Overlaps h := by
  intro h member
  have later := following h member
  refine Fragment.Before.not_overlaps ?_
  simp only [Fragment.Before] at later ⊢
  omega

/-- On normalized selections no pair is missed and none is met twice. -/
theorem inter_eq_overlaps (a b : Selection) (normal_a : a.normalized) (normal_b : b.normalized) :
    inter a b = overlaps a b := by
  induction a, b using sweep_induction with
  | left_done b => rw [inter_nil_left]; rfl
  | right_done a => simp [inter_nil_right, overlaps]
  | before f a g b early ih =>
      obtain ⟨_, normal_rest⟩ := (normalized_cons f a).mp normal_a
      have apart := before_all f g b early normal_b
      rw [inter_before f g a b early, ih normal_rest normal_b,
        overlaps_drop_left f a (g :: b) fun h member => (apart h member).not_overlaps]
  | after f a g b late ih =>
      obtain ⟨_, normal_rest⟩ := (normalized_cons g b).mp normal_b
      have apart := before_all g f a late normal_a
      rw [inter_after f g a b late, ih normal_a normal_rest, overlaps_drop_right g (f :: a) b]
      exact fun h member shared => shared.2 (apart h member)
  | overlap f a g b shared drop_left drop_right drop_both =>
      obtain ⟨after_f, normal_rest_a⟩ := (normalized_cons f a).mp normal_a
      obtain ⟨after_g, normal_rest_b⟩ := (normalized_cons g b).mp normal_b
      -- Whichever of the two ends first has no partner left and may be dropped.
      have spent_f := fun ends => apart_of_ends_first f g b ends after_g
      have spent_g := fun ends h member back =>
        apart_of_ends_first g f a ends after_f h member ((h.overlaps_comm g).mp back)
      rw [inter_overlap f g a b shared, overlaps_pair f g a b shared]
      congr 1
      split
      next shorter =>
        rw [drop_left normal_rest_a normal_b,
          filterMap_overlap_eq_nil f b (spent_f (Nat.le_of_lt shorter)), List.nil_append]
      next not_shorter =>
        rw [overlaps_drop_right g a b (spent_g (Nat.not_lt.mp not_shorter))]
        split
        next longer => rw [drop_right normal_a normal_rest_b, overlaps_cons_left]
        next not_longer =>
          -- They end together, and both are spent.
          rw [drop_both normal_rest_a normal_rest_b,
            filterMap_overlap_eq_nil f b (spent_f (Nat.not_lt.mp not_longer)), List.nil_append]

def sharedBounds (b : Selection) (f : Fragment) : List (Nat × Nat) :=
  (b.filter fun g => decide (f.Overlaps g)).map fun g =>
    (max f.first g.first, min f.last g.last)

theorem bounds_filterMap_overlap (f : Fragment) (b : Selection) :
    (b.filterMap f.overlap?).map Fragment.bounds = sharedBounds b f := by
  induction b with
  | nil => rfl
  | cons g b ih =>
      rw [sharedBounds] at *
      by_cases shared : f.Overlaps g
      · rw [List.filterMap_cons_some (f.overlap?_eq_some g shared),
          List.filter_cons_of_pos (by simpa using shared), List.map_cons, List.map_cons, ih]
        rfl
      · rw [List.filterMap_cons_none (f.overlap?_eq_none g shared),
          List.filter_cons_of_neg (by simpa using shared), ih]

theorem bounds_overlaps (a b : Selection) :
    (overlaps a b).map Fragment.bounds = a.flatMap (sharedBounds b) := by
  rw [overlaps, List.map_flatMap]
  simp only [bounds_filterMap_overlap]

theorem overlaps_normalized (a b : Selection) (normal_a : a.normalized)
    (normal_b : b.normalized) : (overlaps a b).normalized := by
  rw [normalized_iff_pairwise] at *
  rw [overlaps, List.pairwise_flatMap]
  constructor
  -- Two overlaps of one fragment are apart in `b`, all others are apart in `a`.
  · intro f _
    rw [List.pairwise_filterMap]
    refine normal_b.imp fun {g g'} apart h found h' found' => ?_
    obtain ⟨shared, rfl⟩ := (f.overlap?_eq_some_iff g h).mp found
    obtain ⟨shared', rfl⟩ := (f.overlap?_eq_some_iff g' h').mp found'
    exact f.overlap_before_overlap f g g' shared shared' (Or.inr apart)
  · refine normal_a.imp fun {f f'} apart h found h' found' => ?_
    obtain ⟨g, _, overlap_g⟩ := List.mem_filterMap.mp found
    obtain ⟨g', _, overlap_g'⟩ := List.mem_filterMap.mp found'
    obtain ⟨shared, rfl⟩ := (f.overlap?_eq_some_iff g h).mp overlap_g
    obtain ⟨shared', rfl⟩ := (f'.overlap?_eq_some_iff g' h').mp overlap_g'
    exact f.overlap_before_overlap f' g g' shared shared' (Or.inl apart)

theorem inter_normalized (a b : Selection) (normal_a : a.normalized)
    (normal_b : b.normalized) : (inter a b).normalized := by
  rw [inter_eq_overlaps a b normal_a normal_b]
  exact overlaps_normalized a b normal_a normal_b

theorem stretches_overlaps_iff (a b : Selection) (more segment : Nat) :
    (overlaps a b).Stretches more segment ↔
      a.Stretches more segment ∧ b.Stretches more segment := by
  constructor
  · rintro ⟨h, member, within⟩
    obtain ⟨f, in_a, g, in_b, shared, rfl⟩ := (mem_overlaps a b h).mp member
    obtain ⟨within_f, within_g⟩ := (f.stretch_overlap_iff g shared _ _).mp within
    exact ⟨⟨f, in_a, within_f⟩, ⟨g, in_b, within_g⟩⟩
  · rintro ⟨⟨f, in_a, within_f⟩, ⟨g, in_b, within_g⟩⟩
    have shared := f.overlaps_of_stretch g _ _ (Nat.le_add_right segment more) within_f within_g
    refine ⟨f.overlap g shared, ?_, ?_⟩
    · exact (mem_overlaps a b _).mpr ⟨f, in_a, g, in_b, shared, rfl⟩
    · exact (f.stretch_overlap_iff g shared _ _).mpr ⟨within_f, within_g⟩

theorem stretches_of_inter (a b : Selection) (more segment : Nat)
    (inside : (inter a b).Stretches more segment) :
    a.Stretches more segment ∧ b.Stretches more segment := by
  obtain ⟨h, produced, within⟩ := inside
  rw [← stretches_overlaps_iff]
  exact ⟨h, inter_subset_overlaps a b produced, within⟩

theorem stretches_inter_iff (a b : Selection) (more segment : Nat) (normal_a : a.normalized)
    (normal_b : b.normalized) :
    (inter a b).Stretches more segment ↔
      a.Stretches more segment ∧ b.Stretches more segment := by
  rw [inter_eq_overlaps a b normal_a normal_b, stretches_overlaps_iff]

theorem positions_inter_subset (a b : Selection) :
    positions (inter a b) ⊆ positions a ∩ positions b := by
  intro segment member
  rw [Finset.mem_inter]
  simp only [mem_positions, ← stretches_zero_iff] at *
  exact stretches_of_inter a b 0 segment member

theorem positions_inter (a b : Selection) (normal_a : a.normalized) (normal_b : b.normalized) :
    positions (inter a b) = positions a ∩ positions b := by
  ext segment
  rw [Finset.mem_inter]
  simp only [mem_positions, ← stretches_zero_iff]
  exact stretches_inter_iff a b 0 segment normal_a normal_b

theorem bounds_of_mem_inter (a b : Selection) (h : Fragment) (produced : h ∈ inter a b) :
    ∃ f ∈ a, ∃ g ∈ b, (∃ segment, f.contains segment ∧ g.contains segment) ∧
      h.bounds = (max f.first g.first, min f.last g.last) := by
  obtain ⟨f, in_a, g, in_b, shared, rfl⟩ :=
    (mem_overlaps a b h).mp (inter_subset_overlaps a b produced)
  exact ⟨f, in_a, g, in_b, (f.overlaps_iff_shared g).mp shared, rfl⟩

/-- The intersection of normalized selections lists what every pair of overlapping
fragments shares, once for each pair and in ascending order, and so holds what both
hold. From other selections it may miss a pair, but it lists nothing else. -/
theorem inter_lists_overlaps (a b : Selection) :
    (a.normalized → b.normalized →
      (inter a b).map Fragment.bounds = a.flatMap (sharedBounds b) ∧
        (inter a b).normalized ∧
        positions (inter a b) = positions a ∩ positions b) ∧
      (∀ h ∈ inter a b, ∃ f ∈ a, ∃ g ∈ b,
        (∃ segment, f.contains segment ∧ g.contains segment) ∧
          h.bounds = (max f.first g.first, min f.last g.last)) ∧
      positions (inter a b) ⊆ positions a ∩ positions b := by
  refine ⟨?_, bounds_of_mem_inter a b, positions_inter_subset a b⟩
  intro normal_a normal_b
  refine ⟨?_, inter_normalized a b normal_a normal_b, positions_inter a b normal_a normal_b⟩
  rw [inter_eq_overlaps a b normal_a normal_b, bounds_overlaps]

/-- The long fragment meets three others, the last of which ends with it. -/
theorem long_fragment_shared_in_parts :
    (inter [.fromTo 2 9, .fromTo 10 12]
        [.fromTo 1 3, .fromTo 5 5, .fromTo 8 9, .fromTo 11 20]).map Fragment.bounds =
      [(2, 3), (5, 5), (8, 9), (11, 12)] := by
  obtain ⟨listed, _, _⟩ := (inter_lists_overlaps [.fromTo 2 9, .fromTo 10 12]
    [.fromTo 1 3, .fromTo 5 5, .fromTo 8 9, .fromTo 11 20]).1 (by decide) (by decide)
  rw [listed]
  decide

end Selection

end SegmentQuota
