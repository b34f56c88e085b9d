import SegmentQuota.Proofs.Lattice

/-!
Selections with gaps. Where some segment is left out between each fragment and the next,
two neighbouring segments that are held lie in one fragment, so the segments held
determine the selection. It also has the fewest fragments: the segment before each of
them is not held, so every selection of these segments has to begin a fragment there.
-/

namespace SegmentQuota

namespace Fragment

def Clears (f g : Fragment) : Prop := f.last + 1 < g.first

instance (f g : Fragment) : Decidable (f.Clears g) :=
  inferInstanceAs (Decidable (f.last + 1 < g.first))

theorem Clears.before {f g : Fragment} (gap : f.Clears g) : f.Before g :=
  Nat.lt_of_succ_lt gap

theorem Clears.trans {f g h : Fragment} (gap : f.Clears g) (next : g.Clears h) :
    f.Clears h := by
  have ordered := g.first_le_last
  simp only [Clears] at *
  omega

instance : Trans Clears Clears Clears := ⟨Clears.trans⟩

end Fragment

namespace Selection

/-- Between each fragment and the next one at least one segment is left out. -/
def Spaced (s : Selection) : Prop := s.IsChain Fragment.Clears

instance (s : Selection) : Decidable s.Spaced := inferInstanceAs (Decidable (s.IsChain _))

theorem spaced_iff_pairwise (s : Selection) : s.Spaced ↔ s.Pairwise Fragment.Clears :=
  List.isChain_iff_pairwise

theorem normalized_of_spaced (s : Selection) (spaced : s.Spaced) : s.normalized :=
  (normalized_iff_pairwise s).mpr
    (((spaced_iff_pairwise s).mp spaced).imp Fragment.Clears.before)

/-- A normalized selection is spaced unless some fragment ends directly before the next. -/
theorem spaced_iff_of_normalized (s : Selection) (normal : s.normalized) :
    s.Spaced ↔ s.IsChain fun f g => f.last + 1 ≠ g.first := by
  rw [Spaced, List.isChain_iff_getElem, List.isChain_iff_getElem]
  refine forall_congr' fun i => forall_congr' fun within => ?_
  have before := (normalized_iff_getElem s).mp normal i (i + 1)
    (Nat.lt_of_succ_lt within) within (Nat.lt_succ_self i)
  simp only [Fragment.Clears, Fragment.Before] at *
  omega

section Spaced

variable (s : Selection) (spaced : s.Spaced)

include spaced

/-- Where both of two neighbouring segments are held, one fragment holds them. -/
theorem joined_iff_of_spaced (segment : Nat) :
    s.Joined segment ↔ s.Holds segment ∧ s.Holds (segment + 1) := by
  constructor
  · rintro ⟨f, member, inside, next⟩
    exact ⟨⟨f, member, inside⟩, ⟨f, member, next⟩⟩
  · rintro ⟨⟨f, in_f, inside⟩, ⟨g, in_g, next⟩⟩
    by_cases same : f = g
    · exact ⟨f, in_f, inside, same ▸ next⟩
    · have gap := rel_or_rel ((spaced_iff_pairwise s).mp spaced) in_f in_g same
      simp only [Fragment.contains_iff, Fragment.Clears] at *
      omega

theorem not_holds_before_first (f : Fragment) (present : f ∈ s) : ¬s.Holds (f.first - 1) := by
  rintro ⟨g, member, inside⟩
  have positive := f.first_pos
  have ordered := f.first_le_last
  rw [Fragment.contains_iff] at inside
  have different : f ≠ g := by
    rintro rfl
    omega
  have gap := rel_or_rel ((spaced_iff_pairwise s).mp spaced) present member different
  simp only [Fragment.Clears] at gap
  omega

theorem firsts_nodup : (s.map Fragment.first).Nodup := by
  apply List.Pairwise.map Fragment.first _ ((spaced_iff_pairwise s).mp spaced)
  intro f g gap
  have ordered := f.first_le_last
  simp only [Fragment.Clears] at gap
  omega

/-- Every selection of the same segments has to begin a fragment wherever `s` does. -/
theorem firsts_subset (t : Selection) (same : positions t = positions s) :
    s.map Fragment.first ⊆ t.map Fragment.first := by
  have held (segment : Nat) : t.Holds segment ↔ s.Holds segment := by
    rw [← mem_positions, ← mem_positions, same]
  intro segment member
  obtain ⟨f, present, rfl⟩ := List.mem_map.mp member
  have bounds := f.first_le_last
  have begun : s.Holds f.first := ⟨f, present, (f.contains_iff _).mpr ⟨Nat.le_refl _, bounds⟩⟩
  obtain ⟨g, in_t, inside⟩ := (held f.first).mpr begun
  rw [Fragment.contains_iff] at inside
  refine List.mem_map.mpr ⟨g, in_t, ?_⟩
  by_contra earlier
  apply not_holds_before_first s spaced f present
  rw [← held]
  exact ⟨g, in_t, (g.contains_iff _).mpr (by omega)⟩

theorem length_le_of_spaced (t : Selection) (same : positions t = positions s) :
    s.length ≤ t.length := by
  have fewer := (firsts_nodup s spaced).length_le_of_subset (firsts_subset s spaced t same)
  rwa [List.length_map, List.length_map] at fewer

end Spaced

/-- A spaced selection is determined by the segments it holds. -/
theorem eq_of_positions_eq (s t : Selection) (spaced_s : s.Spaced) (spaced_t : t.Spaced)
    (same : positions s = positions t) : s = t := by
  have held (segment : Nat) : s.Holds segment ↔ t.Holds segment := by
    rw [← mem_positions, ← mem_positions, same]
  apply eq_of_view_eq s t (normalized_of_spaced s spaced_s) (normalized_of_spaced t spaced_t)
  ext ⟨more, segment⟩
  rw [mem_view, mem_view]
  -- The segments held are the same by assumption, and they say which are held together.
  fin_cases more
  · change s.Stretches 0 segment ↔ t.Stretches 0 segment
    rw [stretches_zero_iff, stretches_zero_iff, held]
  · change s.Stretches 1 segment ↔ t.Stretches 1 segment
    rw [stretches_one_iff, stretches_one_iff, joined_iff_of_spaced s spaced_s,
      joined_iff_of_spaced t spaced_t, held, held]

end Selection

end SegmentQuota
