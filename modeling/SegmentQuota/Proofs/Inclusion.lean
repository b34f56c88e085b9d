import SegmentQuota.Proofs.Admission
import SegmentQuota.Proofs.Lattice

/-!
When one selection adds nothing to another. That its segments are all held is not enough:
a fragment that lies across two touching ones would join them. Each fragment has to be
covered by a single fragment of the other selection, which is inclusion in the view that
also tells which neighbours are kept together. Then the union changes nothing, the
intersection takes nothing away, and a commit gives the ledger back as it was.
-/

namespace SegmentQuota

namespace Selection

/-- Each fragment of `a` is covered by a single fragment of `b`. -/
def CoveredBy (a b : Selection) : Prop := ∀ f ∈ a, ∃ g ∈ b, g.covers f

instance (a b : Selection) : Decidable (a.CoveredBy b) :=
  inferInstanceAs (Decidable (∀ f ∈ a, ∃ g ∈ b, _))

theorem eq_of_shared (s : Selection) (normal : s.normalized) (f g : Fragment) (in_f : f ∈ s)
    (in_g : g ∈ s) (shared : f.Overlaps g) : f = g := by
  by_contra different
  rcases rel_or_rel ((normalized_iff_pairwise s).mp normal) in_f in_g different with early | late
  · exact early.not_overlaps shared
  · exact late.not_overlaps ((f.overlaps_comm g).mp shared)

/-- A stretch lies in one fragment of a normalized selection if each of its segments is
kept together with the next. -/
theorem stretches_of_steps (s : Selection) (normal : s.normalized) (low more : Nat)
    (held : s.Stretches 0 low) (kept : ∀ n < more, s.Stretches 1 (low + n)) :
    s.Stretches more low := by
  induction more with
  | zero => exact held
  | succ more ih =>
      obtain ⟨g, in_g, begins, reaches⟩ := ih fun n earlier => kept n (Nat.lt_succ_of_lt earlier)
      obtain ⟨h, in_h, begins', reaches'⟩ := kept more (Nat.lt_succ_self more)
      -- Both hold the last segment so far, so they are the same fragment.
      have shared : g.Overlaps h :=
        (g.overlaps_iff_shared h).mpr ⟨low + more, by simp only [Fragment.contains_iff]; omega⟩
      cases eq_of_shared s normal g h in_g in_h shared
      exact ⟨g, in_g, begins, by omega⟩

theorem view_subset_iff (a b : Selection) (normal : b.normalized) :
    view a ⊆ view b ↔ a.CoveredBy b := by
  constructor
  · intro included f in_f
    have within (more : Fin 2) (segment : Nat) (begins : f.first ≤ segment)
        (reaches : segment + more ≤ f.last) : b.Stretches more segment :=
      (mem_view b more segment).mp (included ⟨f, in_f, begins, reaches⟩)
    have ordered := f.first_le_last
    obtain ⟨g, in_g, begins, reaches⟩ := stretches_of_steps b normal f.first (f.last - f.first)
      (within 0 f.first (Nat.le_refl _) ordered)
      fun n earlier => within 1 (f.first + n) (Nat.le_add_right _ _) (by
        simp only [Fin.val_one]
        omega)
    refine ⟨g, in_g, ?_⟩
    simp only [Fragment.covers, Bool.and_eq_true, decide_eq_true_eq]
    omega
  · rintro covered ⟨more, segment⟩ ⟨f, in_f, begins, reaches⟩
    obtain ⟨g, in_g, covers⟩ := covered f in_f
    simp only [Fragment.covers, Bool.and_eq_true, decide_eq_true_eq] at covers
    exact ⟨g, in_g, Nat.le_trans covers.1 begins, Nat.le_trans reaches covers.2⟩

theorem Normal.val_eq_iff (x y : Normal) : x.val = y.val ↔ x = y := Subtype.ext_iff.symm

theorem Normal.le_iff (x y : Normal) : x ≤ y ↔ x.val.CoveredBy y.val :=
  view_subset_iff x.val y.val y.property

section

variable (a b : Selection) (normal_a : a.normalized) (normal_b : b.normalized)

include normal_a normal_b

theorem union_eq_left_iff : union a b = a ↔ b.CoveredBy a := by
  let x : Normal := ⟨a, normal_a⟩
  let y : Normal := ⟨b, normal_b⟩
  calc
    union a b = a ↔ x ⊔ y = x := Normal.val_eq_iff (x ⊔ y) x
    _ ↔ y ≤ x := sup_eq_left
    _ ↔ b.CoveredBy a := Normal.le_iff y x

theorem union_eq_right_iff : union a b = b ↔ a.CoveredBy b := by
  let x : Normal := ⟨a, normal_a⟩
  let y : Normal := ⟨b, normal_b⟩
  calc
    union a b = b ↔ x ⊔ y = y := Normal.val_eq_iff (x ⊔ y) y
    _ ↔ x ≤ y := sup_eq_right
    _ ↔ a.CoveredBy b := Normal.le_iff x y

theorem inter_eq_left_iff : inter a b = a ↔ a.CoveredBy b := by
  let x : Normal := ⟨a, normal_a⟩
  let y : Normal := ⟨b, normal_b⟩
  calc
    inter a b = a ↔ x ⊓ y = x := Normal.val_eq_iff (x ⊓ y) x
    _ ↔ x ≤ y := inf_eq_left
    _ ↔ a.CoveredBy b := Normal.le_iff x y

end

end Selection

namespace Ledger

theorem eq_of_commit_iff (ledger next : Ledger) (excerpt : Selection)
    (committed : ledger.commit excerpt = .ok next) :
    next = ledger ↔ Selection.union ledger.quota excerpt = ledger.quota := by
  obtain ⟨_, rfl⟩ := (commit_eq_ok_iff ledger excerpt next).mp committed
  constructor
  · exact congrArg Ledger.quota
  · intro same
    rw [same]

/-- For two normalized selections three things are the same: the first adds nothing to
the second, the second takes nothing from the first, and each fragment of the first is
covered by one fragment of the second. An accepted commit leaves the ledger as it was in
just that case. -/
theorem commit_idle_iff_covered (a b : Selection) (normal_a : a.normalized)
    (normal_b : b.normalized) :
    (Selection.union a b = b ↔ ∀ f ∈ a, ∃ g ∈ b, g.covers f) ∧
      (Selection.inter a b = a ↔ ∀ f ∈ a, ∃ g ∈ b, g.covers f) ∧
      ∀ ledger next : Ledger, ledger.quota = b → ledger.commit a = .ok next →
        (next = ledger ↔ ∀ f ∈ a, ∃ g ∈ ledger.quota, g.covers f) := by
  refine ⟨Selection.union_eq_right_iff a b normal_a normal_b,
    Selection.inter_eq_left_iff a b normal_a normal_b, ?_⟩
  rintro ledger next rfl committed
  rw [eq_of_commit_iff ledger next a committed]
  exact Selection.union_eq_left_iff ledger.quota a normal_b normal_a

/-- The first excerpt holds nothing but segments of the quota, and yet joins two of its
fragments; the second lies within each of the two. -/
theorem bridge_between_touching_fragments :
    let ledger : Ledger := ⟨[.fromTo 1 3, .fromTo 4 6], 10, 10⟩
    (∃ next, ledger.commit [.fromTo 3 4] = .ok next ∧ next ≠ ledger) ∧
      ledger.commit [.fromTo 2 3, .fromTo 4 4] = .ok ledger := by
  intro ledger
  have bridges := commit_of_le ledger [.fromTo 3 4] (by decide +kernel)
  have lies_within := commit_of_le ledger [.fromTo 2 3, .fromTo 4 4] (by decide +kernel)
  obtain ⟨_, _, changes⟩ := commit_idle_iff_covered [.fromTo 3 4] ledger.quota (by decide)
    (by decide)
  obtain ⟨_, _, idle⟩ := commit_idle_iff_covered [.fromTo 2 3, .fromTo 4 4] ledger.quota
    (by decide) (by decide)
  refine ⟨⟨_, bridges, ?_⟩, ?_⟩
  · rw [Ne, changes ledger _ rfl bridges]
    decide
  · rw [lies_within, (idle ledger _ rfl lies_within).mpr (by decide)]

end Ledger

end SegmentQuota
