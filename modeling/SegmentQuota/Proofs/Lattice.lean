import SegmentQuota.Proofs.Intersection

/-!
Normalized selections as a distributive lattice. Touching fragments are kept
apart, so the segments a selection holds do not determine it. Together with the
pairs of neighbours that it keeps in one fragment they do: a fragment begins at
the first segment that is left and ends where a segment is held without its next
one. In this view union is the union of sets and intersection is theirs, and the
laws come with them.
-/

namespace SegmentQuota.Selection

/-- The segments held, at 0, and those held together with their next one, at 1. -/
def view (s : Selection) : Set (Fin 2 × Nat) := {place | s.Stretches place.1 place.2}

theorem mem_view (s : Selection) (more : Fin 2) (segment : Nat) :
    (more, segment) ∈ view s ↔ s.Stretches more segment := Iff.rfl

theorem stretches_iff_of_view_eq {a b : Selection} (same : view a = view b) (more : Fin 2)
    (segment : Nat) : a.Stretches more segment ↔ b.Stretches more segment :=
  Set.ext_iff.mp same (more, segment)

theorem not_stretches_nil (more segment : Nat) : ¬Stretches [] more segment :=
  fun ⟨_, member, _⟩ => nomatch member

theorem past_head_of_stretches (f : Fragment) (a : Selection) (normal : normalized (f :: a))
    (more segment : Nat) (inside : a.Stretches more segment) : f.last < segment := by
  obtain ⟨after_f, _⟩ := (normalized_cons f a).mp normal
  obtain ⟨h, member, within, _⟩ := inside
  have apart := after_f h member
  simp only [Fragment.Before] at apart
  omega

theorem first_le_of_stretches (f : Fragment) (a : Selection) (normal : normalized (f :: a))
    (more segment : Nat) (inside : Stretches (f :: a) more segment) : f.first ≤ segment := by
  have ordered := f.first_le_last
  rcases (stretches_cons f a more segment).mp inside with within | later
  · exact within.1
  · have past := past_head_of_stretches f a normal more segment later
    omega

/-- What begins within the first fragment of a normalized selection also ends there. -/
theorem stretches_within_head (f : Fragment) (a : Selection) (normal : normalized (f :: a))
    (more segment : Nat) (inside : Stretches (f :: a) more segment)
    (begins : segment ≤ f.last) : segment + more ≤ f.last := by
  rcases (stretches_cons f a more segment).mp inside with within | later
  · exact within.2
  · have past := past_head_of_stretches f a normal more segment later
    omega

theorem stretches_tail_iff (f : Fragment) (a : Selection) (normal : normalized (f :: a))
    (more segment : Nat) :
    a.Stretches more segment ↔ f.last < segment ∧ Stretches (f :: a) more segment := by
  rw [stretches_cons]
  constructor
  · intro later
    exact ⟨past_head_of_stretches f a normal more segment later, Or.inr later⟩
  · rintro ⟨past, within | later⟩
    · omega
    · exact later

theorem stretches_head (f : Fragment) (a : Selection) (more segment : Nat)
    (within : f.first ≤ segment) (reaches : segment + more ≤ f.last) :
    Stretches (f :: a) more segment := ⟨f, List.mem_cons_self, within, reaches⟩

theorem first_le_of_view_eq (f g : Fragment) (a b : Selection) (normal : normalized (f :: a))
    (same : view (f :: a) = view (g :: b)) : f.first ≤ g.first := by
  have held := stretches_head g b 0 g.first (Nat.le_refl _) g.first_le_last
  exact first_le_of_stretches f a normal 0 g.first
    ((stretches_iff_of_view_eq same 0 g.first).mpr held)

theorem last_le_of_view_eq (f g : Fragment) (a b : Selection) (normal : normalized (f :: a))
    (same : view (f :: a) = view (g :: b)) (begins : f.first = g.first) : g.last ≤ f.last := by
  have ordered := f.first_le_last
  by_contra longer
  -- `g` holds the last segment of `f` together with the next one, and `f :: a` does not.
  have joined := stretches_head g b 1 f.last (by omega) (by omega)
  have reaches := stretches_within_head f a normal 1 f.last
    ((stretches_iff_of_view_eq same 1 f.last).mpr joined) (Nat.le_refl _)
  omega

theorem head_eq_of_view_eq (f g : Fragment) (a b : Selection) (normal_a : normalized (f :: a))
    (normal_b : normalized (g :: b)) (same : view (f :: a) = view (g :: b)) : f = g := by
  have begins : f.first = g.first := Nat.le_antisymm
    (first_le_of_view_eq f g a b normal_a same)
    (first_le_of_view_eq g f b a normal_b same.symm)
  have ends : f.last = g.last := Nat.le_antisymm
    (last_le_of_view_eq g f b a normal_b same.symm begins.symm)
    (last_le_of_view_eq f g a b normal_a same begins)
  rw [Fragment.mk.injEq]
  exact ⟨begins, ends⟩

theorem view_tail_eq (f : Fragment) (a b : Selection) (normal_a : normalized (f :: a))
    (normal_b : normalized (f :: b)) (same : view (f :: a) = view (f :: b)) :
    view a = view b := by
  ext ⟨more, segment⟩
  rw [mem_view, mem_view, stretches_tail_iff f a normal_a, stretches_tail_iff f b normal_b,
    stretches_iff_of_view_eq same more segment]

theorem view_cons_ne_nil (f : Fragment) (a : Selection) : view (f :: a) ≠ view [] := by
  intro same
  have held := stretches_head f a 0 f.first (Nat.le_refl _) f.first_le_last
  exact not_stretches_nil 0 f.first ((stretches_iff_of_view_eq same 0 f.first).mp held)

/-- The view is exact: it tells normalized selections apart. -/
theorem eq_of_view_eq (a b : Selection) (normal_a : a.normalized) (normal_b : b.normalized)
    (same : view a = view b) : a = b := by
  induction a generalizing b with
  | nil =>
      cases b with
      | nil => rfl
      | cons g b => exact absurd same.symm (view_cons_ne_nil g b)
  | cons f a ih =>
      cases b with
      | nil => exact absurd same (view_cons_ne_nil f a)
      | cons g b =>
          cases head_eq_of_view_eq f g a b normal_a normal_b same
          have rest := ih b ((normalized_cons f a).mp normal_a).2
            ((normalized_cons f b).mp normal_b).2 (view_tail_eq f a b normal_a normal_b same)
          rw [rest]

theorem view_nil : view [] = ∅ := by
  ext ⟨more, segment⟩
  rw [mem_view]
  exact iff_of_false (not_stretches_nil more segment) (Set.notMem_empty _)

theorem view_union (a b : Selection) (normal_a : a.normalized) (normal_b : b.normalized) :
    view (union a b) = view a ∪ view b := by
  ext ⟨more, segment⟩
  exact stretches_union_iff a b more segment (Nat.le_of_lt_succ more.isLt)
    (ascending_of_normalized a normal_a) (ascending_of_normalized b normal_b)

theorem view_inter (a b : Selection) (normal_a : a.normalized) (normal_b : b.normalized) :
    view (inter a b) = view a ∩ view b := by
  ext ⟨more, segment⟩
  exact stretches_inter_iff a b more segment normal_a normal_b

def Normal := { s : Selection // s.normalized }

namespace Normal

instance : Max Normal := ⟨fun a b => ⟨union a.val b.val, union_normalized _ _⟩⟩

instance : Min Normal :=
  ⟨fun a b => ⟨inter a.val b.val, inter_normalized _ _ a.property b.property⟩⟩

instance : LE Normal := ⟨fun a b => a.val.view ⊆ b.val.view⟩

instance : LT Normal := ⟨fun a b => a.val.view ⊂ b.val.view⟩

theorem view_injective : Function.Injective fun a : Normal => a.val.view :=
  fun a b same => Subtype.ext (eq_of_view_eq _ _ a.property b.property same)

instance : DistribLattice Normal :=
  view_injective.distribLattice _ Iff.rfl Iff.rfl
    (fun a b => view_union _ _ a.property b.property)
    (fun a b => view_inter _ _ a.property b.property)

instance : OrderBot Normal where
  bot := ⟨[], rfl⟩
  bot_le a := by
    change view [] ⊆ a.val.view
    rw [view_nil]
    exact Set.empty_subset _

end Normal

/-- Normalized selections form a distributive lattice with the empty one at the
bottom, as lists of fragments and not only as the segments they hold. -/
theorem normalized_selections_form_lattice (a b c : Selection) (normal_a : a.normalized)
    (normal_b : b.normalized) (normal_c : c.normalized) :
    (union a b = union b a ∧ inter a b = inter b a) ∧
      (union (union a b) c = union a (union b c) ∧
        inter (inter a b) c = inter a (inter b c)) ∧
      (union a a = a ∧ inter a a = a) ∧
      (union a (inter a b) = a ∧ inter a (union a b) = a) ∧
      inter a (union b c) = union (inter a b) (inter a c) ∧
      (union a [] = a ∧ union [] a = a) ∧
      (inter a [] = [] ∧ inter [] a = []) := by
  let x : Normal := ⟨a, normal_a⟩
  let y : Normal := ⟨b, normal_b⟩
  let z : Normal := ⟨c, normal_c⟩
  have stored {s t : Normal} (same : s = t) : s.val = t.val := congrArg Subtype.val same
  exact ⟨⟨stored (sup_comm x y), stored (inf_comm x y)⟩,
    ⟨stored (sup_assoc x y z), stored (inf_assoc x y z)⟩,
    ⟨stored (sup_idem x), stored (inf_idem x)⟩,
    ⟨stored (sup_inf_self (a := x) (b := y)), stored (inf_sup_self (a := x) (b := y))⟩,
    stored (inf_sup_left x y z),
    ⟨stored (sup_bot_eq x), stored (bot_sup_eq x)⟩,
    ⟨stored (inf_bot_eq x), stored (bot_inf_eq x)⟩⟩

/-- Fragments that touch stay apart on both sides of the distributive law. -/
theorem touching_fragments_distribute :
    inter [.fromTo 1 4, .fromTo 5 9] (union [.fromTo 3 6] [.fromTo 7 7, .fromTo 8 12]) =
      [.fromTo 3 4, .fromTo 5 6, .fromTo 7 7, .fromTo 8 9] := by
  obtain ⟨_, _, _, _, distributes, _⟩ := normalized_selections_form_lattice
    [.fromTo 1 4, .fromTo 5 9] [.fromTo 3 6] [.fromTo 7 7, .fromTo 8 12]
    (by decide) (by decide) (by decide)
  rw [distributes]
  cbv

end SegmentQuota.Selection
