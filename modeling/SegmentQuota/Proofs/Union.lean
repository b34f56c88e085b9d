import SegmentQuota.Proofs.Positions
import SegmentQuota.Selection

/-!
What the union of two selections holds. It is normalized whatever it is built
from, and it adds no segment. If the fragments of each selection begin in
ascending order nothing is lost either, and two neighbouring segments lie in one
fragment of the union just when they already did in one fragment of a part:
overlapping fragments are joined, touching ones are not.
-/

namespace SegmentQuota

namespace Fragment

theorem precedes_iff (f g : Fragment) :
    f.precedes g ↔ f.first < g.first ∨ f.first = g.first ∧ f.last ≤ g.last := by
  simp only [precedes, Bool.or_eq_true, Bool.and_eq_true, decide_eq_true_eq, beq_iff_eq]

theorem first_le_of_precedes (f g : Fragment) (earlier : f.precedes g) : f.first ≤ g.first := by
  rw [precedes_iff] at earlier
  omega

theorem first_le_of_not_precedes (f g : Fragment) (later : ¬f.precedes g) :
    g.first ≤ f.first := by
  rw [precedes_iff] at later
  omega

end Fragment

namespace Selection

/-- Some fragment holds `segment` and the `more` segments after it. -/
def Stretches (s : Selection) (more segment : Nat) : Prop :=
  ∃ f ∈ s, f.first ≤ segment ∧ segment + more ≤ f.last

theorem stretches_zero_iff (s : Selection) (segment : Nat) :
    s.Stretches 0 segment ↔ s.Holds segment := by
  simp only [Stretches, Holds, Fragment.contains_iff, Nat.add_zero]

theorem stretches_one_iff (s : Selection) (segment : Nat) :
    s.Stretches 1 segment ↔ s.Joined segment := by
  refine exists_congr fun f => and_congr_right fun _ => ?_
  rw [Fragment.contains_iff, Fragment.contains_iff]
  omega

theorem stretches_cons (f : Fragment) (s : Selection) (more segment : Nat) :
    Stretches (f :: s) more segment ↔
      (f.first ≤ segment ∧ segment + more ≤ f.last) ∨ s.Stretches more segment := by
  simp only [Stretches, List.mem_cons, exists_eq_or_imp]

def Ascending (s : Selection) : Prop := s.Pairwise fun f g => f.first ≤ g.first

instance (s : Selection) : Decidable (Ascending s) :=
  inferInstanceAs (Decidable (s.Pairwise _))

theorem ascending_cons (f : Fragment) (s : Selection) :
    Ascending (f :: s) ↔ (∀ g ∈ s, f.first ≤ g.first) ∧ s.Ascending := List.pairwise_cons

theorem ascending_of_normalized (s : Selection) (normal : s.normalized) : s.Ascending := by
  refine ((normalized_iff_pairwise s).mp normal).imp fun {f g} early => ?_
  exact Nat.le_trans f.first_le_last (Nat.le_of_lt early)

theorem absorb_reached (current next : Fragment) (rest : Selection)
    (reached : next.first ≤ current.last) :
    absorb current (next :: rest) = absorb (current.lengthen next) rest := by
  rw [absorb, if_pos reached]

theorem absorb_apart (current next : Fragment) (rest : Selection)
    (apart : ¬next.first ≤ current.last) :
    absorb current (next :: rest) = current :: absorb next rest := by
  rw [absorb, if_neg apart]

/-- What a fragment is followed by never begins before it, in whatever order the
fragments come: the ones that do are taken in. -/
theorem first_le_of_mem_absorb (current : Fragment) (rest : Selection) :
    ∀ f ∈ absorb current rest, current.first ≤ f.first := by
  induction rest generalizing current with
  | nil => simp [absorb]
  | cons next rest ih =>
      by_cases reached : next.first ≤ current.last
      · rw [absorb_reached current next rest reached]
        exact ih (current.lengthen next)
      · rw [absorb_apart current next rest reached]
        refine List.forall_mem_cons.mpr ⟨Nat.le_refl _, fun f later => ?_⟩
        have ordered := current.first_le_last
        have begins := ih next f later
        omega

theorem absorb_normalized (current : Fragment) (rest : Selection) :
    (absorb current rest).normalized := by
  induction rest generalizing current with
  | nil => rfl
  | cons next rest ih =>
      by_cases reached : next.first ≤ current.last
      · rw [absorb_reached current next rest reached]
        exact ih (current.lengthen next)
      · rw [absorb_apart current next rest reached, normalized_cons]
        refine ⟨fun f later => ?_, ih next⟩
        have begins := first_le_of_mem_absorb next rest f later
        simp only [Fragment.Before]
        omega

/-- A segment of the joined fragments, alone or with its next one, comes from one of them. -/
theorem stretches_of_absorb (current : Fragment) (rest : Selection) (more segment : Nat)
    (short : more ≤ 1) (inside : (absorb current rest).Stretches more segment) :
    Stretches (current :: rest) more segment := by
  induction rest generalizing current with
  | nil => exact inside
  | cons next rest ih =>
      rw [stretches_cons, stretches_cons]
      by_cases reached : next.first ≤ current.last
      · rw [absorb_reached current next rest reached] at inside
        rcases (stretches_cons _ _ _ _).mp (ih (current.lengthen next) inside) with within | later
        -- `next` begins within `current`, so no two neighbours are split between them.
        · simp only [Fragment.lengthen] at within
          omega
        · exact Or.inr (Or.inr later)
      · rw [absorb_apart current next rest reached] at inside
        rcases (stretches_cons _ _ _ _).mp inside with within | later
        · exact Or.inl within
        · exact Or.inr ((stretches_cons _ _ _ _).mp (ih next later))

theorem ascending_lengthen (current next : Fragment) (rest : Selection)
    (ordered : Ascending (current :: next :: rest)) :
    Ascending (current.lengthen next :: rest) := by
  obtain ⟨begins, ordered_next⟩ := (ascending_cons current (next :: rest)).mp ordered
  obtain ⟨_, ordered_rest⟩ := (ascending_cons next rest).mp ordered_next
  exact (ascending_cons _ rest).mpr
    ⟨fun f member => begins f (List.mem_cons_of_mem next member), ordered_rest⟩

/-- When the fragments begin in ascending order, joining them loses nothing. -/
theorem stretches_absorb (current : Fragment) (rest : Selection) (more segment : Nat)
    (ordered : Ascending (current :: rest))
    (inside : Stretches (current :: rest) more segment) :
    (absorb current rest).Stretches more segment := by
  induction rest generalizing current with
  | nil => exact inside
  | cons next rest ih =>
      obtain ⟨begins, ordered_next⟩ := (ascending_cons current (next :: rest)).mp ordered
      have next_begins := begins next List.mem_cons_self
      rw [stretches_cons, stretches_cons] at inside
      by_cases reached : next.first ≤ current.last
      · rw [absorb_reached current next rest reached]
        apply ih (current.lengthen next) (ascending_lengthen current next rest ordered)
        rw [stretches_cons]
        simp only [Fragment.lengthen]
        rcases inside with within | within | later
        · exact Or.inl (by omega)
        · exact Or.inl (by omega)
        · exact Or.inr later
      · rw [absorb_apart current next rest reached, stretches_cons]
        rcases inside with within | later
        · exact Or.inl within
        · exact Or.inr (ih next ordered_next ((stretches_cons next rest more segment).mpr later))

theorem coalesce_normalized (s : Selection) : (coalesce s).normalized := by
  cases s with
  | nil => rfl
  | cons f rest => exact absorb_normalized f rest

theorem stretches_of_coalesce (s : Selection) (more segment : Nat) (short : more ≤ 1)
    (inside : (coalesce s).Stretches more segment) : s.Stretches more segment := by
  cases s with
  | nil => exact inside
  | cons f rest => exact stretches_of_absorb f rest more segment short inside

theorem stretches_coalesce (s : Selection) (more segment : Nat) (ordered : s.Ascending)
    (inside : s.Stretches more segment) : (coalesce s).Stretches more segment := by
  cases s with
  | nil => exact inside
  | cons f rest => exact stretches_absorb f rest more segment ordered inside

theorem stretches_merge (a b : Selection) (more segment : Nat) :
    Stretches (a.merge b Fragment.precedes) more segment ↔
      a.Stretches more segment ∨ b.Stretches more segment := by
  simp only [Stretches, List.mem_merge, or_and_right, exists_or]

theorem first_le_of_mem_merge (low : Nat) (a b : Selection) (begins_a : ∀ f ∈ a, low ≤ f.first)
    (begins_b : ∀ f ∈ b, low ≤ f.first) :
    ∀ f ∈ a.merge b Fragment.precedes, low ≤ f.first := by
  intro f member
  exact (List.mem_merge.mp member).elim (begins_a f) (begins_b f)

theorem ascending_merge (a b : Selection) (ordered_a : a.Ascending) (ordered_b : b.Ascending) :
    Ascending (a.merge b Fragment.precedes) := by
  induction a generalizing b with
  | nil => simpa using ordered_b
  | cons f a ih_a =>
      induction b with
      | nil => simpa using ordered_a
      | cons g b ih_b =>
          obtain ⟨begins_f, rest_a⟩ := (ascending_cons f a).mp ordered_a
          obtain ⟨begins_g, rest_b⟩ := (ascending_cons g b).mp ordered_b
          by_cases earlier : f.precedes g
          · have low := Fragment.first_le_of_precedes f g earlier
            rw [List.cons_merge_cons_pos _ _ _ earlier, ascending_cons]
            refine ⟨?_, ih_a (g :: b) rest_a ordered_b⟩
            apply first_le_of_mem_merge f.first a (g :: b) begins_f
            exact List.forall_mem_cons.mpr
              ⟨low, fun h member => Nat.le_trans low (begins_g h member)⟩
          · have low := Fragment.first_le_of_not_precedes f g earlier
            rw [List.cons_merge_cons_neg _ _ _ earlier, ascending_cons]
            refine ⟨?_, ih_b rest_b⟩
            apply first_le_of_mem_merge g.first (f :: a) b _ begins_g
            exact List.forall_mem_cons.mpr
              ⟨low, fun h member => Nat.le_trans low (begins_f h member)⟩

theorem union_normalized (a b : Selection) : (union a b).normalized := coalesce_normalized _

theorem stretches_of_union (a b : Selection) (more segment : Nat) (short : more ≤ 1)
    (inside : (union a b).Stretches more segment) :
    a.Stretches more segment ∨ b.Stretches more segment :=
  (stretches_merge a b more segment).mp (stretches_of_coalesce _ more segment short inside)

theorem stretches_union_iff (a b : Selection) (more segment : Nat) (short : more ≤ 1)
    (ordered_a : a.Ascending) (ordered_b : b.Ascending) :
    (union a b).Stretches more segment ↔
      a.Stretches more segment ∨ b.Stretches more segment := by
  refine ⟨stretches_of_union a b more segment short, fun inside => ?_⟩
  exact stretches_coalesce _ more segment (ascending_merge a b ordered_a ordered_b)
    ((stretches_merge a b more segment).mpr inside)

theorem holds_of_union (a b : Selection) (segment : Nat) (inside : (union a b).Holds segment) :
    a.Holds segment ∨ b.Holds segment := by
  simp only [← stretches_zero_iff] at *
  exact stretches_of_union a b 0 segment (Nat.zero_le 1) inside

theorem holds_union_iff (a b : Selection) (segment : Nat) (ordered_a : a.Ascending)
    (ordered_b : b.Ascending) :
    (union a b).Holds segment ↔ a.Holds segment ∨ b.Holds segment := by
  simp only [← stretches_zero_iff]
  exact stretches_union_iff a b 0 segment (Nat.zero_le 1) ordered_a ordered_b

theorem joined_union_iff (a b : Selection) (segment : Nat) (ordered_a : a.Ascending)
    (ordered_b : b.Ascending) :
    (union a b).Joined segment ↔ a.Joined segment ∨ b.Joined segment := by
  simp only [← stretches_one_iff]
  exact stretches_union_iff a b 1 segment (Nat.le_refl 1) ordered_a ordered_b

theorem positions_union_subset (a b : Selection) :
    positions (union a b) ⊆ positions a ∪ positions b := by
  intro segment member
  rw [Finset.mem_union, mem_positions, mem_positions]
  exact holds_of_union a b segment ((mem_positions _ segment).mp member)

theorem positions_union (a b : Selection) (ordered_a : a.Ascending) (ordered_b : b.Ascending) :
    positions (union a b) = positions a ∪ positions b := by
  ext segment
  rw [Finset.mem_union, mem_positions, mem_positions, mem_positions]
  exact holds_union_iff a b segment ordered_a ordered_b

/-- The union of any two selections is normalized and holds nothing new. Taken
from selections whose fragments begin in ascending order it holds all that they
hold, and keeps two neighbouring segments together just where one of them did. -/
theorem union_joins_overlaps (a b : Selection) :
    (union a b).normalized ∧
      positions (union a b) ⊆ positions a ∪ positions b ∧
      (a.Ascending → b.Ascending →
        positions (union a b) = positions a ∪ positions b ∧
          ∀ segment, (union a b).Joined segment ↔ a.Joined segment ∨ b.Joined segment) :=
  ⟨union_normalized a b, positions_union_subset a b, fun ordered_a ordered_b =>
    ⟨positions_union a b ordered_a ordered_b,
      fun segment => joined_union_iff a b segment ordered_a ordered_b⟩⟩

/-- The fragment that only touches another one is kept, and kept apart. -/
theorem touching_fragment_stays_apart :
    (union [.fromTo 1 9, .fromTo 3 4] [.fromTo 10 12]).Holds 10 ∧
      ¬(union [.fromTo 1 9, .fromTo 3 4] [.fromTo 10 12]).Joined 9 := by
  have kept := (union_joins_overlaps [.fromTo 1 9, .fromTo 3 4] [.fromTo 10 12]).2.2
    (by decide) (by decide)
  rw [← mem_positions, kept.1, kept.2]
  decide

end Selection

end SegmentQuota
