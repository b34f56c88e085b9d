import SegmentQuota.Proofs.RoundTrip
import SegmentQuota.Proofs.Translation

/-!
A document in parts, each with a numbering and a selection of its own. Moved up by the
lengths before it, a selection keeps within the numbers of its part, so the moved
selections one after the other are normalized as they stand. Everything else follows
from that: there is nothing to join, nothing is shared and nothing is counted twice.
Fragments that touch at the border of two parts stay apart.
-/

namespace SegmentQuota

namespace Selection

theorem normalized_append (a b : Selection) :
    normalized (a ++ b) ↔ a.normalized ∧ b.normalized ∧ ∀ f ∈ a, ∀ g ∈ b, f.Before g := by
  simp only [normalized_iff_pairwise, List.pairwise_append]

theorem absorb_of_normalized (f : Fragment) (s : Selection) (normal : normalized (f :: s)) :
    absorb f s = f :: s := by
  induction s generalizing f with
  | nil => rfl
  | cons g s ih =>
      obtain ⟨early, later⟩ := (normalized_cons f (g :: s)).mp normal
      rw [absorb_apart f g s (Nat.not_le.mpr (early g List.mem_cons_self)), ih g later]

theorem coalesce_of_normalized (s : Selection) (normal : s.normalized) : coalesce s = s := by
  cases s with
  | nil => rfl
  | cons f s => exact absorb_of_normalized f s normal

section Following

variable (a b : Selection) (normal : normalized (a ++ b))

include normal

theorem union_following : union a b = a ++ b := by
  obtain ⟨_, _, apart⟩ := (normalized_append a b).mp normal
  have in_order : ∀ f g, f ∈ a → g ∈ b → f.precedes g := by
    intro f g in_a in_b
    have bounds := f.first_le_last
    have early : f.last < g.first := apart f in_a g in_b
    rw [Fragment.precedes_iff]
    omega
  rw [union, List.merge_of_le in_order, coalesce_of_normalized _ normal]

theorem inter_following : inter a b = [] := by
  obtain ⟨_, _, apart⟩ := (normalized_append a b).mp normal
  rw [List.eq_nil_iff_forall_not_mem]
  intro h produced
  obtain ⟨f, in_a, g, in_b, shared, _⟩ :=
    (mem_overlaps a b h).mp (inter_subset_overlaps a b produced)
  exact shared.1 (apart f in_a g in_b)

theorem sizes_following : (steps a b).sum = sizes (a ++ b) := by
  obtain ⟨-, -, apart⟩ := (normalized_append a b).mp normal
  clear normal
  induction a with
  | nil => rw [steps_nil_left]; rfl
  | cons f a ih =>
      obtain ⟨early, apart⟩ := List.forall_mem_cons.mp apart
      cases b with
      | nil => rw [steps_nil_right, List.append_nil]; rfl
      | cons g b =>
          rw [steps_before f g a b (early g List.mem_cons_self), List.sum_cons, ih apart,
            List.cons_append, sizes_cons]

theorem total_following : total (a ++ b) = total a + total b := by
  obtain ⟨normal_a, normal_b, _⟩ := (normalized_append a b).mp normal
  rw [total_eq_sizes_of_normalized _ normal, total_eq_sizes_of_normalized a normal_a,
    total_eq_sizes_of_normalized b normal_b]
  simp only [sizes, List.map_append, List.sum_append]

theorem tally_following : tally a b = total a + total b := by
  rw [tally_eq_min, sizes_following a b normal, ← total_eq_min, total_following a b normal]

end Following

theorem foldl_union_following (start : Selection) (parts : List Selection)
    (normal : normalized (start ++ parts.flatten)) :
    parts.foldl union start = start ++ parts.flatten := by
  induction parts generalizing start with
  | nil => rw [List.foldl_nil, List.flatten_nil, List.append_nil]
  | cons part rest ih =>
      rw [List.flatten_cons, ← List.append_assoc] at normal
      obtain ⟨normal_start, _, _⟩ := (normalized_append (start ++ part) rest.flatten).mp normal
      rw [List.foldl_cons, union_following start part normal_start, ih _ normal,
        List.flatten_cons, List.append_assoc]

theorem total_flatten (parts : List Selection) (normal : normalized parts.flatten) :
    total parts.flatten = (parts.map total).sum := by
  induction parts with
  | nil => rfl
  | cons part rest ih =>
      rw [List.flatten_cons] at normal ⊢
      obtain ⟨_, normal_rest, _⟩ := (normalized_append part rest.flatten).mp normal
      rw [total_following part rest.flatten normal, ih normal_rest, List.map_cons, List.sum_cons]

theorem encode_eq_intercalate (s : Selection) :
    encode s = ",".intercalate (s.map Fragment.encode) := by
  apply String.toList_injective
  rw [String.toList_intercalate, encode, String.toList_ofList, List.map_map]
  simp only [Function.comp_def, Fragment.encode, String.toList_ofList]
  rfl

theorem encode_append (a b : Selection) (nonempty_a : a ≠ []) (nonempty_b : b ≠ []) :
    encode (a ++ b) = encode a ++ "," ++ encode b := by
  simp only [encode_eq_intercalate, List.map_append]
  exact String.intercalate_append_of_ne_nil (by simpa using nonempty_a) (by simpa using nonempty_b)

theorem encode_flatten_of_nonempty (parts : List Selection) (nonempty : ∀ part ∈ parts, part ≠ []) :
    encode parts.flatten = ",".intercalate (parts.map encode) := by
  induction parts with
  | nil => rfl
  | cons part rest ih =>
      obtain ⟨nonempty_part, nonempty_rest⟩ := List.forall_mem_cons.mp nonempty
      cases rest with
      | nil => simp
      | cons next later =>
          have joined : (next :: later).flatten ≠ [] := by
            simp [nonempty_rest next List.mem_cons_self]
          rw [List.flatten_cons, encode_append part _ nonempty_part joined, ih nonempty_rest]
          simp only [List.map_cons, String.intercalate_cons_cons]

theorem encode_flatten (parts : List Selection) :
    encode parts.flatten =
      ",".intercalate ((parts.filter fun part => !part.isEmpty).map encode) := by
  rw [← List.flatten_filter_not_isEmpty, encode_flatten_of_nonempty]
  intro part member
  simpa using (List.mem_filter.mp member).2

theorem isEmpty_moved {offset : Nat} {s t : Selection} (moved : s.MovedBy offset t) :
    t.isEmpty = s.isEmpty := by
  cases moved <;> rfl

theorem exists_of_mem_moved {offset : Nat} {s t : Selection} (moved : s.MovedBy offset t) :
    ∀ g ∈ t, ∃ f ∈ s, f.MovedBy offset g := by
  induction moved with
  | nil => simp
  | cons head _ ih =>
      refine List.forall_mem_cons.mpr ⟨⟨_, List.mem_cons_self, head⟩, fun g later => ?_⟩
      obtain ⟨f, member, moved⟩ := ih g later
      exact ⟨f, List.mem_cons_of_mem _ member, moved⟩

end Selection

open Selection

structure Part where
  length : Nat
  selection : Selection
  normal : selection.normalized
  within : ∀ f ∈ selection, f.last ≤ length

namespace Part

/-- Each part with the lengths of those before it added up, beginning from `offset`. -/
def placements (offset : Nat) : List Part → List (Nat × Part)
  | [] => []
  | part :: rest => (offset, part) :: placements (offset + part.length) rest

def Placed (places : List (Nat × Part)) (moved : List Selection) : Prop :=
  places.mapM (fun place => place.2.selection.shift place.1) = .ok moved

theorem placed_iff (places : List (Nat × Part)) (moved : List Selection) :
    Placed places moved ↔
      List.Forall₂ (fun place s => place.2.selection.MovedBy place.1 s) places moved := by
  simp only [Placed, mapM_eq_ok_iff, shift_eq_ok_iff]

theorem exists_placed (parts : List Part) (offset : Nat)
    (fits : offset + (parts.map Part.length).sum ≤ Count.largest) :
    ∃ moved, Placed (placements offset parts) moved := by
  simp only [placed_iff]
  induction parts generalizing offset with
  | nil => exact ⟨[], .nil⟩
  | cons part rest ih =>
      rw [List.map_cons, List.sum_cons] at fits
      obtain ⟨others, later⟩ := ih (offset + part.length) (by omega)
      obtain ⟨first, shifted⟩ := (shift_ok_iff part.selection offset).mpr fun f member => by
        have bounded := part.within f member
        omega
      exact ⟨first :: others, .cons ((shift_eq_ok_iff _ _ _).mp shifted) later⟩

theorem bounds_of_moved (part : Part) (offset : Nat) (s : Selection)
    (moved : part.selection.MovedBy offset s) :
    ∀ g ∈ s, offset < g.first ∧ g.last ≤ offset + part.length := by
  intro g member
  obtain ⟨f, selected, from_f⟩ := exists_of_mem_moved moved g member
  have positive := f.first_pos
  have bounded := part.within f selected
  have first := from_f.first
  have last := from_f.last
  omega

/-- What keeps the parts apart: after each of them, all that follows lies past its end. -/
theorem placed_normalized (parts : List Part) (offset : Nat) (moved : List Selection)
    (placed : Placed (placements offset parts) moved) :
    normalized moved.flatten ∧ ∀ g ∈ moved.flatten, offset < g.first := by
  rw [placed_iff] at placed
  induction parts generalizing offset moved with
  | nil =>
      cases placed
      simp [normalized]
  | cons part rest ih =>
      cases placed with | cons head tail =>
      obtain ⟨normal_rest, past⟩ := ih _ _ tail
      have bounds := part.bounds_of_moved offset _ head
      rw [List.flatten_cons, normalized_append]
      refine ⟨⟨normalized_moved head ▸ part.normal, normal_rest, ?_⟩, ?_⟩
      · intro f in_part g in_rest
        exact Nat.lt_of_le_of_lt (bounds f in_part).2 (past g in_rest)
      · intro g member
        rcases List.mem_append.mp member with in_part | in_rest
        · exact (bounds g in_part).1
        · exact Nat.lt_of_le_of_lt (Nat.le_add_right _ _) (past g in_rest)

theorem placed_totals (parts : List Part) (offset : Nat) (moved : List Selection)
    (placed : Placed (placements offset parts) moved) :
    moved.map total = parts.map fun part => part.selection.total := by
  rw [placed_iff] at placed
  induction parts generalizing offset moved with
  | nil =>
      cases placed
      rfl
  | cons part rest ih =>
      cases placed with | cons head tail =>
      rw [List.map_cons, List.map_cons, total_moved head, ih _ _ tail]

theorem placed_texts (places : List (Nat × Part)) (moved : List Selection)
    (placed : Placed places moved) :
    (places.filter fun place => !place.2.selection.isEmpty).mapM
        (fun place => encodeShifted place.1 place.2.selection) =
      .ok ((moved.filter fun s => !s.isEmpty).map encode) := by
  rw [placed_iff] at placed
  rw [mapM_eq_ok_iff, List.forall₂_map_right_iff]
  induction placed with
  | nil => exact .nil
  | @cons place s places moved head _ ih =>
      have written : encodeShifted place.1 place.2.selection = .ok (encode s) := by
        rw [encodeShifted_eq, (shift_eq_ok_iff _ _ _).mpr head]
        rfl
      have same : s.isEmpty = place.2.selection.isEmpty := isEmpty_moved head
      cases empty : place.2.selection.isEmpty with
      | true => simpa [empty, same] using ih
      | false => simpa [empty, same] using ⟨written, ih⟩

/-- The selections of all parts find room in the numbering of the whole, and their union,
taken one part after the other, is the list of all their fragments as they stand. Its
text and its total come from the parts, and no part shares a segment with those before
it or is counted together with them. -/
theorem parts_join_without_loss (parts : List Part)
    (fits : (parts.map Part.length).sum ≤ Count.largest) :
    ∃ moved, Placed (placements 0 parts) moved ∧
      moved.foldl union [] = moved.flatten ∧
      normalized moved.flatten ∧
      (∃ texts,
        ((placements 0 parts).filter fun place => !place.2.selection.isEmpty).mapM
            (fun place => encodeShifted place.1 place.2.selection) = .ok texts ∧
          encode moved.flatten = ",".intercalate texts) ∧
      total moved.flatten = (parts.map fun part => part.selection.total).sum ∧
      ∀ earlier next later, moved = earlier ++ next :: later →
        inter (earlier.foldl union []) next = [] ∧
          tally (earlier.foldl union []) next = total (earlier.foldl union []) + total next := by
  obtain ⟨moved, placed⟩ := exists_placed parts 0 (by omega)
  obtain ⟨normal, _⟩ := placed_normalized parts 0 moved placed
  refine ⟨moved, placed, foldl_union_following [] moved normal, normal,
    ⟨_, placed_texts _ moved placed, encode_flatten moved⟩, ?_, ?_⟩
  · rw [total_flatten moved normal, placed_totals parts 0 moved placed]
  · rintro earlier next later rfl
    rw [List.flatten_append, List.flatten_cons, ← List.append_assoc] at normal
    obtain ⟨normal_next, _, _⟩ := (normalized_append _ later.flatten).mp normal
    obtain ⟨normal_earlier, _, _⟩ := (normalized_append earlier.flatten next).mp normal_next
    rw [foldl_union_following [] earlier normal_earlier, List.nil_append]
    exact ⟨inter_following _ next normal_next, tally_following _ next normal_next⟩

/-- The last segment of the first part and the first one of the third follow one another
in the whole, and are still in two fragments. -/
theorem touching_parts_stay_apart :
    encode ([[.fromTo 1 3, .fromTo 9 10], [], [.fromTo 11 12]].foldl union []) =
      "1-3,9-10,11-12" := by
  obtain ⟨moved, placed, joined, _⟩ := parts_join_without_loss
    [⟨10, [.fromTo 1 3, .fromTo 9 10], by decide, by decide⟩,
      ⟨0, [], by decide, by decide⟩,
      ⟨5, [.fromTo 1 2], by decide, by decide⟩] (by decide)
  have same : [[.fromTo 1 3, .fromTo 9 10], [], [.fromTo 11 12]] = moved :=
    Except.ok.inj placed
  rw [same, joined, ← same]
  decide +kernel

end Part

end SegmentQuota
