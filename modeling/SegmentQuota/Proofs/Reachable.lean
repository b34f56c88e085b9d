import SegmentQuota.Proofs.BareSelections
import SegmentQuota.Proofs.FirstFault

/-!
The bounds that can arise. A list of bare bounds is reachable if the operations
make it from any input, one after the other and in any combination. Such a list
holds the bounds of a selection, whichever way it came about. So no step of the
machine's arithmetic leaves its width on it, and no bounds are refused where the
refusal would lose them.
-/

namespace SegmentQuota

/-- The operations make this list from some input. A fragment stands for the list of it alone. -/
inductive Reachable : BareSelection → Prop where
  | ofBounds {first last : Nat} {f : Bare} (bounded : last ≤ Count.largest)
      (made : Bare.ofBounds first last = .ok f) : Reachable [f]
  | single {segment : Nat} {f : Bare} (bounded : segment ≤ Count.largest)
      (made : Bare.single segment = .ok f) : Reachable [f]
  | parsed {text : String} {s : BareSelection}
      (read : BareSelection.parse text = .ok (.ok s)) : Reachable s
  | gathered {segments : List Nat} {s : BareSelection}
      (bounded : ∀ segment ∈ segments, segment ≤ Count.largest)
      (made : BareSelection.ofSegments segments = .ok s) : Reachable s
  | collected {sources : List BareSelection} {s : BareSelection}
      (reachable : ∀ source ∈ sources, Reachable source)
      (drawn : ∀ f ∈ s, ∃ source ∈ sources, f ∈ source) : Reachable s
  | shifted {s t : BareSelection} {offset : Nat} (source : Reachable s)
      (moved : s.shift offset = .ok (.ok t)) : Reachable t
  | inter {a b c : BareSelection} (left : Reachable a) (right : Reachable b)
      (made : BareSelection.inter a b = .ok c) : Reachable c
  | union {a b c : BareSelection} (left : Reachable a) (right : Reachable b)
      (made : BareSelection.union a b = .ok c) : Reachable c

namespace Reachable

theorem exists_selection {s : BareSelection} (reachable : Reachable s) :
    ∃ t : Selection, t.bare = s := by
  induction reachable with
  | ofBounds bounded made =>
      rw [Fragment.ofBounds_bare bounded] at made
      obtain ⟨f, -, rfl⟩ := (map_eq_ok_iff _ _ _).mp made
      exact ⟨[f], rfl⟩
  | single bounded made =>
      rw [Fragment.single_bare bounded] at made
      obtain ⟨f, -, rfl⟩ := (map_eq_ok_iff _ _ _).mp made
      exact ⟨[f], rfl⟩
  | parsed read =>
      rw [Selection.parse_bare] at read
      obtain ⟨t, -, same⟩ := (map_eq_ok_iff _ _ _).mp (Except.ok.inj read)
      exact ⟨t, same⟩
  | gathered bounded made =>
      rw [Selection.ofSegments_bare _ bounded] at made
      obtain ⟨t, -, same⟩ := (map_eq_ok_iff _ _ _).mp made
      exact ⟨t, same⟩
  | @collected sources s _ drawn ih =>
      have fragments : ∀ f ∈ s, f ∈ Set.range Fragment.bare := by
        intro f member
        obtain ⟨source, among, inside⟩ := drawn f member
        obtain ⟨t, rfl⟩ := ih source among
        obtain ⟨g, -, same⟩ := List.mem_map.mp inside
        exact ⟨g, same⟩
      exact (Set.range_list_map Fragment.bare).ge fragments
  | shifted source moved ih =>
      obtain ⟨t, rfl⟩ := ih
      rw [t.shift_bare] at moved
      obtain ⟨u, -, same⟩ := (map_eq_ok_iff _ _ _).mp (Except.ok.inj moved)
      exact ⟨u, same⟩
  | inter left right made left_ih right_ih =>
      obtain ⟨a, rfl⟩ := left_ih
      obtain ⟨b, rfl⟩ := right_ih
      rw [a.inter_bare b] at made
      exact ⟨_, Except.ok.inj made⟩
  | union left right made left_ih right_ih =>
      obtain ⟨a, rfl⟩ := left_ih
      obtain ⟨b, rfl⟩ := right_ih
      rw [a.union_bare b] at made
      exact ⟨_, Except.ok.inj made⟩

/-- What is reachable is what a selection can be. -/
theorem iff_exists_selection (s : BareSelection) :
    Reachable s ↔ ∃ t : Selection, t.bare = s := by
  refine ⟨exists_selection, ?_⟩
  rintro ⟨t, rfl⟩
  refine @collected (t.map fun f => [f.bare]) _ ?_ ?_
  · intro source among
    obtain ⟨f, -, rfl⟩ := List.mem_map.mp among
    exact ofBounds f.last_le f.ofBounds_eq_ok
  · intro f member
    obtain ⟨g, inside, rfl⟩ := List.mem_map.mp member
    exact ⟨[g.bare], List.mem_map_of_mem inside, List.mem_singleton_self _⟩

end Reachable

namespace BareSelection

/-- Each operation on the bounds of `a` and `b` runs through, and gives what the one on the
selections gives. -/
structure RunsThrough (a b : Selection) (offset segment start stop width segments : Nat) :
    Prop where
  size : ∀ f ∈ a, f.bare.size = .ok f.size
  spanSize : ∀ f ∈ a, ∀ g ∈ b, f.bare.spanSize g.bare = .ok (f.spanSize g)
  shift_each : ∀ f ∈ a, f.bare.shift offset = .ok ((f.shift offset).map Fragment.bare)
  shift : a.bare.shift offset = .ok ((a.shift offset).map Selection.bare)
  find : a.bare.find? segment start stop = .ok (a.find? segment start stop)
  columns : ∀ f ∈ a, f.bare.columns width segments = .ok (Bar.columns width segments f)
  columns_ordered : ∀ f ∈ a,
    (Bar.columns width segments f).1 ≤ (Bar.columns width segments f).2 ∧
      (Bar.columns width segments f).2 ≤ width
  cells : cells width segments a.bare b.bare = .ok (Bar.cells width segments a b)
  inter : inter a.bare b.bare = .ok (a.inter b).bare
  union : union a.bare b.bare = .ok (a.union b).bare

/-- On whatever can arise from the operations the arithmetic stays in its width, every look-up
and range is inside, and no bounds are refused where they would be dropped. -/
theorem reachable_runs_through {s t : BareSelection} (left : Reachable s) (right : Reachable t)
    (offset segment start segments : Nat) {stop width : Nat} (stop_le : stop ≤ Count.largest)
    (width_le : width ≤ Count.largest) :
    (∀ f ∈ s, 1 ≤ f.first ∧ f.first ≤ f.last ∧ f.last ≤ Count.largest) ∧
      (∀ text, parse text = .ok ((Selection.parse text).map Selection.bare)) ∧
      ∃ a b : Selection, a.bare = s ∧ b.bare = t ∧
        RunsThrough a b offset segment start stop width segments := by
  obtain ⟨a, rfl⟩ := left.exists_selection
  obtain ⟨b, rfl⟩ := right.exists_selection
  refine ⟨?_, Selection.parse_bare, a, b, rfl, rfl, ?_⟩
  · intro f member
    obtain ⟨g, -, rfl⟩ := List.mem_map.mp member
    exact ⟨g.first_pos, g.first_le_last, g.last_le⟩
  · exact {
      size := fun f _ => f.size_bare
      spanSize := fun f _ g _ => f.spanSize_bare g
      shift_each := fun f _ => f.shift_bare offset
      shift := a.shift_bare offset
      find := a.find_bare segment start stop stop_le
      columns := fun f _ => f.columns_bare width_le
      columns_ordered := fun f _ =>
        ⟨Bar.columns_ordered width segments f, Bar.columns_within width segments f⟩
      cells := Selection.cells_bare a b segments width_le
      inter := a.inter_bare b
      union := a.union_bare b }

/-- The largest fragment and the last segment, on a bar of the largest width. -/
theorem extremes_run_through :
    Reachable [⟨1, Count.largest⟩] ∧ Reachable [⟨Count.largest, Count.largest⟩] ∧
      RunsThrough [.fromTo 1 Count.largest] [.fromTo Count.largest Count.largest]
        Count.largest Count.largest 0 Count.largest Count.largest 1 := by
  have whole : Bare.ofBounds 1 Count.largest = .ok ⟨1, Count.largest⟩ := by decide
  have left : Reachable [⟨1, Count.largest⟩] := .ofBounds (Nat.le_refl _) whole
  have right : Reachable [⟨Count.largest, Count.largest⟩] := .single (Nat.le_refl _) (by decide)
  obtain ⟨-, -, a, b, same_a, same_b, runs⟩ := reachable_runs_through left right
    Count.largest Count.largest 0 1 (Nat.le_refl _) (Nat.le_refl _)
  have a_is : a = [.fromTo 1 Count.largest] := Selection.bare_injective same_a
  have b_is : b = [.fromTo Count.largest Count.largest] := Selection.bare_injective same_b
  exact ⟨left, right, a_is ▸ b_is ▸ runs⟩

end BareSelection

end SegmentQuota
