import SegmentQuota.Proofs.FirstFault
import SegmentQuota.Proofs.Intersection
import SegmentQuota.Proofs.Sweep
import SegmentQuota.Selection

/-!
Moving selections up the numbering. Whatever compares two bounds comes out the same
when both have moved by the same offset, and so do all sweeps, the joining of
fragments and the search: they run through the moved selections step by step as they
ran before, and what they build has moved with them. Nothing here needs a selection to
be in order. Only the end of the numbering sets a limit to the offset.
-/

namespace SegmentQuota

variable {offset : Nat}

namespace Fragment

structure MovedBy (offset : Nat) (f g : Fragment) : Prop where
  first : g.first = f.first + offset
  last : g.last = f.last + offset

theorem shift_eq_ok_iff (f g : Fragment) (offset : Nat) :
    f.shift offset = .ok g ↔ MovedBy offset f g := by
  rw [shift]
  split
  next fits =>
    rw [Except.ok.injEq, mk.injEq]
    constructor
    · rintro ⟨first, last⟩
      exact ⟨first.symm, last.symm⟩
    · intro moved
      exact ⟨moved.first.symm, moved.last.symm⟩
  next past =>
    constructor
    · intro same
      cases same
    · intro moved
      rw [← moved.last] at past
      exact absurd g.last_le past

theorem shift_eq_error_iff (f : Fragment) (offset : Nat) (fault : Fault) :
    f.shift offset = .error fault ↔
      Count.largest < f.last + offset ∧ fault = .pastTheEnd f.first f.last offset := by
  rw [shift]
  split
  next fits => simp [Nat.not_lt.mpr fits]
  next past => simp [Nat.not_le.mp past, eq_comm]

theorem shift_ok_iff (f : Fragment) (offset : Nat) :
    (∃ g, f.shift offset = .ok g) ↔ f.last + offset ≤ Count.largest := by
  rw [shift]
  split
  next fits => simp [fits]
  next past => simp [past]

variable {f f' g g' : Fragment}

theorem MovedBy.before_iff (moved_f : MovedBy offset f f') (moved_g : MovedBy offset g g') :
    f'.Before g' ↔ f.Before g := by
  simp only [Before, moved_f.last, moved_g.first]
  omega

theorem MovedBy.overlaps_iff (moved_f : MovedBy offset f f') (moved_g : MovedBy offset g g') :
    f'.Overlaps g' ↔ f.Overlaps g := by
  simp only [Overlaps, moved_f.before_iff moved_g, moved_g.before_iff moved_f]

theorem MovedBy.precedes_iff (moved_f : MovedBy offset f f') (moved_g : MovedBy offset g g') :
    f'.precedes g' ↔ f.precedes g := by
  simp only [Fragment.precedes_iff, moved_f.first, moved_f.last, moved_g.first, moved_g.last]
  omega

theorem MovedBy.size_eq (moved : MovedBy offset f f') : f'.size = f.size := by
  simp only [size, moved.first, moved.last]
  omega

theorem MovedBy.spanSize_eq (moved_f : MovedBy offset f f') (moved_g : MovedBy offset g g') :
    f'.spanSize g' = f.spanSize g := by
  simp only [spanSize, moved_f.first, moved_f.last, moved_g.first, moved_g.last]
  omega

theorem MovedBy.overlap (moved_f : MovedBy offset f f') (moved_g : MovedBy offset g g')
    (shared : f.Overlaps g) (shared' : f'.Overlaps g') :
    MovedBy offset (f.overlap g shared) (f'.overlap g' shared') := by
  constructor
  · simp only [Fragment.overlap, moved_f.first, moved_g.first, Nat.add_max_add_right]
  · simp only [Fragment.overlap, moved_f.last, moved_g.last, Nat.add_min_add_right]

theorem MovedBy.lengthen (moved_f : MovedBy offset f f') (moved_g : MovedBy offset g g') :
    MovedBy offset (f.lengthen g) (f'.lengthen g') := by
  constructor
  · exact moved_f.first
  · simp only [Fragment.lengthen, moved_f.last, moved_g.last, Nat.add_max_add_right]

theorem MovedBy.last_lt_iff (moved : MovedBy offset f f') (segment : Nat) :
    f'.last < segment + offset ↔ f.last < segment := by
  rw [moved.last, Nat.add_lt_add_iff_right]

theorem MovedBy.lt_first_iff (moved : MovedBy offset f f') (segment : Nat) :
    segment + offset < f'.first ↔ segment < f.first := by
  rw [moved.first, Nat.add_lt_add_iff_right]

theorem MovedBy.trans {x y : Nat} (first : MovedBy x f g) (second : MovedBy y g g') :
    MovedBy (x + y) f g' := by
  constructor
  · rw [second.first, first.first, Nat.add_assoc]
  · rw [second.last, first.last, Nat.add_assoc]

theorem MovedBy.rest {x y : Nat} (first : MovedBy x f g) (both : MovedBy (x + y) f g') :
    MovedBy y g g' := by
  constructor
  · rw [both.first, first.first, Nat.add_assoc]
  · rw [both.last, first.last, Nat.add_assoc]

end Fragment

namespace Selection

abbrev MovedBy (offset : Nat) (s t : Selection) : Prop :=
  List.Forall₂ (Fragment.MovedBy offset) s t

theorem shift_eq_mapM (s : Selection) (offset : Nat) :
    s.shift offset = s.mapM (Fragment.shift · offset) := by
  induction s with
  | nil => rfl
  | cons f rest ih =>
      rw [shift, List.mapM_cons, ← ih]
      cases f.shift offset with
      | error fault => rfl
      | ok moved => cases shift rest offset <;> rfl

theorem shift_eq_ok_iff (s t : Selection) (offset : Nat) :
    s.shift offset = .ok t ↔ s.MovedBy offset t := by
  simp only [shift_eq_mapM, mapM_eq_ok_iff, Fragment.shift_eq_ok_iff]

theorem shift_eq_error_iff (s : Selection) (offset : Nat) (fault : Fragment.Fault) :
    s.shift offset = .error fault ↔
      ∃ earlier f later, s = earlier ++ f :: later ∧
        (∀ g ∈ earlier, g.last + offset ≤ Count.largest) ∧
        Count.largest < f.last + offset ∧ fault = .pastTheEnd f.first f.last offset := by
  simp only [shift_eq_mapM, mapM_eq_error_iff, Fragment.shift_ok_iff, Fragment.shift_eq_error_iff]

theorem shift_ok_iff (s : Selection) (offset : Nat) :
    (∃ t, s.shift offset = .ok t) ↔ ∀ f ∈ s, f.last + offset ≤ Count.largest := by
  cases shifted : s.shift offset with
  | ok t =>
      refine iff_of_true ⟨t, rfl⟩ ?_
      rw [shift_eq_ok_iff] at shifted
      induction shifted with
      | nil => simp
      | cons moved _ ih =>
          exact List.forall_mem_cons.mpr ⟨moved.last ▸ Fragment.last_le _, ih⟩
  | error fault =>
      refine iff_of_false nofun fun fits => ?_
      obtain ⟨earlier, f, later, rfl, _, past, _⟩ := (shift_eq_error_iff s offset fault).mp shifted
      have fits_f := fits f (by simp)
      omega

variable {a b a' b' : Selection}

theorem sizes_moved (moved : a.MovedBy offset a') : a'.map Fragment.size = a.map Fragment.size := by
  induction moved with
  | nil => rfl
  | cons head _ ih => rw [List.map_cons, List.map_cons, head.size_eq, ih]

theorem total_moved (moved : a.MovedBy offset a') : a'.total = a.total := by
  rw [total, total, sizes_moved moved]

theorem normalized_moved (moved : a.MovedBy offset a') : a'.normalized = a.normalized := by
  induction moved with
  | nil => rfl
  | cons head rest ih =>
      cases rest with
      | nil => rfl
      | cons next later => simp only [normalized, ih, head.before_iff next]

theorem steps_moved (moved_a : a.MovedBy offset a') (moved_b : b.MovedBy offset b') :
    steps a' b' = steps a b := by
  induction a, b using sweep_induction generalizing a' b' with
  | left_done b =>
      cases moved_a
      simp only [steps_nil_left, sizes_moved moved_b]
  | right_done a =>
      cases moved_b
      simp only [steps_nil_right, sizes_moved moved_a]
  | before f a g b early ih =>
      cases moved_a with | cons head_a rest_a =>
      cases moved_b with | cons head_b rest_b =>
      rw [steps_before f g a b early, steps_before _ _ _ _ ((head_a.before_iff head_b).mpr early),
        head_a.size_eq, ih rest_a (.cons head_b rest_b)]
  | after f a g b early ih =>
      cases moved_a with | cons head_a rest_a =>
      cases moved_b with | cons head_b rest_b =>
      rw [steps_after f g a b early, steps_after _ _ _ _ ((head_b.before_iff head_a).mpr early),
        head_b.size_eq, ih (.cons head_a rest_a) rest_b]
  | overlap f a g b shared _ _ ih =>
      cases moved_a with | cons head_a rest_a =>
      cases moved_b with | cons head_b rest_b =>
      rw [steps_overlap f g a b shared,
        steps_overlap _ _ _ _ ((head_a.overlaps_iff head_b).mpr shared),
        head_a.spanSize_eq head_b, ih rest_a rest_b]

theorem tally_moved (moved_a : a.MovedBy offset a') (moved_b : b.MovedBy offset b') :
    tally a' b' = tally a b := by
  rw [tally_eq_sum, tally_eq_sum, steps_moved moved_a moved_b]

theorem exceeds_moved (moved_a : a.MovedBy offset a') (moved_b : b.MovedBy offset b')
    (limit : Nat) : exceeds a' b' limit = exceeds a b limit := by
  rw [exceeds, exceeds, steps_moved moved_a moved_b]

theorem inter_moved (moved_a : a.MovedBy offset a') (moved_b : b.MovedBy offset b') :
    (inter a b).MovedBy offset (inter a' b') := by
  induction a, b using sweep_induction generalizing a' b' with
  | left_done b =>
      cases moved_a
      simp only [inter_nil_left, List.Forall₂.nil]
  | right_done a =>
      cases moved_b
      simp only [inter_nil_right, List.Forall₂.nil]
  | before f a g b early ih =>
      cases moved_a with | cons head_a rest_a =>
      cases moved_b with | cons head_b rest_b =>
      rw [inter_before f g a b early, inter_before _ _ _ _ ((head_a.before_iff head_b).mpr early)]
      exact ih rest_a (.cons head_b rest_b)
  | after f a g b late ih =>
      cases moved_a with | cons head_a rest_a =>
      cases moved_b with | cons head_b rest_b =>
      rw [inter_after f g a b late, inter_after _ _ _ _ ((head_b.before_iff head_a).mpr late)]
      exact ih (.cons head_a rest_a) rest_b
  | overlap f a g b shared drop_left drop_right drop_both =>
      cases moved_a with | cons head_a rest_a =>
      cases moved_b with | cons head_b rest_b =>
      have shared' := (head_a.overlaps_iff head_b).mpr shared
      rw [inter_overlap f g a b shared, inter_overlap _ _ _ _ shared']
      refine .cons (head_a.overlap head_b shared shared') ?_
      simp only [head_a.last, head_b.last, Nat.add_lt_add_iff_right]
      split
      · exact drop_left rest_a (.cons head_b rest_b)
      · split
        · exact drop_right (.cons head_a rest_a) rest_b
        · exact drop_both rest_a rest_b

theorem merge_moved (moved_a : a.MovedBy offset a') (moved_b : b.MovedBy offset b') :
    MovedBy offset (a.merge b Fragment.precedes) (a'.merge b' Fragment.precedes) := by
  induction moved_a generalizing b b' with
  | nil => simpa using moved_b
  | cons head_a rest_a ih_a =>
      induction moved_b with
      | nil => simpa using List.Forall₂.cons head_a rest_a
      | cons head_b rest_b ih_b =>
          simp only [List.cons_merge_cons, head_a.precedes_iff head_b]
          split
          · exact .cons head_a (ih_a (.cons head_b rest_b))
          · exact .cons head_b ih_b

theorem absorb_moved {current current' : Fragment} (head : current.MovedBy offset current')
    (moved : a.MovedBy offset a') : (absorb current a).MovedBy offset (absorb current' a') := by
  induction moved generalizing current current' with
  | nil => exact .cons head .nil
  | cons next _ ih =>
      simp only [absorb, head.last, next.first, Nat.add_le_add_iff_right]
      split
      · exact ih (head.lengthen next)
      · exact .cons head (ih next)

theorem coalesce_moved (moved : a.MovedBy offset a') :
    (coalesce a).MovedBy offset (coalesce a') := by
  cases moved with
  | nil => exact .nil
  | cons head rest => exact absorb_moved head rest

theorem union_moved (moved_a : a.MovedBy offset a') (moved_b : b.MovedBy offset b') :
    (union a b).MovedBy offset (union a' b') := coalesce_moved (merge_moved moved_a moved_b)

theorem searchWindow_moved (moved : a.MovedBy offset a') (segment low high : Nat)
    (inside : high ≤ a.length) (inside' : high ≤ a'.length) :
    searchWindow a' (segment + offset) low high inside' =
      searchWindow a segment low high inside := by
  have reachable' {index : Nat} (within : index < a.length) : index < a'.length :=
    moved.length_eq ▸ within
  fun_induction searchWindow a segment low high inside with
  | case1 low high inside more middle reachable f ends ih =>
      have head : f.MovedBy offset a'[middle] := moved.get reachable (reachable' reachable)
      rw [searchWindow, dif_pos more, if_pos ((head.last_lt_iff segment).mpr ends)]
      exact ih inside'
  | case2 low high inside more middle reachable f ends begins ih =>
      have head : f.MovedBy offset a'[middle] := moved.get reachable (reachable' reachable)
      rw [searchWindow, dif_pos more, if_neg (mt (head.last_lt_iff segment).mp ends),
        if_pos ((head.lt_first_iff segment).mpr begins)]
      exact ih _
  | case3 low high inside more middle reachable f ends begins =>
      have head : f.MovedBy offset a'[middle] := moved.get reachable (reachable' reachable)
      rw [searchWindow, dif_pos more, if_neg (mt (head.last_lt_iff segment).mp ends),
        if_neg (mt (head.lt_first_iff segment).mp begins)]
  | case4 low high inside done => rw [searchWindow, dif_neg done]

theorem find_moved (moved : a.MovedBy offset a') (segment start stop : Nat) :
    find? a' (segment + offset) start stop = find? a segment start stop := by
  simp only [find?, moved.length_eq]
  exact searchWindow_moved moved segment start _ _ _

theorem moved_trans {s t u : Selection} {x y : Nat} (first : s.MovedBy x t)
    (second : t.MovedBy y u) : s.MovedBy (x + y) u := by
  induction first generalizing u with
  | nil =>
      cases second
      exact .nil
  | cons head _ ih =>
      cases second with | cons next rest =>
      exact .cons (head.trans next) (ih rest)

theorem moved_rest {s t u : Selection} {x y : Nat} (first : s.MovedBy x t)
    (both : s.MovedBy (x + y) u) : t.MovedBy y u := by
  induction first generalizing u with
  | nil =>
      cases both
      exact .nil
  | cons head _ ih =>
      cases both with | cons far rest =>
      exact .cons (head.rest far) (ih rest)

/-- In two steps as far as in one: what the second step has room for, the first has too. -/
theorem shift_shift_iff (s u : Selection) (x y : Nat) :
    (∃ t, s.shift x = .ok t ∧ t.shift y = .ok u) ↔ s.shift (x + y) = .ok u := by
  simp only [shift_eq_ok_iff]
  constructor
  · rintro ⟨t, first, second⟩
    exact moved_trans first second
  · intro both
    have room : ∀ f ∈ s, f.last + (x + y) ≤ Count.largest :=
      (shift_ok_iff s (x + y)).mp ⟨u, (shift_eq_ok_iff s u _).mpr both⟩
    obtain ⟨t, shifted⟩ := (shift_ok_iff s x).mpr fun f member => by
      have fits := room f member
      omega
    have first := (shift_eq_ok_iff s t x).mp shifted
    exact ⟨t, first, moved_rest first both⟩

/-- Moving a selection up works as long as no fragment would pass the last segment, and
the first that would is named. Wherever it works for two selections, it commutes with
their union and intersection and leaves every count, verdict and position as it was. -/
theorem algebra_moves_with_selections (a : Selection) (offset : Nat) :
    ((∃ moved, a.shift offset = .ok moved) ↔ ∀ f ∈ a, f.last + offset ≤ Count.largest) ∧
      (∀ fault, a.shift offset = .error fault ↔
        ∃ earlier f later, a = earlier ++ f :: later ∧
          (∀ g ∈ earlier, g.last + offset ≤ Count.largest) ∧
          Count.largest < f.last + offset ∧ fault = .pastTheEnd f.first f.last offset) ∧
      (∀ moved, a.shift offset = .ok moved ↔ a.MovedBy offset moved) ∧
      (∀ b a' b', a.shift offset = .ok a' → b.shift offset = .ok b' →
        (union a b).shift offset = .ok (union a' b') ∧
          (inter a b).shift offset = .ok (inter a' b') ∧
          tally a' b' = tally a b ∧
          (∀ limit, exceeds a' b' limit = exceeds a b limit) ∧
          a'.total = a.total ∧
          a'.normalized = a.normalized ∧
          ∀ segment start stop,
            find? a' (segment + offset) start stop = find? a segment start stop) ∧
      ∀ more moved, (∃ between, a.shift offset = .ok between ∧ between.shift more = .ok moved) ↔
        a.shift (offset + more) = .ok moved := by
  refine ⟨shift_ok_iff a offset, shift_eq_error_iff a offset,
    fun moved => shift_eq_ok_iff a moved offset, ?_,
    fun more moved => shift_shift_iff a moved offset more⟩
  intro b a' b' shifted_a shifted_b
  have moved_a := (shift_eq_ok_iff a a' offset).mp shifted_a
  have moved_b := (shift_eq_ok_iff b b' offset).mp shifted_b
  refine ⟨?_, ?_, tally_moved moved_a moved_b, exceeds_moved moved_a moved_b,
    total_moved moved_a, normalized_moved moved_a, find_moved moved_a⟩
  · exact (shift_eq_ok_iff _ _ offset).mpr (union_moved moved_a moved_b)
  · exact (shift_eq_ok_iff _ _ offset).mpr (inter_moved moved_a moved_b)

/-- Two fragments out of order that overlap, moved until they end with the numbering. -/
theorem unordered_fragments_moved_to_the_end :
    shift (union [.fromTo 5 9, .fromTo 1 6] [.fromTo 3 4]) (Count.largest - 9) =
        .ok (union [.fromTo (Count.largest - 4) Count.largest,
            .fromTo (Count.largest - 8) (Count.largest - 3)]
          [.fromTo (Count.largest - 6) (Count.largest - 5)]) ∧
      find? [.fromTo (Count.largest - 4) Count.largest,
          .fromTo (Count.largest - 8) (Count.largest - 3)]
        (5 + (Count.largest - 9)) 0 1 = some 0 := by
  obtain ⟨_, _, _, kept, _⟩ :=
    algebra_moves_with_selections [.fromTo 5 9, .fromTo 1 6] (Count.largest - 9)
  obtain ⟨joined, _, _, _, _, _, found⟩ := kept [.fromTo 3 4]
    [.fromTo (Count.largest - 4) Count.largest, .fromTo (Count.largest - 8) (Count.largest - 3)]
    [.fromTo (Count.largest - 6) (Count.largest - 5)] (by decide) (by decide)
  refine ⟨joined, ?_⟩
  rw [found]
  decide +kernel

end Selection

end SegmentQuota
