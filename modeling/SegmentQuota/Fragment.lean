import SegmentQuota.Number

/-!
A fragment is an unbroken run of document segments, given by its first and its
last one. Segments are numbered from one, so a fragment is never empty. Every
fragment carries the proof of its bounds, and the operations on fragments hand
that proof on: shifting, overlapping and spanning never leave the numbering
without saying so.
-/

namespace SegmentQuota

structure Fragment where
  first : Nat
  last : Nat
  first_pos : 0 < first
  first_le_last : first ≤ last
  last_le : last ≤ Count.largest
  deriving DecidableEq

namespace Fragment

inductive Misspelling where
  | empty
  | firstMissing
  | lastMissing
  | secondDash
  | notDigits
  | tooLarge
  | zero
  | reversed
  deriving DecidableEq

def Misspelling.reason : Misspelling → String
  | .empty => "empty fragment"
  | .firstMissing => "missing begin"
  | .lastMissing => "missing end"
  | .secondDash => "unexpected separator"
  | .notDigits => "not a number"
  | .tooLarge => "number out of range"
  | .zero => "segments are numbered from 1"
  | .reversed => "begin after end"

inductive Fault where
  | misspelled (piece : String) (position : Nat) (cause : Misspelling)
  | noSuchRange (first last : Nat)
  | pastTheEnd (first last offset : Nat)
  deriving DecidableEq

def Fault.message : Fault → String
  | .misspelled piece position cause =>
      let reason := cause.reason
      s!"malformed fragment '{piece}' at position {position}: {reason}"
  | .noSuchRange first last => s!"invalid fragment range [{first}, {last}]"
  | .pastTheEnd first last offset =>
      s!"fragment [{first}, {last}] shifted by {offset} runs past the last segment"

def fromTo (first last : Nat)
    (proper : 0 < first ∧ first ≤ last ∧ last ≤ Count.largest := by decide) : Fragment :=
  ⟨first, last, proper.1, proper.2.1, proper.2.2⟩

def ofBounds (first last : Nat) : Except Fault Fragment :=
  if proper : 0 < first ∧ first ≤ last ∧ last ≤ Count.largest then
    .ok (fromTo first last proper)
  else .error (.noSuchRange first last)

def single (segment : Nat) : Except Fault Fragment := ofBounds segment segment

def size (f : Fragment) : Nat := f.last - f.first + 1

def contains (f : Fragment) (segment : Nat) : Bool :=
  f.first ≤ segment && segment ≤ f.last

def covers (f g : Fragment) : Bool := f.first ≤ g.first && g.last ≤ f.last

def precedes (f g : Fragment) : Bool :=
  f.first < g.first || (f.first == g.first && f.last ≤ g.last)

def order (f g : Fragment) : Ordering :=
  if f = g then .eq else if f.precedes g then .lt else .gt

def segments (f : Fragment) : List Nat := List.range' f.first f.size

def leading (f : Fragment) (count : Nat) : List Nat :=
  List.range' f.first (min count f.size)

def trailing (f : Fragment) (count : Nat) : List Nat :=
  (List.range (min count f.size)).map (f.last - ·)

def shift (f : Fragment) (offset : Nat) : Except Fault Fragment :=
  if fits : f.last + offset ≤ Count.largest then
    .ok ⟨f.first + offset, f.last + offset,
      Nat.lt_of_lt_of_le f.first_pos (Nat.le_add_right _ _),
      Nat.add_le_add_right f.first_le_last offset, fits⟩
  else .error (.pastTheEnd f.first f.last offset)

/-- `f` ends before `g` begins. Fragments that only touch are still apart. -/
def Before (f g : Fragment) : Prop := f.last < g.first

instance (f g : Fragment) : Decidable (f.Before g) :=
  inferInstanceAs (Decidable (f.last < g.first))

def Overlaps (f g : Fragment) : Prop := ¬f.Before g ∧ ¬g.Before f

instance (f g : Fragment) : Decidable (f.Overlaps g) :=
  inferInstanceAs (Decidable (_ ∧ _))

def overlap (f g : Fragment) (shared : f.Overlaps g) : Fragment where
  first := max f.first g.first
  last := min f.last g.last
  first_pos := Nat.lt_of_lt_of_le f.first_pos (Nat.le_max_left _ _)
  first_le_last := by
    have ordered := f.first_le_last
    have other := g.first_le_last
    simp only [Overlaps, Before] at shared
    omega
  last_le := Nat.le_trans (Nat.min_le_left _ _) f.last_le

/-- The number of segments from the lower of the two beginnings to the higher of the two ends. -/
def spanSize (f g : Fragment) : Nat := max f.last g.last - min f.first g.first + 1

def lengthen (f g : Fragment) : Fragment where
  first := f.first
  last := max f.last g.last
  first_pos := f.first_pos
  first_le_last := Nat.le_trans f.first_le_last (Nat.le_max_left _ _)
  last_le := Nat.max_le.mpr ⟨f.last_le, g.last_le⟩

def extend (f : Fragment) (room : f.last < Count.largest) : Fragment where
  first := f.first
  last := f.last + 1
  first_pos := f.first_pos
  first_le_last := Nat.le_succ_of_le f.first_le_last
  last_le := room

theorem contains_iff (f : Fragment) (segment : Nat) :
    f.contains segment ↔ f.first ≤ segment ∧ segment ≤ f.last := by
  simp only [contains, Bool.and_eq_true, decide_eq_true_eq]

/-- Counting a fragment's segments never runs past the largest count. -/
theorem size_le (f : Fragment) : f.size ≤ Count.largest := by
  have positive := f.first_pos
  have ordered := f.first_le_last
  have bounded := f.last_le
  simp only [size]
  omega

theorem length_segments (f : Fragment) : f.segments.length = f.size := List.length_range'

theorem mem_segments (f : Fragment) (segment : Nat) :
    segment ∈ f.segments ↔ f.contains segment := by
  have ordered := f.first_le_last
  simp only [segments, List.mem_range'_1, contains_iff, size]
  omega

end Fragment

end SegmentQuota
