import SegmentQuota.Fragment

/-!
A selection is a list of fragments in the order in which they were given. It is
meant to be normalized: ascending, with no segment in two fragments. Nothing
enforces that, so every operation on selections is defined for all of them. Two
fragments of a normalized selection may touch; they are kept apart. Selections
are combined and measured by sweeping two of them at once, gathered from segment
numbers, and searched by halving.
-/

namespace SegmentQuota

abbrev Selection := List Fragment

namespace Selection

def Holds (s : Selection) (segment : Nat) : Prop := ∃ f ∈ s, f.contains segment

instance (s : Selection) (segment : Nat) : Decidable (s.Holds segment) :=
  inferInstanceAs (Decidable (∃ f ∈ s, _))

def Joined (s : Selection) (segment : Nat) : Prop :=
  ∃ f ∈ s, f.contains segment ∧ f.contains (segment + 1)

instance (s : Selection) (segment : Nat) : Decidable (s.Joined segment) :=
  inferInstanceAs (Decidable (∃ f ∈ s, _))

def normalized : Selection → Bool
  | [] => true
  | [_] => true
  | f :: g :: rest => decide (f.Before g) && normalized (g :: rest)

/-- The sizes of the fragments added up; a segment in two fragments counts twice. -/
def total (s : Selection) : Nat := Count.sum (s.map Fragment.size)

def shift (s : Selection) (offset : Nat) : Except Fragment.Fault Selection :=
  match s with
  | [] => .ok []
  | f :: rest =>
      match f.shift offset with
      | .error fault => .error fault
      | .ok moved =>
          match shift rest offset with
          | .error fault => .error fault
          | .ok others => .ok (moved :: others)

def segments (s : Selection) : List Nat := s.flatMap Fragment.segments

def sorted (s : Selection) : Selection := s.mergeSort Fragment.precedes

theorem holds_cons (f : Fragment) (s : Selection) (segment : Nat) :
    Holds (f :: s) segment ↔ f.contains segment ∨ s.Holds segment := by
  simp only [Holds, List.mem_cons, exists_eq_or_imp]

theorem mem_segments (s : Selection) (segment : Nat) :
    segment ∈ s.segments ↔ s.Holds segment := by
  simp only [segments, Holds, List.mem_flatMap, Fragment.mem_segments]

/-!
Intersection and union of selections. The intersection keeps what the foremost
fragments share and drops whichever of the two ends first, or both when they end
together. The union takes the fragments of both in order and lengthens the
fragment it is building by every later one that overlaps it; fragments that only
touch stay apart.
-/

def inter : Selection → Selection → Selection
  | [], _ => []
  | _, [] => []
  | f :: a, g :: b =>
      if early : f.Before g then inter a (g :: b)
      else if late : g.Before f then inter (f :: a) b
      else
        f.overlap g ⟨early, late⟩ ::
          if f.last < g.last then inter a (g :: b)
          else if g.last < f.last then inter (f :: a) b
          else inter a b
termination_by a b => a.length + b.length

/-- Joins to `current` each following fragment that begins no later than `current` ends. -/
def absorb (current : Fragment) : Selection → Selection
  | [] => [current]
  | next :: rest =>
      if next.first ≤ current.last then absorb (current.lengthen next) rest
      else current :: absorb next rest

def coalesce : Selection → Selection
  | [] => []
  | f :: rest => absorb f rest

def union (a b : Selection) : Selection := coalesce (a.merge b Fragment.precedes)

/-!
How many segments two selections take up together. Both are swept at once. Of
two foremost fragments that lie apart the earlier one is counted and dropped;
two that overlap are counted as the one span around them and both dropped. The
sum of the steps is the tally. Whether the tally passes a limit is decided as
soon as the running sum does.
-/

def steps : Selection → Selection → List Nat
  | [], b => b.map Fragment.size
  | a, [] => a.map Fragment.size
  | f :: a, g :: b =>
      if f.Before g then f.size :: steps a (g :: b)
      else if g.Before f then g.size :: steps (f :: a) b
      else f.spanSize g :: steps a b
termination_by a b => a.length + b.length

def tally (a b : Selection) : Nat :=
  if b.isEmpty then a.total else Count.sum (steps a b)

def passes (limit : Nat) : Nat → List Nat → Bool
  | _, [] => false
  | used, step :: rest =>
      let next := Count.add used step
      if limit < next then true else passes limit next rest

def exceeds (a b : Selection) (limit : Nat) : Bool := passes limit 0 (steps a b)

/-!
Selections from segment numbers. Ascending numbers are gathered into runs: a
number the current run already holds is skipped, the one after its last extends
it, and any other begins a run of its own. On numbers in another order the same
rule applies to each number as it comes.
-/

def gather (run : Fragment) : List Nat → Except Fragment.Fault Selection
  | [] => .ok [run]
  | segment :: rest =>
      if run.contains segment then gather run rest
      else if next : segment = run.last + 1 ∧ run.last < Count.largest then
        gather (run.extend next.2) rest
      else
        match Fragment.single segment with
        | .error fault => .error fault
        | .ok fresh =>
            match gather fresh rest with
            | .error fault => .error fault
            | .ok later => .ok (run :: later)

def ofSegments : List Nat → Except Fragment.Fault Selection
  | [] => .ok []
  | segment :: rest =>
      match Fragment.single segment with
      | .error fault => .error fault
      | .ok run => gather run rest

/-!
Binary search for the fragment that holds a segment. The window of positions is
halved until the middle fragment holds the segment or nothing is left. The
window never leaves the selection, so no look-up can miss.
-/

def searchWindow (s : Selection) (segment low high : Nat) (inside : high ≤ s.length) :
    Option Nat :=
  if more : low < high then
    let middle := low + (high - low) / 2
    have reachable : middle < s.length := by omega
    let f := s[middle]
    if f.last < segment then searchWindow s segment (middle + 1) high inside
    else if segment < f.first then
      searchWindow s segment low middle (Nat.le_of_lt reachable)
    else some middle
  else none
termination_by high - low

/-- The position of a fragment that holds `segment`, from `start` up and below `stop`. -/
def find? (s : Selection) (segment start stop : Nat) : Option Nat :=
  searchWindow s segment start (min stop s.length) (Nat.min_le_right _ _)

end Selection

end SegmentQuota
