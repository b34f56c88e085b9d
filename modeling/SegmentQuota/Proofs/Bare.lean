import SegmentQuota.Proofs.Machine
import SegmentQuota.Selection.Text

/-!
Fragments as a machine holds them: two numbers and no promise about them. The
operations here build and measure such pairs with the machine's arithmetic. On
the bounds of a fragment none of them traps, and each comes out with what the
operation on fragments does.
-/

namespace SegmentQuota

open Machine

/-- The two bounds of a fragment, which may be any numbers. -/
structure Bare where
  first : Nat
  last : Nat
  deriving DecidableEq

def Fragment.bare (f : Fragment) : Bare := ⟨f.first, f.last⟩

namespace Bare

open Fragment (Fault Misspelling)

def ofBounds (first last : Nat) : Except Fault Bare :=
  if first = 0 ∨ last < first then .error (.noSuchRange first last) else .ok ⟨first, last⟩

def single (segment : Nat) : Except Fault Bare := ofBounds segment segment

/-- What was made of bounds where nothing but dropping them is left if they are refused. -/
def kept : Except Fault Bare → Except Trap Bare
  | .ok f => .ok f
  | .error _ => .error .refused

def size (f : Bare) : Except Trap Nat := do add Count.largest (← sub f.last f.first) 1

def spanSize (f g : Bare) : Except Trap Nat := do
  add Count.largest (← sub (max f.last g.last) (min f.first g.first)) 1

def contains (f : Bare) (segment : Nat) : Bool := f.first ≤ segment && segment ≤ f.last

def precedes (f g : Bare) : Bool :=
  f.first < g.first || (f.first == g.first && f.last ≤ g.last)

def shift (f : Bare) (offset : Nat) : Except Trap (Except Fault Bare) :=
  match add Count.largest f.last offset with
  | .error _ => .ok (.error (.pastTheEnd f.first f.last offset))
  -- Only the last segment is watched; the first one is added to without a check.
  | .ok last => do return .ok ⟨← add Count.largest f.first offset, last⟩

def extend? (f : Bare) (segment : Nat) : Option Bare :=
  match add Count.largest f.last 1 with
  | .error _ => none
  | .ok next => if next = segment then some ⟨f.first, segment⟩ else none

def readBounds (piece : List Char) : Except Misspelling (Nat × Nat) :=
  if piece.isEmpty then .error .empty
  else
    match piece.span (· != '-') with
    | (only, []) =>
        match Fragment.readBound only with
        | .error cause => .error cause
        | .ok bound => .ok (bound, bound)
    | (low, _ :: high) =>
        if low.isEmpty then .error .firstMissing
        else if high.isEmpty then .error .lastMissing
        else if high.contains '-' then .error .secondDash
        else
          match Fragment.readBound low with
          | .error cause => .error cause
          | .ok first =>
              match Fragment.readBound high with
              | .error cause => .error cause
              | .ok last => .ok (first, last)

def between (first last : Nat) : Except Trap (Except Misspelling Bare) :=
  if first = 0 then .ok (.error .zero)
  else if last < first then .ok (.error .reversed)
  else do return .ok (← kept (ofBounds first last))

def readPiece (piece : List Char) : Except Trap (Except Misspelling Bare) :=
  match readBounds piece with
  | .error cause => .ok (.error cause)
  | .ok (first, last) => between first last

def columns (width segments : Nat) (f : Bare) : Except Trap (Nat × Nat) :=
  if segments = 0 || width = 0 then .ok (0, 0)
  else do
    -- The products have the double width, and the columns are narrowed in the end.
    let start := min (← div (← mul wide (← sub f.first 1) width) segments) width
    let stop := min (← ceilDiv wide (← mul wide f.last width) segments) width
    return (← fit Count.largest start, ← fit Count.largest (max start stop))

end Bare

namespace Fragment

theorem bare_injective : Function.Injective bare := by
  intro f g same
  obtain ⟨first, last⟩ := f
  obtain ⟨first', last'⟩ := g
  simpa [bare] using same

theorem ofBounds_bare {first last : Nat} (bounded : last ≤ Count.largest) :
    Bare.ofBounds first last = (ofBounds first last).map bare := by
  by_cases proper : 0 < first ∧ first ≤ last
  · have right : 0 < first ∧ first ≤ last ∧ last ≤ Count.largest :=
      ⟨proper.1, proper.2, bounded⟩
    rw [Bare.ofBounds, if_neg (by omega), ofBounds, dif_pos right]
    rfl
  · have wrong : ¬(0 < first ∧ first ≤ last ∧ last ≤ Count.largest) := by tauto
    rw [Bare.ofBounds, if_pos (by omega), ofBounds, dif_neg wrong]
    rfl

/-- The bounds of a fragment are never refused. -/
theorem ofBounds_eq_ok (f : Fragment) : Bare.ofBounds f.first f.last = .ok f.bare := by
  have positive := f.first_pos
  have ordered := f.first_le_last
  rw [Bare.ofBounds, if_neg (by omega)]
  rfl

theorem kept_bare (f : Fragment) : Bare.kept (Bare.ofBounds f.first f.last) = .ok f.bare := by
  rw [f.ofBounds_eq_ok]
  rfl

theorem single_bare {segment : Nat} (bounded : segment ≤ Count.largest) :
    Bare.single segment = (single segment).map bare := ofBounds_bare bounded

/-- A fragment's size has a place in the width because its first segment is not zero. -/
theorem size_bare (f : Fragment) : f.bare.size = .ok f.size := by
  have small : f.last - f.first + 1 ≤ Count.largest := f.size_le
  simp only [Bare.size, bare, sub_of_le f.first_le_last, ok_bind]
  exact add_of_le small

example : Bare.size ⟨0, Count.largest⟩ = .error .tooLarge := by decide

theorem spanSize_bare (f g : Fragment) : f.bare.spanSize g.bare = .ok (f.spanSize g) := by
  have ordered : min f.first g.first ≤ max f.last g.last :=
    (Nat.min_le_left _ _).trans (f.first_le_last.trans (Nat.le_max_left _ _))
  have small : max f.last g.last - min f.first g.first + 1 ≤ Count.largest := by
    have positive : 0 < min f.first g.first := Nat.lt_min.mpr ⟨f.first_pos, g.first_pos⟩
    have bounded : max f.last g.last ≤ Count.largest := Nat.max_le.mpr ⟨f.last_le, g.last_le⟩
    omega
  simp only [Bare.spanSize, bare, sub_of_le ordered, ok_bind]
  exact add_of_le small

theorem contains_bare (f : Fragment) (segment : Nat) :
    f.bare.contains segment = f.contains segment := rfl

theorem precedes_bare (f g : Fragment) : f.bare.precedes g.bare = f.precedes g := rfl

/-- The first segment comes before the last, so its sum fits whenever the last one's does. -/
theorem shift_bare (f : Fragment) (offset : Nat) :
    f.bare.shift offset = .ok ((f.shift offset).map bare) := by
  by_cases fits : f.last + offset ≤ Count.largest
  · have below : f.first + offset ≤ Count.largest :=
      (Nat.add_le_add_right f.first_le_last offset).trans fits
    rw [shift, dif_pos fits]
    simp only [Bare.shift, bare, add_of_le fits, add_of_le below, ok_bind]
    rfl
  · rw [shift, dif_neg fits]
    simp only [Bare.shift, bare, add_of_lt (Nat.not_le.mp fits)]
    rfl

theorem extend_bare (f : Fragment) (room : f.last < Count.largest) :
    f.bare.extend? (f.last + 1) = some (f.extend room).bare := by
  have next : add Count.largest f.last 1 = .ok (f.last + 1) := add_of_le room
  simp only [Bare.extend?, bare, next, ↓reduceIte]
  rfl

theorem extend_bare_eq_none (f : Fragment) (segment : Nat)
    (apart : ¬(segment = f.last + 1 ∧ f.last < Count.largest)) :
    f.bare.extend? segment = none := by
  by_cases room : f.last + 1 ≤ Count.largest
  · have other : f.last + 1 ≠ segment := fun same => apart ⟨same.symm, room⟩
    simp only [Bare.extend?, bare, add_of_le room, if_neg other]
  · simp only [Bare.extend?, bare, add_of_lt (Nat.not_le.mp room)]

theorem between_bare (first last : { n : Nat // n ≤ Count.largest }) :
    Bare.between first last = .ok ((between first last).map bare) := by
  rw [between]
  split
  case isTrue zero => simp [Bare.between, zero, Except.map]
  case isFalse positive =>
    split
    case isTrue ordered =>
      let f : Fragment :=
        ⟨first, last, Nat.pos_of_ne_zero positive, ordered, last.property⟩
      rw [Bare.between, if_neg positive, if_neg (Nat.not_lt.mpr ordered), kept_bare f]
      rfl
    case isFalse reversed =>
      rw [Bare.between, if_neg positive, if_pos (Nat.not_le.mp reversed)]
      rfl

theorem readPiece_bare (piece : List Char) :
    Bare.readPiece piece = .ok ((readPiece piece).map bare) := by
  rw [Bare.readPiece, Bare.readBounds, readPiece]
  by_cases empty : piece.isEmpty
  · simp only [if_pos empty]
    rfl
  simp only [if_neg empty]
  rcases piece.span (· != '-') with ⟨low, _ | ⟨dash, high⟩⟩
  case nil =>
    dsimp only
    cases readBound low with
    | error cause => rfl
    | ok bound => exact between_bare bound bound
  case cons =>
    dsimp only
    by_cases headless : low.isEmpty
    · simp only [if_pos headless]
      rfl
    by_cases endless : high.isEmpty
    · simp only [if_neg headless, if_pos endless]
      rfl
    by_cases dashed : high.contains '-'
    · simp only [if_neg headless, if_neg endless, if_pos dashed]
      rfl
    simp only [if_neg headless, if_neg endless, if_neg dashed]
    cases readBound low with
    | error cause => rfl
    | ok first =>
        cases readBound high with
        | error cause => rfl
        | ok last => exact between_bare first last

/-- Two 64-bit factors leave room in 128 bits, and what rounding up adds fits as well. -/
theorem columns_bare (f : Fragment) {width segments : Nat} (bounded : width ≤ Count.largest) :
    f.bare.columns width segments = .ok (Bar.columns width segments f) := by
  rw [Bare.columns, Bar.columns]
  split
  case isTrue => rfl
  case isFalse proper =>
    have positive : 0 < segments := by
      simp only [Bool.or_eq_true, decide_eq_true_eq, not_or] at proper
      omega
    have before : (f.first - 1) * width ≤ wide :=
      mul_le_wide ((Nat.sub_le _ _).trans (f.first_le_last.trans f.last_le)) bounded
    have upTo : f.last * width ≤ wide := mul_le_wide f.last_le bounded
    have column (value : Nat) : min value width ≤ Count.largest :=
      (Nat.min_le_right _ _).trans bounded
    simp only [bare, sub_of_le f.first_pos, ok_bind, mul_of_le before, mul_of_le upTo,
      div_of_pos positive, ceilDiv_of_pos positive upTo]
    rw [fit_of_le (column _), fit_of_le (Nat.max_le.mpr ⟨column _, column _⟩)]
    rfl

end Fragment

end SegmentQuota
