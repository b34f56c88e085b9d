import SegmentQuota.Selection

/-!
A bar of characters that shows where quota and excerpt lie in a document. Each
fragment is drawn from the column its first segment begins in to the column its
last segment ends in, so a fragment inside the document always shows. The
excerpt is drawn first and the quota on top; where both lie the bar says so.
What lies past the end of the document is cut off.
-/

namespace SegmentQuota

structure Glyphs where
  background : Char
  excerpt : Char
  quota : Char
  overlap : Char
  exceeded : Char
  deriving DecidableEq

namespace Bar

inductive Cell where
  | empty
  | excerpt
  | quota
  | both
  deriving DecidableEq

def ceilDiv (num den : Nat) : Nat := (num + den - 1) / den

/-- The first column of a fragment and the one after its last. -/
def columns (width segments : Nat) (f : Fragment) : Nat × Nat :=
  if segments = 0 || width = 0 then (0, 0)
  else
    let start := min ((f.first - 1) * width / segments) width
    let stop := min (ceilDiv (f.last * width) segments) width
    (start, max start stop)

def paint (brush : Cell → Cell) (range : Nat × Nat) (cells : List Cell) : List Cell :=
  cells.mapIdx fun column cell =>
    if range.1 ≤ column && column < range.2 then brush cell else cell

def Cell.underQuota : Cell → Cell
  | .excerpt | .both => .both
  | .empty | .quota => .quota

def Cell.glyph (glyphs : Glyphs) (exceeded : Bool) : Cell → Char
  | .empty => glyphs.background
  | .excerpt => if exceeded then glyphs.exceeded else glyphs.excerpt
  | .quota => glyphs.quota
  | .both => glyphs.overlap

def cells (width segments : Nat) (quota excerpt : Selection) : List Cell :=
  let drawn := excerpt.foldl
    (fun bar f => paint (fun _ => .excerpt) (columns width segments f) bar)
    (List.replicate width .empty)
  quota.foldl (fun bar f => paint Cell.underQuota (columns width segments f) bar) drawn

def render (glyphs : Glyphs) (width segments : Nat) (quota excerpt : Selection)
    (exceeded : Bool) : List Char :=
  (cells width segments quota excerpt).map (Cell.glyph glyphs exceeded)

theorem length_paint (brush : Cell → Cell) (range : Nat × Nat) (cells : List Cell) :
    (paint brush range cells).length = cells.length := List.length_mapIdx

theorem columns_ordered (width segments : Nat) (f : Fragment) :
    (columns width segments f).1 ≤ (columns width segments f).2 := by
  simp only [columns]
  split
  · exact Nat.le_refl _
  · exact Nat.le_max_left _ _

/-- No fragment reaches past the end of the bar. -/
theorem columns_within (width segments : Nat) (f : Fragment) :
    (columns width segments f).2 ≤ width := by
  simp only [columns]
  split
  · exact Nat.zero_le _
  · exact Nat.max_le.mpr ⟨Nat.min_le_right _ _, Nat.min_le_right _ _⟩

end Bar

end SegmentQuota
