import Mathlib
import SegmentQuota.Bar

/-!
Which columns of a bar are drawn. Let each column stand for as many parts as the
document has segments, and each segment for as many parts as the bar has columns:
then both fill the same stretch, and a fragment is drawn in just the columns that it
shares a part with. Rounding its ends to whole columns adds none and drops none.
Hence a column is drawn just when some single segment of the document reaches into
it, and the bar cannot tell how the segments were cut into fragments. What character
stands in a column depends on which of the two selections touch it and on nothing else.
-/

namespace SegmentQuota.Bar

/-- The segments from `first` to `last` share a part with the column. -/
def Touches (width segments first last column : Nat) : Prop :=
  (first - 1) * width < (column + 1) * segments ∧ column * segments < last * width

instance (width segments first last column : Nat) :
    Decidable (Touches width segments first last column) :=
  inferInstanceAs (Decidable (_ ∧ _))

theorem lt_ceilDiv_iff (num den quotient : Nat) (positive : 0 < den) :
    quotient < ceilDiv num den ↔ quotient * den < num := by
  rw [ceilDiv, ← Nat.ceilDiv_eq_add_pred_div, ← not_le, ceilDiv_le_iff_le_mul positive, not_le,
    Nat.mul_comm]

def Spans (range : Nat × Nat) (column : Nat) : Prop := range.1 ≤ column ∧ column < range.2

instance (range : Nat × Nat) (column : Nat) : Decidable (Spans range column) :=
  inferInstanceAs (Decidable (_ ∧ _))

theorem spans_columns_iff (width segments column : Nat) (f : Fragment)
    (inside : column < width) :
    Spans (columns width segments f) column ↔
      Touches width segments f.first f.last column := by
  rcases Nat.eq_zero_or_pos segments with no_segment | positive
  · simp [Spans, columns, Touches, no_segment]
  · have floor : (f.first - 1) * width / segments < column + 1 ↔
        (f.first - 1) * width < (column + 1) * segments := Nat.div_lt_iff_lt_mul positive
    have ceil := lt_ceilDiv_iff (f.last * width) segments column positive
    have some_segment : segments ≠ 0 := by omega
    have some_column : width ≠ 0 := by omega
    simp only [Spans, columns, Touches, some_segment, some_column, decide_false, Bool.or_self,
      Bool.false_eq_true, if_false]
    rw [← floor, ← ceil]
    omega

-- The columns of the bar end where the document ends.
theorem le_segments_of_touches (width segments segment last column : Nat)
    (inside : column < width) (touches : Touches width segments segment last column) :
    segment ≤ segments := by
  obtain ⟨starts, _⟩ := touches
  have ends : (column + 1) * segments ≤ width * segments := Nat.mul_le_mul_right segments inside
  rw [Nat.mul_comm width segments] at ends
  have before := Nat.lt_of_mul_lt_mul_right (Nat.lt_of_lt_of_le starts ends)
  omega

theorem touches_iff_segment (width segments first last column : Nat) (ordered : first ≤ last)
    (inside : column < width) :
    Touches width segments first last column ↔
      ∃ segment, first ≤ segment ∧ segment ≤ last ∧
        Touches width segments segment segment column := by
  have wide : 0 < width := Nat.zero_lt_of_lt inside
  constructor
  · rintro ⟨starts, ends⟩
    -- The segment at the column's left edge, or the first one if the edge lies before it.
    rcases Nat.lt_or_ge (column * segments / width) first with begins | begun
    · exact ⟨first, Nat.le_refl first, ordered, starts, (Nat.div_lt_iff_lt_mul wide).mp begins⟩
    · have reached := (Nat.div_lt_iff_lt_mul wide).mpr ends
      refine ⟨column * segments / width + 1, by omega, reached, ?_, ?_⟩
      · have edge := Nat.div_mul_le_self (column * segments) width
        have positive : 0 < (column + 1) * segments := Nat.zero_lt_of_lt starts
        rw [Nat.add_sub_cancel, Nat.succ_mul]
        have some_segment := Nat.pos_of_mul_pos_left positive
        omega
      · exact (Nat.div_lt_iff_lt_mul wide).mp (Nat.lt_succ_self _)
  · rintro ⟨segment, after, before, starts, ends⟩
    exact ⟨Nat.lt_of_le_of_lt (Nat.mul_le_mul_right width (Nat.sub_le_sub_right after 1)) starts,
      Nat.lt_of_lt_of_le ends (Nat.mul_le_mul_right width before)⟩

def Drawn (width segments : Nat) (s : Selection) (column : Nat) : Prop :=
  ∃ f ∈ s, Spans (columns width segments f) column

instance (width segments : Nat) (s : Selection) (column : Nat) :
    Decidable (Drawn width segments s column) := inferInstanceAs (Decidable (∃ f ∈ s, _))

theorem not_drawn_nil (width segments column : Nat) : ¬Drawn width segments [] column :=
  fun ⟨_, member, _⟩ => nomatch member

theorem drawn_cons (width segments column : Nat) (f : Fragment) (s : Selection) :
    Drawn width segments (f :: s) column ↔
      Spans (columns width segments f) column ∨ Drawn width segments s column := by
  simp only [Drawn, List.mem_cons, exists_eq_or_imp]

theorem drawn_iff_segment (width segments column : Nat) (s : Selection)
    (inside : column < width) :
    Drawn width segments s column ↔
      ∃ segment ∈ Finset.Icc 1 segments, s.Holds segment ∧
        Touches width segments segment segment column := by
  constructor
  · rintro ⟨f, member, drawn⟩
    rw [spans_columns_iff width segments column f inside,
      touches_iff_segment width segments _ _ column f.first_le_last inside] at drawn
    obtain ⟨segment, after, before, touches⟩ := drawn
    have positive := f.first_pos
    have within := le_segments_of_touches width segments segment segment column inside touches
    exact ⟨segment, Finset.mem_Icc.mpr (by omega),
      ⟨f, member, (f.contains_iff segment).mpr ⟨after, before⟩⟩, touches⟩
  · rintro ⟨segment, _, ⟨f, member, within⟩, touches⟩
    obtain ⟨after, before⟩ := (f.contains_iff segment).mp within
    refine ⟨f, member, (spans_columns_iff width segments column f inside).mpr ?_⟩
    exact (touches_iff_segment width segments _ _ column f.first_le_last inside).mpr
      ⟨segment, after, before, touches⟩

theorem drawn_congr (width segments column : Nat) (s t : Selection) (inside : column < width)
    (same : ∀ segment ∈ Finset.Icc 1 segments, s.Holds segment ↔ t.Holds segment) :
    Drawn width segments s column ↔ Drawn width segments t column := by
  rw [drawn_iff_segment width segments column s inside,
    drawn_iff_segment width segments column t inside]
  exact exists_congr fun segment => and_congr_right fun within =>
    and_congr_left fun _ => same segment within

theorem getElem?_paint (brush : Cell → Cell) (range : Nat × Nat) (bar : List Cell)
    (column : Nat) :
    (paint brush range bar)[column]? = bar[column]?.map fun cell =>
      if Spans range column then brush cell else cell := by
  simp only [paint, List.getElem?_mapIdx, Bool.and_eq_true, decide_eq_true_eq]
  rfl

-- A brush that changes nothing the second time leaves one coat, however many fragments
-- are drawn over one another.
theorem getElem?_foldl_paint (brush : Cell → Cell)
    (once : ∀ cell, brush (brush cell) = brush cell) (width segments column : Nat)
    (s : Selection) (bar : List Cell) :
    (s.foldl (fun bar f => paint brush (columns width segments f) bar) bar)[column]? =
      bar[column]?.map fun cell =>
        if Drawn width segments s column then brush cell else cell := by
  induction s generalizing bar with
  | nil => simp [not_drawn_nil]
  | cons f rest ih =>
      rw [List.foldl_cons, ih, getElem?_paint, Option.map_map]
      congr 1
      funext cell
      simp only [Function.comp_apply, drawn_cons]
      by_cases later : Drawn width segments rest column
      · -- Under a later coat it does not matter whether `f` was drawn.
        simp only [later, or_true, if_true]
        split
        · exact once cell
        · rfl
      · simp [later]

theorem underQuota_once (cell : Cell) : cell.underQuota.underQuota = cell.underQuota := by
  cases cell <;> rfl

-- Past the end of the bar there is no cell to begin with.
theorem getElem?_cells (width segments column : Nat) (quota excerpt : Selection) :
    (cells width segments quota excerpt)[column]? =
      (List.replicate width Cell.empty)[column]?.map fun cell =>
        let drawn := if Drawn width segments excerpt column then .excerpt else cell
        if Drawn width segments quota column then drawn.underQuota else drawn := by
  rw [cells, getElem?_foldl_paint Cell.underQuota underQuota_once,
    getElem?_foldl_paint (fun _ => .excerpt) (fun _ => rfl), Option.map_map]
  rfl

theorem cells_congr (width segments : Nat) (quota quota' excerpt excerpt' : Selection)
    (same_quota : ∀ segment ∈ Finset.Icc 1 segments, quota.Holds segment ↔ quota'.Holds segment)
    (same_excerpt : ∀ segment ∈ Finset.Icc 1 segments,
      excerpt.Holds segment ↔ excerpt'.Holds segment) :
    cells width segments quota excerpt = cells width segments quota' excerpt' := by
  apply List.ext_getElem?
  intro column
  rw [getElem?_cells, getElem?_cells]
  by_cases inside : column < width
  · simp only [drawn_congr width segments column quota quota' inside same_quota,
      drawn_congr width segments column excerpt excerpt' inside same_excerpt]
  · rw [List.getElem?_eq_none (by simpa using inside)]
    rfl

/-- The bar shows which segments of the document are held, and nothing else of the
two selections: neither how they are cut into fragments, in which order, nor what
lies past the end of the document. -/
theorem render_shows_segments (glyphs : Glyphs) (width segments : Nat) (exceeded : Bool)
    (quota quota' excerpt excerpt' : Selection)
    (same_quota : ∀ segment ∈ Finset.Icc 1 segments, quota.Holds segment ↔ quota'.Holds segment)
    (same_excerpt : ∀ segment ∈ Finset.Icc 1 segments,
      excerpt.Holds segment ↔ excerpt'.Holds segment) :
    render glyphs width segments quota excerpt exceeded =
      render glyphs width segments quota' excerpt' exceeded := by
  rw [render, render, cells_congr width segments quota quota' excerpt excerpt' same_quota
    same_excerpt]

/-- The quota is split and doubled, the excerpt turned round, and both are continued
past the end. -/
theorem split_fragments_drawn_alike :
    render ⟨'.', '#', 'q', '*', '!'⟩ 7 10 [.fromTo 1 3] [.fromTo 3 6, .fromTo 7 7] false =
      render ⟨'.', '#', 'q', '*', '!'⟩ 7 10 [.fromTo 3 3, .fromTo 1 2, .fromTo 2 3, .fromTo 12 40]
        [.fromTo 5 7, .fromTo 3 4, .fromTo 11 11] false :=
  render_shows_segments ⟨'.', '#', 'q', '*', '!'⟩ 7 10 false _ _ _ _ (by decide) (by decide)

def Reached (width segments : Nat) (s : Selection) (column : Nat) : Prop :=
  ∃ f ∈ s, Touches width segments f.first f.last column

instance (width segments : Nat) (s : Selection) (column : Nat) :
    Decidable (Reached width segments s column) := inferInstanceAs (Decidable (∃ f ∈ s, _))

theorem drawn_iff_reached (width segments column : Nat) (s : Selection)
    (inside : column < width) :
    Drawn width segments s column ↔ Reached width segments s column := by
  apply exists_congr
  intro f
  apply and_congr_right
  intro _
  exact spans_columns_iff width segments column f inside

theorem not_reached_of_no_segment (width column : Nat) (s : Selection) :
    ¬Reached width 0 s column := by
  rintro ⟨f, _, starts, _⟩
  exact Nat.not_lt_zero _ starts

theorem length_foldl_paint (brush : Cell → Cell) (width segments : Nat) (s : Selection)
    (bar : List Cell) :
    (s.foldl (fun bar f => paint brush (columns width segments f) bar) bar).length =
      bar.length := by
  induction s generalizing bar with
  | nil => rfl
  | cons f rest ih => rw [List.foldl_cons, ih, length_paint]

theorem length_render (glyphs : Glyphs) (width segments : Nat) (quota excerpt : Selection)
    (exceeded : Bool) : (render glyphs width segments quota excerpt exceeded).length = width := by
  rw [render, List.length_map, cells, length_foldl_paint, length_foldl_paint,
    List.length_replicate]

theorem getElem?_render (glyphs : Glyphs) (width segments column : Nat)
    (quota excerpt : Selection) (exceeded : Bool) (inside : column < width) :
    (render glyphs width segments quota excerpt exceeded)[column]? =
      some (if Reached width segments quota column then
          if Reached width segments excerpt column then glyphs.overlap else glyphs.quota
        else if Reached width segments excerpt column then
          if exceeded then glyphs.exceeded else glyphs.excerpt
        else glyphs.background) := by
  rw [render, List.getElem?_map, getElem?_cells, List.getElem?_replicate, if_pos inside]
  simp only [Option.map_some, drawn_iff_reached width segments column _ inside]
  by_cases in_quota : Reached width segments quota column
  · by_cases in_excerpt : Reached width segments excerpt column
    · simp only [in_quota, in_excerpt, if_true, Cell.underQuota, Cell.glyph]
    · simp only [in_quota, in_excerpt, if_true, if_false, Cell.underQuota, Cell.glyph]
  · by_cases in_excerpt : Reached width segments excerpt column
    · simp only [in_quota, in_excerpt, if_true, if_false, Cell.glyph]
    · simp only [in_quota, in_excerpt, if_false, Cell.glyph]

theorem render_of_no_segment (glyphs : Glyphs) (width : Nat) (quota excerpt : Selection)
    (exceeded : Bool) :
    render glyphs width 0 quota excerpt exceeded = List.replicate width glyphs.background := by
  apply List.ext_getElem?
  intro column
  by_cases inside : column < width
  · rw [getElem?_render glyphs width 0 column quota excerpt exceeded inside,
      if_neg (not_reached_of_no_segment width column quota),
      if_neg (not_reached_of_no_segment width column excerpt),
      List.getElem?_replicate, if_pos inside]
  · rw [List.getElem?_eq_none (by rwa [length_render, ← Nat.not_lt]),
      List.getElem?_eq_none (by rwa [List.length_replicate, ← Nat.not_lt])]

/-- A fragment of the document shows in the column that its first segment begins in. -/
theorem exists_touched_column (width segments : Nat) (f : Fragment) (wide : 0 < width)
    (within : f.first ≤ segments) :
    ∃ column < width, Touches width segments f.first f.last column := by
  have positive : 0 < segments := Nat.lt_of_lt_of_le f.first_pos within
  have first_pos := f.first_pos
  have begins : (f.first - 1) * width < width * segments := by
    rw [Nat.mul_comm width]
    exact Nat.mul_lt_mul_of_pos_right (by omega) wide
  refine ⟨(f.first - 1) * width / segments, ?_, ?_, ?_⟩
  · exact (Nat.div_lt_iff_lt_mul positive).mpr begins
  · have next := Nat.lt_mul_div_succ ((f.first - 1) * width) positive
    rwa [Nat.mul_comm segments] at next
  · calc (f.first - 1) * width / segments * segments
        ≤ (f.first - 1) * width := Nat.div_mul_le_self _ _
      _ < f.first * width := Nat.mul_lt_mul_of_pos_right (by omega) wide
      _ ≤ f.last * width := Nat.mul_le_mul_right width f.first_le_last

/-- The bar has one character for each column. It tells whether fragments of the quota,
of the excerpt or of both touch the column, where an empty document has none that do.
Every fragment that begins within the document touches some column, and no other does. -/
theorem columns_show_what_touches_them (glyphs : Glyphs) (width segments : Nat)
    (quota excerpt : Selection) (exceeded : Bool) :
    (render glyphs width segments quota excerpt exceeded).length = width ∧
      (segments = 0 → render glyphs width segments quota excerpt exceeded =
        List.replicate width glyphs.background) ∧
      (0 < segments →
        (∀ column < width,
          (render glyphs width segments quota excerpt exceeded)[column]? =
            some (if Reached width segments quota column then
                if Reached width segments excerpt column then glyphs.overlap else glyphs.quota
              else if Reached width segments excerpt column then
                if exceeded then glyphs.exceeded else glyphs.excerpt
              else glyphs.background)) ∧
        (0 < width → ∀ f : Fragment,
          (f.first ≤ segments →
            ∃ column < width, Touches width segments f.first f.last column) ∧
          (segments < f.first →
            ∀ column < width, ¬Touches width segments f.first f.last column))) := by
  refine ⟨length_render glyphs width segments quota excerpt exceeded, ?_, fun _ => ⟨?_, ?_⟩⟩
  · rintro rfl
    exact render_of_no_segment glyphs width quota excerpt exceeded
  · intro column inside
    exact getElem?_render glyphs width segments column quota excerpt exceeded inside
  · intro wide f
    refine ⟨exists_touched_column width segments f wide, ?_⟩
    intro past column inside touches
    have reached := le_segments_of_touches width segments f.first f.last column inside touches
    omega

/-- Each of three columns stands for a third of ten segments, so that the fourth segment
shows in the first column and in the second. -/
theorem shared_segment_in_two_columns :
    (render ⟨'.', '#', 'q', '*', '!'⟩ 3 10 [.fromTo 4 4] [.fromTo 1 2, .fromTo 9 12] true)[0]? =
        some '*' ∧
      (render ⟨'.', '#', 'q', '*', '!'⟩ 3 10 [.fromTo 4 4] [.fromTo 1 2, .fromTo 9 12] true)[1]? =
        some 'q' ∧
      (render ⟨'.', '#', 'q', '*', '!'⟩ 3 10 [.fromTo 4 4] [.fromTo 1 2, .fromTo 9 12] true)[2]? =
        some '!' ∧
      (∃ column < 3, Touches 3 10 10 10 column) ∧
      (∀ column < 3, ¬Touches 3 10 11 12 column) ∧
      render ⟨'.', '#', 'q', '*', '!'⟩ 3 0 [.fromTo 4 4] [.fromTo 1 2] true = ['.', '.', '.'] := by
  obtain ⟨_, _, shown⟩ := columns_show_what_touches_them ⟨'.', '#', 'q', '*', '!'⟩ 3 10
    [.fromTo 4 4] [.fromTo 1 2, .fromTo 9 12] true
  obtain ⟨_, empty, _⟩ := columns_show_what_touches_them ⟨'.', '#', 'q', '*', '!'⟩ 3 0
    [.fromTo 4 4] [.fromTo 1 2] true
  obtain ⟨shows, reaches⟩ := shown (by decide)
  exact ⟨shows 0 (by decide), shows 1 (by decide), shows 2 (by decide),
    (reaches (by decide) (.fromTo 10 10)).1 (by decide),
    (reaches (by decide) (.fromTo 11 12)).2 (by decide), empty rfl⟩

end SegmentQuota.Bar
