import SegmentQuota.Proofs.Bare
import SegmentQuota.Proofs.Intersection
import SegmentQuota.Proofs.Shading
import SegmentQuota.Proofs.Union
import SegmentQuota.Selection

/-!
Lists of bare bounds, and what the operations on selections do with them in the
machine's arithmetic. Where fragments are made from bounds that are never
refused, the refusal traps. On the bounds of a selection nothing traps: each
operation comes out with the bounds of what the operation on selections gives.
-/

namespace SegmentQuota

open Machine
open Fragment (Fault)

abbrev BareSelection := List Bare

def Selection.bare (s : Selection) : BareSelection := s.map Fragment.bare

namespace BareSelection

def shift : BareSelection → Nat → Except Trap (Except Fault BareSelection)
  | [], _ => .ok (.ok [])
  | f :: rest, offset => do
      match ← f.shift offset with
      | .error fault => return .error fault
      | .ok moved =>
          match ← shift rest offset with
          | .error fault => return .error fault
          | .ok others => return .ok (moved :: others)

def readPieces (position : Nat) : List (List Char) → Except Trap (Except Fault BareSelection)
  | [] => .ok (.ok [])
  | piece :: rest => do
      match ← Bare.readPiece piece with
      | .error cause => return .error (.misspelled (String.ofList piece) position cause)
      | .ok f =>
          match ← readPieces (position + 1) rest with
          | .error fault => return .error fault
          | .ok later => return .ok (f :: later)

def readText (text : List Char) : Except Trap (Except Fault BareSelection) :=
  if text.isEmpty then .ok (.ok []) else readPieces 0 (text.splitOn ',')

def parse (text : String) : Except Trap (Except Fault BareSelection) := readText text.toList

def gather (run : Bare) : List Nat → Except Fault BareSelection
  | [] => .ok [run]
  | segment :: rest =>
      if run.contains segment then gather run rest
      else
        match run.extend? segment with
        | some longer => gather longer rest
        | none =>
            match Bare.single segment with
            | .error fault => .error fault
            | .ok fresh =>
                match gather fresh rest with
                | .error fault => .error fault
                | .ok later => .ok (run :: later)

def ofSegments : List Nat → Except Fault BareSelection
  | [] => .ok []
  | segment :: rest =>
      match Bare.single segment with
      | .error fault => .error fault
      | .ok run => gather run rest

def inter : BareSelection → BareSelection → Except Trap BareSelection
  | [], _ => .ok []
  | _, [] => .ok []
  | f :: a, g :: b =>
      if f.last < g.first then inter a (g :: b)
      else if g.last < f.first then inter (f :: a) b
      else do
        let shared ← Bare.kept (Bare.ofBounds (max f.first g.first) (min f.last g.last))
        let later ←
          if f.last < g.last then inter a (g :: b)
          else if g.last < f.last then inter (f :: a) b
          else inter a b
        return shared :: later
termination_by a b => a.length + b.length

def absorb (current : Bare) : BareSelection → Except Trap BareSelection
  | [] => .ok [current]
  | next :: rest =>
      if next.first ≤ current.last then
        if current.last < next.last then do
          absorb (← Bare.kept (Bare.ofBounds current.first next.last)) rest
        else absorb current rest
      else do return current :: (← absorb next rest)

def coalesce : BareSelection → Except Trap BareSelection
  | [] => .ok []
  | f :: rest => absorb f rest

def union (a b : BareSelection) : Except Trap BareSelection :=
  coalesce (a.merge b Bare.precedes)

def searchWindow (s : BareSelection) (segment low high : Nat) : Except Trap (Option Nat) :=
  if more : low < high then
    match halved : middle low high with
    | .error trap => .error trap
    | .ok position => do
        -- Either part of the window is smaller, whatever the list holds.
        have := middle_within more halved
        let f ← get s position
        if f.last < segment then
          match next : add Count.largest position 1 with
          | .error trap => .error trap
          | .ok above =>
              have := eq_of_add next
              searchWindow s segment above high
        else if segment < f.first then searchWindow s segment low position
        else return some position
  else .ok none
termination_by high - low

def find? (s : BareSelection) (segment start stop : Nat) : Except Trap (Option Nat) :=
  searchWindow s segment start (min stop s.length)

def paint (brush : Bar.Cell → Bar.Cell) (range : Nat × Nat) (cells : List Bar.Cell) :
    Except Trap (List Bar.Cell) :=
  if range.1 ≤ range.2 ∧ range.2 ≤ cells.length then .ok (Bar.paint brush range cells)
  else .error .outside

def draw (brush : Bar.Cell → Bar.Cell) (width segments : Nat) (s : BareSelection)
    (cells : List Bar.Cell) : Except Trap (List Bar.Cell) :=
  s.foldlM (fun bar f => do paint brush (← f.columns width segments) bar) cells

def cells (width segments : Nat) (quota excerpt : BareSelection) :
    Except Trap (List Bar.Cell) := do
  let drawn ← draw (fun _ => .excerpt) width segments excerpt (List.replicate width .empty)
  draw Bar.Cell.underQuota width segments quota drawn

theorem searchWindow_of_lt {s : BareSelection} {segment low high : Nat} (more : low < high)
    (fits : high ≤ Count.largest) :
    searchWindow s segment low high = (do
      let f ← get s (low + (high - low) / 2)
      if f.last < segment then searchWindow s segment (low + (high - low) / 2 + 1) high
      else if segment < f.first then searchWindow s segment low (low + (high - low) / 2)
      else return some (low + (high - low) / 2)) := by
  have halved := middle_of_le (Nat.le_of_lt more) fits
  have next : add Count.largest (low + (high - low) / 2) 1 = .ok (low + (high - low) / 2 + 1) :=
    add_of_le (by omega)
  rw [searchWindow, dif_pos more]
  -- Both sums are matched together with their equations, so they are not rewritten but split.
  split
  case h_1 trap trapped => rw [halved] at trapped; cases trapped
  case h_2 position found =>
    obtain rfl : low + (high - low) / 2 = position := Except.ok.inj (halved.symm.trans found)
    congr 1
    funext f
    split
    · split
      case h_1 trap trapped => rw [next] at trapped; cases trapped
      case h_2 above found =>
        obtain rfl := Except.ok.inj (next.symm.trans found)
        rfl
    · rfl

end BareSelection

namespace Selection

@[simp]
theorem bare_nil : bare [] = [] := rfl

@[simp]
theorem bare_cons (f : Fragment) (s : Selection) : bare (f :: s) = f.bare :: s.bare := rfl

theorem bare_injective : Function.Injective bare := Fragment.bare_injective.list_map

theorem shift_bare (s : Selection) (offset : Nat) :
    s.bare.shift offset = .ok ((s.shift offset).map bare) := by
  induction s with
  | nil => rfl
  | cons f rest ih =>
      rw [bare_cons, BareSelection.shift, f.shift_bare, ok_bind, shift]
      cases f.shift offset with
      | error fault => rfl
      | ok moved =>
          simp only [Except.map, ih, ok_bind]
          cases shift rest offset with
          | error fault => rfl
          | ok others => rfl

theorem readPieces_bare (position : Nat) (pieces : List (List Char)) :
    BareSelection.readPieces position pieces = .ok ((readPieces position pieces).map bare) := by
  induction pieces generalizing position with
  | nil => rfl
  | cons piece rest ih =>
      rw [BareSelection.readPieces, Fragment.readPiece_bare, ok_bind, readPieces]
      cases Fragment.readPiece piece with
      | error cause => rfl
      | ok f =>
          simp only [Except.map, ih, ok_bind]
          cases readPieces (position + 1) rest with
          | error fault => rfl
          | ok later => rfl

theorem parse_bare (text : String) :
    BareSelection.parse text = .ok ((parse text).map bare) := by
  rw [BareSelection.parse, BareSelection.readText, parse, readText]
  split
  · rfl
  · exact readPieces_bare 0 _

theorem gather_bare (run : Fragment) (segments : List Nat)
    (bounded : ∀ segment ∈ segments, segment ≤ Count.largest) :
    BareSelection.gather run.bare segments = (gather run segments).map bare := by
  induction segments generalizing run with
  | nil => rfl
  | cons segment rest ih =>
      obtain ⟨small, bounded_rest⟩ := List.forall_mem_cons.mp bounded
      rw [BareSelection.gather, gather, run.contains_bare]
      by_cases held : run.contains segment
      · rw [if_pos held, if_pos held]
        exact ih run bounded_rest
      rw [if_neg held, if_neg held]
      by_cases next : segment = run.last + 1 ∧ run.last < Count.largest
      · obtain ⟨rfl, room⟩ := next
        rw [run.extend_bare room, dif_pos ⟨rfl, room⟩]
        exact ih (run.extend room) bounded_rest
      rw [run.extend_bare_eq_none segment next, dif_neg next, Fragment.single_bare small]
      cases Fragment.single segment with
      | error fault => rfl
      | ok fresh =>
          simp only [Except.map, ih fresh bounded_rest]
          cases gather fresh rest with
          | error fault => rfl
          | ok later => rfl

theorem ofSegments_bare (segments : List Nat)
    (bounded : ∀ segment ∈ segments, segment ≤ Count.largest) :
    BareSelection.ofSegments segments = (ofSegments segments).map bare := by
  cases segments with
  | nil => rfl
  | cons segment rest =>
      obtain ⟨small, bounded_rest⟩ := List.forall_mem_cons.mp bounded
      rw [BareSelection.ofSegments, ofSegments, Fragment.single_bare small]
      cases Fragment.single segment with
      | error fault => rfl
      | ok run => exact gather_bare run rest bounded_rest

/-- The bounds of what two overlapping fragments share are not refused. -/
theorem inter_bare_overlap (f g : Fragment) (shared : f.Overlaps g) (a b : BareSelection) :
    BareSelection.inter (f.bare :: a) (g.bare :: b) = (do
      let later ←
        if f.last < g.last then BareSelection.inter a (g.bare :: b)
        else if g.last < f.last then BareSelection.inter (f.bare :: a) b
        else BareSelection.inter a b
      return (f.overlap g shared).bare :: later) := by
  have made : Bare.kept (Bare.ofBounds (max f.bare.first g.bare.first)
      (min f.bare.last g.bare.last)) = .ok (f.overlap g shared).bare :=
    (f.overlap g shared).kept_bare
  rw [BareSelection.inter]
  refine (if_neg shared.1).trans ((if_neg shared.2).trans ?_)
  rw [made]
  rfl

theorem inter_bare (a b : Selection) :
    BareSelection.inter a.bare b.bare = .ok (inter a b).bare := by
  induction a, b using sweep_induction with
  | left_done b => rw [inter, bare_nil, BareSelection.inter]
  | right_done a =>
      cases a with
      | nil => rw [inter, bare_nil, BareSelection.inter]
      | cons f a => rw [inter, bare_nil, bare_cons, BareSelection.inter] <;> simp
  | before f a g b early ih =>
      rw [inter_before f g a b early, ← ih, bare_cons, bare_cons, BareSelection.inter]
      exact if_pos early
  | after f a g b late ih =>
      rw [inter_after f g a b late, ← ih, bare_cons, bare_cons, BareSelection.inter]
      exact (if_neg late.asymm).trans (if_pos late)
  | overlap f a g b shared left right both =>
      simp only [bare_cons] at left right ⊢
      rw [inter_overlap f g a b shared, inter_bare_overlap f g shared, left, right, both, bare_cons]
      split
      · rfl
      · split <;> rfl

/-- The bounds around two fragments that meet are not refused. -/
theorem absorb_bare_reached (current next : Fragment) (reached : next.first ≤ current.last)
    (rest : BareSelection) :
    BareSelection.absorb current.bare (next.bare :: rest) =
      BareSelection.absorb (current.lengthen next).bare rest := by
  refine (if_pos reached).trans ?_
  by_cases longer : current.last < next.last
  · have last : (current.lengthen next).last = next.last := Nat.max_eq_right (Nat.le_of_lt longer)
    have made := (current.lengthen next).kept_bare
    rw [last] at made
    refine (if_pos longer).trans ?_
    exact congrArg (· >>= fun grown => BareSelection.absorb grown rest) made
  · have same : (current.lengthen next).bare = current.bare :=
      congrArg (Bare.mk current.first) (Nat.max_eq_left (Nat.not_lt.mp longer))
    rw [same]
    exact if_neg longer

theorem absorb_bare (current : Fragment) (rest : Selection) :
    BareSelection.absorb current.bare rest.bare = .ok (absorb current rest).bare := by
  induction rest generalizing current with
  | nil => rfl
  | cons next rest ih =>
      rw [bare_cons]
      by_cases reached : next.first ≤ current.last
      · rw [absorb_reached current next rest reached, absorb_bare_reached current next reached]
        exact ih (current.lengthen next)
      · rw [absorb_apart current next rest reached, BareSelection.absorb, ih next]
        exact if_neg reached

theorem union_bare (a b : Selection) :
    BareSelection.union a.bare b.bare = .ok (union a b).bare := by
  have merged : bare (a.merge b Fragment.precedes) = a.bare.merge b.bare Bare.precedes :=
    List.map_merge fun f _ g _ => (Fragment.precedes_bare f g).symm
  rw [BareSelection.union, ← merged, union]
  cases a.merge b Fragment.precedes with
  | nil => rfl
  | cons f rest => exact absorb_bare f rest

theorem searchWindow_bare (s : Selection) (segment low high : Nat) (inside : high ≤ s.length)
    (fits : high ≤ Count.largest) :
    s.bare.searchWindow segment low high = .ok (s.searchWindow segment low high inside) := by
  have looked (position : Nat) (reachable : position < s.length) :
      get s.bare position = .ok s[position].bare := by
    rw [get_of_lt (by rwa [bare, List.length_map])]
    exact congrArg Except.ok (List.getElem_map _)
  fun_induction searchWindow s segment low high inside with
  | case1 low high inside more middle reachable f ends ih =>
      rw [BareSelection.searchWindow_of_lt more fits, looked middle reachable, ok_bind, ← ih fits]
      exact if_pos ends
  | case2 low high inside more middle reachable f ends begins ih =>
      rw [BareSelection.searchWindow_of_lt more fits, looked middle reachable, ok_bind,
        ← ih (by omega)]
      exact (if_neg ends).trans (if_pos begins)
  | case3 low high inside more middle reachable f ends begins =>
      rw [BareSelection.searchWindow_of_lt more fits, looked middle reachable, ok_bind]
      exact (if_neg ends).trans (if_neg begins)
  | case4 low high inside done => rw [BareSelection.searchWindow, dif_neg done]

/-- However many fragments there are, the positions are those below `stop`. -/
theorem find_bare (s : Selection) (segment start stop : Nat) (fits : stop ≤ Count.largest) :
    s.bare.find? segment start stop = .ok (s.find? segment start stop) := by
  have same : s.bare.length = s.length := List.length_map _
  rw [BareSelection.find?, find?, same]
  exact s.searchWindow_bare segment start _ _ ((Nat.min_le_left _ _).trans fits)

/-- The columns of a fragment lie within the cells, so drawing it never misses. -/
theorem draw_bare (brush : Bar.Cell → Bar.Cell) (s : Selection) {width : Nat} (segments : Nat)
    (cells : List Bar.Cell) (bounded : width ≤ Count.largest) (whole : cells.length = width) :
    BareSelection.draw brush width segments s.bare cells =
      .ok (s.foldl (fun bar f => Bar.paint brush (Bar.columns width segments f) bar) cells) := by
  induction s generalizing cells with
  | nil => rfl
  | cons f rest ih =>
      have inside : (Bar.columns width segments f).1 ≤ (Bar.columns width segments f).2 ∧
          (Bar.columns width segments f).2 ≤ cells.length :=
        ⟨Bar.columns_ordered width segments f, whole ▸ Bar.columns_within width segments f⟩
      rw [bare_cons, BareSelection.draw, List.foldlM_cons, f.columns_bare bounded, ok_bind,
        BareSelection.paint, if_pos inside, ok_bind, List.foldl_cons]
      exact ih _ ((Bar.length_paint _ _ _).trans whole)

theorem cells_bare (quota excerpt : Selection) {width : Nat} (segments : Nat)
    (bounded : width ≤ Count.largest) :
    BareSelection.cells width segments quota.bare excerpt.bare =
      .ok (Bar.cells width segments quota excerpt) := by
  have whole : (List.replicate width Bar.Cell.empty).length = width := List.length_replicate
  rw [BareSelection.cells, draw_bare _ excerpt segments _ bounded whole, ok_bind]
  exact draw_bare _ quota segments _ bounded ((Bar.length_foldl_paint _ _ _ _ _).trans whole)

end Selection

end SegmentQuota
