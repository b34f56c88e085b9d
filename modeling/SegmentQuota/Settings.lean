import SegmentQuota.Bar
import SegmentQuota.Value

/-!
The seven settings. A layer holds the settings that one file makes and leaves the
others open; laid over settings it replaces exactly those it makes, also where it
makes one equal to the default. Settings and layers are read from values.
-/

namespace SegmentQuota

structure Settings where
  /-- The share of a document that may be used up, in percent. -/
  limitPercent : Float
  /-- The width of the bar; zero leaves it out. -/
  width : Nat
  background : String
  excerpt : String
  quota : String
  overlap : String
  exceeded : String
  deriving DecidableEq

namespace Settings

def initial : Settings where
  limitPercent := 15.0
  width := 60
  background := "."
  excerpt := "#"
  quota := "q"
  overlap := "*"
  exceeded := "!"

/-- The settings agree, percentages as numbers: one that is no number agrees with none. -/
def agrees (a b : Settings) : Bool :=
  a.limitPercent == b.limitPercent && a.width == b.width && a.background == b.background
    && a.excerpt == b.excerpt && a.quota == b.quota && a.overlap == b.overlap
    && a.exceeded == b.exceeded

structure Layer where
  limitPercent : Option Float := none
  width : Option Nat := none
  background : Option String := none
  excerpt : Option String := none
  quota : Option String := none
  overlap : Option String := none
  exceeded : Option String := none

def Layer.over (layer : Layer) (base : Settings) : Settings where
  limitPercent := layer.limitPercent.getD base.limitPercent
  width := layer.width.getD base.width
  background := layer.background.getD base.background
  excerpt := layer.excerpt.getD base.excerpt
  quota := layer.quota.getD base.quota
  overlap := layer.overlap.getD base.overlap
  exceeded := layer.exceeded.getD base.exceeded

def glyph (setting : String) (initially : Char) : Char := setting.toList.headD initially

def glyphs (s : Settings) : Glyphs where
  background := glyph s.background '.'
  excerpt := glyph s.excerpt '#'
  quota := glyph s.quota 'q'
  overlap := glyph s.overlap '*'
  exceeded := glyph s.exceeded '!'

def toValue (s : Settings) : Value :=
  .table [
    ("quota", .table [("limit_percent", .float s.limitPercent)]),
    ("outline", .table [
      ("width", .integer s.width),
      ("background", .text s.background),
      ("excerpt", .text s.excerpt),
      ("quota", .text s.quota),
      ("overlap", .text s.overlap),
      ("exceeded", .text s.exceeded)])]

/-!
A section is a table in which unknown keys are passed over. It may also be a list of
its settings in their usual order, and a date in its place sets nothing. The first
entry that does not fit is reported.
-/

open Value

inductive Surplus where
  | ignored
  | refused
  deriving DecidableEq

/-- A setting or a section: its key, and how its value changes a layer. -/
abbrev Field := String × (Layer → Value → Except Mismatch Layer)

def readPercentage : Value → Except Mismatch Float
  | .float x => .ok x
  | .integer n => .ok (Float.ofInt n)
  | value => .error (.kind value .percentage)

def readWidth : Value → Except Mismatch Nat
  | .integer n =>
      if 0 ≤ n ∧ n ≤ Count.largest then .ok n.toNat else .error (.content (.integer n) .width)
  | value => .error (.kind value .width)

def readText : Value → Except Mismatch String
  | .text content => .ok content
  | value => .error (.kind value .text)

def field {α : Type} (key : String) (read : Value → Except Mismatch α)
    (put : Layer → α → Layer) : Field :=
  (key, fun layer value => (read value).map (put layer))

def quotaFields : List Field := [
  field "limit_percent" readPercentage fun layer x => { layer with limitPercent := some x }]

def outlineFields : List Field := [
  field "width" readWidth fun layer n => { layer with width := some n },
  field "background" readText fun layer s => { layer with background := some s },
  field "excerpt" readText fun layer s => { layer with excerpt := some s },
  field "quota" readText fun layer s => { layer with quota := some s },
  field "overlap" readText fun layer s => { layer with overlap := some s },
  field "exceeded" readText fun layer s => { layer with exceeded := some s }]

def readKeyed (known : List Field) : Layer → List (String × Value) → Except Mismatch Layer
  | layer, [] => .ok layer
  | layer, (key, value) :: rest =>
      match known.lookup key with
      | none => readKeyed known layer rest
      | some read =>
          match read layer value with
          | .error mismatch => .error mismatch
          | .ok next => readKeyed known next rest

def readInTurn : List Field → Layer → List Value → Except Mismatch (Layer × List Value)
  | [], layer, items => .ok (layer, items)
  | _, layer, [] => .ok (layer, [])
  | (_, read) :: known, layer, value :: rest =>
      match read layer value with
      | .error mismatch => .error mismatch
      | .ok next => readInTurn known next rest

def readSection (surplus : Surplus) (wanted : Wanted) (known : List Field) (layer : Layer) :
    Value → Except Mismatch Layer
  | .table entries => readKeyed known layer entries
  | .list items =>
      match readInTurn known layer items with
      | .error mismatch => .error mismatch
      | .ok (next, rest) =>
          if rest.isEmpty ∨ surplus = .ignored then .ok next
          else .error (.leftOver items.length)
  | .date => .ok layer
  | value => .error (.kind value wanted)

def Layer.ofValue (surplus : Surplus) (value : Value) : Except Mismatch Layer :=
  let sections : List Field := [
    ("quota", readSection surplus .quotaSection quotaFields),
    ("outline", readSection surplus .outlineSection outlineFields)]
  readSection surplus .settings sections {} value

def ofValue (value : Value) : Except Mismatch Settings :=
  (Layer.ofValue .refused value).map fun layer => layer.over initial

end Settings

end SegmentQuota
