import SegmentQuota.Fragment
import SegmentQuota.Number
import SegmentQuota.Text

/-!
Values that describe themselves, as they are read from settings files and
written as JSON. A table keeps its entries in order. Nothing is known of a date
but that it is one: no setting takes it, and in JSON it is as good as null. Where
another kind of value is wanted, a message says so.
-/

namespace SegmentQuota

inductive Value where
  | null
  | bool (truth : Bool)
  | integer (number : Int)
  | float (number : Float)
  | text (content : String)
  | date
  | list (items : List Value)
  | table (entries : List (String × Value))
  deriving Inhabited

namespace Value

def jsonNumbers : Decimal.Layout := ⟨-5, 16, "null"⟩

def numberText (x : Float) : String := Decimal.naturalText jsonNumbers x

def stringText (s : String) : String := Text.quote Text.escapeJson s

mutual

def compact : Value → String
  | .null => "null"
  | .bool truth => toString truth
  | .integer number => toString number
  | .float number => numberText number
  | .text content => stringText content
  | .date => "null"
  | .list items => "[" ++ ",".intercalate (compactItems items) ++ "]"
  | .table entries => "\x7b" ++ ",".intercalate (compactEntries entries) ++ "\x7d"

def compactItems : List Value → List String
  | [] => []
  | item :: rest => compact item :: compactItems rest

def compactEntries : List (String × Value) → List String
  | [] => []
  | (key, value) :: rest => (stringText key ++ ":" ++ compact value) :: compactEntries rest

end

def block (opening closing : String) (depth : Nat) (lines : List String) : String :=
  let margin (level : Nat) : String := "\n" ++ String.ofList (List.replicate (2 * level) ' ')
  if lines.isEmpty then opening ++ closing
  else
    opening ++ margin (depth + 1) ++ ("," ++ margin (depth + 1)).intercalate lines
      ++ margin depth ++ closing

mutual

def prettyAt (depth : Nat) : Value → String
  | .list items => block "[" "]" depth (prettyItems (depth + 1) items)
  | .table entries => block "\x7b" "\x7d" depth (prettyEntries (depth + 1) entries)
  | .null => "null"
  | .bool truth => toString truth
  | .integer number => toString number
  | .float number => numberText number
  | .text content => stringText content
  | .date => "null"

def prettyItems (depth : Nat) : List Value → List String
  | [] => []
  | item :: rest => prettyAt depth item :: prettyItems depth rest

def prettyEntries (depth : Nat) : List (String × Value) → List String
  | [] => []
  | (key, value) :: rest =>
      (stringText key ++ ": " ++ prettyAt depth value) :: prettyEntries depth rest

end

def pretty (value : Value) : String := prettyAt 0 value

/-! The message names what was found, and what should have been there. -/

inductive Wanted where
  | settings
  | quotaSection
  | outlineSection
  | percentage
  | width
  | text
  | nameOrTable
  | oneKey
  | nothing
  deriving DecidableEq

def Wanted.phrase : Wanted → String
  | .settings => "struct Config"
  | .quotaSection => "struct Quota"
  | .outlineSection => "struct Outline"
  | .percentage => "f64"
  | .width => "usize"
  | .text => "a string"
  | .nameOrTable => "string or map"
  | .oneKey => "map with a single key"
  | .nothing => "unit"

inductive Mismatch where
  | kind (found : Value) (wanted : Wanted)
  | content (found : Value) (wanted : Wanted)
  /-- A list of `length` items where fewer have a meaning. -/
  | leftOver (length : Nat)
  | unknownName (name : String) (known : List String)
  | fragment (fault : Fragment.Fault)

def found : Value → String
  | .null => "null"
  | .bool truth => s!"boolean `{truth}`"
  | .integer number => s!"integer `{number}`"
  | .float number =>
      let digits := numberText number
      s!"floating point `{digits}`"
  | .text content => "string " ++ Text.quote Text.escapeShown content
  | .list _ => "sequence"
  | .date | .table _ => "map"

def Mismatch.message : Mismatch → String
  | .kind value wanted => "invalid type: " ++ value.found ++ ", expected " ++ wanted.phrase
  | .content value wanted => "invalid value: " ++ value.found ++ ", expected " ++ wanted.phrase
  | .leftOver length => s!"invalid length {length}, expected fewer elements in array"
  | .unknownName name known =>
      let names := " or ".intercalate (known.map fun word => s!"`{word}`")
      s!"unknown variant `{name}`, expected {names}"
  | .fragment fault => fault.message

end Value

end SegmentQuota
