import SegmentQuota.Number
import SegmentQuota.Selection

/-!
Selections as text: fragments between commas, each one the number of its only
segment, or its first and its last with a dash between them. The empty text is
the empty selection. Reading takes the pieces from left to right and names the
first that is no fragment, its position and what is wrong with it. Leading zeros
and a range of one segment are read too, though writing never produces them.
-/

namespace SegmentQuota

namespace Fragment

def text (f : Fragment) : List Char :=
  if f.first = f.last then Decimal.digits f.first
  else Decimal.digits f.first ++ '-' :: Decimal.digits f.last

def encode (f : Fragment) : String := String.ofList f.text

/-- A segment number within the numbering; zero is still among them. -/
def readBound (digits : List Char) : Except Misspelling { n : Nat // n ≤ Count.largest } :=
  if digits.all Char.isDigit then
    if fits : Decimal.value digits ≤ Count.largest then .ok ⟨Decimal.value digits, fits⟩
    else .error .tooLarge
  else .error .notDigits

def between (first last : { n : Nat // n ≤ Count.largest }) : Except Misspelling Fragment :=
  if nothing : first.val = 0 then .error .zero
  else if ordered : first.val ≤ last.val then
    .ok ⟨first, last, Nat.pos_of_ne_zero nothing, ordered, last.property⟩
  else .error .reversed

def readPiece (piece : List Char) : Except Misspelling Fragment :=
  if piece.isEmpty then .error .empty
  else
    match piece.span (· != '-') with
    | (only, []) =>
        match readBound only with
        | .error cause => .error cause
        | .ok bound => between bound bound
    | (low, _ :: high) =>
        if low.isEmpty then .error .firstMissing
        else if high.isEmpty then .error .lastMissing
        else if high.contains '-' then .error .secondDash
        else
          match readBound low with
          | .error cause => .error cause
          | .ok first =>
              match readBound high with
              | .error cause => .error cause
              | .ok last => between first last

def parse (text : String) : Except Fault Fragment :=
  match readPiece text.toList with
  | .ok f => .ok f
  | .error cause => .error (.misspelled text 0 cause)

end Fragment

namespace Selection

def text (s : Selection) : List Char := [','].intercalate (s.map Fragment.text)

def encode (s : Selection) : String := String.ofList s.text

def encodeShifted (offset : Nat) (s : Selection) : Except Fragment.Fault String :=
  match s.shift offset with
  | .error fault => .error fault
  | .ok moved => .ok (encode moved)

def readPieces (position : Nat) : List (List Char) → Except Fragment.Fault Selection
  | [] => .ok []
  | piece :: rest =>
      match Fragment.readPiece piece with
      | .error cause => .error (.misspelled (String.ofList piece) position cause)
      | .ok f =>
          match readPieces (position + 1) rest with
          | .error fault => .error fault
          | .ok later => .ok (f :: later)

def readText (text : List Char) : Except Fragment.Fault Selection :=
  if text.isEmpty then .ok [] else readPieces 0 (text.splitOn ',')

def parse (text : String) : Except Fragment.Fault Selection := readText text.toList

end Selection

end SegmentQuota
