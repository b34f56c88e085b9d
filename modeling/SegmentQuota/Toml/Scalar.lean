import SegmentQuota.Number
import SegmentQuota.Toml.Text
import SegmentQuota.Value

/-!
TOML values that are one word: truth values, whole numbers, fractions, dates and
times. A word is as long as its characters go, and has to be one of these as a
whole. Whole numbers have 64 bits with a sign. Single underscores may stand
between digits. A fraction too large for a double is refused, but one too far
below zero is minus infinity.
-/

namespace SegmentQuota.Toml

def isWordChar (c : Char) : Bool :=
  c.isAlphanum || c == '+' || c == '-' || c == '_' || c == '.' || c == ':'

def grouped? (isDigit : Char → Bool) : List Char → Option (List Char)
  | [] => none
  | [c] => if isDigit c then some [c] else none
  | c :: '_' :: rest => if isDigit c then (grouped? isDigit rest).map (c :: ·) else none
  | c :: rest => if isDigit c then (grouped? isDigit rest).map (c :: ·) else none

def whole? (text : List Char) : Option (List Char) :=
  match grouped? Char.isDigit text with
  | some ('0' :: _ :: _) => none
  | other => other

def largestInteger : Int := 9223372036854775807

def bounded? (n : Int) : Option Int :=
  if -largestInteger - 1 ≤ n ∧ n ≤ largestInteger then some n else none

def readBase? (base : Nat) (text : List Char) : Option Int := do
  let isDigit (c : Char) : Bool := (hexValue? c).any (· < base)
  let ds ← grouped? isDigit text
  let values ← ds.mapM hexValue?
  bounded? (values.foldl (base * · + ·) 0 : Nat)

def readInteger? (word : List Char) : Option Int :=
  match word with
  | '0' :: 'x' :: ds => readBase? 16 ds
  | '0' :: 'o' :: ds => readBase? 8 ds
  | '0' :: 'b' :: ds => readBase? 2 ds
  | _ => do
      let (negative, text) := Decimal.splitSign word
      let ds ← whole? text
      let n : Int := Decimal.value ds
      bounded? (if negative then -n else n)

def readPlaces? : List Char → Option (List Char)
  | [] => some []
  | '.' :: text => grouped? Char.isDigit text
  | _ => none

def readPower? : List Char → Option Int
  | [] => some 0
  | _ :: text => do
      let (negative, magnitude) := Decimal.splitSign text
      let ds ← grouped? Char.isDigit magnitude
      let n : Int := Decimal.value ds
      some (if negative then -n else n)

def readFraction? (negative : Bool) (text : List Char) : Option Float := do
  let isMark (c : Char) : Bool := c == 'e' || c == 'E'
  let (mantissa, tail) := text.span (!isMark ·)
  let (front, pointed) := mantissa.span (· != '.')
  if pointed.isEmpty && tail.isEmpty then none
  let ds ← whole? front
  let places ← readPlaces? pointed
  let power ← readPower? tail
  let magnitude := Decimal.nearest (Decimal.value (ds ++ places)) (power - places.length)
  if negative then some (-magnitude)
  else if magnitude.isInf then none
  else some magnitude

def readFloat? (word : List Char) : Option Float :=
  let (negative, text) := Decimal.splitSign word
  if text = ['i', 'n', 'f'] then some (if negative then -(1.0 / 0.0) else 1.0 / 0.0)
  else if text = ['n', 'a', 'n'] then some (0.0 / 0.0)
  else readFraction? negative text

def twoDigits? (low high : Nat) : List Char → Option (List Char)
  | a :: b :: rest =>
      let n := Decimal.value [a, b]
      if a.isDigit && b.isDigit && low ≤ n && n ≤ high then some rest else none
  | _ => none

def daysOf (year month : Nat) : Nat :=
  let leap := year % 4 = 0 ∧ (year % 100 ≠ 0 ∨ year % 400 = 0)
  if month = 2 then if leap then 29 else 28
  else if month = 4 ∨ month = 6 ∨ month = 9 ∨ month = 11 then 30
  else 31

def afterDate? : List Char → Option (List Char)
  | a :: b :: c :: d :: '-' :: e :: f :: '-' :: rest =>
      if [a, b, c, d, e, f].all Char.isDigit then
        let month := Decimal.value [e, f]
        if 1 ≤ month ∧ month ≤ 12 then
          twoDigits? 1 (daysOf (Decimal.value [a, b, c, d]) month) rest
        else none
      else none
  | _ => none

def afterTime? (text : List Char) : Option (List Char) := do
  let .cons ':' minutes ← twoDigits? 0 23 text | none
  let .cons ':' seconds ← twoDigits? 0 59 minutes | none
  let rest ← twoDigits? 0 60 seconds
  match rest with
  | '.' :: places =>
      if (places.takeWhile Char.isDigit).isEmpty then none
      else some (places.dropWhile Char.isDigit)
  | _ => some rest

def isOffset : List Char → Bool
  | ['Z'] | ['z'] => true
  | '+' :: text | '-' :: text =>
      match twoDigits? 0 23 text with
      | some (':' :: minutes) => twoDigits? 0 59 minutes == some []
      | _ => false
  | _ => false

def isClock (text : List Char) : Bool :=
  match afterTime? text with
  | some rest => rest.isEmpty || isOffset rest
  | none => false

def isDate (word : List Char) : Bool :=
  match afterDate? word with
  | some [] => true
  | some ('T' :: clock) | some ('t' :: clock) => isClock clock
  | some _ => false
  | none => afterTime? word == some []

def readWord? (word : List Char) : Option Value :=
  if word = ['t', 'r', 'u', 'e'] then some (.bool true)
  else if word = ['f', 'a', 'l', 's', 'e'] then some (.bool false)
  else
    match readInteger? word, readFloat? word with
    | some n, _ => some (.integer n)
    | none, some x => some (.float x)
    | none, none => if isDate word then some .date else none

def readScalar : Reader Value := fun text =>
  let (word, rest) := text.span isWordChar
  match afterDate? word, rest with
  | some [], ' ' :: c :: more =>
      -- A single space may stand between a date and its time.
      if c.isDigit then
        let (clock, after) := (c :: more).span isWordChar
        if isClock clock then some (.date, after) else none
      else some (.date, rest)
  | _, _ => (readWord? word).map fun value => (value, rest)

end SegmentQuota.Toml
