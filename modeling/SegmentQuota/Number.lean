/-!
The numbers of the program and how they are written: counts that stop at the
largest one, whole numbers and fractions in decimal digits, and doubles taken
apart and put into the fewest digits that read back as them.

A document has no more segments than `Count.largest`, and every running sum stops
there instead of going past it.
-/

namespace SegmentQuota.Count

/-- The largest segment number, and so the largest count, limit and width. -/
def largest : Nat := 18446744073709551615

def add (a b : Nat) : Nat := min (a + b) largest

def sum (counts : List Nat) : Nat := counts.foldl add 0

theorem add_le (a b : Nat) : add a b ≤ largest := Nat.min_le_right _ _

end SegmentQuota.Count

/-!
Whole numbers in decimal digits. A numeral is one or more of the ten ASCII
digits; leading zeros do not change its value. A count may also be written with
a plus sign, and has to stay within the largest count.
-/

namespace SegmentQuota.Decimal

def digits (n : Nat) : List Char := Nat.toDigits 10 n

def value (text : List Char) : Nat := Nat.ofDigitChars 10 text 0

def isNumeral (text : List Char) : Bool := !text.isEmpty && text.all Char.isDigit

def withoutPlus : List Char → List Char
  | '+' :: rest => rest
  | text => text

def readCount? (text : List Char) : Option Nat :=
  let numeral := withoutPlus text
  if isNumeral numeral && value numeral ≤ Count.largest then some (value numeral) else none

theorem value_digits (n : Nat) : value (digits n) = n := Nat.ofDigitChars_ten_toDigits

theorem digits_are_digits (n : Nat) : (digits n).all Char.isDigit := by
  simp only [List.all_eq_true]
  intro c member
  exact Nat.isDigit_of_mem_toDigits (by decide) (by decide) member

/-!
Reading decimal fractions. A fraction has a sign or none, digits with at most
one point among them, and possibly an exponent; the words for infinity and for
no number are read in any case. The value is the double nearest to the decimal,
ties going to the even one.
-/

/-- The double nearest to `digits * 10 ^ exponent`. -/
def nearest (digits : Nat) (exponent : Int) : Float :=
  let leading := exponent + (Decimal.digits digits).length
  if digits = 0 then 0.0
  -- Far outside the range of doubles the power, which could be huge, is not computed.
  else if 400 < leading then 1.0 / 0.0
  else if leading < -400 then 0.0
  else Float.ofScientific digits (exponent < 0) exponent.natAbs

def splitSign : List Char → Bool × List Char
  | '-' :: rest => (true, rest)
  | '+' :: rest => (false, rest)
  | text => (false, text)

def readExponent? (text : List Char) : Option Int :=
  let (negative, ds) := splitSign text
  if isNumeral ds then some (if negative then -(value ds : Int) else value ds) else none

def readUnsigned? (text : List Char) : Option Float :=
  let isMark (c : Char) : Bool := c == 'e' || c == 'E'
  let (mantissa, tail) := text.span (!isMark ·)
  let (whole, rest) := mantissa.span (· != '.')
  let fraction := rest.drop 1
  let ds := whole ++ fraction
  if !isNumeral ds then none
  else
    match tail with
    | [] => some (nearest (value ds) (-(fraction.length : Int)))
    | _ :: power =>
        (readExponent? power).map fun exponent =>
          nearest (value ds) (exponent - fraction.length)

def readFloat? (text : List Char) : Option Float :=
  let (negative, body) := splitSign text
  let word := String.ofList (body.map Char.toLower)
  let magnitude :=
    if word = "inf" ∨ word = "infinity" then some (1.0 / 0.0)
    else if word = "nan" then some (0.0 / 0.0)
    else readUnsigned? body
  magnitude.map fun x => if negative then -x else x

/-!
Double-precision numbers taken apart into exact integers. A finite one is a
sign and a whole number times a power of two; nothing is rounded on the way.
-/

inductive Double where
  | notANumber
  | infinite (negative : Bool)
  | finite (negative : Bool) (mantissa : Nat) (exponent : Int)
  deriving DecidableEq

def Double.ofFloat (x : Float) : Double :=
  let bits := x.toBits.toNat
  let negative := bits ≥ Nat.pow 2 63
  let scale : Nat := bits / Nat.pow 2 52 % Nat.pow 2 11
  let fraction : Nat := bits % Nat.pow 2 52
  if scale = 2047 then if fraction = 0 then .infinite negative else .notANumber
  else if scale = 0 then .finite negative fraction (-1074)
  else .finite negative (fraction + Nat.pow 2 52) ((scale : Int) - 1075)

def roundDiv (num den : Nat) : Nat :=
  let below := num / den
  let rest := 2 * (num % den)
  if den < rest || (rest = den && below % 2 = 1) then below + 1 else below

/-!
The fewest decimal digits that read back as a given double. A positive double
`m * 2 ^ q` is what every real between the midpoints to its neighbours rounds
to, the midpoints themselves included when `m` is even. For one digit, two, and
so on, the two neighbours of the value on that decimal grid are tested against
the interval; the first grid with a hit wins, and of two hits the nearer one, or
the even one if they are equally near. Seventeen digits always suffice.
-/

structure Scientific where
  digits : Nat
  exponent : Int
  deriving DecidableEq

namespace Scientific

def powerFits (m : Nat) (q k : Int) : Bool :=
  Nat.pow 10 k.toNat * Nat.pow 2 (-q).toNat ≤ m * Nat.pow 2 q.toNat * Nat.pow 10 (-k).toNat

def leadingExponent (m : Nat) (q : Int) : Int :=
  let guess := (Nat.log2 m + q) * 30103 / 100000
  if powerFits m q (guess + 1) then guess + 1
  else if powerFits m q guess then guess
  else guess - 1

/-- The multiple of `10 ^ k` nearest to `m * 2 ^ q` among those that round to it. -/
def onGrid (m : Nat) (q k : Int) : Option Nat :=
  let quarter := Nat.pow 2 (q - 2).toNat * Nat.pow 10 (-k).toNat
  let cell := Nat.pow 2 (2 - q).toNat * Nat.pow 10 k.toNat
  let value := 4 * m * quarter
  let low := (4 * m - if m = Nat.pow 2 52 ∧ -1074 < q then 1 else 2) * quarter
  let high := (4 * m + 2) * quarter
  let reads (c : Nat) : Bool :=
    if m % 2 = 0 then low ≤ c * cell && c * cell ≤ high
    else low < c * cell && c * cell < high
  let below := value / cell
  let fromBelow := value - below * cell
  let toAbove := (below + 1) * cell - value
  let nearer := fromBelow < toAbove || (fromBelow = toAbove && below % 2 = 0)
  if reads below && (nearer || !reads (below + 1)) then some below
  else if reads (below + 1) then some (below + 1)
  else none

def trim (digits : Nat) (exponent : Int) : Scientific :=
  if more : 0 < digits ∧ digits % 10 = 0 then trim (digits / 10) (exponent + 1)
  else ⟨digits, exponent⟩
termination_by digits
decreasing_by omega

def shortest (m : Nat) (q : Int) : Scientific :=
  if m = 0 then ⟨0, 0⟩
  else
    let top := leadingExponent m q
    let grids := (List.range 17).map fun more : Nat => top - more
    match grids.findSome? fun k => (onGrid m q k).map fun c => trim c k with
    | some found => found
    | none => ⟨m * Nat.pow 2 q.toNat, 0⟩

end Scientific

/-!
Doubles as text. The natural form writes the shortest digits, positionally for
ordinary sizes and with an exponent for the rest. The fixed form writes the
exact binary value rounded to a number of places, a half going to the even
digit, and never uses an exponent.
-/

structure Layout where
  /-- The lowest exponent of a leading digit that is written positionally. -/
  positionalFrom : Int
  /-- The lowest exponent above those. -/
  positionalBelow : Int
  unwritable : String

/-- The digits with a point before the last `places` of them, and zeros where digits are missing. -/
def pointed (digits : List Char) (places : Nat) : List Char :=
  let padded := List.replicate (places + 1 - digits.length) '0' ++ digits
  let whole := padded.take (padded.length - places)
  if places = 0 then whole else whole ++ '.' :: padded.drop (padded.length - places)

def exponentText (exponent : Int) : List Char :=
  (if exponent < 0 then '-' else '+') :: digits exponent.natAbs

def scientificText (ds : List Char) (exponent : Int) : List Char :=
  pointed ds (ds.length - 1) ++ 'e' :: exponentText exponent

def positionalText (ds : List Char) (exponent : Int) : List Char :=
  if exponent < 0 then pointed ds exponent.natAbs
  else ds ++ List.replicate exponent.natAbs '0' ++ ['.', '0']

def signed (negative : Bool) (text : List Char) : List Char :=
  if negative then '-' :: text else text

def naturalText (layout : Layout) (x : Float) : String :=
  match Double.ofFloat x with
  | .notANumber | .infinite _ => layout.unwritable
  | .finite negative m q =>
      let number := Scientific.shortest m q
      let ds := digits number.digits
      let leading := number.exponent + ds.length - 1
      let text :=
        if layout.positionalFrom ≤ leading ∧ leading < layout.positionalBelow then
          positionalText ds number.exponent
        else scientificText ds leading
      String.ofList (signed negative text)

def fixedText (places : Nat) (x : Float) : String :=
  match Double.ofFloat x with
  | .notANumber => "NaN"
  | .infinite negative => String.ofList (signed negative "inf".toList)
  | .finite negative m q =>
      let scaled := roundDiv (m * Nat.pow 2 q.toNat * Nat.pow 10 places) (Nat.pow 2 (-q).toNat)
      String.ofList (signed negative (pointed (digits scaled) places))

end SegmentQuota.Decimal
