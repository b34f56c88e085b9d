import SegmentQuota.Bar
import SegmentQuota.Selection
import SegmentQuota.Selection.Text
import SegmentQuota.Value

/-!
A ledger keeps, for one document, the selection already used up, the number of
segments and the limit on what may be used up. It is a plain value: committing
an excerpt gives the next ledger or a refusal, and leaves the old one as it was.
A report works out every figure about an excerpt without committing it, and is
handed out as a value or as text.
-/

namespace SegmentQuota

structure Ledger where
  quota : Selection
  segments : Nat
  limit : Nat
  deriving DecidableEq

structure Report where
  excerpt : Selection
  quota : Selection
  segments : Nat
  limit : Nat
  excerptSize : Nat
  quotaSize : Nat
  used : Nat
  overlap : Nat
  remaining : Nat
  excerptPercent : Float
  usedPercent : Float
  exceeded : Bool

namespace Ledger

inductive Refusal where
  | overLimit (used limit : Nat)
  | unreadable (fault : Fragment.Fault)
  deriving DecidableEq

def Refusal.message : Refusal → String
  | .overLimit used limit =>
      s!"quota exceeded: {used} segments requested, limit is {limit}"
  | .unreadable fault => fault.message

/-- `percent` of the segments, rounded down; nothing if the percentage is no positive number. -/
def limitOfPercent (segments : Nat) (percent : Float) : Nat :=
  if percent.isFinite && 0.0 < percent then
    (Float.ofNat segments * percent / 100.0).toUInt64.toNat
  else 0

def withPercent (quota : Selection) (segments : Nat) (percent : Float) : Ledger :=
  ⟨quota, segments, limitOfPercent segments percent⟩

def percentOf (count segments : Nat) : Float :=
  if segments = 0 then 0.0 else Float.ofNat count / Float.ofNat segments * 100.0

def evaluate (ledger : Ledger) (excerpt : Selection) : Report :=
  let excerptSize := excerpt.total
  let used := Selection.tally ledger.quota excerpt
  { excerpt
    quota := ledger.quota
    segments := ledger.segments
    limit := ledger.limit
    excerptSize
    quotaSize := Selection.total ledger.quota
    used
    overlap := Selection.total (Selection.inter ledger.quota excerpt)
    remaining := ledger.limit - used
    excerptPercent := percentOf excerptSize ledger.segments
    usedPercent := percentOf used ledger.segments
    exceeded := ledger.limit < used }

def evaluateWindow (ledger : Ledger) (first last : Nat) : Except Fragment.Fault Report :=
  match Fragment.ofBounds first last with
  | .error fault => .error fault
  | .ok f => .ok (ledger.evaluate [f])

def admits (ledger : Ledger) (excerpt : Selection) : Bool :=
  !Selection.exceeds ledger.quota excerpt ledger.limit

def commit (ledger : Ledger) (excerpt : Selection) : Except Refusal Ledger :=
  if ledger.admits excerpt then
    .ok { ledger with quota := Selection.union ledger.quota excerpt }
  else .error (.overLimit (Selection.tally ledger.quota excerpt) ledger.limit)

def commitText (ledger : Ledger) (excerpt : String) : Except Refusal Ledger :=
  match Selection.parse excerpt with
  | .error fault => .error (.unreadable fault)
  | .ok s => ledger.commit s

def offer (ledger : Ledger) (excerpt : Selection) : Ledger :=
  match ledger.commit excerpt with
  | .ok next => next
  | .error _ => ledger

def offerAll (ledger : Ledger) (excerpts : List Selection) : Ledger := excerpts.foldl offer ledger

end Ledger

/-!
A selection is a string wherever a value is wanted. A report is a table of its
figures in a fixed order, or a few lines of text with percentages to one place and
the bar at the end.
-/

namespace Selection

def toValue (s : Selection) : Value := .text s.encode

def ofValue : Value → Except Value.Mismatch Selection
  | .text content =>
      match Selection.parse content with
      | .ok s => .ok s
      | .error fault => .error (.fragment fault)
  | value => .error (.kind value .text)

def shown (s : Selection) : String := if s.isEmpty then "-" else s.encode

end Selection

namespace Report

def toValue (report : Report) : Value :=
  .table [
    ("excerpt", Selection.toValue report.excerpt),
    ("quota", Selection.toValue report.quota),
    ("segments", .integer report.segments),
    ("limit", .integer report.limit),
    ("excerpt_size", .integer report.excerptSize),
    ("quota_size", .integer report.quotaSize),
    ("used", .integer report.used),
    ("overlap", .integer report.overlap),
    ("remaining", .integer report.remaining),
    ("excerpt_percent", .float report.excerptPercent),
    ("used_percent", .float report.usedPercent),
    ("exceeded", .bool report.exceeded)]

def bar (glyphs : Glyphs) (width : Nat) (report : Report) : String :=
  String.ofList <|
    Bar.render glyphs width report.segments report.quota report.excerpt report.exceeded

def lines (glyphs : Glyphs) (width : Nat) (report : Report) : List String :=
  let excerpt := Selection.shown report.excerpt
  let quota := Selection.shown report.quota
  let excerptPercent := Decimal.fixedText 1 report.excerptPercent
  let usedPercent := Decimal.fixedText 1 report.usedPercent
  let status := if report.exceeded then "exceeded" else "ok"
  let bar := report.bar glyphs width
  let excerptSize := report.excerptSize
  let quotaSize := report.quotaSize
  let used := report.used
  let limit := report.limit
  let segments := report.segments
  let overlap := report.overlap
  let remaining := report.remaining
  [ s!"excerpt   {excerpt} ({excerptSize} segments, {excerptPercent}%)",
    s!"quota     {quota} ({quotaSize} segments)",
    s!"used      {used}/{limit} ({usedPercent}% of {segments})",
    s!"overlap   {overlap}",
    s!"remaining {remaining}",
    s!"status    {status}" ]
    ++ if bar.isEmpty then [] else ["[" ++ bar ++ "]"]

end Report

end SegmentQuota
