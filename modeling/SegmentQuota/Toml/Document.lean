import SegmentQuota.Toml.Scalar
import SegmentQuota.Toml.Table

/-!
TOML documents. A value is a string, a word, a list or a table in braces; lists
and tables in braces nest less than eighty deep, and a dotted key has fewer than
eighty parts. A document is a sequence of lines: keys with their values, headers
of sections, blanks and comments. The result is the table of the whole document,
or nothing if any part of it is not in order.
-/

namespace SegmentQuota.Toml

def nestingLimit : Nat := 80

def isBareKeyChar (c : Char) : Bool := c.isAlphanum || c == '_' || c == '-'

def readKeyPart : Reader String := fun text =>
  match text.span isBareKeyChar with
  | ([], _) => readLineString text
  | (name, rest) => some (String.ofList name, rest)

def readKeyParts (text : List Char) : Option (List String × List Char) :=
  match readKeyPart (skipSpaces text) with
  | none => none
  | some (part, after) =>
      match skipSpaces after with
      | '.' :: rest =>
          if rest.length < text.length then
            (readKeyParts rest).map fun (parts, stop) => (part :: parts, stop)
          else none
      | stop => some ([part], stop)
termination_by text.length

def readKey : Reader (List String) := fun text =>
  (readKeyParts text).filter fun (parts, _) => parts.length < nestingLimit

def readPair (readValue : Reader Value) : Reader Entries.Pair := fun text =>
  match readKey text with
  | some (path, '=' :: rest) =>
      (readValue (skipSpaces rest)).map fun (value, after) => ((path, value), after)
  | _ => none

def readItems (readValue : Reader Value) (text : List Char) :
    Option (List Value × List Char) :=
  match skipLines false text with
  | none => none
  | some (']' :: rest) => some ([], rest)
  | some start =>
      match readValue start with
      | none => none
      | some (item, after) =>
          match skipLines false after with
          | some (',' :: rest) =>
              if rest.length < text.length then
                (readItems readValue rest).map fun (items, stop) => (item :: items, stop)
              else none
          | some (']' :: rest) => some ([item], rest)
          | _ => none
termination_by text.length

def readPairs (readValue : Reader Value) (text : List Char) :
    Option (List Entries.Pair × List Char) :=
  match readPair readValue text with
  | none => none
  | some (pair, after) =>
      match skipSpaces after with
      | ',' :: rest =>
          if rest.length < text.length then
            (readPairs readValue rest).map fun (pairs, stop) => (pair :: pairs, stop)
          else none
      | '\x7d' :: rest => some ([pair], rest)
      | _ => none
termination_by text.length

def readBraces (readValue : Reader Value) : Reader Value := fun text =>
  match skipSpaces text with
  | '\x7d' :: rest => some (.table [], rest)
  | start =>
      match readPairs readValue start with
      | none => none
      | some (pairs, rest) =>
          (Entries.fill pairs []).map fun entries => (.table (finish entries), rest)

/-- A value in which lists and tables in braces nest at most `room` deep. -/
def readValueWithin : Nat → Reader Value
  | 0, text =>
      match text with
      | '"' :: _ | '\'' :: _ =>
          (readString text).map fun (content, rest) => (.text content, rest)
      | _ => readScalar text
  | room + 1, text =>
      match text with
      | '"' :: _ | '\'' :: _ =>
          (readString text).map fun (content, rest) => (.text content, rest)
      | '[' :: inside =>
          (readItems (readValueWithin room) inside).map fun (items, rest) =>
            (.list items, rest)
      | '\x7b' :: inside => readBraces (readValueWithin room) inside
      | _ => readScalar text

def readValue : Reader Value := readValueWithin (nestingLimit - 1)

inductive Line where
  | pair (content : Entries.Pair)
  | table (path : List String)
  | element (path : List String)

def readLine : Reader Line
  | '[' :: '[' :: rest =>
      match readKey rest with
      | some (path, ']' :: ']' :: after) => some (.element path, after)
      | _ => none
  | '[' :: rest =>
      match readKey rest with
      | some (path, ']' :: after) => some (.table path, after)
      | _ => none
  | text => (readPair readValue text).map fun (content, after) => (.pair content, after)

def readLines (text : List Char) : Option (List Line) :=
  match skipSpaces text with
  | [] => some []
  | start =>
      match restOfLine? start with
      | some rest => if rest.length < text.length then readLines rest else none
      | none =>
          match readLine start with
          | none => none
          | some (line, after) =>
              match restOfLine? after with
              | none => none
              | some rest =>
                  if rest.length < text.length then
                    (readLines rest).map fun lines => line :: lines
                  else none
termination_by text.length

/-- The pairs before the first header, and each header with the pairs of its section. -/
def sections : List Line → List Entries.Pair × List (Line × List Entries.Pair)
  | [] => ([], [])
  | .pair content :: rest =>
      let (own, later) := sections rest
      (content :: own, later)
  | header :: rest =>
      let (own, later) := sections rest
      ([], (header, own) :: later)

def build : List (Line × List Entries.Pair) → Entries → Option Entries
  | [], entries => some entries
  | (.table path, pairs) :: rest, entries =>
      match Entries.addSection (Entries.addTable pairs) path entries with
      | none => none
      | some next => build rest next
  | (.element path, pairs) :: rest, entries =>
      match Entries.addSection (Entries.addElement pairs) path entries with
      | none => none
      | some next => build rest next
  | (.pair _, _) :: _, _ => none

def withoutMark : List Char → List Char
  | '\ufeff' :: rest => rest
  | text => text

def parse? (text : String) : Option Value := do
  let lines ← readLines (withoutMark text.toList)
  let (own, later) := sections lines
  let root ← Entries.fill own []
  let entries ← build later root
  some (.table (finish entries))

end SegmentQuota.Toml
