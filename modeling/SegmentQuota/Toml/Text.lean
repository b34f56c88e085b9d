/-!
The characters of a TOML document: blanks, comments, ends of lines, and strings.
A string stands between double quotes with escapes or between single quotes
without; three quotes on each side let it run over several lines. Reading takes
characters from the front and hands back what follows.
-/

namespace SegmentQuota.Toml

abbrev Reader (α : Type) := List Char → Option (α × List Char)

def isSpace (c : Char) : Bool := c == ' ' || c == '\t'

def isPlain (c : Char) : Bool := c == '\t' || (32 ≤ c.toNat && c.toNat != 127)

def skipSpaces (text : List Char) : List Char := text.dropWhile isSpace

def lineEnd? : List Char → Option (List Char)
  | '\n' :: rest => some rest
  | '\r' :: '\n' :: rest => some rest
  | _ => none

def restOfLine? (text : List Char) : Option (List Char) :=
  let stop :=
    match skipSpaces text with
    | '#' :: comment => comment.dropWhile isPlain
    | other => other
  if stop.isEmpty then some [] else lineEnd? stop

/-- Skips blanks, ends of lines and comments; `comment` tells whether one is running. -/
def skipLines (comment : Bool) : List Char → Option (List Char)
  | [] => some []
  | '\n' :: rest => skipLines false rest
  | '\r' :: '\n' :: rest => skipLines false rest
  | c :: rest =>
      if comment then if isPlain c then skipLines true rest else none
      else if isSpace c then skipLines false rest
      else if c = '#' then skipLines true rest
      else if c = '\r' then none
      else some (c :: rest)

def hexValue? (c : Char) : Option Nat :=
  if c.isDigit then some (c.toNat - 48)
  else if 'a' ≤ c ∧ c ≤ 'f' then some (c.toNat - 87)
  else if 'A' ≤ c ∧ c ≤ 'F' then some (c.toNat - 55)
  else none

def codePoint? (hex : List Char) : Option Char := do
  let values ← hex.mapM hexValue?
  let point := values.foldl (16 * · + ·) 0
  if point.isValidChar then some (Char.ofNat point) else none

def shortEscape? : Char → Option Char
  | 'b' => some '\x08'
  | 't' => some '\t'
  | 'n' => some '\n'
  | 'f' => some '\x0c'
  | 'r' => some '\r'
  | '"' => some '"'
  | '\\' => some '\\'
  | _ => none

def push (c : Char) (read : Option (List Char × List Char)) : Option (List Char × List Char) :=
  read.map fun (content, rest) => (c :: content, rest)

def readBasic : Reader (List Char)
  | [] => none
  | '"' :: rest => some ([], rest)
  | '\\' :: 'u' :: a :: b :: c :: d :: rest =>
      match codePoint? [a, b, c, d] with
      | some point => push point (readBasic rest)
      | none => none
  | '\\' :: 'U' :: a :: b :: c :: d :: e :: f :: g :: h :: rest =>
      match codePoint? [a, b, c, d, e, f, g, h] with
      | some point => push point (readBasic rest)
      | none => none
  | '\\' :: c :: rest =>
      match shortEscape? c with
      | some escaped => push escaped (readBasic rest)
      | none => none
  | c :: rest => if isPlain c && c != '\\' then push c (readBasic rest) else none

def joinsLines (text : List Char) : Bool := (lineEnd? (skipSpaces text)).isSome

/-- A string over several lines, after its opening quotes. While `joining`, blanks
and ends of lines are left out. -/
def readBasicLines (joining : Bool) : Reader (List Char)
  | [] => none
  -- Up to two quotes of the text may stand before the closing three.
  | '"' :: '"' :: '"' :: '"' :: '"' :: rest => some (['"', '"'], rest)
  | '"' :: '"' :: '"' :: '"' :: rest => some (['"'], rest)
  | '"' :: '"' :: '"' :: rest => some ([], rest)
  | '\n' :: rest =>
      if joining then readBasicLines true rest else push '\n' (readBasicLines false rest)
  | '\r' :: '\n' :: rest =>
      if joining then readBasicLines true rest else push '\n' (readBasicLines false rest)
  | '\\' :: 'u' :: a :: b :: c :: d :: rest =>
      match codePoint? [a, b, c, d] with
      | some point => push point (readBasicLines false rest)
      | none => none
  | '\\' :: 'U' :: a :: b :: c :: d :: e :: f :: g :: h :: rest =>
      match codePoint? [a, b, c, d, e, f, g, h] with
      | some point => push point (readBasicLines false rest)
      | none => none
  | '\\' :: c :: rest =>
      if joinsLines (c :: rest) then readBasicLines true (c :: rest)
      else
        match shortEscape? c with
        | some escaped => push escaped (readBasicLines false rest)
        | none => none
  | c :: rest =>
      if joining && isSpace c then readBasicLines true rest
      else if isPlain c && c != '\\' then push c (readBasicLines false rest)
      else none

def readLiteral (text : List Char) : Option (List Char × List Char) :=
  let (content, rest) := text.span fun c => isPlain c && c != '\''
  match rest with
  | '\'' :: after => some (content, after)
  | _ => none

def readLiteralLines : Reader (List Char)
  | [] => none
  | '\'' :: '\'' :: '\'' :: '\'' :: '\'' :: rest => some (['\'', '\''], rest)
  | '\'' :: '\'' :: '\'' :: '\'' :: rest => some (['\''], rest)
  | '\'' :: '\'' :: '\'' :: rest => some ([], rest)
  | '\n' :: rest => push '\n' (readLiteralLines rest)
  | '\r' :: '\n' :: rest => push '\n' (readLiteralLines rest)
  | c :: rest => if isPlain c then push c (readLiteralLines rest) else none

def afterOpening (text : List Char) : List Char := (lineEnd? text).getD text

def readLineString : Reader String
  | '"' :: rest => (readBasic rest).map fun (content, after) => (String.ofList content, after)
  | '\'' :: rest => (readLiteral rest).map fun (content, after) => (String.ofList content, after)
  | _ => none

def readString : Reader String
  | '"' :: '"' :: '"' :: rest =>
      (readBasicLines false (afterOpening rest)).map fun (content, after) =>
        (String.ofList content, after)
  | '\'' :: '\'' :: '\'' :: rest =>
      (readLiteralLines (afterOpening rest)).map fun (content, after) =>
        (String.ofList content, after)
  | text => readLineString text

end SegmentQuota.Toml
