import SegmentQuota.Value

/-!
What can be asked on the command line. A report is written in one of two forms; as a
value a form is its name, or a table in which nothing stands under that name.
-/

namespace SegmentQuota

inductive Format where
  | text
  | json
  deriving DecidableEq

namespace Format

open Value

def word : Format → String
  | .text => "text"
  | .json => "json"

def all : List Format := [.text, .json]

def ofWord? (word : String) : Option Format := all.find? (·.word == word)

def ofName (name : String) : Except Mismatch Format :=
  match ofWord? name with
  | some format => .ok format
  | none => .error (.unknownName name (all.map word))

def ofValue : Value → Except Mismatch Format
  | .text name => ofName name
  | .table [(name, content)] =>
      match ofName name, content with
      | .error mismatch, _ => .error mismatch
      | .ok format, .null => .ok format
      | .ok _, other => .error (.kind other .nothing)
  | .table entries => .error (.content (.table entries) .oneKey)
  | value => .error (.kind value .nameOrTable)

end Format

/-!
The six commands take their selections as text; whether that is in order is found
out when the command is carried out.
-/

inductive Shell where
  | bash
  | elvish
  | fish
  | powershell
  | zsh
  deriving DecidableEq

structure Check where
  quota : Option String
  excerpt : String
  segments : Nat
  limit : Option Nat
  limitPercent : Option Float
  format : Format
  width : Option Nat

inductive Command where
  | size (selection : String)
  | coverage (a : String) (b : Option String)
  | intersect (a b : String)
  | find (selection : String) (segment : Nat)
  | check (request : Check)
  | completions (shell : Shell)

structure Invocation where
  verbose : Bool
  /-- The settings file to read in place of the usual ones. -/
  settings : Option String
  command : Command

namespace Shell

def word : Shell → String
  | .bash => "bash"
  | .elvish => "elvish"
  | .fish => "fish"
  | .powershell => "powershell"
  | .zsh => "zsh"

def all : List Shell := [.bash, .elvish, .fish, .powershell, .zsh]

def ofWord? (word : String) : Option Shell := all.find? (·.word == word)

end Shell

end SegmentQuota
