import SegmentQuota.Command
import SegmentQuota.Number

/-!
Commands out of arguments. Options may stand anywhere, and the ones for every
command before the command's name too. A value follows its option as the next
argument or after an equals sign. What begins with a dash is an option, unless
it is a dash alone or follows a double dash. A value that is an argument of its
own is looked at when the next option or position comes or the arguments end, so
an argument that has no meaning there is reported before it.
-/

namespace SegmentQuota

inductive UsageFault where
  | helpAsked
  | versionAsked
  | nothingGiven
  | commandMissing
  | commandUnknown (name : String)
  | argumentUnknown (argument : String)
  | argumentMissing (name : String)
  | valueMissing (name : String)
  | valueUnwanted (name : String)
  | valueRefused (name value : String)
  /-- The value is no number of the kind for this argument. -/
  | valueMalformed (name value : String)
  | conflict (name : String)
  deriving DecidableEq

def UsageFault.message : UsageFault → String
  | .helpAsked => "help was asked for"
  | .versionAsked => "the version was asked for"
  | .nothingGiven => "no command was given"
  | .commandMissing => "a command is missing"
  | .commandUnknown name => s!"unknown command '{name}'"
  | .argumentUnknown argument => s!"unexpected argument '{argument}'"
  | .argumentMissing name => s!"the argument '{name}' is missing"
  | .valueMissing name => s!"'{name}' needs a value"
  | .valueUnwanted name => s!"'{name}' takes no value"
  | .valueRefused name value => s!"'{value}' is no value for '{name}'"
  | .valueMalformed name value => s!"'{value}' is no number for '{name}'"
  | .conflict name => s!"'{name}' cannot be used here again or along with another argument"

def UsageFault.status : UsageFault → Nat
  | .helpAsked | .versionAsked => 0
  | _ => 2

namespace Arguments

inductive Kind where
  | text
  | path
  | count
  | percentage
  | word (choices : List String)

inductive Reading where
  | text (content : String)
  | count (number : Nat)
  | percentage (number : Float)

structure Parameter where
  name : String
  kind : Kind

structure Grammar where
  options : List Parameter
  versioned : Bool
  /-- The fault of an argument in no position; true stands for behind a double dash. -/
  stray : Bool → String → UsageFault

structure Progress where
  verbose : Bool := false
  readings : List (String × Reading) := []
  /-- An argument whose value is not read yet, and its value once that has come. -/
  pending : Option (Parameter × Option String) := none
  free : List Parameter
  literal : Bool := false

def Parameter.read (parameter : Parameter) (value : String) : Except UsageFault Reading :=
  match parameter.kind with
  | .text => .ok (.text value)
  | .path => if value.isEmpty then .error (.valueMissing parameter.name) else .ok (.text value)
  | .count =>
      match Decimal.readCount? value.toList with
      | some number => .ok (.count number)
      | none => .error (.valueMalformed parameter.name value)
  | .percentage =>
      match Decimal.readFloat? value.toList with
      | some number => .ok (.percentage number)
      | none => .error (.valueMalformed parameter.name value)
  | .word choices =>
      if choices.contains value then .ok (.text value)
      else .error (.valueRefused parameter.name value)

namespace Progress

def reading? (p : Progress) (name : String) : Option Reading := p.readings.lookup name

def text? (p : Progress) (name : String) : Option String :=
  match p.reading? name with
  | some (.text content) => some content
  | _ => none

def count? (p : Progress) (name : String) : Option Nat :=
  match p.reading? name with
  | some (.count number) => some number
  | _ => none

def percentage? (p : Progress) (name : String) : Option Float :=
  match p.reading? name with
  | some (.percentage number) => some number
  | _ => none

def store (p : Progress) (parameter : Parameter) (value : String) :
    Except UsageFault Progress :=
  if (p.reading? parameter.name).isSome then .error (.conflict parameter.name)
  else
    (parameter.read value).map fun reading =>
      { p with readings := (parameter.name, reading) :: p.readings }

def settle (p : Progress) : Except UsageFault Progress :=
  match p.pending with
  | none => .ok p
  | some (parameter, none) => .error (.valueMissing parameter.name)
  | some (parameter, some value) => { p with pending := none }.store parameter value

def markVerbose (p : Progress) : Except UsageFault Progress :=
  if p.verbose then .error (.conflict "verbose") else .ok { p with verbose := true }

def awaitsValue (p : Progress) : Bool :=
  match p.pending with
  | some (_, none) => true
  | _ => false

def takeLong (grammar : Grammar) (p : Progress) (body : List Char) :
    Except UsageFault Progress :=
  let (letters, rest) := body.span (· != '=')
  let name := String.ofList letters
  let attached := if rest.isEmpty then none else some (String.ofList (rest.drop 1))
  if name = "verbose" ∨ name = "help" ∨ (name = "version" ∧ grammar.versioned) then
    if attached.isSome then .error (.valueUnwanted name)
    else
      match p.settle with
      | .error fault => .error fault
      | .ok settled =>
          if name = "verbose" then settled.markVerbose
          else if name = "help" then .error .helpAsked
          else .error .versionAsked
  else
    match grammar.options.find? (·.name == name) with
    | none => .error (.argumentUnknown ("--" ++ name))
    | some parameter =>
        match p.settle with
        | .error fault => .error fault
        | .ok settled =>
            match attached with
            | some value => settled.store parameter value
            | none => .ok { settled with pending := some (parameter, none) }

def takeLetters (grammar : Grammar) : List Char → Progress → Except UsageFault Progress
  | [], p => .ok p
  | letter :: rest, p =>
      if letter = 'v' ∨ letter = 'h' ∨ (letter = 'V' ∧ grammar.versioned) then
        match p.settle with
        | .error fault => .error fault
        | .ok settled =>
            if letter = 'h' then .error .helpAsked
            else if letter = 'V' then .error .versionAsked
            else
              match settled.markVerbose with
              | .error fault => .error fault
              | .ok marked => takeLetters grammar rest marked
      else .error (.argumentUnknown ("-" ++ letter.toString))

def takePosition (grammar : Grammar) (p : Progress) (argument : String) :
    Except UsageFault Progress :=
  match p.free with
  | [] => .error (grammar.stray p.literal argument)
  | parameter :: others =>
      p.settle.map fun settled =>
        { settled with free := others, pending := some (parameter, some argument) }

def take (grammar : Grammar) (p : Progress) (argument : String) :
    Except UsageFault Progress :=
  if p.literal then p.takePosition grammar argument
  else
    match argument.toList with
    | ['-', '-'] => .ok { p with literal := true }
    | '-' :: '-' :: body => p.takeLong grammar body
    | '-' :: letter :: letters => takeLetters grammar (letter :: letters) p
    | _ =>
        match p.pending with
        | some (parameter, none) => .ok { p with pending := some (parameter, some argument) }
        | _ => p.takePosition grammar argument

def takeAll (grammar : Grammar) : List String → Progress → Except UsageFault Progress
  | [], p => p.settle
  | argument :: rest, p =>
      match p.take grammar argument with
      | .error fault => .error fault
      | .ok next => takeAll grammar rest next

end Progress

def settingsOption : Parameter := ⟨"config", .path⟩

def required {α : Type} (name : String) : Option α → Except UsageFault α
  | some reading => .ok reading
  | none => .error (.argumentMissing name)

structure Form where
  name : String
  positions : List Parameter
  options : List Parameter
  build : Progress → Except UsageFault Command

def sizeForm : Form where
  name := "size"
  positions := [⟨"SET", .text⟩]
  options := []
  build p := do
    return .size (← required "SET" (p.text? "SET"))

def coverageForm : Form where
  name := "coverage"
  positions := [⟨"A", .text⟩, ⟨"B", .text⟩]
  options := []
  build p := do
    return .coverage (← required "A" (p.text? "A")) (p.text? "B")

def intersectForm : Form where
  name := "intersect"
  positions := [⟨"A", .text⟩, ⟨"B", .text⟩]
  options := []
  build p := do
    return .intersect (← required "A" (p.text? "A")) (← required "B" (p.text? "B"))

def findForm : Form where
  name := "find"
  positions := [⟨"SET", .text⟩, ⟨"SEGMENT", .count⟩]
  options := []
  build p := do
    return .find (← required "SET" (p.text? "SET")) (← required "SEGMENT" (p.count? "SEGMENT"))

def checkForm : Form where
  name := "check"
  positions := []
  options := [
    ⟨"quota", .text⟩, ⟨"excerpt", .text⟩, ⟨"segments", .count⟩, ⟨"limit", .count⟩,
    ⟨"limit-percent", .percentage⟩, ⟨"format", .word (Format.all.map Format.word)⟩,
    ⟨"width", .count⟩]
  build p := do
    let limit := p.count? "limit"
    let limitPercent := p.percentage? "limit-percent"
    -- The two limits exclude each other, whatever else is missing.
    if limit.isSome && limitPercent.isSome then throw (.conflict "limit")
    let excerpt ← required "excerpt" (p.text? "excerpt")
    let segments ← required "segments" (p.count? "segments")
    return .check {
      quota := p.text? "quota"
      excerpt
      segments
      limit
      limitPercent
      format := ((p.text? "format").bind Format.ofWord?).getD .text
      width := p.count? "width" }

def completionsForm : Form where
  name := "completions"
  positions := [⟨"SHELL", .word (Shell.all.map Shell.word)⟩]
  options := []
  build p := do
    return .completions (← required "SHELL" ((p.text? "SHELL").bind Shell.ofWord?))

def forms : List Form :=
  [sizeForm, coverageForm, intersectForm, findForm, checkForm, completionsForm]

def form? (name : String) : Option Form := forms.find? (·.name == name)

def isCommandName (name : String) : Bool := name == "help" || (form? name).isSome

def topGrammar : Grammar where
  options := [settingsOption]
  versioned := true
  stray literal argument :=
    if literal && isCommandName argument then .argumentUnknown argument
    else .commandUnknown argument

def Form.grammar (form : Form) : Grammar where
  options := settingsOption :: form.options
  versioned := false
  stray _ argument := .argumentUnknown argument

def help : List String → UsageFault
  | [] => .helpAsked
  | [name] => if isCommandName name then .helpAsked else .commandUnknown name
  | name :: other :: _ => .commandUnknown (if isCommandName name then other else name)

def readCommand (outer : Progress) (form : Form) (rest : List String) :
    Except UsageFault Invocation := do
  let inner ← Progress.takeAll form.grammar rest { free := form.positions }
  let command ← form.build inner
  let settled ← outer.settle
  return {
    verbose := settled.verbose || inner.verbose
    settings := inner.text? "config" <|> settled.text? "config"
    command }

def readTop : List String → Progress → Except UsageFault Invocation
  | [], p =>
      match p.settle with
      | .error fault => .error fault
      | .ok settled =>
          if settled.verbose || !settled.readings.isEmpty then .error .commandMissing
          else .error .nothingGiven
  | argument :: rest, p =>
      let named := !p.literal && !p.awaitsValue
      if named && argument == "help" then .error (help rest)
      else
        match if named then form? argument else none with
        | some form => readCommand p form rest
        | none =>
            match p.take topGrammar argument with
            | .error fault => .error fault
            | .ok next => readTop rest next

end Arguments

def Invocation.parse (arguments : List String) : Except UsageFault Invocation :=
  Arguments.readTop arguments { free := [] }

end SegmentQuota
