import SegmentQuota.Command.Arguments
import SegmentQuota.Command.Run

/-!
The program. Before a command is carried out, everything it could want to read is
read: the markers and settings files of the working directory and of all
directories around it, the user's own settings, and the file named among the
arguments. What is decided on it is decided elsewhere.
-/

namespace SegmentQuota.Main

def peekPath (path : String) : IO (Option Entry) := do
  try
    return some (.text (← IO.FS.readFile path))
  catch
    | .noFileOrDirectory .. => return none
    | .inappropriateType _ code _ => return if code = 20 then none else some .closed
    | _ => return some .closed

def placeOf (path : String) : Place := ((Place.names path).filter (· != "")).reverse

def userDirectory : IO (Option Place) := do
  match ← IO.getEnv "XDG_CONFIG_HOME", ← IO.getEnv "HOME" with
  | some path, home =>
      if path.startsWith "/" then return some (placeOf path)
      else return home.map fun path => ".config" :: placeOf path
  | none, home => return home.map fun path => ".config" :: placeOf path

def enclosing : Place → List Place
  | [] => [[]]
  | name :: outer => (name :: outer) :: enclosing outer

def surroundings (named : Option String) : IO Settings.Surroundings := do
  let here : Except String Place ←
    try
      pure (.ok (placeOf (← IO.currentDir).toString))
    catch problem =>
      pure (.error (toString problem))
  let user ← userDirectory
  let around := (here.toOption.map enclosing).getD [] |>.flatMap fun place =>
    [".git" :: place, "config.toml" :: ".excerpt" :: place]
  let own := user.toList.map fun place => "config.toml" :: "excerpt" :: place
  let found ← (own ++ around).filterMapM fun (place : Place) => do
    return (← peekPath (Place.pathText "" place)).map fun entry => (place, entry)
  let typed ← match named with
    | some path => peekPath path
    | none => pure none
  return {
    top := ""
    peek := fun place => found.lookup place
    typed? := fun path => if some path = named then typed else none
    workingDirectory := here
    userDirectory := user
    limitPercent := ← IO.getEnv "EXCERPT_LIMIT_PERCENT"
    outlineWidth := ← IO.getEnv "EXCERPT_OUTLINE_WIDTH" }

-- The package that writes completion scripts is not part of the library.
def packages : Packages where
  toReader := .toml
  completionScript _ := ""

def help : String :=
  "Usage: excerpt [--verbose] [--config PATH] COMMAND\n\n" ++
  "  size SET                 the number of segments in a selection\n" ++
  "  coverage A [B]           the segments that one or two selections take up\n" ++
  "  intersect A B            the fragments that two selections share\n" ++
  "  find SET SEGMENT         the position of the fragment with a segment\n" ++
  "  check --excerpt SET --segments N [--quota SET] [--limit N | --limit-percent P]\n" ++
  "        [--format text|json] [--width N]\n" ++
  "                           an excerpt beside a quota and a limit\n" ++
  "  completions SHELL        a completion script\n"

def reportUsage (fault : UsageFault) : IO UInt32 := do
  match fault with
  | .helpAsked => IO.print help
  | .versionAsked => IO.println "excerpt 0.1.0"
  | .nothingGiven => IO.eprint help
  | other => IO.eprintln ("error: " ++ other.message)
  return fault.status.toUInt32

def reportFault (fault : CommandFault) : IO UInt32 := do
  IO.eprintln ("Error: " ++ fault.message)
  if let some cause := fault.cause? then
    IO.eprintln ("\nCaused by:\n    " ++ cause.message)
  return 1

end SegmentQuota.Main

open SegmentQuota in
def main (arguments : List String) : IO UInt32 := do
  match Invocation.parse arguments with
  | .error fault => Main.reportUsage fault
  | .ok invocation =>
      let surroundings ← Main.surroundings invocation.settings
      match ← (invocation.execute IO.print Main.packages surroundings).run with
      | .error fault => Main.reportFault fault
      | .ok status => return status.toUInt32
