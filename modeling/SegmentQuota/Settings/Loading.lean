import SegmentQuota.FileTree
import SegmentQuota.Settings
import SegmentQuota.Text
import SegmentQuota.Toml.Document

/-!
Where settings come from. Over those that come with the program lie the user's own
file, then the file of the workspace, then two environment values; each replaces
exactly the settings it makes. The workspace is the nearest directory, from the
working directory up, that holds a `.git`, or the working directory itself. A missing
file sets nothing, but one that is there has to be in order. A file named on the
command line takes the place of both files and has to be there. How the text of a
file is read is left to a reader, which is handed in.
-/

namespace SegmentQuota.Settings

structure Surroundings where
  top : String
  peek : Place → Option Entry
  typed? : String → Option Entry
  -- Where there is no working directory, the complaint of the operating system.
  workingDirectory : Except String Place
  userDirectory : Option Place
  limitPercent : Option String
  outlineWidth : Option String

/-- What is made of the text of a settings file: all settings, or only those it makes. -/
structure Reader where
  settings? : String → Option Settings
  layer? : String → Option Layer

inductive LoadFault where
  | noWorkingDirectory (complaint : String)
  | shippedRefused
  | unreadable (path : String)
  | invalid (path : String)
  deriving DecidableEq

def LoadFault.message : LoadFault → String
  | .noWorkingDirectory complaint => complaint
  | .shippedRefused => "failed to parse TOML config"
  | .unreadable path => "failed to read config file: " ++ path
  | .invalid path => "invalid config file: " ++ path

def shipped : String :=
  "# Defaults for the excerpt CLI. Override them in ~/.config/excerpt/config.toml\n" ++
  "# or in .excerpt/config.toml at the root of a repository.\n" ++
  "\n" ++
  "[quota]\n" ++
  "# Share of a document that may be revealed, in percent.\n" ++
  "limit_percent = 15.0\n" ++
  "\n" ++
  "[outline]\n" ++
  "width = 60\n" ++
  "background = \".\"\n" ++
  "excerpt = \"#\"\n" ++
  "quota = \"q\"\n" ++
  "overlap = \"*\"\n" ++
  "exceeded = \"!\"\n"

namespace Reader

def shippedSettings (reader : Reader) : Except LoadFault Settings :=
  match reader.settings? shipped with
  | some settings => .ok settings
  | none => .error .shippedRefused

def readFile (reader : Reader) (path : String) : Option Entry → Except LoadFault Layer
  | some (.text content) =>
      match reader.layer? content with
      | some layer => .ok layer
      | none => .error (.invalid path)
  | some .closed | none => .error (.unreadable path)

end Reader

def readPercentOverride? (text : String) : Option Float :=
  match Decimal.readFloat? (Text.trim text.toList) with
  | some x => if x.isFinite && 0.0 ≤ x then some x else none
  | none => none

def readWidthOverride? (text : String) : Option Nat :=
  Decimal.readCount? (Text.trim text.toList)

namespace Surroundings

def userFile (s : Surroundings) : Option Place :=
  s.userDirectory.map fun directory => "config.toml" :: "excerpt" :: directory

def workspace (s : Surroundings) (here : Place) : Place :=
  (Place.nearestWith ".git" s.peek here).getD here

def workspaceFile (s : Surroundings) : Except LoadFault Place :=
  match s.workingDirectory with
  | .error complaint => .error (.noWorkingDirectory complaint)
  | .ok here => .ok ("config.toml" :: ".excerpt" :: s.workspace here)

def layerAt (s : Surroundings) (reader : Reader) : Option Place → Except LoadFault Layer
  | none => .ok {}
  | some place =>
      match s.peek place with
      | none => .ok {}
      | some entry => reader.readFile (place.pathText s.top) (some entry)

def environment (s : Surroundings) : Layer where
  limitPercent := s.limitPercent.bind readPercentOverride?
  width := s.outlineWidth.bind readWidthOverride?

def settle (s : Surroundings) (base : Settings) (layers : List Layer) : Settings :=
  s.environment.over (layers.foldl (fun settings layer => layer.over settings) base)

def load (s : Surroundings) (reader : Reader) : Option String → Except LoadFault Settings
  | some path => do
      let base ← reader.shippedSettings
      let layer ← reader.readFile path (s.typed? path)
      return s.settle base [layer]
  | none => do
      let workspaceFile ← s.workspaceFile
      let base ← reader.shippedSettings
      let user ← s.layerAt reader s.userFile
      let own ← s.layerAt reader (some workspaceFile)
      return s.settle base [user, own]

end Surroundings

def Layer.ofToml? (content : String) : Option Layer :=
  match Toml.parse? content with
  | none => none
  | some value =>
      match Layer.ofValue .ignored value with
      | .ok layer => some layer
      | .error _ => none

/-- The reader of the running program. Nothing above depends on it. -/
def Reader.toml : Reader where
  settings? content := (Layer.ofToml? content).map fun layer => layer.over initial
  layer? := Layer.ofToml?

end SegmentQuota.Settings
