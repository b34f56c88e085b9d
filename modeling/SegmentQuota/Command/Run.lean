import SegmentQuota.Command
import SegmentQuota.Ledger
import SegmentQuota.Selection
import SegmentQuota.Settings.Loading

/-!
Carrying out commands. Every selection on the command line has to be in order:
ascending, with no segment twice. A command that fails writes nothing. Checking an
excerpt loads the settings first, then reads the quota and the excerpt; the limit is
the one given, or the given percentage of the document, or the percentage that is
set. Settings files and completion scripts are the business of other packages, which
are handed in.
-/

namespace SegmentQuota

/-- What other packages do for the program. -/
structure Packages extends Settings.Reader where
  completionScript : Shell → String

structure Outcome where
  status : Nat
  output : String
  deriving DecidableEq

inductive CommandFault where
  | settings (fault : Settings.LoadFault)
  | unreadable (name text : String) (fault : Fragment.Fault)
  | unordered (name text : String)
  deriving DecidableEq

namespace CommandFault

def message : CommandFault → String
  | .settings fault => fault.message
  | .unreadable name text _ => s!"invalid {name} '{text}'"
  | .unordered name text => s!"{name} '{text}' must be sorted and free of overlaps"

def cause? : CommandFault → Option Fragment.Fault
  | .unreadable _ _ fault => some fault
  | _ => none

end CommandFault

namespace Check

def exceededStatus : Nat := 2

def ledger (request : Check) (settings : Settings) (quota : Selection) : Ledger :=
  match request.limit with
  | some limit => ⟨quota, request.segments, limit⟩
  | none =>
      Ledger.withPercent quota request.segments
        (request.limitPercent.getD settings.limitPercent)

def written (request : Check) (settings : Settings) (report : Report) : String :=
  match request.format with
  | .json => report.toValue.pretty ++ "\n"
  | .text =>
      let lines := report.lines settings.glyphs (request.width.getD settings.width)
      String.join (lines.map (· ++ "\n"))

def outcome (request : Check) (settings : Settings) (quota excerpt : Selection) :
    Outcome :=
  let report := (request.ledger settings quota).evaluate excerpt
  ⟨if report.exceeded then exceededStatus else 0, request.written settings report⟩

end Check

namespace Command

def notFoundStatus : Nat := 3

def accept (name text : String) : Except CommandFault Selection :=
  match Selection.parse text with
  | .error fault => .error (.unreadable name text fault)
  | .ok s => if Selection.normalized s then .ok s else .error (.unordered name text)

def answer (line : String) : Outcome := ⟨0, line ++ "\n"⟩

def run (packages : Packages) (surroundings : Settings.Surroundings) (named : Option String) :
    Command → Except CommandFault Outcome
  | .size text =>
      match accept "set" text with
      | .error fault => .error fault
      | .ok s => .ok (answer (toString s.total))
  | .coverage textA textB =>
      match accept "a" textA, accept "b" (textB.getD "") with
      | .error fault, _ => .error fault
      | .ok _, .error fault => .error fault
      | .ok a, .ok b => .ok (answer (toString (Selection.tally a b)))
  | .intersect textA textB =>
      match accept "a" textA, accept "b" textB with
      | .error fault, _ => .error fault
      | .ok _, .error fault => .error fault
      | .ok a, .ok b => .ok (answer (Selection.inter a b).encode)
  | .find text segment =>
      match accept "set" text with
      | .error fault => .error fault
      | .ok s =>
          match s.find? segment 0 s.length with
          | some position => .ok (answer (toString position))
          | none => .ok ⟨notFoundStatus, "not found\n"⟩
  | .check request =>
      match surroundings.load packages.toReader named with
      | .error fault => .error (.settings fault)
      | .ok settings =>
          match accept "quota" (request.quota.getD ""), accept "excerpt" request.excerpt with
          | .error fault, _ => .error fault
          | .ok _, .error fault => .error fault
          | .ok quota, .ok excerpt => .ok (request.outcome settings quota excerpt)
  | .completions shell => .ok ⟨0, packages.completionScript shell⟩

section

variable (packages : Packages) (surroundings : Settings.Surroundings) (named : Option String)

theorem run_size_eq (text : String) :
    run packages surroundings named (.size text) =
      (accept "set" text).bind fun s => .ok (answer (toString s.total)) := by
  rw [run]
  cases accept "set" text <;> rfl

theorem run_coverage_eq (textA : String) (textB : Option String) :
    run packages surroundings named (.coverage textA textB) =
      (accept "a" textA).bind fun a =>
        (accept "b" (textB.getD "")).bind fun b =>
          .ok (answer (toString (Selection.tally a b))) := by
  rw [run]
  cases accept "a" textA with
  | error fault => rfl
  | ok a => cases accept "b" (textB.getD "") <;> rfl

theorem run_intersect_eq (textA textB : String) :
    run packages surroundings named (.intersect textA textB) =
      (accept "a" textA).bind fun a =>
        (accept "b" textB).bind fun b => .ok (answer (Selection.inter a b).encode) := by
  rw [run]
  cases accept "a" textA with
  | error fault => rfl
  | ok a => cases accept "b" textB <;> rfl

theorem run_find_eq (text : String) (segment : Nat) :
    run packages surroundings named (.find text segment) =
      (accept "set" text).bind fun s =>
        match s.find? segment 0 s.length with
        | some position => .ok (answer (toString position))
        | none => .ok ⟨notFoundStatus, "not found\n"⟩ := by
  rw [run]
  cases accept "set" text <;> rfl

theorem run_check_eq (request : Check) :
    run packages surroundings named (.check request) =
      ((surroundings.load packages.toReader named).mapError .settings).bind fun settings =>
        (accept "quota" (request.quota.getD "")).bind fun quota =>
          (accept "excerpt" request.excerpt).map (request.outcome settings quota) := by
  rw [run]
  cases surroundings.load packages.toReader named with
  | error fault => rfl
  | ok settings =>
      cases accept "quota" (request.quota.getD "") with
      | error fault => rfl
      | ok quota => cases accept "excerpt" request.excerpt <;> rfl

end

end Command

def Invocation.run (packages : Packages) (surroundings : Settings.Surroundings)
    (invocation : Invocation) : Except CommandFault Outcome :=
  invocation.command.run packages surroundings invocation.settings

/-!
The output as it arises. The texts go one after the other to whatever takes them, a
report line by line, and what has been written is not taken back when a fault ends
the command.
-/

variable {m : Type → Type} [Monad m]

namespace Check

def put (write : String → m Unit) (request : Check) (settings : Settings) (report : Report) :
    m Unit :=
  match request.format with
  | .json => write (report.toValue.pretty ++ "\n")
  | .text =>
      (report.lines settings.glyphs (request.width.getD settings.width)).forM
        fun line => write (line ++ "\n")

end Check

namespace Command

def execute (write : String → m Unit) (packages : Packages)
    (surroundings : Settings.Surroundings) (named : Option String) :
    Command → ExceptT CommandFault m Nat
  | .size text => do
      let s ← accept "set" text
      write (toString s.total ++ "\n")
      return 0
  | .coverage textA textB => do
      let a ← accept "a" textA
      let b ← accept "b" (textB.getD "")
      write (toString (Selection.tally a b) ++ "\n")
      return 0
  | .intersect textA textB => do
      let a ← accept "a" textA
      let b ← accept "b" textB
      write ((Selection.inter a b).encode ++ "\n")
      return 0
  | .find text segment => do
      let s ← accept "set" text
      match s.find? segment 0 s.length with
      | some position =>
          write (toString position ++ "\n")
          return 0
      | none =>
          write "not found\n"
          return notFoundStatus
  | .check request => do
      let settings ← (surroundings.load packages.toReader named).mapError CommandFault.settings
      let quota ← accept "quota" (request.quota.getD "")
      let excerpt ← accept "excerpt" request.excerpt
      let report := (request.ledger settings quota).evaluate excerpt
      ExceptT.lift (request.put write settings report)
      return if report.exceeded then Check.exceededStatus else 0
  | .completions shell => do
      write (packages.completionScript shell)
      return 0

end Command

def Invocation.execute (write : String → m Unit) (packages : Packages)
    (surroundings : Settings.Surroundings) (invocation : Invocation) :
    ExceptT CommandFault m Nat :=
  invocation.command.execute write packages surroundings invocation.settings

end SegmentQuota
