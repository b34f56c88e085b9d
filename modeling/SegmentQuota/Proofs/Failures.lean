import SegmentQuota.Command.Run
import SegmentQuota.Proofs.Verdict

/-!
How commands fail. Everything that can go wrong with a command is looked at before its
first line is written, and in a fixed order: the settings where they are wanted, then the
selections one by one. So a failure leaves the output as it was, and is that of the first
requirement which is not met. Whatever takes the output, as long as it takes all of it,
what is written is what the outcome of the command says.
-/

namespace SegmentQuota

namespace Selection

/-- Somewhere a fragment stands after another one that it lies before, or with which it
shares a segment. -/
def Disordered (s : Selection) : Prop :=
  ∃ (i j : Nat) (f g : Fragment), i < j ∧ s[i]? = some f ∧ s[j]? = some g ∧
    (g.Before f ∨ ∃ segment, f.contains segment ∧ g.contains segment)

theorem disordered_iff (s : Selection) : s.Disordered ↔ ¬s.normalized := by
  rw [normalized_iff_getElem]
  simp only [Disordered, ← Fragment.overlaps_iff_shared]
  constructor
  · rintro ⟨i, j, f, g, earlier, at_i, at_j, disorder⟩ ordered
    obtain ⟨within_i, rfl⟩ := List.getElem?_eq_some_iff.mp at_i
    obtain ⟨within_j, rfl⟩ := List.getElem?_eq_some_iff.mp at_j
    have before := ordered i j within_i within_j earlier
    exact disorder.elim before.asymm before.not_overlaps
  · intro unordered
    push Not at unordered
    obtain ⟨i, j, within_i, within_j, earlier, not_before⟩ := unordered
    refine ⟨i, j, _, _, earlier, List.getElem?_eq_getElem within_i,
      List.getElem?_eq_getElem within_j, ?_⟩
    by_cases after : s[j].Before s[i]
    · exact Or.inl after
    · exact Or.inr ⟨not_before, after⟩

end Selection

namespace Command

inductive Requirement where
  | settings
  | selection (name text : String)

/-- What a command wants, in the order in which it is looked at. -/
def requirements : Command → List Requirement
  | .size text => [.selection "set" text]
  | .coverage textA textB => [.selection "a" textA, .selection "b" (textB.getD "")]
  | .intersect textA textB => [.selection "a" textA, .selection "b" textB]
  | .find text _ => [.selection "set" text]
  | .check request =>
      [.settings, .selection "quota" (request.quota.getD ""),
        .selection "excerpt" request.excerpt]
  | .completions _ => []

section

variable (packages : Packages) (surroundings : Settings.Surroundings) (named : Option String)

inductive Requirement.Broken : Requirement → CommandFault → Prop where
  | unloaded {fault : Settings.LoadFault}
      (refused : surroundings.load packages.toReader named = .error fault) :
      Broken .settings (.settings fault)
  | unreadable {name text : String} {cause : Fragment.Fault}
      (misread : Selection.parse text = .error cause) :
      Broken (.selection name text) (.unreadable name text cause)
  | unordered {name text : String} {s : Selection} (read : Selection.parse text = .ok s)
      (disordered : s.Disordered) :
      Broken (.selection name text) (.unordered name text)

/-- The fault is that of the first requirement which is not met. -/
inductive FirstBroken : List Requirement → CommandFault → Prop where
  | here {requirement : Requirement} {rest : List Requirement} {fault : CommandFault}
      (broken : requirement.Broken packages surroundings named fault) :
      FirstBroken (requirement :: rest) fault
  | later {requirement : Requirement} {rest : List Requirement} {fault : CommandFault}
      (met : ∀ other, ¬requirement.Broken packages surroundings named other)
      (first : FirstBroken rest fault) : FirstBroken (requirement :: rest) fault

theorem exists_firstBroken_iff (requirements : List Requirement) :
    (∃ fault, FirstBroken packages surroundings named requirements fault) ↔
      ∃ requirement ∈ requirements, ∃ fault,
        requirement.Broken packages surroundings named fault := by
  induction requirements with
  | nil =>
      refine iff_of_false ?_ ?_
      · rintro ⟨fault, first⟩
        cases first
      · rintro ⟨requirement, member, _⟩
        cases member
  | cons requirement rest ih =>
      rw [List.exists_mem_cons_iff, ← ih]
      constructor
      · rintro ⟨fault, here | ⟨_, first⟩⟩
        · exact Or.inl ⟨fault, here⟩
        · exact Or.inr ⟨fault, first⟩
      · intro broken
        by_cases here : ∃ fault, requirement.Broken packages surroundings named fault
        · obtain ⟨fault, broken⟩ := here
          exact ⟨fault, .here broken⟩
        · obtain ⟨fault, first⟩ := broken.resolve_left here
          exact ⟨fault, .later (not_exists.mp here) first⟩

theorem load_eq_error_iff (fault : CommandFault) :
    (surroundings.load packages.toReader named).mapError .settings = .error fault ↔
      Requirement.settings.Broken packages surroundings named fault := by
  constructor
  · intro refused
    cases loaded : surroundings.load packages.toReader named with
    | ok settings =>
        rw [loaded] at refused
        cases refused
    | error cause =>
        rw [loaded] at refused
        cases refused
        exact .unloaded loaded
  · rintro ⟨refused⟩
    rw [refused]
    rfl

theorem accept_eq_error_iff (name text : String) (fault : CommandFault) :
    accept name text = .error fault ↔
      (Requirement.selection name text).Broken packages surroundings named fault := by
  rw [accept]
  cases read : Selection.parse text with
  | error cause =>
      constructor
      · intro refused
        cases refused
        exact .unreadable read
      · rintro (_ | misread | ⟨other, _⟩)
        · cases misread.symm.trans read
          rfl
        · cases other.symm.trans read
  | ok s =>
      by_cases normal : s.normalized
      · simp only [normal, if_true]
        constructor
        · intro accepted
          cases accepted
        · rintro (_ | misread | ⟨other, disordered⟩)
          · cases misread.symm.trans read
          · cases other.symm.trans read
            exact absurd normal (s.disordered_iff.mp disordered)
      · simp only [normal]
        constructor
        · intro refused
          cases refused
          exact .unordered read (s.disordered_iff.mpr normal)
        · rintro (_ | misread | _)
          · cases misread.symm.trans read
          · rfl

variable {packages surroundings named}

theorem ok_eq_error_iff {outcome : Outcome} {fault : CommandFault} :
    (.ok outcome : Except CommandFault Outcome) = .error fault ↔
      FirstBroken packages surroundings named [] fault := by
  constructor <;> intro impossible <;> cases impossible

theorem bind_eq_error_iff {α : Type} {requirement : Requirement} {rest : List Requirement}
    {first : Except CommandFault α} {next : α → Except CommandFault Outcome}
    {fault : CommandFault}
    (first_iff : ∀ other, first = .error other ↔
      requirement.Broken packages surroundings named other)
    (next_iff : ∀ a, next a = .error fault ↔ FirstBroken packages surroundings named rest fault) :
    first.bind next = .error fault ↔
      FirstBroken packages surroundings named (requirement :: rest) fault := by
  cases first with
  | error refused =>
      have broken := (first_iff refused).mp rfl
      constructor
      · intro same
        cases same
        exact .here broken
      · rintro (here | ⟨met, _⟩)
        · cases (first_iff fault).mpr here
          rfl
        · exact absurd broken (met refused)
  | ok a =>
      have met (other : CommandFault) : ¬requirement.Broken packages surroundings named other := by
        rw [← first_iff]
        intro refused
        cases refused
      refine Iff.trans (next_iff a) ⟨.later met, ?_⟩
      rintro (here | ⟨_, first⟩)
      · exact absurd here (met fault)
      · exact first

variable (packages surroundings named)

theorem run_eq_error_iff (command : Command) (fault : CommandFault) :
    run packages surroundings named command = .error fault ↔
      FirstBroken packages surroundings named command.requirements fault := by
  have accepts := accept_eq_error_iff packages surroundings named
  cases command with
  | size text =>
      rw [run_size_eq]
      exact bind_eq_error_iff (accepts "set" text) fun s => ok_eq_error_iff
  | coverage textA textB =>
      rw [run_coverage_eq]
      exact bind_eq_error_iff (accepts "a" textA) fun a =>
        bind_eq_error_iff (accepts "b" _) fun b => ok_eq_error_iff
  | intersect textA textB =>
      rw [run_intersect_eq]
      exact bind_eq_error_iff (accepts "a" textA) fun a =>
        bind_eq_error_iff (accepts "b" textB) fun b => ok_eq_error_iff
  | find text segment =>
      rw [run_find_eq]
      refine bind_eq_error_iff (accepts "set" text) fun s => ?_
      cases s.find? segment 0 s.length <;> exact ok_eq_error_iff
  | check request =>
      rw [run_check_eq]
      have loads := load_eq_error_iff packages surroundings named
      refine bind_eq_error_iff loads fun settings => ?_
      refine bind_eq_error_iff (accepts "quota" _) fun quota => ?_
      exact bind_eq_error_iff (accepts "excerpt" _) fun excerpt =>
        ok_eq_error_iff
  | completions shell => exact ok_eq_error_iff

end

section Performing

variable {m : Type → Type} [Monad m] [LawfulMonad m]

variable (write : String → m Unit)

/-- The action comes to the result: to the fault with nothing written before it, or to the
status of the outcome after its output, which may be written piece by piece. -/
def Performs (action : ExceptT CommandFault m Nat) : Except CommandFault Outcome → Prop
  | .error fault => action.run = pure (.error fault)
  | .ok outcome => ∃ texts : List String, String.join texts = outcome.output ∧
      action.run = texts.forM write >>= fun _ => pure (.ok outcome.status)

theorem performs_text (text : String) (status : Nat) :
    Performs write (do ExceptT.lift (write text); return status) (.ok ⟨status, text⟩) := by
  refine ⟨[text], by simp, ?_⟩
  rw [ExceptT.run_bind_lift]
  simp

theorem performs_report (request : Check) (settings : Settings) (report : Report) (status : Nat) :
    Performs write (do ExceptT.lift (request.put write settings report); return status)
      (.ok ⟨status, request.written settings report⟩) := by
  simp only [Performs, Check.written, Check.put, ExceptT.run_bind_lift]
  cases request.format with
  | json => exact ⟨[report.toValue.pretty ++ "\n"], by simp, by simp⟩
  | text =>
      refine ⟨(report.lines settings.glyphs (request.width.getD settings.width)).map (· ++ "\n"),
        rfl, ?_⟩
      simp

theorem performs_bind {α : Type} (first : Except CommandFault α)
    (next : α → ExceptT CommandFault m Nat) (result : α → Except CommandFault Outcome)
    (performs : ∀ a, Performs write (next a) (result a)) :
    Performs write (liftM first >>= next) (first.bind result) := by
  cases first with
  | error fault => exact pure_bind _ _
  | ok a =>
      have continued : liftM (Except.ok a : Except CommandFault α) >>= next = next a :=
        pure_bind _ _
      rw [continued]
      exact performs a

theorem execute_performs (packages : Packages)
    (surroundings : Settings.Surroundings) (named : Option String) (command : Command) :
    Performs write (execute write packages surroundings named command)
      (run packages surroundings named command) := by
  cases command with
  | size text =>
      rw [run_size_eq]
      exact performs_bind write _ _ _ fun s => performs_text write _ 0
  | coverage textA textB =>
      rw [run_coverage_eq]
      exact performs_bind write _ _ _ fun a => performs_bind write _ _ _ fun b =>
        performs_text write _ 0
  | intersect textA textB =>
      rw [run_intersect_eq]
      exact performs_bind write _ _ _ fun a => performs_bind write _ _ _ fun b =>
        performs_text write _ 0
  | find text segment =>
      rw [run_find_eq]
      refine performs_bind write _ _ _ fun s => ?_
      cases s.find? segment 0 s.length with
      | some position => exact performs_text write _ 0
      | none => exact performs_text write _ notFoundStatus
  | check request =>
      rw [run_check_eq]
      refine performs_bind write _ _ _ fun settings => performs_bind write _ _ _ fun quota => ?_
      refine performs_bind write _ _ _ fun excerpt => ?_
      exact performs_report write request settings _ _
  | completions shell => exact performs_text write _ 0

end Performing

section Sinks

variable {Sink : Type} (write : String → StateM Sink Unit) (sink : Sink)

theorem execute_eq_error_iff (packages : Packages)
    (surroundings : Settings.Surroundings) (named : Option String) (command : Command)
    (fault : CommandFault) (after : Sink) :
    (execute write packages surroundings named command).run.run sink = (.error fault, after) ↔
      run packages surroundings named command = .error fault ∧ after = sink := by
  have performs := execute_performs write packages surroundings named command
  cases result : run packages surroundings named command with
  | error cause =>
      rw [result] at performs
      rw [performs, StateT.run_pure]
      constructor
      · intro same
        cases same
        exact ⟨rfl, rfl⟩
      · rintro ⟨same, rfl⟩
        cases same
        rfl
  | ok outcome =>
      rw [result] at performs
      obtain ⟨texts, _, performed⟩ := performs
      rw [performed, StateT.run_bind]
      constructor
      · intro same
        cases same
      · rintro ⟨same, _⟩
        cases same

/-- A command fails just when something it wants is not in order. Then the output is as it
was before, whoever takes it, and the fault is that of the first thing not in order: of
the settings, which only a check wants, and otherwise of the first selection. All other
commands come out the same whatever is around them. A text that cannot be read is told
apart from one whose fragments are not in order, at whatever distance. -/
theorem failures_come_before_output (packages : Packages) (here there : Settings.Surroundings)
    (named named' : Option String) (command : Command) :
    (∀ fault after,
      (execute write packages here named command).run.run sink = (.error fault, after) ↔
      FirstBroken packages here named command.requirements fault ∧ after = sink) ∧
      ((∃ fault after,
          (execute write packages here named command).run.run sink = (.error fault, after)) ↔
        ∃ requirement ∈ command.requirements, ∃ fault,
          requirement.Broken packages here named fault) ∧
      ((∀ request, command ≠ .check request) →
        (execute write packages here named command).run.run sink =
          (execute write packages there named' command).run.run sink) ∧
      ∀ name text fault, (Requirement.selection name text).Broken packages here named fault →
        (∃ cause, Selection.parse text = .error cause ∧
          fault.message = s!"invalid {name} '{text}'" ∧ fault.cause? = some cause) ∨
        ∃ s, Selection.parse text = .ok s ∧ s.Disordered ∧
          fault.message = s!"{name} '{text}' must be sorted and free of overlaps" ∧
          fault.cause? = none := by
  have fails_iff (fault : CommandFault) (after : Sink) :
      (execute write packages here named command).run.run sink = (.error fault, after) ↔
        FirstBroken packages here named command.requirements fault ∧ after = sink := by
    rw [execute_eq_error_iff, run_eq_error_iff]
  refine ⟨fails_iff, ?_, ?_, ?_⟩
  · rw [← exists_firstBroken_iff]
    simp only [fails_iff, exists_and_left, exists_eq, and_true]
  · intro plain
    cases command with
    | check request => exact absurd rfl (plain request)
    | size | coverage | intersect | find | completions => rfl
  · rintro name text fault (_ | misread | ⟨read, disordered⟩)
    · exact Or.inl ⟨_, misread, rfl, rfl⟩
    · exact Or.inr ⟨_, read, disordered, rfl, rfl⟩

end Sinks

/-- The quota is out of order and the excerpt cannot be read. Nothing is written, and the
quota is what is reported. Where settings cannot be loaded this is not noticed by a
command that wants none. -/
theorem quota_refused_before_excerpt :
    let packages : Packages := ⟨.toml, fun _ => ""⟩
    let plain : Settings.Surroundings :=
      ⟨"", fun _ => none, fun _ => none, .ok [], none, none, none⟩
    let request : Check := ⟨some "1-9,12,3-4", "5-", 20, none, none, .text, none⟩
    let write (text : String) : StateM String Unit := modify (· ++ text)
    (execute write packages plain none (.check request)).run.run "before" =
        (.error (.unordered "quota" "1-9,12,3-4"), "before") ∧
      (execute write packages plain none (.size "2-4")).run.run "before" =
        (execute write packages plain (some "missing.toml") (.size "2-4")).run.run "before" := by
  intro packages plain request write
  have read : Selection.parse "1-9,12,3-4" = .ok [.fromTo 1 9, .fromTo 12 12, .fromTo 3 4] := by
    decide +kernel
  have disordered : Selection.Disordered [.fromTo 1 9, .fromTo 12 12, .fromTo 3 4] :=
    ⟨0, 2, _, _, by decide, rfl, rfl, Or.inr ⟨3, by decide, by decide⟩⟩
  obtain ⟨fails, _⟩ := failures_come_before_output write "before" packages plain plain none none
    (.check request)
  obtain ⟨_, _, same, _⟩ := failures_come_before_output write "before" packages plain plain none
    (some "missing.toml") (.size "2-4")
  have loaded : plain.load packages.toReader none = .ok .initial :=
    plain.load_usual_eq .toml .initial Settings.toml_reads_shipped [] rfl
  refine ⟨(fails _ _).mpr ⟨.later ?_ (.here (.unordered read disordered)), rfl⟩, same ?_⟩
  · rintro other ⟨refused⟩
    cases loaded.symm.trans refused
  · intro other check
    cases check

end Command

end SegmentQuota
