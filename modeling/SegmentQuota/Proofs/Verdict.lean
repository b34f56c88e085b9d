import SegmentQuota.Proofs.Admission
import SegmentQuota.Proofs.Agreement
import SegmentQuota.Proofs.Loading
import SegmentQuota.Proofs.Percentages

/-!
What a check decides. Its exit status is that of the commit: the request and the
settings only contribute the limit, and how the answer is written has no part in it.
A check with a limit of its own takes nothing from the settings unless it draws a bar.
-/

namespace SegmentQuota

namespace Check

/-- The limit is the one given, or else the given percentage of the document, or else
the percentage that is set. -/
inductive Limits (request : Check) (settings : Settings) : Nat → Prop where
  | given {limit : Nat} (own : request.limit = some limit) : Limits request settings limit
  | share {percent : Float} {limit : Nat} (unlimited : request.limit = none)
      (own : request.limitPercent = some percent)
      (comes_to : Ledger.Share request.segments percent limit) : Limits request settings limit
  | usual {limit : Nat} (unlimited : request.limit = none) (unsaid : request.limitPercent = none)
      (comes_to : Ledger.Share request.segments settings.limitPercent limit) :
      Limits request settings limit

theorem limits_iff (request : Check) (settings : Settings) (quota : Selection) (limit : Nat) :
    request.Limits settings limit ↔
      request.ledger settings quota = ⟨quota, request.segments, limit⟩ := by
  constructor
  · rintro (own | ⟨unlimited, own, comes_to⟩ | ⟨unlimited, unsaid, comes_to⟩)
    · rw [ledger, own]
    · rw [ledger, unlimited, own, ← (Ledger.share_iff _ _ _).mp comes_to]
      rfl
    · rw [ledger, unlimited, unsaid, ← (Ledger.share_iff _ _ _).mp comes_to]
      rfl
  · intro same
    rw [ledger] at same
    cases own : request.limit with
    | some given =>
        rw [own] at same
        cases same
        exact .given own
    | none =>
        rw [own] at same
        have comes_to := (Ledger.share_iff _ _ _).mpr (congrArg Ledger.limit same)
        cases share : request.limitPercent with
        | some percent => exact .share own share (by rwa [share] at comes_to)
        | none => exact .usual own share (by rwa [share] at comes_to)

theorem exists_ledger (request : Check) (settings : Settings) (quota : Selection) :
    ∃ limit, request.ledger settings quota = ⟨quota, request.segments, limit⟩ := by
  rw [ledger]
  cases request.limit with
  | some limit => exact ⟨limit, rfl⟩
  | none => exact ⟨_, rfl⟩

/-- The requests are about the same excerpt beside the same quota, under the same limit
if one is given. -/
structure Alike (request other : Check) : Prop where
  quota : request.quota = other.quota
  excerpt : request.excerpt = other.excerpt
  segments : request.segments = other.segments
  limit : request.limit = other.limit

theorem Alike.ledger {request other : Check} (alike : request.Alike other)
    (share : request.limitPercent = other.limitPercent) (settings altered : Settings)
    (usual : settings.limitPercent = altered.limitPercent) (quota : Selection) :
    request.ledger settings quota = other.ledger altered quota := by
  rw [Check.ledger, Check.ledger, alike.limit, alike.segments, share, usual]

theorem status_outcome (request : Check) (settings : Settings) (quota excerpt : Selection) :
    (request.outcome settings quota excerpt).status =
      if ((request.ledger settings quota).evaluate excerpt).exceeded then 2 else 0 := rfl

theorem outcome_json (request : Check) (settings : Settings) (quota excerpt : Selection)
    (json : request.format = .json) :
    request.outcome settings quota excerpt =
      ⟨if ((request.ledger settings quota).evaluate excerpt).exceeded then 2 else 0,
        ((request.ledger settings quota).evaluate excerpt).toValue.pretty ++ "\n"⟩ := by
  rw [outcome, written, json]
  rfl

end Check

namespace Ledger

theorem exceeded_iff_refused (ledger : Ledger) (excerpt : Selection) :
    (ledger.evaluate excerpt).exceeded ↔ ∃ refusal, ledger.commit excerpt = .error refusal := by
  rw [commit_refused_iff]
  exact decide_eq_true_iff

theorem not_exceeded_iff_committed (ledger : Ledger) (excerpt : Selection) :
    ¬(ledger.evaluate excerpt).exceeded ↔ ∃ next, ledger.commit excerpt = .ok next := by
  rw [commit_ok_iff, admits_eq, decide_eq_true_iff, ← Nat.not_lt]
  exact not_congr decide_eq_true_iff

end Ledger

namespace Command

theorem run_check_eq_ok_iff (packages : Packages) (surroundings : Settings.Surroundings)
    (named : Option String) (request : Check) (outcome : Outcome) :
    run packages surroundings named (.check request) = .ok outcome ↔
      ∃ settings quota excerpt, surroundings.load packages.toReader named = .ok settings ∧
        accept "quota" (request.quota.getD "") = .ok quota ∧
        accept "excerpt" request.excerpt = .ok excerpt ∧
        request.outcome settings quota excerpt = outcome := by
  rw [run_check_eq]
  simp only [bind_eq_ok_iff, map_eq_ok_iff, mapError_eq_ok_iff, exists_and_left]

theorem run_check_of_load_error (packages : Packages) (surroundings : Settings.Surroundings)
    (named : Option String) (request : Check) (fault : Settings.LoadFault)
    (unloaded : surroundings.load packages.toReader named = .error fault) :
    run packages surroundings named (.check request) = .error (.settings fault) := by
  rw [run_check_eq, unloaded]
  rfl

section

variable (packages : Packages) (here there : Settings.Surroundings) (named named' : Option String)
  (request other : Check) (alike : request.Alike other)

include alike

theorem run_check_congr {Seen : Type} (seen : Outcome → Seen) (settings altered : Settings)
    (loaded : here.load packages.toReader named = .ok settings)
    (loaded' : there.load packages.toReader named' = .ok altered)
    (same : ∀ quota excerpt, seen (request.outcome settings quota excerpt) =
      seen (other.outcome altered quota excerpt)) :
    (run packages here named (.check request)).map seen =
      (run packages there named' (.check other)).map seen := by
  rw [run_check_eq, run_check_eq, loaded, loaded', alike.quota, alike.excerpt]
  cases accept "quota" (other.quota.getD "") with
  | error fault => rfl
  | ok quota =>
      cases accept "excerpt" other.excerpt with
      | error fault => rfl
      | ok excerpt => exact congrArg Except.ok (same quota excerpt)

/-- The share of the document is all that the verdict takes from the settings. -/
theorem status_independent_of_presentation (share : request.limitPercent = other.limitPercent)
    (usual : (here.load packages.toReader named).map Settings.limitPercent =
      (there.load packages.toReader named').map Settings.limitPercent) :
    (run packages here named (.check request)).map Outcome.status =
      (run packages there named' (.check other)).map Outcome.status := by
  cases loaded : here.load packages.toReader named with
  | error fault =>
      cases loaded' : there.load packages.toReader named' with
      | error fault' =>
          rw [loaded, loaded'] at usual
          cases usual
          rw [run_check_of_load_error packages here named request fault loaded,
            run_check_of_load_error packages there named' other fault loaded']
      | ok altered =>
          rw [loaded, loaded'] at usual
          cases usual
  | ok settings =>
      cases loaded' : there.load packages.toReader named' with
      | error fault' =>
          rw [loaded, loaded'] at usual
          cases usual
      | ok altered =>
          rw [loaded, loaded'] at usual
          apply run_check_congr packages here there named named' request other alike _ settings
            altered loaded loaded'
          intro quota excerpt
          rw [Check.status_outcome, Check.status_outcome,
            alike.ledger share settings altered (Except.ok.inj usual)]

theorem run_json_eq (limit : Nat) (own : request.limit = some limit)
    (json : request.format = .json) (json' : other.format = .json) (settings altered : Settings)
    (loaded : here.load packages.toReader named = .ok settings)
    (loaded' : there.load packages.toReader named' = .ok altered) :
    run packages here named (.check request) = run packages there named' (.check other) := by
  have outcomes := run_check_congr packages here there named named' request other alike id settings
    altered loaded loaded'
  simp only [Except.map_id, id_eq] at outcomes
  apply outcomes
  intro quota excerpt
  rw [request.outcome_json settings quota excerpt json,
    other.outcome_json altered quota excerpt json',
    (request.limits_iff settings quota limit).mp (.given own),
    (other.limits_iff altered quota limit).mp (.given (alike.limit ▸ own)), alike.segments]

end

/-- A check ends as the commit of its excerpt decides, beside its quota and under the
limit that is given or follows from a percentage. So the form of the answer, the width of
the bar and the settings it is drawn with leave the verdict alone, and where a limit is
given and a table asked for, the settings have no part in the output either. -/
theorem check_decides_as_commit (packages : Packages) (here there : Settings.Surroundings)
    (named named' : Option String) (request other : Check) :
    (∀ outcome, run packages here named (.check request) = .ok outcome →
      ∃ settings quota excerpt limit, here.load packages.toReader named = .ok settings ∧
        accept "quota" (request.quota.getD "") = .ok quota ∧
        accept "excerpt" request.excerpt = .ok excerpt ∧ request.Limits settings limit ∧
        ((∃ refusal, Ledger.commit ⟨quota, request.segments, limit⟩ excerpt = .error refusal) →
          outcome.status = 2) ∧
        ((∃ next, Ledger.commit ⟨quota, request.segments, limit⟩ excerpt = .ok next) →
          outcome.status = 0)) ∧
      (request.Alike other → request.limitPercent = other.limitPercent →
        (here.load packages.toReader named).map Settings.limitPercent =
          (there.load packages.toReader named').map Settings.limitPercent →
        (run packages here named (.check request)).map Outcome.status =
          (run packages there named' (.check other)).map Outcome.status) ∧
      (request.Alike other → (∃ limit, request.limit = some limit) → request.format = .json →
        other.format = .json → (∃ settings, here.load packages.toReader named = .ok settings) →
        (∃ settings, there.load packages.toReader named' = .ok settings) →
        run packages here named (.check request) = run packages there named' (.check other)) := by
  refine ⟨fun outcome carried_out => ?_, fun alike => ?_, ?_⟩
  · obtain ⟨settings, quota, excerpt, loaded, read_quota, read_excerpt, rfl⟩ :=
      (run_check_eq_ok_iff packages here named request outcome).mp carried_out
    obtain ⟨limit, ledger⟩ := request.exists_ledger settings quota
    refine ⟨settings, quota, excerpt, limit, loaded, read_quota, read_excerpt,
      (request.limits_iff settings quota limit).mpr ledger, ?_, ?_⟩
    · intro refused
      rw [request.status_outcome, ledger, if_pos ((Ledger.exceeded_iff_refused _ _).mpr refused)]
    · intro committed
      rw [request.status_outcome, ledger,
        if_neg ((Ledger.not_exceeded_iff_committed _ _).mpr committed)]
  · exact status_independent_of_presentation packages here there named named' request other alike
  · rintro alike ⟨limit, own⟩ json json' ⟨settings, loaded⟩ ⟨altered, loaded'⟩
    exact run_json_eq packages here there named named' request other alike limit own json json'
      settings altered loaded loaded'

/-- A long fragment of the quota is counted again, so four segments are over a limit of three,
which is the one given, or 35 of 100 of ten segments, but not over 40 of 100. The second
world sets another width, the third another percentage as well. -/
theorem refused_in_every_form :
    let packages : Packages := ⟨.toml, fun _ => ""⟩
    let plain : Settings.Surroundings :=
      ⟨"", fun _ => none, fun _ => none, .ok [], none, none, none⟩
    let wide : Settings.Surroundings := { plain with outlineWidth := some "80" }
    let strict : Settings.Surroundings := { wide with limitPercent := some "0" }
    let generous : Settings.Surroundings := { plain with limitPercent := some "40" }
    let request : Check := ⟨some "1-3", "1,3", 10, some 3, none, .json, none⟩
    let share : Check := { request with limit := none, limitPercent := some 35.0 }
    let open_ended : Check := { request with limit := none }
    (∃ outcome, run packages plain none (.check request) = .ok outcome ∧ outcome.status = 2) ∧
      (∃ outcome, run packages plain none (.check share) = .ok outcome ∧ outcome.status = 2) ∧
      (∃ outcome, run packages generous none (.check open_ended) = .ok outcome ∧
        outcome.status = 0) ∧
      (run packages plain none (.check request)).map Outcome.status =
        (run packages wide none (.check { request with format := .text, width := some 4 })).map
          Outcome.status ∧
      run packages plain none (.check request) =
        run packages strict none (.check { request with width := some 4 }) := by
  intro packages plain wide strict generous request share open_ended
  have read_quota : accept "quota" "1-3" = .ok [.fromTo 1 3] :=
    (accept_eq_ok_iff _ _ _).mpr ⟨by decide +kernel, by decide⟩
  have read_excerpt : accept "excerpt" "1,3" = .ok [.fromTo 1 1, .fromTo 3 3] :=
    (accept_eq_ok_iff _ _ _).mpr ⟨by decide +kernel, by decide⟩
  have loads (around : Settings.Surroundings) (placed : around.workingDirectory = .ok []) :=
    around.load_usual_eq .toml .initial Settings.toml_reads_shipped [] placed
  have loaded : plain.load packages.toReader none = .ok .initial := loads plain rfl
  have loaded_wide : wide.load packages.toReader none =
      .ok { Settings.initial with width := 80 } := by
    rw [loads wide rfl]
    decide +kernel
  have loaded_strict : strict.load packages.toReader none =
      .ok { Settings.initial with width := 80, limitPercent := 0.0 } := by
    rw [loads strict rfl]
    decide +kernel
  have loaded_generous : generous.load packages.toReader none =
      .ok { Settings.initial with limitPercent := 40.0 } := by
    rw [loads generous rfl]
    decide +kernel
  have decides (around : Settings.Surroundings) (settings : Settings) (check : Check)
      (limit : Nat) (found : around.load packages.toReader none = .ok settings)
      (quota : check.quota = some "1-3") (excerpt : check.excerpt = "1,3")
      (limits : check.Limits settings limit) :
      ∃ outcome, run packages around none (.check check) = .ok outcome ∧
        (limit < 4 → outcome.status = 2) ∧ (4 ≤ limit → outcome.status = 0) := by
    have carried_out := (run_check_eq_ok_iff packages around none check _).mpr
      ⟨_, _, _, found, by rw [quota]; exact read_quota, by rw [excerpt]; exact read_excerpt, rfl⟩
    obtain ⟨decided, _⟩ := check_decides_as_commit packages around around none none check check
    obtain ⟨_, _, _, _, same, same_quota, same_excerpt, same_limits, refused, committed⟩ :=
      decided _ carried_out
    rw [quota] at same_quota
    rw [excerpt] at same_excerpt
    cases found.symm.trans same
    cases read_quota.symm.trans same_quota
    cases read_excerpt.symm.trans same_excerpt
    have counted : Selection.tally [.fromTo 1 3] [.fromTo 1 1, .fromTo 3 3] = 4 := by
      decide +kernel
    cases ((check.limits_iff _ [] _).mp limits).symm.trans
      ((check.limits_iff _ [] _).mp same_limits)
    refine ⟨_, carried_out, fun less => refused ?_, fun enough => committed ?_⟩
    · exact (Ledger.commit_refused_iff _ _).mpr (counted.symm ▸ less)
    · exact (Ledger.commit_ok_iff _ _).mpr (by
        rw [Ledger.admits_eq]
        exact decide_eq_true (counted.symm ▸ enough))
  obtain ⟨_, alike_forms, _⟩ := check_decides_as_commit packages plain wide none none request
    { request with format := .text, width := some 4 }
  obtain ⟨_, _, same_output⟩ := check_decides_as_commit packages plain strict none none request
    { request with width := some 4 }
  refine ⟨?_, ?_, ?_, alike_forms ⟨rfl, rfl, rfl, rfl⟩ rfl (by rw [loaded, loaded_wide]; rfl),
    same_output ⟨rfl, rfl, rfl, rfl⟩ ⟨3, rfl⟩ rfl rfl ⟨_, loaded⟩ ⟨_, loaded_strict⟩⟩
  · obtain ⟨outcome, carried_out, short, _⟩ :=
      decides plain _ request 3 loaded rfl rfl (.given rfl)
    exact ⟨outcome, carried_out, short (by decide)⟩
  · have comes_to : Ledger.Share 10 35.0 3 := (Ledger.share_iff _ _ _).mpr (by decide +kernel)
    obtain ⟨outcome, carried_out, short, _⟩ :=
      decides plain _ share 3 loaded rfl rfl (.share rfl rfl comes_to)
    exact ⟨outcome, carried_out, short (by decide)⟩
  · have comes_to : Ledger.Share 10 40.0 4 := (Ledger.share_iff _ _ _).mpr (by decide +kernel)
    obtain ⟨outcome, carried_out, _, fits⟩ :=
      decides generous _ open_ended 4 loaded_generous rfl rfl (.usual rfl rfl comes_to)
    exact ⟨outcome, carried_out, fits (Nat.le_refl 4)⟩

end Command

end SegmentQuota
