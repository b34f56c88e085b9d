import SegmentQuota.Ledger
import SegmentQuota.Proofs.Intersection
import SegmentQuota.Proofs.Sweep

/-!
How a ledger decides about an excerpt. The early stop, the full tally and the
report come to the same verdict, so a report that shows no excess is never
followed by a refusal, and a refusal names the count that the report shows. What
the report shows of a commit still to come is right up to what is counted twice.
-/

namespace SegmentQuota.Ledger

theorem admits_eq (ledger : Ledger) (excerpt : Selection) :
    ledger.admits excerpt = decide (Selection.tally ledger.quota excerpt ≤ ledger.limit) := by
  rw [admits, Selection.exceeds_eq, ← decide_not]
  exact decide_eq_decide.mpr Nat.not_lt

theorem commit_of_le (ledger : Ledger) (excerpt : Selection)
    (fits : Selection.tally ledger.quota excerpt ≤ ledger.limit) :
    ledger.commit excerpt =
      .ok { ledger with quota := Selection.union ledger.quota excerpt } := by
  rw [commit, admits_eq, decide_eq_true fits, if_pos rfl]

theorem commit_of_lt (ledger : Ledger) (excerpt : Selection)
    (excess : ledger.limit < Selection.tally ledger.quota excerpt) :
    ledger.commit excerpt =
      .error (.overLimit (Selection.tally ledger.quota excerpt) ledger.limit) := by
  rw [commit, admits_eq, decide_eq_false (Nat.not_le.mpr excess)]
  rfl

theorem commit_ok_iff (ledger : Ledger) (excerpt : Selection) :
    (∃ next, ledger.commit excerpt = .ok next) ↔ ledger.admits excerpt := by
  rw [admits_eq, decide_eq_true_iff]
  constructor
  · rintro ⟨next, committed⟩
    by_contra excess
    rw [commit_of_lt ledger excerpt (Nat.not_le.mp excess)] at committed
    cases committed
  · intro fits
    exact ⟨_, commit_of_le ledger excerpt fits⟩

theorem commit_eq_ok_iff (ledger : Ledger) (excerpt : Selection) (next : Ledger) :
    ledger.commit excerpt = .ok next ↔
      Selection.tally ledger.quota excerpt ≤ ledger.limit ∧
        next = { ledger with quota := Selection.union ledger.quota excerpt } := by
  by_cases fits : Selection.tally ledger.quota excerpt ≤ ledger.limit
  · simp [commit_of_le ledger excerpt fits, fits, eq_comm]
  · simp [commit_of_lt ledger excerpt (Nat.not_le.mp fits), fits]

theorem commit_refused_iff (ledger : Ledger) (excerpt : Selection) :
    (∃ refusal, ledger.commit excerpt = .error refusal) ↔
      ledger.limit < Selection.tally ledger.quota excerpt := by
  by_cases excess : ledger.limit < Selection.tally ledger.quota excerpt
  · simp [commit_of_lt ledger excerpt excess, excess]
  · simp [commit_of_le ledger excerpt (Nat.not_lt.mp excess), excess]

/-- All ways of deciding agree: the early stop with the full tally for any two
selections and any limit, admission with the report, and commit with both. A
refusal is for the limit only, and carries the figures of the report. -/
theorem admission_paths_agree (a b : Selection) (limit : Nat) (ledger : Ledger)
    (excerpt : Selection) :
    Selection.exceeds a b limit = decide (limit < Selection.tally a b) ∧
      ledger.admits excerpt = !(ledger.evaluate excerpt).exceeded ∧
      ((∃ next, ledger.commit excerpt = .ok next) ↔ ledger.admits excerpt) ∧
      ∀ refusal, ledger.commit excerpt = .error refusal →
        refusal = .overLimit (ledger.evaluate excerpt).used ledger.limit ∧
          ledger.limit < (ledger.evaluate excerpt).used := by
  refine ⟨Selection.exceeds_eq a b limit, ?_, commit_ok_iff ledger excerpt, ?_⟩
  · rw [admits, Selection.exceeds_eq]
    rfl
  · intro refusal refused
    by_cases fits : Selection.tally ledger.quota excerpt ≤ ledger.limit
    · rw [commit_of_le ledger excerpt fits] at refused
      cases refused
    · rw [commit_of_lt ledger excerpt (Nat.not_le.mp fits)] at refused
      cases refused
      exact ⟨rfl, Nat.not_le.mp fits⟩

/-!
What the figures of a report foretell of a commit, between normalized selections.
The two sizes and the overlap are counts of segments, and none of them saturates.
The tally is not: it may count a segment twice. So the verdict can be stricter than
the distinct segments ask for, never laxer, and what is left after a commit can be
more than the report showed, never less.
-/

open Selection

/-- Past the limit in distinct segments every excerpt is refused, and what is taken
becomes the union. But the verdict goes by the distinct segments under every limit
only for a quota and an excerpt whose overlapping fragments come in pairs, or that
hold every segment there is. Next to any others some limit refuses an excerpt that
would have kept it. -/
theorem verdict_by_distinct_segments_iff (quota excerpt : Selection)
    (normal_quota : quota.normalized) (normal_excerpt : excerpt.normalized) :
    (∀ segments limit, limit < (positions quota ∪ positions excerpt).card →
        ∃ refusal, commit ⟨quota, segments, limit⟩ excerpt = .error refusal) ∧
      (∀ segments limit,
        (∃ refusal, commit ⟨quota, segments, limit⟩ excerpt = .error refusal) ∨
          commit ⟨quota, segments, limit⟩ excerpt = .ok ⟨union quota excerpt, segments, limit⟩) ∧
      ((∀ segments limit,
          (∃ refusal, commit ⟨quota, segments, limit⟩ excerpt = .error refusal) ↔
            limit < (positions quota ∪ positions excerpt).card) ↔
        (positions quota ∪ positions excerpt).card = Count.largest ∨
          MeetsAtMostOne quota excerpt ∧ MeetsAtMostOne excerpt quota) := by
  have counted := card_union_le_tally quota excerpt
  simp only [commit_refused_iff]
  refine ⟨?_, ?_, ?_⟩
  · intro segments limit excess
    exact Nat.lt_of_lt_of_le excess counted
  · intro segments limit
    rcases Nat.lt_or_ge limit (tally quota excerpt) with excess | fits
    · exact Or.inl excess
    · exact Or.inr (commit_of_le ⟨quota, segments, limit⟩ excerpt fits)
  · rw [forall_const]
    exact limits_passed_alike_iff quota excerpt normal_quota normal_excerpt

/-- Each fragment overlaps one of the other selection, and eleven segments are counted. -/
theorem paired_fragments_judged_by_segments :
    (∃ refusal, commit ⟨[.fromTo 1 5, .fromTo 8 9], 20, 10⟩ [.fromTo 4 6, .fromTo 9 12] =
        .error refusal) ∧
      ¬∃ refusal, commit ⟨[.fromTo 1 5, .fromTo 8 9], 20, 11⟩ [.fromTo 4 6, .fromTo 9 12] =
        .error refusal := by
  have judged := (verdict_by_distinct_segments_iff [.fromTo 1 5, .fromTo 8 9]
    [.fromTo 4 6, .fromTo 9 12] (by decide) (by decide)).2.2.mpr (by decide)
  rw [judged, judged]
  decide

/-- The excerpt lies wholly within the quota and is refused: its second fragment is
counted again, after the quota's only one was dropped with the first. -/
theorem contained_excerpt_refused :
    normalized [.fromTo 1 3] ∧ normalized [.fromTo 1 1, .fromTo 3 3] ∧
      (positions [.fromTo 1 3] ∪ positions [.fromTo 1 1, .fromTo 3 3]).card = 3 ∧
      commit ⟨[.fromTo 1 3], 10, 3⟩ [.fromTo 1 1, .fromTo 3 3] = .error (.overLimit 4 3) := by
  refine ⟨by decide, by decide, by decide, ?_⟩
  cbv

theorem quotaSize_eq_card (ledger : Ledger) (excerpt : Selection)
    (normal : ledger.quota.normalized) :
    (ledger.evaluate excerpt).quotaSize = (positions ledger.quota).card :=
  total_of_normalized ledger.quota normal

theorem excerptSize_eq_card (ledger : Ledger) (excerpt : Selection)
    (normal : excerpt.normalized) :
    (ledger.evaluate excerpt).excerptSize = (positions excerpt).card :=
  total_of_normalized excerpt normal

theorem overlap_eq_card (ledger : Ledger) (excerpt : Selection)
    (normal_quota : ledger.quota.normalized) (normal_excerpt : excerpt.normalized) :
    (ledger.evaluate excerpt).overlap = (positions ledger.quota ∩ positions excerpt).card := by
  rw [← positions_inter ledger.quota excerpt normal_quota normal_excerpt]
  exact total_of_normalized _ (inter_normalized ledger.quota excerpt normal_quota normal_excerpt)

theorem card_union_le_used (ledger : Ledger) (excerpt : Selection) :
    (positions ledger.quota ∪ positions excerpt).card ≤ (ledger.evaluate excerpt).used :=
  card_union_le_tally ledger.quota excerpt

-- Beside the empty excerpt the tally is the size of the quota.
theorem remaining_of_empty (ledger : Ledger) :
    (ledger.evaluate []).remaining = ledger.limit - (ledger.evaluate []).quotaSize := rfl

theorem normalized_of_commit (ledger next : Ledger) (excerpt : Selection)
    (committed : ledger.commit excerpt = .ok next) : next.quota.normalized := by
  obtain ⟨_, rfl⟩ := (commit_eq_ok_iff ledger excerpt next).mp committed
  exact union_normalized ledger.quota excerpt

theorem quotaSize_of_commit (ledger next : Ledger) (excerpt other : Selection)
    (normal_quota : ledger.quota.normalized) (normal_excerpt : excerpt.normalized)
    (committed : ledger.commit excerpt = .ok next) :
    (next.evaluate other).quotaSize = (positions ledger.quota ∪ positions excerpt).card := by
  obtain ⟨_, rfl⟩ := (commit_eq_ok_iff ledger excerpt next).mp committed
  have ordered_quota := ascending_of_normalized ledger.quota normal_quota
  have ordered_excerpt := ascending_of_normalized excerpt normal_excerpt
  rw [quotaSize_eq_card _ other (union_normalized ledger.quota excerpt),
    positions_union ledger.quota excerpt ordered_quota ordered_excerpt]

-- What remains is reckoned from the tally before the commit, and from the distinct
-- segments after it.
theorem remaining_le_of_commit (ledger next : Ledger) (excerpt : Selection)
    (normal_quota : ledger.quota.normalized) (normal_excerpt : excerpt.normalized)
    (committed : ledger.commit excerpt = .ok next) :
    (ledger.evaluate excerpt).remaining ≤ (next.evaluate []).remaining := by
  have counted := quotaSize_of_commit ledger next excerpt [] normal_quota normal_excerpt committed
  have within := card_union_le_used ledger excerpt
  obtain ⟨_, rfl⟩ := (commit_eq_ok_iff ledger excerpt next).mp committed
  rw [remaining_of_empty, counted]
  exact Nat.sub_le_sub_left within ledger.limit

/-- The sizes in a report obey inclusion and exclusion, up to what the tally counts
twice, and none of them saturates. After a commit the quota has just the size that
they give, which is no more than the tally, and no less remains than was reported. -/
theorem report_forecasts_commit (ledger : Ledger) (excerpt : Selection)
    (normal_quota : ledger.quota.normalized) (normal_excerpt : excerpt.normalized) :
    let report := ledger.evaluate excerpt
    max report.quotaSize report.excerptSize ≤ report.used ∧
      report.quotaSize + report.excerptSize ≤ report.used + report.overlap ∧
      report.overlap = (positions ledger.quota ∩ positions excerpt).card ∧
      (report.quotaSize = ledger.quota.sizes ∧ report.excerptSize = excerpt.sizes ∧
        report.overlap = sizes (inter ledger.quota excerpt) ∧
        report.overlap ≤ report.quotaSize + report.excerptSize) ∧
      ∀ next, ledger.commit excerpt = .ok next →
        (∀ other, (next.evaluate other).quotaSize = next.quota.sizes ∧
          (next.evaluate other).quotaSize =
            report.quotaSize + report.excerptSize - report.overlap) ∧
        report.quotaSize + report.excerptSize - report.overlap ≤ report.used ∧
        report.remaining ≤ (next.evaluate []).remaining := by
  intro report
  have quota_size : report.quotaSize = (positions ledger.quota).card :=
    quotaSize_eq_card ledger excerpt normal_quota
  have excerpt_size : report.excerptSize = (positions excerpt).card :=
    excerptSize_eq_card ledger excerpt normal_excerpt
  have overlap : report.overlap = (positions ledger.quota ∩ positions excerpt).card :=
    overlap_eq_card ledger excerpt normal_quota normal_excerpt
  have within : (positions ledger.quota ∪ positions excerpt).card ≤ report.used :=
    card_union_le_used ledger excerpt
  have both := Finset.card_union_add_card_inter (positions ledger.quota) (positions excerpt)
  have quota_shares : (positions ledger.quota ∩ positions excerpt).card ≤
      (positions ledger.quota).card := Finset.card_le_card Finset.inter_subset_left
  have excerpt_shares : (positions ledger.quota ∩ positions excerpt).card ≤
      (positions excerpt).card := Finset.card_le_card Finset.inter_subset_right
  refine ⟨by omega, by omega, overlap, ⟨?_, ?_, ?_, by omega⟩, ?_⟩
  · exact total_eq_sizes_of_normalized ledger.quota normal_quota
  · exact total_eq_sizes_of_normalized excerpt normal_excerpt
  · exact total_eq_sizes_of_normalized _
      (inter_normalized ledger.quota excerpt normal_quota normal_excerpt)
  · intro next committed
    refine ⟨fun other => ⟨?_, ?_⟩, by omega,
      remaining_le_of_commit ledger next excerpt normal_quota normal_excerpt committed⟩
    · exact total_eq_sizes_of_normalized next.quota
        (normalized_of_commit ledger next excerpt committed)
    · have counted := quotaSize_of_commit ledger next excerpt other normal_quota
        normal_excerpt committed
      omega

/-- Ten segments are reported as used and nine are stored: the second fragment of the
excerpt was counted again, and what remains may grow by it. -/
theorem figures_after_commit :
    (∃ next, commit ⟨[.fromTo 1 6], 20, 12⟩ [.fromTo 2 3, .fromTo 6 9] = .ok next) ∧
      ∀ next, commit ⟨[.fromTo 1 6], 20, 12⟩ [.fromTo 2 3, .fromTo 6 9] = .ok next →
        (next.evaluate []).quotaSize = 9 ∧ 2 ≤ (next.evaluate []).remaining := by
  obtain ⟨_, _, _, _, foretold⟩ := report_forecasts_commit ⟨[.fromTo 1 6], 20, 12⟩
    [.fromTo 2 3, .fromTo 6 9] (by decide) (by decide)
  refine ⟨(commit_ok_iff _ _).mpr (by decide +kernel), fun next committed => ?_⟩
  obtain ⟨sizes, _, remaining⟩ := foretold next committed
  exact ⟨(sizes []).2.trans (by decide +kernel), Nat.le_trans (by decide +kernel) remaining⟩

end SegmentQuota.Ledger
