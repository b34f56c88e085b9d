import SegmentQuota.Proofs.Admission
import SegmentQuota.Proofs.Union

/-!
Whole runs of offers. The invariant compares a ledger that was reached with the
one the run began with and the excerpts taken on the way: nothing is counted as
used up that none of them holds, the limit is kept from the first excerpt taken
on, and between normalized selections nothing that was revealed is forgotten.
-/

namespace SegmentQuota.Ledger

open Selection

def accepted : Ledger → List Selection → List Selection
  | _, [] => []
  | ledger, excerpt :: rest =>
      match ledger.commit excerpt with
      | .ok next => excerpt :: accepted next rest
      | .error _ => accepted ledger rest

/-- The segment was used up before the run, or lies in one of the excerpts. -/
def Revealed (quota : Selection) (excerpts : List Selection) (segment : Nat) : Prop :=
  quota.Holds segment ∨ ∃ excerpt ∈ excerpts, excerpt.Holds segment

theorem revealed_concat (quota excerpt : Selection) (taken : List Selection) (segment : Nat) :
    Revealed quota (taken ++ [excerpt]) segment ↔
      Revealed quota taken segment ∨ excerpt.Holds segment := by
  simp only [Revealed, List.mem_append, List.mem_singleton, or_and_right, exists_or,
    exists_eq_left, or_assoc]

/-- What holds of every ledger that a run from `start` reaches after taking `taken`. -/
structure Accounts (start : Ledger) (taken : List Selection) (reached : Ledger) : Prop where
  same_segments : reached.segments = start.segments
  same_limit : reached.limit = start.limit
  revealed : ∀ segment, reached.quota.Holds segment → Revealed start.quota taken segment
  bounded : taken ≠ [] →
    reached.quota.normalized ∧ (positions reached.quota).card ≤ reached.limit
  kept : start.quota.normalized → (∀ excerpt ∈ taken, excerpt.normalized) →
    reached.quota.normalized ∧
      ∀ segment, Revealed start.quota taken segment → reached.quota.Holds segment

theorem accounts_start (ledger : Ledger) : Accounts ledger [] ledger where
  same_segments := rfl
  same_limit := rfl
  revealed := fun _ held => Or.inl held
  bounded := fun taken => absurd rfl taken
  kept := fun normal _ => ⟨normal, fun _ revealed => by simpa [Revealed] using revealed⟩

/-- The stored quota keeps the limit that the tally was compared with, because
the union holds no more segments than the tally counts. -/
theorem accounts_commit (start reached : Ledger) (taken : List Selection) (excerpt : Selection)
    (inv : Accounts start taken reached) (fits : tally reached.quota excerpt ≤ reached.limit) :
    Accounts start (taken ++ [excerpt])
      { reached with quota := union reached.quota excerpt } where
  same_segments := inv.same_segments
  same_limit := inv.same_limit
  revealed := by
    intro segment held
    rw [revealed_concat]
    exact (holds_of_union _ _ segment held).imp (inv.revealed segment) id
  bounded := by
    intro _
    -- The union may lose segments of an unsorted excerpt, but it never gains any.
    have counted := Finset.card_le_card (positions_union_subset reached.quota excerpt)
    exact ⟨union_normalized _ _,
      Nat.le_trans counted (Nat.le_trans (card_union_le_tally _ _) fits)⟩
  kept := by
    intro normal normal_taken
    have normal_excerpt := normal_taken excerpt (by simp)
    obtain ⟨normal_quota, held⟩ := inv.kept normal fun other member =>
      normal_taken other (List.mem_append_left _ member)
    refine ⟨union_normalized _ _, fun segment revealed => ?_⟩
    rw [revealed_concat] at revealed
    exact (holds_union_iff _ _ segment (ascending_of_normalized _ normal_quota)
      (ascending_of_normalized _ normal_excerpt)).mpr (revealed.imp (held segment) id)

theorem accounts_offerAll (start reached : Ledger) (taken excerpts : List Selection)
    (inv : Accounts start taken reached) :
    Accounts start (taken ++ reached.accepted excerpts) (reached.offerAll excerpts) := by
  induction excerpts generalizing reached taken with
  | nil => simpa [accepted, offerAll] using inv
  | cons excerpt rest ih =>
      by_cases fits : tally reached.quota excerpt ≤ reached.limit
      · have committed := commit_of_le reached excerpt fits
        have next := accounts_commit start reached taken excerpt inv fits
        simpa [accepted, offerAll, offer, committed] using ih _ _ next
      · have refused := commit_of_lt reached excerpt (Nat.not_le.mp fits)
        simpa [accepted, offerAll, offer, refused] using ih reached taken inv

/-- A quota that is already past the limit leaves no room even for the empty excerpt. -/
theorem refused_of_excess (ledger : Ledger) (excerpt : Selection)
    (excess : ledger.limit < (positions ledger.quota).card) :
    ∃ refusal, ledger.commit excerpt = .error refusal := by
  have counted : (positions ledger.quota).card ≤ tally ledger.quota excerpt :=
    Nat.le_trans (Finset.card_le_card Finset.subset_union_left) (card_union_le_tally _ _)
  exact ⟨_, commit_of_lt ledger excerpt (Nat.lt_of_lt_of_le excess counted)⟩

theorem run_of_excess (ledger : Ledger) (excerpts : List Selection)
    (excess : ledger.limit < (positions ledger.quota).card) :
    ledger.accepted excerpts = [] ∧ ledger.offerAll excerpts = ledger := by
  induction excerpts with
  | nil => exact ⟨rfl, rfl⟩
  | cons excerpt rest ih =>
      obtain ⟨refusal, refused⟩ := refused_of_excess ledger excerpt excess
      simpa [accepted, offerAll, offer, refused] using ih

/-- Quota safety over whole runs, of any excerpts from any ledger. Every state
within a run is the end of a shorter run. -/
theorem offers_stay_within_limit (ledger : Ledger) (excerpts : List Selection) :
    (ledger.offerAll excerpts).segments = ledger.segments ∧
      (ledger.offerAll excerpts).limit = ledger.limit ∧
      (∀ segment, (ledger.offerAll excerpts).quota.Holds segment →
        Revealed ledger.quota (ledger.accepted excerpts) segment) ∧
      (ledger.accepted excerpts ≠ [] →
        (ledger.offerAll excerpts).quota.normalized ∧
          (ledger.offerAll excerpts).quota.total =
            (positions (ledger.offerAll excerpts).quota).card ∧
          (positions (ledger.offerAll excerpts).quota).card ≤ ledger.limit) ∧
      (ledger.limit < (positions ledger.quota).card →
        ledger.accepted excerpts = [] ∧
          ∀ excerpt, ∃ refusal, (ledger.offerAll excerpts).commit excerpt = .error refusal) ∧
      (ledger.quota.normalized → (∀ excerpt ∈ ledger.accepted excerpts, excerpt.normalized) →
        ∀ segment, (ledger.offerAll excerpts).quota.Holds segment ↔
          Revealed ledger.quota (ledger.accepted excerpts) segment) := by
  have inv := accounts_offerAll ledger ledger [] excerpts (accounts_start ledger)
  rw [List.nil_append] at inv
  refine ⟨inv.same_segments, inv.same_limit, inv.revealed, ?_, ?_, ?_⟩
  · intro taken
    obtain ⟨normal, within⟩ := inv.bounded taken
    exact ⟨normal, total_of_normalized _ normal, inv.same_limit ▸ within⟩
  · intro excess
    obtain ⟨none, unchanged⟩ := run_of_excess ledger excerpts excess
    rw [unchanged]
    exact ⟨none, fun excerpt => refused_of_excess ledger excerpt excess⟩
  · intro normal normal_taken segment
    exact ⟨inv.revealed segment, (inv.kept normal normal_taken).2 segment⟩

/-- The excerpt in the middle is refused, and the limit still holds after the last one. -/
theorem run_with_refusal_within_limit :
    (accepted ⟨[.fromTo 1 10], 100, 15⟩
        [[.fromTo 6 12], [.fromTo 20 25], [.fromTo 13 14]]).length = 2 ∧
      (positions (offerAll ⟨[.fromTo 1 10], 100, 15⟩
        [[.fromTo 6 12], [.fromTo 20 25], [.fromTo 13 14]]).quota).card ≤ 15 := by
  have two : (accepted ⟨[.fromTo 1 10], 100, 15⟩
      [[.fromTo 6 12], [.fromTo 20 25], [.fromTo 13 14]]).length = 2 := by cbv
  obtain ⟨_, _, _, bounded, _⟩ := offers_stay_within_limit ⟨[.fromTo 1 10], 100, 15⟩
    [[.fromTo 6 12], [.fromTo 20 25], [.fromTo 13 14]]
  exact ⟨two, (bounded (List.ne_nil_of_length_eq_add_one two)).2.2⟩

end SegmentQuota.Ledger
