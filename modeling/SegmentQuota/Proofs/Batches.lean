import SegmentQuota.Proofs.Admission
import SegmentQuota.Proofs.Lattice

/-!
Runs in which every excerpt is taken. Such a run leaves the union of the quota with
all the excerpts, one joined after the other. What a union of many holds, and what
it keeps together, does not depend on their order or grouping, and a normalized
selection is determined by that. Whether an excerpt is taken at all may depend on
what came before it, so nothing is said here of runs with a refusal.
-/

namespace SegmentQuota

namespace Selection

theorem foldl_union_normalized (start : Selection) (parts : List Selection)
    (normal : start.normalized) : (parts.foldl union start).normalized := by
  induction parts generalizing start with
  | nil => exact normal
  | cons part rest ih => exact ih (union start part) (union_normalized start part)

theorem mem_view_foldl_union (start : Selection) (parts : List Selection)
    (normal : start.normalized) (normal_parts : ∀ part ∈ parts, part.normalized)
    (place : Fin 2 × Nat) :
    place ∈ view (parts.foldl union start) ↔
      place ∈ view start ∨ ∃ part ∈ parts, place ∈ view part := by
  induction parts generalizing start with
  | nil => simp
  | cons part rest ih =>
      obtain ⟨normal_part, normal_rest⟩ := List.forall_mem_cons.mp normal_parts
      rw [List.foldl_cons, ih (union start part) (union_normalized start part) normal_rest,
        view_union start part normal normal_part]
      simp only [Set.mem_union, List.mem_cons, exists_eq_or_imp, or_assoc]

theorem foldl_union_perm (start : Selection) (parts reordered : List Selection)
    (normal : start.normalized) (normal_parts : ∀ part ∈ parts, part.normalized)
    (same : reordered.Perm parts) : reordered.foldl union start = parts.foldl union start := by
  have normal_reordered : ∀ part ∈ reordered, part.normalized :=
    fun part member => normal_parts part (same.mem_iff.mp member)
  refine eq_of_view_eq _ _ (foldl_union_normalized start reordered normal)
    (foldl_union_normalized start parts normal) ?_
  ext place
  rw [mem_view_foldl_union start reordered normal normal_reordered,
    mem_view_foldl_union start parts normal normal_parts]
  simp only [same.mem_iff]

-- The parts may be joined among themselves first, and to the start afterwards.
theorem union_foldl_union (start : Selection) (parts : List Selection)
    (normal : start.normalized) (normal_parts : ∀ part ∈ parts, part.normalized) :
    union start (parts.foldl union []) = parts.foldl union start := by
  have normal_joined := foldl_union_normalized [] parts rfl
  refine eq_of_view_eq _ _ (union_normalized _ _) (foldl_union_normalized start parts normal) ?_
  ext place
  rw [view_union start _ normal normal_joined, Set.mem_union,
    mem_view_foldl_union [] parts rfl normal_parts,
    mem_view_foldl_union start parts normal normal_parts, view_nil]
  simp only [Set.mem_empty_iff_false, false_or]

end Selection

namespace Ledger

open Selection

theorem foldlM_commit (ledger final : Ledger) (excerpts : List Selection)
    (taken : excerpts.foldlM commit ledger = .ok final) :
    final = { ledger with quota := excerpts.foldl union ledger.quota } := by
  induction excerpts generalizing ledger with
  | nil =>
      cases taken
      rfl
  | cons excerpt rest ih =>
      rw [List.foldlM_cons] at taken
      cases committed : ledger.commit excerpt with
      | error refusal => simp [committed, bind, Except.bind] at taken
      | ok next =>
          simp only [committed, bind, Except.bind] at taken
          have reached := ih next taken
          obtain ⟨_, rfl⟩ := (commit_eq_ok_iff ledger excerpt next).mp committed
          exact reached

/-- If every excerpt is taken, then wherever all are taken in another order, or their
union is taken at once, the ledger in the end is the same. -/
theorem order_and_batching_immaterial (ledger final : Ledger) (excerpts : List Selection)
    (normal_quota : ledger.quota.normalized)
    (normal_excerpts : ∀ excerpt ∈ excerpts, excerpt.normalized)
    (taken : excerpts.foldlM commit ledger = .ok final) :
    (∀ (reordered : List Selection) (other : Ledger), reordered.Perm excerpts →
        reordered.foldlM commit ledger = .ok other → other = final) ∧
      ∀ batched, ledger.commit (excerpts.foldl union []) = .ok batched → batched = final := by
  rw [foldlM_commit ledger final excerpts taken]
  constructor
  · intro reordered other same taken_reordered
    rw [foldlM_commit ledger other reordered taken_reordered,
      foldl_union_perm ledger.quota excerpts reordered normal_quota normal_excerpts same]
  · intro batched committed
    obtain ⟨_, rfl⟩ := (commit_eq_ok_iff ledger _ batched).mp committed
    rw [union_foldl_union ledger.quota excerpts normal_quota normal_excerpts]

/-- The fragment that touches two others stays apart in either order, and in one batch. -/
theorem touching_excerpts_reordered_and_batched :
    (∃ other, [[.fromTo 9 9], [.fromTo 3 8, .fromTo 10 10]].foldlM commit
          ⟨[.fromTo 1 5], 100, 12⟩ = .ok other ∧
        other = ⟨[.fromTo 1 8, .fromTo 9 9, .fromTo 10 10], 100, 12⟩) ∧
      ∃ batched, commit ⟨[.fromTo 1 5], 100, 12⟩
          ([[.fromTo 3 8, .fromTo 10 10], [.fromTo 9 9]].foldl union []) = .ok batched ∧
        batched = ⟨[.fromTo 1 8, .fromTo 9 9, .fromTo 10 10], 100, 12⟩ := by
  obtain ⟨reordered, batched⟩ := order_and_batching_immaterial ⟨[.fromTo 1 5], 100, 12⟩
    ⟨[.fromTo 1 8, .fromTo 9 9, .fromTo 10 10], 100, 12⟩
    [[.fromTo 3 8, .fromTo 10 10], [.fromTo 9 9]] (by decide) (by decide) (by cbv)
  obtain ⟨other, taken⟩ : ∃ other, [[.fromTo 9 9], [.fromTo 3 8, .fromTo 10 10]].foldlM commit
      ⟨[.fromTo 1 5], 100, 12⟩ = .ok other :=
    ⟨⟨[.fromTo 1 8, .fromTo 9 9, .fromTo 10 10], 100, 12⟩, by cbv⟩
  obtain ⟨next, committed⟩ := (commit_ok_iff ⟨[.fromTo 1 5], 100, 12⟩
    ([[.fromTo 3 8, .fromTo 10 10], [.fromTo 9 9]].foldl union [])).mpr (by cbv)
  exact ⟨⟨other, taken, reordered _ other (by decide) taken⟩,
    next, committed, batched next committed⟩

end Ledger

end SegmentQuota
