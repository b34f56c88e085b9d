import Mathlib

/-!
Steps that may be refused, one after the other. A chain of steps has a result just
when each of them has. A list is worked through item by item until one is refused: all
results together are there just when every item gives its own; otherwise the refusal
is that of the first item which gives none, and no later item is looked at.
-/

namespace SegmentQuota

variable {α β ε δ : Type}

theorem bind_eq_ok_iff (value : Except ε α) (next : α → Except ε β) (y : β) :
    value.bind next = .ok y ↔ ∃ x, value = .ok x ∧ next x = .ok y := by
  cases value <;> simp [Except.bind]

theorem map_eq_ok_iff (f : α → β) (value : Except ε α) (y : β) :
    value.map f = .ok y ↔ ∃ x, value = .ok x ∧ f x = y := by
  cases value <;> simp [Except.map]

theorem map_eq_error_iff (f : α → β) (value : Except ε α) (fault : ε) :
    value.map f = .error fault ↔ value = .error fault := by
  cases value <;> simp [Except.map]

theorem mapError_eq_ok_iff (f : ε → δ) (value : Except ε α) (x : α) :
    value.mapError f = .ok x ↔ value = .ok x := by
  cases value <;> simp [Except.mapError]

theorem mapM_eq_ok_iff (f : α → Except ε β) (xs : List α) (ys : List β) :
    xs.mapM f = .ok ys ↔ List.Forall₂ (fun x y => f x = .ok y) xs ys := by
  induction xs generalizing ys with
  | nil => simp [pure, Except.pure, eq_comm]
  | cons x xs ih =>
      simp only [List.mapM_cons, List.forall₂_cons_left_iff, ← ih]
      cases f x with
      | error fault => simp [bind, Except.bind]
      | ok y =>
          cases xs.mapM f with
          | error fault => simp [bind, Except.bind]
          | ok rest => simp [bind, Except.bind, pure, Except.pure, eq_comm]

theorem mapM_cons_eq_error_iff (f : α → Except ε β) (x : α) (xs : List α) (fault : ε) :
    (x :: xs).mapM f = .error fault ↔
      f x = .error fault ∨ (∃ y, f x = .ok y) ∧ xs.mapM f = .error fault := by
  rw [List.mapM_cons]
  cases f x with
  | error other => simp [bind, Except.bind]
  | ok y => cases xs.mapM f <;> simp [bind, Except.bind, pure, Except.pure]

theorem exists_mapM_eq_error_iff (f : α → Except ε β) (xs : List α) :
    (∃ fault, xs.mapM f = .error fault) ↔ ∃ x ∈ xs, ∃ fault, f x = .error fault := by
  induction xs with
  | nil => simp [pure, Except.pure]
  | cons first rest ih =>
      simp only [mapM_cons_eq_error_iff, exists_or, List.mem_cons, exists_eq_or_imp, ← ih]
      cases f first <;> simp

theorem mapM_eq_error_iff (f : α → Except ε β) (xs : List α) (fault : ε) :
    xs.mapM f = .error fault ↔
      ∃ earlier x later, xs = earlier ++ x :: later ∧
        (∀ other ∈ earlier, ∃ y, f other = .ok y) ∧ f x = .error fault := by
  induction xs with
  | nil => simp [pure, Except.pure]
  | cons first rest ih =>
      rw [mapM_cons_eq_error_iff, ih]
      constructor
      · rintro (refused | ⟨passed, earlier, x, later, rfl, all, refused⟩)
        · exact ⟨[], first, rest, rfl, by simp, refused⟩
        · exact ⟨first :: earlier, x, later, rfl, List.forall_mem_cons.mpr ⟨passed, all⟩, refused⟩
      · rintro ⟨earlier, x, later, cut, all, refused⟩
        cases earlier with
        | nil =>
            cases cut
            exact Or.inl refused
        | cons other earlier =>
            cases cut
            obtain ⟨passed, all⟩ := List.forall_mem_cons.mp all
            exact Or.inr ⟨passed, earlier, x, later, rfl, all, refused⟩

end SegmentQuota
