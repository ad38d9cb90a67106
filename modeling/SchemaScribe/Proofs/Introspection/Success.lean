import SchemaScribe.Value.Basic
import Mathlib.Data.List.Forall2

/-! # Computations that may fail

When a chain of reads gives a result, and what a chain of checks fails with. The first failing step
decides: steps after it are not looked at.
-/
namespace SchemaScribe.Success
variable {ε α β : Type}

/-- A computation gives a result when its first step does and the rest of it does after that. -/
theorem bind_eq_ok {x : Except ε α} {f : α → Except ε β} {b : β} :
    (x >>= f) = .ok b ↔ ∃ a, x = .ok a ∧ f a = .ok b := by
  cases x <;> simp [bind, Except.bind]

theorem pure_eq_ok {a b : α} : (pure a : Except ε α) = .ok b ↔ a = b := by
  simp [pure, Except.pure]

theorem map_eq_ok {x : Except ε α} {f : α → β} {b : β} :
    x.map f = .ok b ↔ ∃ a, x = .ok a ∧ f a = b := by
  cases x <;> simp [Except.map]

@[simp] theorem ok_bind (a : α) (f : α → Except ε β) : ((.ok a : Except ε α) >>= f) = f a := rfl

/-- A list is read when each of its items is. -/
theorem mapM_eq_ok {f : α → Except ε β} {xs : List α} {ys : List β} :
    xs.mapM f = .ok ys ↔ List.Forall₂ (fun y x => f x = .ok y) ys xs := by
  induction xs generalizing ys with
  | nil => cases ys <;> simp [pure, Except.pure]
  | cons x xs ih =>
    simp only [List.mapM_cons, bind_eq_ok, pure_eq_ok]
    constructor
    · rintro ⟨y, hy, rest, hrest, rfl⟩
      exact .cons hy (ih.mp hrest)
    · intro h
      cases h with
      | cons hy hrest => exact ⟨_, hy, _, ih.mpr hrest, rfl⟩

theorem exists_mem_of_forall₂ {R : β → α → Prop} {ys : List β} {xs : List α}
    (h : List.Forall₂ R ys xs) {x : α} (hx : x ∈ xs) : ∃ y ∈ ys, R y x := by
  induction h with
  | nil => simp at hx
  | cons hr _ ih =>
    rcases List.mem_cons.mp hx with rfl | hx
    · exact ⟨_, List.mem_cons_self .., hr⟩
    · obtain ⟨y, hy, hyx⟩ := ih hx
      exact ⟨y, List.mem_cons_of_mem _ hy, hyx⟩

theorem exists_item_of_forall₂ {R : β → α → Prop} {ys : List β} {xs : List α}
    (h : List.Forall₂ R ys xs) {y : β} (hy : y ∈ ys) : ∃ x ∈ xs, R y x :=
  exists_mem_of_forall₂ h.flip hy

theorem forall₂_map {R : α → β → Prop} {f : α → β} {xs : List α} (h : ∀ x ∈ xs, R x (f x)) :
    List.Forall₂ R xs (xs.map f) := by
  rw [List.forall₂_map_right_iff, List.forall₂_same]
  exact h

theorem forM_eq_ok {f : α → Except ε Unit} {xs : List α} :
    xs.forM f = .ok () ↔ ∀ x ∈ xs, f x = .ok () := by
  rw [List.forM_eq_forM]
  induction xs with
  | nil => simp [pure, Except.pure]
  | cons x xs ih =>
    simp only [List.forM_cons, bind_eq_ok, ih, List.mem_cons, forall_eq_or_imp]
    constructor
    · rintro ⟨⟨⟩, hx, hxs⟩
      exact ⟨hx, hxs⟩
    · rintro ⟨hx, hxs⟩
      exact ⟨(), hx, hxs⟩

/-- Checks fail with the first failure. -/
theorem forM_eq_error {f : α → Except ε Unit} {before after : List α} {x : α} {e : ε}
    (hb : ∀ y ∈ before, f y = .ok ()) (hx : f x = .error e) :
    (before ++ x :: after).forM f = .error e := by
  rw [List.forM_eq_forM, List.forM_append, List.forM_cons, hx]
  have h := forM_eq_ok.mpr hb
  rw [List.forM_eq_forM] at h
  rw [h]
  rfl

end SchemaScribe.Success
