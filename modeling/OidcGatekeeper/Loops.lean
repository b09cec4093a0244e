-- Loops that may raise: when a loop returns, and which turn it was that raised.
-- Nothing here is about one program.
import Mathlib.Tactic.Common

namespace loops

variable {ε α β : Type*} {f : β → α → Except ε β} {xs : List α}

/-- A loop returns when none of its turns raises. -/
theorem foldlM_ok (h : ∀ x ∈ xs, ∀ b, ∃ b', f b x = .ok b') (b : β) :
    ∃ b', xs.foldlM f b = .ok b' := by
  induction xs generalizing b with
  | nil => exact ⟨b, rfl⟩
  | cons x xs ih =>
    obtain ⟨b₁, hb⟩ := h x List.mem_cons_self b
    rw [List.foldlM_cons, hb]
    exact ih (fun y hy => h y (List.mem_cons_of_mem _ hy)) b₁

/-- A loop that raises, raises in one of its turns. -/
theorem foldlM_error {b : β} {e : ε} (h : xs.foldlM f b = .error e) :
    ∃ x ∈ xs, ∃ b₁, f b₁ x = .error e := by
  induction xs generalizing b with
  | nil => cases h
  | cons x xs ih =>
    rw [List.foldlM_cons] at h
    cases hb : f b x with
    | error e' =>
      rw [hb] at h
      cases h
      exact ⟨x, List.mem_cons_self, b, hb⟩
    | ok b₁ =>
      rw [hb] at h
      obtain ⟨y, hy, he⟩ := ih h
      exact ⟨y, List.mem_cons_of_mem _ hy, he⟩

/-- A loop of which each turn appends. -/
theorem foldlM_append {γ : Type*} {f : List γ → α → Except ε (List γ)} {g : α → List γ}
    (h : ∀ x ∈ xs, ∀ acc, f acc x = .ok (acc ++ g x)) (acc : List γ) :
    xs.foldlM f acc = .ok (acc ++ xs.flatMap g) := by
  induction xs generalizing acc with
  | nil => simp [pure, Except.pure]
  | cons x xs ih =>
    rw [List.foldlM_cons, h x List.mem_cons_self]
    simp only [bind, Except.bind]
    rw [ih fun y hy => h y (List.mem_cons_of_mem _ hy)]
    simp

end loops
