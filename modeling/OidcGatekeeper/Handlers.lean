-- Handlers: code that reads and writes a state and may raise. A handler that
-- raises keeps the writes that it made, as a Python function does. These are
-- the rules to follow a handler through its statements; they name no program.
import Mathlib.Tactic.Common

namespace handlers

variable {ε σ α β : Type}

/-! ## One statement after another -/

theorem run_bind_ok {x : EStateM ε σ α} {f : α → EStateM ε σ β} {s s' : σ} {a : α}
    (h : x.run s = .ok a s') : (x >>= f).run s = (f a).run s' := by
  rw [EStateM.run_bind, h]

theorem run_bind_error {x : EStateM ε σ α} {f : α → EStateM ε σ β} {s s' : σ} {e : ε}
    (h : x.run s = .error e s') : (x >>= f).run s = .error e s' := by
  rw [EStateM.run_bind, h]

/-- A program returns when each of its two parts returns. -/
theorem run_bind_ok_iff {x : EStateM ε σ α} {f : α → EStateM ε σ β} {s s' : σ} {b : β} :
    (x >>= f).run s = .ok b s' ↔ ∃ a s₁, x.run s = .ok a s₁ ∧ (f a).run s₁ = .ok b s' := by
  cases h : x.run s with
  | ok a s₁ => simp [run_bind_ok h]
  | error e s₁ => simp [run_bind_error h]

/-- A program that raises, raises in its first part, or in its second part after the first
one returned. -/
theorem run_bind_error_iff {x : EStateM ε σ α} {f : α → EStateM ε σ β} {s s' : σ} {e : ε} :
    (x >>= f).run s = .error e s' ↔
      x.run s = .error e s' ∨ ∃ a s₁, x.run s = .ok a s₁ ∧ (f a).run s₁ = .error e s' := by
  cases h : x.run s with
  | ok a s₁ => simp [run_bind_ok h]
  | error e s₁ => simp [run_bind_error h]

@[simp] theorem run_raise (e : ε) (s : σ) :
    (throw e : EStateM ε σ α).run s = .error e s := rfl

@[simp] theorem run_map (f : α → β) (x : EStateM ε σ α) (s : σ) :
    (f <$> x).run s = match x.run s with
      | .ok a s' => .ok (f a) s'
      | .error e s' => .error e s' := rfl

/-- `try x except e: h e` keeps the writes of `x` when `h` takes over. -/
@[simp] theorem run_tryCatch (x : EStateM ε σ α) (h : ε → EStateM ε σ α) (s : σ) :
    (tryCatch x h).run s = match x.run s with
      | .ok a s' => .ok a s'
      | .error e s' => (h e).run s' := by
  change EStateM.tryCatch x h s = _
  unfold EStateM.tryCatch EStateM.run
  cases x s <;> rfl

/-- The state that a program leaves, whether it returns or raises. -/
inductive Leaves (x : EStateM ε σ α) (s s' : σ) : Prop
  | ok {a : α} (h : x.run s = .ok a s')
  | error {e : ε} (h : x.run s = .error e s')

/-! ## What a program keeps -/

section keeps

variable {I : σ → Prop}

/-- From a state with `I` the program leaves a state with `I`, also when it raises. -/
def Keeps (I : σ → Prop) (x : EStateM ε σ α) : Prop := ∀ ⦃s s'⦄, I s → Leaves x s s' → I s'

theorem keeps_pure (a : α) : Keeps I (pure a : EStateM ε σ α) := by
  rintro s s' h (hr | hr)
  · cases hr
    exact h
  · cases hr

theorem keeps_throw (e : ε) : Keeps I (throw e : EStateM ε σ α) := by
  rintro s s' h (hr | hr)
  · cases hr
  · cases hr
    exact h

theorem keeps_get : Keeps I (get : EStateM ε σ σ) := by
  rintro s s' h (hr | hr)
  · cases hr
    exact h
  · cases hr

/-- A program that reads the state may rely on what it reads. -/
theorem keeps_read {f : σ → EStateM ε σ α} (hf : ∀ s s', I s → Leaves (f s) s s' → I s') :
    Keeps I (get >>= f) := by
  rintro s s' h (hr | hr)
  · exact hf s s' h (.ok hr)
  · exact hf s s' h (.error hr)

theorem keeps_modify {f : σ → σ} (hf : ∀ s, I s → I (f s)) :
    Keeps I (modify f : EStateM ε σ PUnit) := by
  rintro s s' h (hr | hr)
  · cases hr
    exact hf s h
  · cases hr

/-- The second part may rely on what the first part returned. -/
theorem keeps_bind_of {x : EStateM ε σ α} {f : α → EStateM ε σ β} {Q : α → Prop}
    (hx : Keeps I x) (hq : ∀ {s a s'}, I s → x.run s = .ok a s' → Q a)
    (hf : ∀ a, Q a → Keeps I (f a)) : Keeps I (x >>= f) := by
  rintro s s' h (hr | hr)
  · obtain ⟨a, s₁, h₁, h₂⟩ := run_bind_ok_iff.mp hr
    exact hf a (hq h h₁) (hx h (.ok h₁)) (.ok h₂)
  · rcases run_bind_error_iff.mp hr with h₁ | ⟨a, s₁, h₁, h₂⟩
    · exact hx h (.error h₁)
    · exact hf a (hq h h₁) (hx h (.ok h₁)) (.error h₂)

theorem keeps_bind {x : EStateM ε σ α} {f : α → EStateM ε σ β} (hx : Keeps I x)
    (hf : ∀ a, Keeps I (f a)) : Keeps I (x >>= f) :=
  keeps_bind_of (Q := fun _ => True) hx (fun _ _ => trivial) fun a _ => hf a

theorem keeps_map {x : EStateM ε σ α} (hx : Keeps I x) (f : α → β) : Keeps I (f <$> x) := by
  rintro s s' h (hr | hr) <;> rw [run_map] at hr <;> split at hr <;> cases hr <;> rename_i hx'
  · exact hx h (.ok hx')
  · exact hx h (.error hx')

theorem keeps_tryCatch {x : EStateM ε σ α} {f : ε → EStateM ε σ α} (hx : Keeps I x)
    (hf : ∀ e, Keeps I (f e)) : Keeps I (tryCatch x f) := by
  rintro s s' h (hr | hr) <;> rw [run_tryCatch] at hr <;> split at hr <;> rename_i hx'
  · cases hr
    exact hx h (.ok hx')
  · exact hf _ (hx h (.error hx')) (.ok hr)
  · cases hr
  · exact hf _ (hx h (.error hx')) (.error hr)

theorem keeps_ite {p : Prop} [Decidable p] {x y : EStateM ε σ α} (hx : p → Keeps I x)
    (hy : ¬ p → Keeps I y) : Keeps I (if p then x else y) := by
  split
  · exact hx ‹_›
  · exact hy ‹_›

end keeps

/-! ## Two runs side by side -/

section together

variable {τ : Type}

/-- Two runs with one outcome: the same value or the same exception, in related states. -/
inductive Together (R : σ → τ → Prop) :
    EStateM.Result ε σ α → EStateM.Result ε τ α → Prop
  | ok (a : α) {s : σ} {t : τ} (h : R s t) : Together R (.ok a s) (.ok a t)
  | error (e : ε) {s : σ} {t : τ} (h : R s t) : Together R (.error e s) (.error e t)

theorem together_bind {R : σ → τ → Prop} {x : EStateM ε σ α} {y : EStateM ε τ α}
    {f : α → EStateM ε σ β} {g : α → EStateM ε τ β} {s : σ} {t : τ}
    (hx : Together R (x.run s) (y.run t))
    (hf : ∀ a s t, R s t → Together R ((f a).run s) ((g a).run t)) :
    Together R ((x >>= f).run s) ((y >>= g).run t) := by
  generalize hs : x.run s = p at hx
  generalize ht : y.run t = q at hx
  cases hx with
  | ok a h =>
    rw [run_bind_ok hs, run_bind_ok ht]
    exact hf a _ _ h
  | error e h =>
    rw [run_bind_error hs, run_bind_error ht]
    exact .error e h

end together

end handlers
