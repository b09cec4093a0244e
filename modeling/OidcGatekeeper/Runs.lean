-- Runs of a machine that takes one input at a time. A law of every step is
-- a law of every run, and two machines that stay related at every step stay
-- related over a run. Nothing here is about one program.
import Mathlib.Data.List.Induction
import Mathlib.Data.List.Forall2

namespace runs

variable {σ τ ι κ : Type*}

/-- The state after the inputs of a list, taken in order. -/
def run (step : σ → ι → σ) (s : σ) (is : List ι) : σ := is.foldl step s

/-- Each input of the run meets `ok` in the state that takes it. -/
def Meets (ok : σ → ι → Prop) (step : σ → ι → σ) : σ → List ι → Prop
  | _, [] => True
  | s, i :: is => ok s i ∧ Meets ok step (step s i) is

/-- Some input of the run meets `p` in the state that takes it. -/
def Happens (p : σ → ι → Prop) (step : σ → ι → σ) : σ → List ι → Prop
  | _, [] => False
  | s, i :: is => p s i ∨ Happens p step (step s i) is

variable {step : σ → ι → σ} {s : σ} {i : ι} {is js : List ι}

@[simp] theorem run_nil : run step s [] = s := rfl

@[simp] theorem run_cons : run step s (i :: is) = run step (step s i) is := rfl

@[simp] theorem run_append : run step s (is ++ js) = run step (run step s is) js := by
  simp [run]

theorem meets_append {ok : σ → ι → Prop} : Meets ok step s (is ++ js) ↔
    Meets ok step s is ∧ Meets ok step (run step s is) js := by
  induction is generalizing s with
  | nil => simp [Meets]
  | cons i is ih => simp [Meets, ih, and_assoc]

theorem meets_snoc {ok : σ → ι → Prop} : Meets ok step s (is ++ [i]) ↔
    Meets ok step s is ∧ ok (run step s is) i := by
  simp [meets_append, Meets]

/-! ## One run -/

/-- What each step keeps, a run keeps. -/
theorem run_keeps {I : σ → Prop} (hstep : ∀ s i, I s → I (step s i)) (h : I s)
    (is : List ι) : I (run step s is) := by
  induction is generalizing s with
  | nil => exact h
  | cons i is ih => exact ih (hstep s i h)

/-- What each step that meets `ok` keeps, a run of such steps keeps. -/
theorem run_keeps_of_meets {I : σ → Prop} {ok : σ → ι → Prop}
    (hstep : ∀ s i, I s → ok s i → I (step s i)) (h : I s)
    (hok : Meets ok step s is) : I (run step s is) := by
  induction is generalizing s with
  | nil => exact h
  | cons i is ih => exact ih (hstep s i h hok.1) hok.2

theorem meets_of_forall {ok : ι → Prop} (h : ∀ i ∈ is, ok i) : Meets (fun _ => ok) step s is := by
  induction is generalizing s with
  | nil => trivial
  | cons i is ih =>
    exact ⟨h i List.mem_cons_self, ih fun j hj => h j (List.mem_cons_of_mem _ hj)⟩

theorem Meets.mono {ok ok' : σ → ι → Prop} (himp : ∀ s i, ok s i → ok' s i)
    (h : Meets ok step s is) : Meets ok' step s is := by
  induction is generalizing s with
  | nil => trivial
  | cons i is ih => exact ⟨himp s i h.1, ih h.2⟩

theorem Meets.and {ok ok' : σ → ι → Prop} (h : Meets ok step s is) (h' : Meets ok' step s is) :
    Meets (fun s i => ok s i ∧ ok' s i) step s is := by
  induction is generalizing s with
  | nil => trivial
  | cons i is ih => exact ⟨⟨h.1, h'.1⟩, ih h.2 h'.2⟩

/-- What each step that meets `ok` keeps, holds after each step of a run of such steps. -/
theorem meets_keeps {I : σ → Prop} {ok : σ → ι → Prop}
    (hstep : ∀ s i, I s → ok s i → I (step s i)) (h : I s) (hok : Meets ok step s is) :
    Meets (fun s i => I (step s i)) step s is := by
  induction is generalizing s with
  | nil => trivial
  | cons i is ih =>
    have hi := hstep s i h hok.1
    exact ⟨hi, ih hi hok.2⟩

/-- A run whose steps meet `ok` where `I` holds, meets both. -/
theorem Meets.with_inv {I : σ → Prop} {ok : σ → ι → Prop}
    (hstep : ∀ s i, I s → ok s i → I (step s i)) (h : I s) (hok : Meets ok step s is) :
    Meets (fun s i => I s ∧ ok s i) step s is := by
  induction is generalizing s with
  | nil => trivial
  | cons i is ih => exact ⟨⟨h, hok.1⟩, ih (hstep s i h hok.1) hok.2⟩

/-- A latch: a step sets it exactly when `p` holds, and no step clears it. Over a run it
is set exactly when it was set before, or `p` held at some input. -/
theorem latch {P : σ → Prop} {p ok : σ → ι → Prop}
    (hstep : ∀ s i, ok s i → (P (step s i) ↔ P s ∨ p s i))
    (hok : Meets ok step s is) : P (run step s is) ↔ P s ∨ Happens p step s is := by
  induction is generalizing s with
  | nil => simp [Happens]
  | cons i is ih => rw [run_cons, ih hok.2, hstep s i hok.1, Happens, or_assoc]

/-! ## Two runs -/

/-- Two machines that take related inputs and stay related at each step are related
after a run. -/
theorem lockstep {step' : τ → κ → τ} {R : σ → τ → Prop} {E : ι → κ → Prop}
    (hstep : ∀ s t i k, R s t → E i k → R (step s i) (step' t k))
    {t : τ} {ks : List κ} (h : R s t) (hin : List.Forall₂ E is ks) :
    R (run step s is) (run step' t ks) := by
  induction hin generalizing s t with
  | nil => exact h
  | cons hik _ ih => exact ih (hstep _ _ _ _ h hik)

/-- A machine that stays related to another one at each step is related to it after a run
of the same inputs. -/
theorem refines {step' : τ → ι → τ} {R : σ → τ → Prop}
    (hstep : ∀ s t i, R s t → R (step s i) (step' t i)) {t : τ} (h : R s t) (is : List ι) :
    R (run step s is) (run step' t is) :=
  lockstep (E := Eq) (fun s t i _ hr he => he ▸ hstep s t i hr) h (List.forall₂_eq_eq_eq ▸ rfl)

end runs
