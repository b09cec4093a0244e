-- A list that is cut at each separator. Which lists have an empty piece, what
-- is in front of the first separator, and on which side of a separator a part
-- lies. Nothing here is about one program.
import Mathlib.Tactic.Common

namespace separators

/-! ## Parts of a list -/

section infixes

variable {α : Type*} {sep : α} {l : List α}

theorem prefix_cons_of_notMem (hl : sep ∉ l) {l₁ : List α} (h : l <+: sep :: l₁) : l = [] := by
  rcases List.prefix_cons_iff.mp h with h | ⟨t, rfl, -⟩
  · exact h
  · exact absurd List.mem_cons_self hl

/-- A part of a list that has no separator in it lies on one side of each separator. -/
theorem infix_append_cons (hl : sep ∉ l) (l₁ l₂ : List α) :
    l <:+: l₁ ++ sep :: l₂ ↔ l <:+: l₁ ∨ l <:+: l₂ := by
  constructor
  · intro h
    rcases List.infix_append_iff.mp h with h | h | ⟨a, b, rfl, ha, hb⟩
    · exact .inl h
    · rcases List.infix_cons_iff.mp h with h | h
      · rw [prefix_cons_of_notMem hl h]
        exact .inl List.nil_infix
      · exact .inr h
    · have hb' : b = [] := prefix_cons_of_notMem (fun hm => hl (List.mem_append_right a hm)) hb
      subst hb'
      rw [List.append_nil]
      exact .inl ha.isInfix
  · rintro (h | h)
    · exact List.infix_append_of_infix_left h
    · exact List.infix_append_of_infix_right (List.infix_cons h)

theorem infix_cons (hne : l ≠ []) (hl : sep ∉ l) (l₁ : List α) : l <:+: sep :: l₁ ↔ l <:+: l₁ := by
  have h := infix_append_cons hl [] l₁
  rw [List.nil_append, List.infix_nil] at h
  rw [h]
  exact or_iff_right hne

end infixes
/-! ## Pieces -/

variable {α : Type*} [DecidableEq α] (sep : α)

/-- No separator at an end, and no two in a row. The empty list is one empty piece. -/
def Tight (l : List α) : Prop :=
  ¬ [sep] <+: l ∧ ¬ [sep] <:+ l ∧ ¬ [sep, sep] <:+: l

instance (l : List α) : Decidable (Tight sep l) := inferInstanceAs (Decidable (_ ∧ _ ∧ _))

/-- The first piece and the other pieces. -/
theorem splitOn_eq_cons (l : List α) : ∃ h t, l.splitOn sep = h :: t := by
  cases hl : l.splitOn sep with
  | nil => exact absurd hl (List.splitOn_ne_nil sep l)
  | cons h t => exact ⟨h, t, rfl⟩

theorem splitOn_cons_self (l : List α) : (sep :: l).splitOn sep = [] :: l.splitOn sep := by
  simp [List.splitOn_cons_eq_if_modifyHead]

theorem splitOn_cons_of_ne {x : α} (hx : x ≠ sep) {l h : List α} {t : List (List α)}
    (hl : l.splitOn sep = h :: t) : (x :: l).splitOn sep = (x :: h) :: t := by
  rw [List.splitOn_cons_eq_if_modifyHead, if_neg (by simpa using hx), hl]
  rfl

/-- The first piece is empty when nothing stands in front of the first separator. -/
theorem first_eq_nil {l h : List α} {t : List (List α)} (hl : l.splitOn sep = h :: t) :
    h = [] ↔ l = [] ∨ [sep] <+: l := by
  cases l with
  | nil =>
    rw [List.splitOn_nil] at hl
    cases hl
    simp
  | cons x l =>
    by_cases hx : x = sep
    · subst hx
      rw [splitOn_cons_self] at hl
      cases hl
      simp
    · obtain ⟨h', t', hl'⟩ := splitOn_eq_cons sep l
      rw [splitOn_cons_of_ne sep hx hl'] at hl
      cases hl
      simp [Ne.symm hx]

/-- Another piece is empty when a separator ends the list, or two stand in a row. -/
theorem nil_mem_others {l h : List α} {t : List (List α)} (hl : l.splitOn sep = h :: t) :
    [] ∈ t ↔ [sep] <:+ l ∨ [sep, sep] <:+: l := by
  induction l generalizing h t with
  | nil =>
    rw [List.splitOn_nil] at hl
    cases hl
    simp
  | cons x l ih =>
    obtain ⟨h', t', hl'⟩ := splitOn_eq_cons sep l
    rw [List.suffix_cons_iff, List.infix_cons_iff]
    by_cases hx : x = sep
    · subst hx
      rw [splitOn_cons_self, hl'] at hl
      cases hl
      rw [List.mem_cons, ih hl', eq_comm, first_eq_nil x hl']
      simp only [List.cons.injEq, true_and, List.cons_prefix_cons, eq_comm (a := ([] : List α))]
      tauto
    · rw [splitOn_cons_of_ne sep hx hl'] at hl
      cases hl
      rw [ih hl']
      simp [Ne.symm hx]

/-- A list has an empty piece when it is empty, or its separators are not tight. -/
theorem nil_mem_splitOn (l : List α) : [] ∈ l.splitOn sep ↔ l = [] ∨ ¬ Tight sep l := by
  obtain ⟨h, t, hl⟩ := splitOn_eq_cons sep l
  rw [hl, List.mem_cons, eq_comm, first_eq_nil sep hl, nil_mem_others sep hl]
  unfold Tight
  tauto

/-- A first piece that stands in front of a list, with a separator between them. -/
theorem splitOn_append {l : List α} (hl : sep ∉ l) (l' : List α) :
    (l ++ sep :: l').splitOn sep = l :: l'.splitOn sep := by
  have hne : ∀ x ∈ l, (x == sep) = false := by
    intro x hx
    rw [beq_eq_false_iff_ne]
    rintro rfl
    exact hl hx
  exact List.splitOn_append_cons_of_forall_mem_beq_eq_false hne sep (beq_self_eq_true sep) l'

end separators
