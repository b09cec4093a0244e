-- Finite maps that stay as they are: an insert, or a union, that brings nothing
-- new. Nothing here is about one program.
import Mathlib.Data.Finmap

namespace dicts

variable {α : Type*} {β : α → Type*} [DecidableEq α]

/-- An insert of what is there changes nothing. -/
theorem insert_eq_self {s : Finmap β} {a : α} {b : β a} (h : s.lookup a = some b) :
    s.insert a b = s := by
  apply Finmap.ext_lookup
  intro x
  by_cases hx : x = a
  · subst hx
    rw [Finmap.lookup_insert, h]
  · rw [Finmap.lookup_insert_of_ne s hx]

/-- What the left map has, a union has. -/
theorem lookup_union_of_lookup {s : Finmap β} {a : α} {b : β a} (h : s.lookup a = some b)
    (t : Finmap β) : (s ∪ t).lookup a = some b := by
  rw [Finmap.lookup_union_left (Finmap.mem_of_lookup_eq_some h), h]

/-- An update that has every key of the dict before it leaves nothing of it. -/
theorem union_eq_left {s t : Finmap β} (h : ∀ a ∈ t, a ∈ s) : s ∪ t = s := by
  apply Finmap.ext_lookup
  intro a
  by_cases ha : a ∈ s
  · rw [Finmap.lookup_union_left ha]
  · rw [Finmap.lookup_union_right ha, Finmap.lookup_eq_none.mpr ha]
    exact Finmap.lookup_eq_none.mpr fun ht => ha (h a ht)

theorem union_self (s : Finmap β) : s ∪ s = s := by
  apply Finmap.ext_lookup
  intro x
  by_cases hx : x ∈ s
  · rw [Finmap.lookup_union_left hx]
  · rw [Finmap.lookup_union_right hx]

/-- A union with one entry that is there changes nothing. -/
theorem singleton_union_eq_self {s : Finmap β} {a : α} {b : β a} (h : s.lookup a = some b) :
    Finmap.singleton a b ∪ s = s := by
  apply Finmap.ext_lookup
  intro x
  by_cases hx : x = a
  · subst hx
    rw [lookup_union_of_lookup Finmap.lookup_singleton_eq, h]
  · rw [Finmap.lookup_union_right (by simpa using hx)]

/-- A map with one key is the map of its one entry. -/
theorem eq_singleton {s : Finmap β} {a : α} {b : β a} (h : s.lookup a = some b)
    (hkeys : ∀ x ∈ s, x = a) : s = Finmap.singleton a b := by
  apply Finmap.ext_lookup
  intro x
  by_cases hx : x = a
  · subst hx
    rw [Finmap.lookup_singleton_eq, h]
  · rw [Finmap.lookup_eq_none.mpr fun hmem => hx (hkeys x hmem)]
    exact (Finmap.lookup_eq_none.mpr (by simpa using hx)).symm

/-- Two maps that agree at one key and without it are equal. -/
theorem eq_of_erase {s t : Finmap β} {a : α} (h : s.erase a = t.erase a)
    (ha : s.lookup a = t.lookup a) : s = t := by
  apply Finmap.ext_lookup
  intro x
  by_cases hx : x = a
  · subst hx
    exact ha
  · rw [← Finmap.lookup_erase_ne hx, h, Finmap.lookup_erase_ne hx]

theorem erase_insert (s : Finmap β) (a : α) (b : β a) : (s.insert a b).erase a = s.erase a := by
  apply Finmap.ext_lookup
  intro x
  by_cases hx : x = a
  · subst hx
    rw [Finmap.lookup_erase, Finmap.lookup_erase]
  · rw [Finmap.lookup_erase_ne hx, Finmap.lookup_erase_ne hx, Finmap.lookup_insert_of_ne s hx]

/-- A list of entries, with another value for one key, has the same values for the others. -/
theorem lookup_toFinmap_of_ne (l l' : List (Sigma β)) {a x : α} (hx : x ≠ a) (b b' : β a) :
    (List.toFinmap (l ++ ⟨a, b⟩ :: l')).lookup x = (List.toFinmap (l ++ ⟨a, b'⟩ :: l')).lookup x := by
  rw [Finmap.dlookup_list_toFinmap, Finmap.dlookup_list_toFinmap]
  induction l with
  | nil => rw [List.nil_append, List.nil_append, List.dlookup_cons_ne _ _ hx,
      List.dlookup_cons_ne _ _ hx]
  | cons e l ih =>
    obtain ⟨k, v⟩ := e
    by_cases hk : x = k
    · subst hk
      simp
    · rw [List.cons_append, List.cons_append, List.dlookup_cons_ne _ ⟨k, v⟩ hk,
        List.dlookup_cons_ne _ ⟨k, v⟩ hk, ih]

/-! ## Loops over the entries -/

/-- A loop over the entries of a dict, of which each turn touches only what belongs to its
own key: in the end each key has what its own turn made of it. -/
theorem foldl_entries {δ ω : Type*} {r : δ → α → ω} {f : Sigma β → ω → ω}
    {g : δ → Sigma β → δ} (hself : ∀ d e, r (g d e) e.1 = f e (r d e.1))
    (hother : ∀ d e x, x ≠ e.1 → r (g d e) x = r d x) (s : AList β) (d : δ) (x : α) :
    r (s.entries.foldl g d) x = match s.lookup x with
      | some b => f ⟨x, b⟩ (r d x)
      | none => r d x := by
  obtain ⟨l, h⟩ := s
  unfold AList.lookup
  dsimp only
  induction l generalizing d with
  | nil => simp
  | cons e l ih =>
    obtain ⟨k, b⟩ := e
    obtain ⟨hk, hl⟩ := List.nodupKeys_cons.mp h
    rw [List.foldl_cons, ih _ hl]
    by_cases hx : x = k
    · subst hx
      rw [List.dlookup_eq_none.mpr hk, List.dlookup_cons_eq]
      exact hself d ⟨x, b⟩
    · rw [hother d ⟨k, b⟩ x hx, List.dlookup_cons_ne _ ⟨k, b⟩ hx]

end dicts
