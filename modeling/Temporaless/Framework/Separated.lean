import Mathlib.Data.List.Basic

/-!
# Texts joined by a separator

Lists that do not contain the separator can be read back from their concatenation.
-/

namespace Separated

variable {α : Type}

theorem append_cons_inj {sep : α} {left left' rest rest' : List α} (h : sep ∉ left) (h' : sep ∉ left')
    (heq : left ++ sep :: rest = left' ++ sep :: rest') : left = left' ∧ rest = rest' := by
  induction left generalizing left' with
  | nil =>
    cases left' with
    | nil => exact ⟨rfl, (List.cons.inj heq).2⟩
    | cons x left' =>
      obtain ⟨rfl, -⟩ := List.cons.inj heq
      exact absurd List.mem_cons_self h'
  | cons x left ih =>
    cases left' with
    | nil =>
      obtain ⟨rfl, -⟩ := List.cons.inj heq
      exact absurd List.mem_cons_self h
    | cons y left' =>
      obtain ⟨rfl, htail⟩ := List.cons.inj heq
      obtain ⟨rfl, hrest⟩ := ih (fun hmem => h (List.mem_cons_of_mem _ hmem))
        (fun hmem => h' (List.mem_cons_of_mem _ hmem)) htail
      exact ⟨rfl, hrest⟩

theorem append_cons_inj_last {sep : α} {left left' rest rest' : List α} (h : sep ∉ rest)
    (h' : sep ∉ rest') (heq : left ++ sep :: rest = left' ++ sep :: rest') :
    left = left' ∧ rest = rest' := by
  have hreverse : rest.reverse ++ sep :: left.reverse = rest'.reverse ++ sep :: left'.reverse := by
    simpa using congrArg List.reverse heq
  obtain ⟨hrest, hleft⟩ := append_cons_inj (by simpa using h) (by simpa using h') hreverse
  exact ⟨List.reverse_injective hleft, List.reverse_injective hrest⟩

/-- Fields, each followed by the separator, and a rest. -/
def joined (sep : α) (fields : List (List α)) (rest : List α) : List α :=
  fields.foldr (fun field rest => field ++ sep :: rest) rest

theorem joined_inj {sep : α} {fields fields' : List (List α)} {rest rest' : List α}
    (hcount : fields.length = fields'.length) (h : ∀ field ∈ fields, sep ∉ field)
    (h' : ∀ field ∈ fields', sep ∉ field) (heq : joined sep fields rest = joined sep fields' rest') :
    fields = fields' ∧ rest = rest' := by
  induction fields generalizing fields' with
  | nil =>
    cases fields' with
    | nil => exact ⟨rfl, heq⟩
    | cons field' fields' => simp at hcount
  | cons field fields ih =>
    cases fields' with
    | nil => simp at hcount
    | cons field' fields' =>
      rw [List.forall_mem_cons] at h h'
      obtain ⟨rfl, htail⟩ := append_cons_inj h.1 h'.1 heq
      obtain ⟨rfl, hrest⟩ := ih (by simpa using hcount) h.2 h'.2 htail
      exact ⟨rfl, hrest⟩

end Separated
