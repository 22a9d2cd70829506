import Mathlib.Data.List.AList

/-!
# Tables with a primary key

A table holds at most one row for each key. The statements that insert, delete and merge rows are
known by what they leave at each key.
-/

namespace Table

variable {κ ρ : Type} [DecidableEq κ]

def keep (p : κ → Bool) (t : AList fun _ : κ => ρ) : AList fun _ : κ => ρ :=
  ⟨t.entries.filter fun row => p row.1, t.nodupKeys.sublist List.filter_sublist⟩

theorem mem_entries {t : AList fun _ : κ => ρ} {key : κ} {row : ρ} :
    ⟨key, row⟩ ∈ t.entries ↔ t.lookup key = some row := AList.mem_lookup_iff.symm

theorem lookup_insert_if (t : AList fun _ : κ => ρ) (key key' : κ) (row : ρ) :
    (t.insert key' row).lookup key = if key = key' then some row else t.lookup key := by
  split
  next h =>
    subst h
    exact AList.lookup_insert t
  next h => exact AList.lookup_insert_ne h

end Table
