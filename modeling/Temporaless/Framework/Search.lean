import Mathlib.Data.Fintype.Card

/-!
# Search with a stack

A depth-first search of a finite graph, which may have cycles, for a node that passes a test.
-/

namespace Search

variable {ι : Type} (links : ι → List ι) (test : ι → Bool)

def search [Fintype ι] [DecidableEq ι] (stack : List ι) (seen : Finset ι) : Bool :=
  match stack with
  | [] => false
  | x :: rest =>
    if x ∈ seen then search rest seen
    else if test x then true
    else search (links x ++ rest) (insert x seen)
termination_by (seenᶜ.card, stack.length)
decreasing_by
  · exact Prod.Lex.right _ (Nat.lt_succ_self _)
  · apply Prod.Lex.left
    exact Finset.card_lt_card (Finset.compl_ssubset_compl.2 (Finset.ssubset_insert ‹_›))

def Reaches : ι → ι → Prop := Relation.ReflTransGen fun x y => y ∈ links x

variable {links test} {stack : List ι} {seen : Finset ι}

theorem exists_stack_of_seen
    (hseen : ∀ x ∈ seen, test x = false ∧ ∀ y ∈ links x, y ∈ seen ∨ y ∈ stack) {x y : ι}
    (h : Reaches links x y) (hy : test y = true) (hx : x ∈ seen) : ∃ z ∈ stack, Reaches links z y := by
  induction h using Relation.ReflTransGen.head_induction_on with
  | refl => exact absurd hy (by simp [(hseen y hx).1])
  | head hlink hrest ih =>
    rcases (hseen _ hx).2 _ hlink with hmem | hmem
    · exact ih hmem
    · exact ⟨_, hmem, hrest⟩

theorem search_eq_true [Fintype ι] [DecidableEq ι]
    (hseen : ∀ x ∈ seen, test x = false ∧ ∀ y ∈ links x, y ∈ seen ∨ y ∈ stack) :
    search links test stack seen = true ↔ ∃ x ∈ stack, ∃ y, Reaches links x y ∧ test y = true := by
  fun_induction search links test stack seen with
  | case1 => simp
  | case2 seen x rest hx ih =>
    have hrest : ∀ z ∈ seen, test z = false ∧ ∀ y ∈ links z, y ∈ seen ∨ y ∈ rest := by grind
    rw [ih hrest]
    constructor
    · rintro ⟨z, hz, hfound⟩
      exact ⟨z, List.mem_cons_of_mem x hz, hfound⟩
    · rintro ⟨z, hz, y, hreach, hy⟩
      rcases List.mem_cons.1 hz with rfl | hz
      · obtain ⟨z', hz', hreach'⟩ := exists_stack_of_seen hrest hreach hy hx
        exact ⟨z', hz', y, hreach', hy⟩
      · exact ⟨z, hz, y, hreach, hy⟩
  | case3 seen x rest hx htest => simpa using Or.inl ⟨x, .refl, htest⟩
  | case4 seen x rest hx htest ih =>
    rw [ih (by grind)]
    constructor
    · rintro ⟨z, hz, y, hreach, hy⟩
      rcases List.mem_append.1 hz with hz | hz
      · exact ⟨x, List.mem_cons_self, y, hreach.head hz, hy⟩
      · exact ⟨z, List.mem_cons_of_mem x hz, y, hreach, hy⟩
    · rintro ⟨z, hz, y, hreach, hy⟩
      rcases List.mem_cons.1 hz with rfl | hz
      · rcases hreach.cases_head with rfl | ⟨w, hlink, hrest⟩
        · exact absurd hy htest
        · exact ⟨w, List.mem_append_left rest hlink, y, hrest, hy⟩
      · exact ⟨z, List.mem_append_right _ hz, y, hreach, hy⟩

end Search
