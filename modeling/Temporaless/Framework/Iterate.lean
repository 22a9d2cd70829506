import Mathlib.Data.List.Induction
import Temporaless.Framework.Loop

/-!
# Iterates of a partial function

A function that may fail, applied to its own results. Loops that step a variable through such a function
are iterates, whatever they call their errors.
-/

namespace Iterate

open Loop

variable {ε ε' α β : Type} {step : α → Except ε α} {a b c : α} {m n : Nat}

/-- The value after `n` steps. -/
def steps (step : α → Except ε α) : Nat → α → Except ε α
  | 0, a => .ok a
  | n + 1, a => steps step n a >>= step

theorem steps_succ_eq_ok :
    steps step (n + 1) a = .ok c ↔ ∃ b, steps step n a = .ok b ∧ step b = .ok c :=
  bind_eq_ok

theorem steps_of_le (h : m ≤ n) (hn : steps step n a = .ok c) : ∃ b, steps step m a = .ok b := by
  induction h generalizing c with
  | refl => exact ⟨c, hn⟩
  | step _ ih =>
    obtain ⟨b, hb, -⟩ := steps_succ_eq_ok.1 hn
    exact ih hb

theorem foldlM_eq_ok_iff_steps {body : α → β → Except ε' α} {l : List β}
    (h : ∀ x ∈ l, ∀ a b, body a x = .ok b ↔ step a = .ok b) :
    l.foldlM body a = .ok c ↔ steps step l.length a = .ok c := by
  induction l using List.reverseRecOn generalizing c with
  | nil => exact ⟨fun hc => congrArg Except.ok (Except.ok.inj hc), fun hc => congrArg pure (Except.ok.inj hc)⟩
  | append_singleton l x ih =>
    have hbody : ∀ y ∈ l, ∀ a b, body a y = .ok b ↔ step a = .ok b :=
      fun y hy => h y (List.mem_append_left _ hy)
    have hlast := h x (by simp)
    simp only [List.foldlM_append, List.foldlM_cons, List.foldlM_nil, bind_pure, bind_eq_ok, ih hbody, hlast,
      List.length_append, List.length_singleton, steps_succ_eq_ok]

end Iterate
