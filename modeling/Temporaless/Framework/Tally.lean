import Mathlib.Algebra.Order.BigOperators.Group.Finset
import Mathlib.Data.Fintype.BigOperators

/-!
# Counting processes

Finitely many processes, each at some place. A weight of the places gives a sum over all processes, and
when one process moves, the sum changes by the weights of the two places.
-/

namespace Tally

variable {ι α : Type} [Fintype ι] {w w' : α → Nat} {f : ι → α}

def tally (w : α → Nat) (f : ι → α) : Nat := ∑ i, w (f i)

theorem tally_update [DecidableEq ι] (w : α → Nat) (f : ι → α) (i : ι) (a : α) :
    tally w (Function.update f i a) + w (f i) = tally w f + w a := by
  have hrest : ∑ j ∈ Finset.univ.erase i, w (Function.update f i a j) = ∑ j ∈ Finset.univ.erase i, w (f j) := by
    apply Finset.sum_congr rfl
    intro j hj
    rw [Function.update_of_ne (Finset.ne_of_mem_erase hj)]
  have hnew := Finset.add_sum_erase Finset.univ (fun j => w (Function.update f i a j)) (Finset.mem_univ i)
  have hold := Finset.add_sum_erase Finset.univ (fun j => w (f j)) (Finset.mem_univ i)
  simp only [Function.update_self] at hnew
  rw [tally, tally, ← hnew, ← hold, hrest]
  omega

theorem le_tally (w : α → Nat) (f : ι → α) (i : ι) : w (f i) ≤ tally w f :=
  Finset.single_le_sum (f := fun j => w (f j)) (fun _ _ => Nat.zero_le _) (Finset.mem_univ i)

theorem tally_eq_zero : tally w f = 0 ↔ ∀ i, w (f i) = 0 := by
  simp [tally]

end Tally
