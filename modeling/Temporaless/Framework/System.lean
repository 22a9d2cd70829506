import Mathlib.Logic.Relation
import Temporaless.Framework.Program

/-!
# Systems of interrupted processes

A system has one process for each index. A process may begin a program, perform the next call of its
program, return, or crash. A rely-guarantee rule reduces a property of every interleaving to one
weakest precondition for each program that a process may begin.
-/

namespace Effects

/-- The moves of the processes `ι` over the shared state `S`. -/
structure System (σ : Signature) (ι S α : Type) where
  begins : ι → S → Program σ α → S → Prop
  acts : ι → S → (op : σ.Op) → σ.Reply op → S → Prop
  returns : ι → S → α → S → Prop
  crashes : ι → S → S → Prop

/-- The program each busy process has left to run, and the shared state. -/
structure Config (σ : Signature) (ι S α : Type) where
  procs : ι → Option (Program σ α)
  state : S

namespace System

variable {σ : Signature} {ι S α : Type} [DecidableEq ι]

/-- One process begins, acts, returns or crashes. -/
inductive Step (M : System σ ι S α) : Config σ ι S α → Config σ ι S α → Prop where
  | begins {c : Config σ ι S α} {i : ι} {p : Program σ α} {s' : S} (hi : c.procs i = none)
      (h : M.begins i c.state p s') : Step M c ⟨Function.update c.procs i (some p), s'⟩
  | acts {c : Config σ ι S α} {i : ι} {op : σ.Op} {next : σ.Reply op → Program σ α}
      {r : σ.Reply op} {s' : S} (hi : c.procs i = some (.call op next))
      (h : M.acts i c.state op r s') : Step M c ⟨Function.update c.procs i (some (next r)), s'⟩
  | returns {c : Config σ ι S α} {i : ι} {a : α} {s' : S} (hi : c.procs i = some (.done a))
      (h : M.returns i c.state a s') : Step M c ⟨Function.update c.procs i none, s'⟩
  | crashes {c : Config σ ι S α} {i : ι} {p : Program σ α} {s' : S} (hi : c.procs i = some p)
      (h : M.crashes i c.state s') : Step M c ⟨Function.update c.procs i none, s'⟩

/-- The configurations of all runs that start idle in a state satisfying `Init`. -/
def Reachable (M : System σ ι S α) (Init : S → Prop) (c : Config σ ι S α) : Prop :=
  ∃ s₀, Init s₀ ∧ Relation.ReflTransGen M.Step ⟨fun _ => none, s₀⟩ c

/-- A rely-guarantee proof outline: an invariant of the shared state, for every process what it
relies on and what it guarantees at each call, and what holds when it returns. -/
structure Outline (M : System σ ι S α) (Init : S → Prop) where
  Inv : S → Prop
  Rely : ι → S → S → Prop
  Guar : ι → S → (op : σ.Op) → σ.Reply op → S → Prop
  Post : ι → α → S → Prop
  init : ∀ s, Init s → Inv s
  trans : ∀ i s s' s'', Rely i s s' → Rely i s' s'' → Rely i s s''
  stable : ∀ i a s s', Post i a s → Rely i s s' → Post i a s'
  begins : ∀ i s p s', Inv s → M.begins i s p s' → Inv s' ∧ (∀ j, j ≠ i → Rely j s s') ∧
    p.wp (.amid Inv (fun s s' => s = s' ∨ Rely i s s') (M.acts i) (Guar i)) (Post i) s'
  acts : ∀ i s op r s', Inv s → M.acts i s op r s' → Guar i s op r s' →
    Inv s' ∧ ∀ j, j ≠ i → Rely j s s'
  returns : ∀ i s a s', Inv s → Post i a s → M.returns i s a s' →
    Inv s' ∧ ∀ j, j ≠ i → Rely j s s'
  crashes : ∀ i s s', Inv s → M.crashes i s s' → Inv s' ∧ ∀ j, j ≠ i → Rely j s s'

namespace Outline

variable {M : System σ ι S α} {Init : S → Prop} (O : Outline M Init)

/-- What is left of the program of process `i` is still safe under interference. -/
def Safe (i : ι) (p : Program σ α) (s : S) : Prop :=
  p.wp (.amid O.Inv (fun s s' => s = s' ∨ O.Rely i s s') (M.acts i) (O.Guar i)) (O.Post i) s

omit [DecidableEq ι] in
theorem safe_stable {i : ι} {p : Program σ α} {s s' : S} (hp : O.Safe i p s)
    (hR : O.Rely i s s') : O.Safe i p s' := by
  cases p with
  | done a => exact O.stable i a s s' hp hR
  | call op next =>
    intro s₁ h₁ hI r s₂ hstep
    refine hp s₁ (Or.inr ?_) hI r s₂ hstep
    rcases h₁ with rfl | h₁
    · exact hR
    · exact O.trans i s s' s₁ hR h₁

/-- A configuration all of whose processes are safe in a state satisfying the invariant. -/
structure Good (c : Config σ ι S α) : Prop where
  inv : O.Inv c.state
  safe : ∀ i p, c.procs i = some p → O.Safe i p c.state

private theorem good_update {c : Config σ ι S α} (hc : O.Good c) (i : ι)
    (q : Option (Program σ α)) (s' : S) (hI : O.Inv s') (hR : ∀ j, j ≠ i → O.Rely j c.state s')
    (hq : ∀ p, q = some p → O.Safe i p s') : O.Good ⟨Function.update c.procs i q, s'⟩ := by
  refine ⟨hI, fun j p hp => ?_⟩
  by_cases hji : j = i
  · subst j
    exact hq p (by simpa using hp)
  · have hpj : c.procs j = some p := by simpa [hji] using hp
    exact O.safe_stable (hc.safe j p hpj) (hR j hji)

theorem good_step {c c' : Config σ ι S α} (hc : O.Good c) (h : M.Step c c') : O.Good c' := by
  cases h with
  | begins hi h =>
    obtain ⟨hI, hR, hwp⟩ := O.begins _ _ _ _ hc.inv h
    exact O.good_update hc _ _ _ hI hR (by rintro p ⟨⟩; exact hwp)
  | acts hi h =>
    obtain ⟨hG, hnext⟩ := hc.safe _ _ hi _ (Or.inl rfl) hc.inv _ _ h
    obtain ⟨hI, hR⟩ := O.acts _ _ _ _ _ hc.inv h hG
    exact O.good_update hc _ _ _ hI hR (by rintro p ⟨⟩; exact hnext)
  | returns hi h =>
    obtain ⟨hI, hR⟩ := O.returns _ _ _ _ hc.inv (hc.safe _ _ hi) h
    exact O.good_update hc _ _ _ hI hR (by rintro p ⟨⟩)
  | crashes hi h =>
    obtain ⟨hI, hR⟩ := O.crashes _ _ _ hc.inv h
    exact O.good_update hc _ _ _ hI hR (by rintro p ⟨⟩)

theorem good_of_reachable {c : Config σ ι S α} (h : M.Reachable Init c) : O.Good c := by
  obtain ⟨s₀, h₀, hsteps⟩ := h
  induction hsteps with
  | refl => exact ⟨O.init s₀ h₀, by rintro i p ⟨⟩⟩
  | tail _ hstep ih => exact O.good_step ih hstep

theorem guar_of_reachable {c : Config σ ι S α} (h : M.Reachable Init c) {i : ι} {op : σ.Op}
    {next : σ.Reply op → Program σ α} (hi : c.procs i = some (.call op next)) {r : σ.Reply op}
    {s' : S} (hs : M.acts i c.state op r s') : O.Guar i c.state op r s' :=
  let hc := O.good_of_reachable h
  (hc.safe i _ hi c.state (Or.inl rfl) hc.inv r s' hs).1

theorem post_of_reachable {c : Config σ ι S α} (h : M.Reachable Init c) {i : ι} {a : α}
    (hi : c.procs i = some (.done a)) : O.Post i a c.state :=
  (O.good_of_reachable h).safe i _ hi

end Outline

/-- Process `i` performs its next call, if it has one and `move` answers it. -/
def turn (move : (i : ι) → S → (op : σ.Op) → Option (σ.Reply op × S)) (c : Config σ ι S α)
    (i : ι) : Config σ ι S α :=
  match c.procs i with
  | some (.call op next) =>
    match move i c.state op with
    | some (r, s') => ⟨Function.update c.procs i (some (next r)), s'⟩
    | none => c
  | _ => c

theorem steps_of_turns {M : System σ ι S α}
    {move : (i : ι) → S → (op : σ.Op) → Option (σ.Reply op × S)}
    (hmove : ∀ i s op r s', move i s op = some (r, s') → M.acts i s op r s')
    (c : Config σ ι S α) (schedule : List ι) :
    Relation.ReflTransGen M.Step c (schedule.foldl (turn move) c) := by
  induction schedule generalizing c with
  | nil => exact .refl
  | cons i schedule ih =>
    refine Relation.ReflTransGen.trans ?_ (ih (turn move c i))
    rcases hi : c.procs i with _ | (a | ⟨op, next⟩)
    · simp only [turn, hi]
      exact .refl
    · simp only [turn, hi]
      exact .refl
    · rcases hr : move i c.state op with _ | ⟨r, s'⟩
      · simp only [turn, hi, hr]
        exact .refl
      · simp only [turn, hi, hr]
        exact .single (.acts hi (hmove i c.state op r s' hr))

end System

end Effects
