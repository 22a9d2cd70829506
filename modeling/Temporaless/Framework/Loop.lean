import Mathlib.Data.List.Basic
import Mathlib.Data.List.Pairwise

/-!
# Loops that stop at an error

A loop over a list whose body checks an element against the state and then updates it. It runs to its
end exactly if every element passes the check where its turn comes.
-/

namespace Loop

theorem guard_eq_ok {ε α : Type} {c : Prop} [Decidable c] {err : ε} {rest : Except ε α} {a : α} :
    (if c then .error err else rest) = .ok a ↔ ¬ c ∧ rest = .ok a := by
  by_cases hc : c <;> simp [hc]

theorem unless_eq_ok {ε α : Type} {c : Prop} [Decidable c] {err : ε} {rest : Except ε α} {a : α} :
    (if c then rest else .error err) = .ok a ↔ c ∧ rest = .ok a := by
  by_cases hc : c <;> simp [hc]

theorem bind_eq_ok {ε α β : Type} {first : Except ε α} {rest : α → Except ε β} {b : β} :
    (first >>= rest) = .ok b ↔ ∃ a, first = .ok a ∧ rest a = .ok b := by
  cases first with
  | error err => simp [bind, Except.bind]
  | ok a => simp [bind, Except.bind]

theorem forM_eq_ok {ε α : Type} {check : α → Except ε Unit} {l : List α} :
    l.forM check = .ok () ↔ ∀ a ∈ l, check a = .ok () := by
  induction l with
  | nil => simp [pure, Except.pure]
  | cons a l ih =>
    change (check a >>= fun _ => l.forM check) = .ok () ↔ _
    rw [bind_eq_ok, List.forall_mem_cons, ← ih]
    constructor
    · intro h
      obtain ⟨done, hcheck, hrest⟩ := h
      exact ⟨hcheck, hrest⟩
    · intro h
      exact ⟨(), h⟩

/-- Every error of the computation is as `P` says. -/
def Raises {ε α : Type} (P : ε → Prop) (r : Except ε α) : Prop := ∀ err, r = .error err → P err

section Raises

variable {ε ε' α β : Type} {P : ε → Prop} {r : Except ε α}

@[grind ←] theorem raises_ok (a : α) : Raises P (.ok a : Except ε α) := nofun

@[grind ←] theorem raises_error {err : ε} (h : P err) : Raises P (.error err : Except ε α) :=
  fun _ heq => Except.error.inj heq ▸ h

@[grind ←] theorem raises_pure (a : α) : Raises P (pure a : Except ε α) := raises_ok a

@[grind ←] theorem raises_throw {err : ε} (h : P err) : Raises P (throw err : Except ε α) := raises_error h

@[grind ←] theorem Raises.bind {rest : α → Except ε β} (h : Raises P r) (hrest : ∀ a, Raises P (rest a)) :
    Raises P (r >>= rest) := by
  cases r with
  | error err => exact raises_error (h err rfl)
  | ok a => exact hrest a

@[grind ←] theorem Raises.map (h : Raises P r) (f : α → β) : Raises P (r.map f) := by
  cases r with
  | error err => exact raises_error (h err rfl)
  | ok a => exact raises_ok _

theorem Raises.mapError {P' : ε' → Prop} {f : ε → ε'} (h : Raises P r)
    (hf : ∀ err, P err → P' (f err)) :
    Raises P' (r.mapError f) := by
  cases r with
  | error err => exact raises_error (hf err (h err rfl))
  | ok a => exact raises_ok a

end Raises

variable {ε σ α : Type} {step : σ → α → Except ε σ} {next : σ → α → σ} {passes : σ → α → Prop}

theorem foldlM_eq_ok {l : List α}
    (h : ∀ a ∈ l, ∀ s s', step s a = .ok s' ↔ passes s a ∧ next s a = s') (s s' : σ) :
    l.foldlM step s = .ok s' ↔
      l.foldl next s = s' ∧ ∀ before a after, l = before ++ a :: after →
        passes (before.foldl next s) a := by
  induction l generalizing s with
  | nil =>
    have hnone : ∀ (before : List α) a after, [] ≠ before ++ a :: after := by simp
    constructor
    · intro hok
      exact ⟨Except.ok.inj hok, fun before a after heq => absurd heq (hnone before a after)⟩
    · intro hok
      rw [← hok.1]
      rfl
  | cons a l ih =>
    have hbind : (a :: l).foldlM step s = .ok s' ↔
        ∃ s₁, step s a = .ok s₁ ∧ l.foldlM step s₁ = .ok s' := by
      rw [List.foldlM_cons, bind_eq_ok]
    have hrest : ∀ s, l.foldlM step s = .ok s' ↔ _ :=
      ih fun b hb => h b (List.mem_cons_of_mem _ hb)
    have hhere := h a List.mem_cons_self
    rw [hbind]
    constructor
    · intro hok
      obtain ⟨s₁, hstep, hloop⟩ := hok
      obtain ⟨hpass, rfl⟩ := (hhere s s₁).1 hstep
      obtain ⟨hlast, hall⟩ := (hrest (next s a)).1 hloop
      refine ⟨hlast, ?_⟩
      intro before b after heq
      cases before with
      | nil =>
        obtain ⟨rfl, -⟩ := List.cons.inj heq
        exact hpass
      | cons c before =>
        obtain ⟨rfl, hl⟩ := List.cons.inj heq
        exact hall before b after hl
    · intro hok
      refine ⟨next s a, (hhere s _).2 ⟨hok.2 [] a l rfl, rfl⟩, (hrest (next s a)).2 ⟨hok.1, ?_⟩⟩
      intro before b after heq
      exact hok.2 (a :: before) b after (by rw [heq]; rfl)

theorem foldl_eq {body : σ → α → σ} (after : List α → σ) {l : List α}
    (h : ∀ done a rest, l = done ++ a :: rest → body (after done) a = after (done ++ [a])) :
    l.foldl body (after []) = after l := by
  have hrest : ∀ rest done, l = done ++ rest → rest.foldl body (after done) = after l := by
    intro rest
    induction rest with
    | nil =>
      intro done hl
      rw [hl, List.append_nil, List.foldl_nil]
    | cons a rest ih =>
      intro done hl
      rw [List.foldl_cons, h done a rest hl]
      exact ih (done ++ [a]) (by rw [hl, List.append_assoc]; rfl)
  exact hrest l [] rfl

theorem forall_before_iff_pairwise {R : α → α → Prop} {l : List α} :
    (∀ before a after, l = before ++ a :: after → ∀ b ∈ before, R b a) ↔ l.Pairwise R := by
  constructor
  · intro h
    induction l with
    | nil => exact .nil
    | cons x l ih =>
      refine List.pairwise_cons.2 ⟨?_, ih ?_⟩
      · intro y hy
        obtain ⟨before, after, rfl⟩ := List.append_of_mem hy
        exact h (x :: before) y after rfl x (by simp)
      · intro before a after heq b hb
        exact h (x :: before) a after (by rw [heq]; rfl) b (by simp [hb])
  · intro h before a after heq b hb
    rw [heq, List.pairwise_append] at h
    exact h.2.2 b hb a (by simp)

theorem forall_middle_iff {p : α → Prop} {l : List α} :
    (∀ before a after, l = before ++ a :: after → p a) ↔ ∀ a ∈ l, p a := by
  constructor
  · intro h a ha
    obtain ⟨before, after, heq⟩ := List.append_of_mem ha
    exact h before a after heq
  · intro h before a after heq
    exact h a (by simp [heq])

end Loop
