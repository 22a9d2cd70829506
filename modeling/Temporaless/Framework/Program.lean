import Mathlib.Logic.Function.Basic

/-!
# Effectful programs

A program is a tree of calls to an interface. The rest of the program may depend on the reply to a
call, so that the points between two calls are exactly those at which a process can be interrupted.
Weakest preconditions are taken over a specification of single calls.
-/

namespace Effects

/-- An interface: its operations and the type of the reply to each of them. -/
structure Signature where
  Op : Type
  Reply : Op → Type

/-- Programs over an interface, with a result of type `α`. -/
inductive Program (σ : Signature) (α : Type) : Type where
  | done (value : α)
  | call (op : σ.Op) (next : σ.Reply op → Program σ α)

namespace Program

variable {σ : Signature} {α β γ S : Type}

protected def bind : Program σ α → (α → Program σ β) → Program σ β
  | .done a, f => f a
  | .call op next, f => .call op fun r => (next r).bind f

instance : Monad (Program σ) where
  pure := .done
  bind := Program.bind

theorem bind_done (p : Program σ α) : p.bind .done = p := by
  induction p with
  | done a => rfl
  | call op next ih => exact congrArg (Program.call op) (funext ih)

theorem bind_bind (p : Program σ α) (f : α → Program σ β) (g : β → Program σ γ) :
    (p.bind f).bind g = p.bind fun a => (f a).bind g := by
  induction p with
  | done a => rfl
  | call op next ih => exact congrArg (Program.call op) (funext ih)

instance : LawfulMonad (Program σ) :=
  LawfulMonad.mk' (Program σ) bind_done (fun _ _ => rfl) bind_bind

@[simp] theorem bind_eq_bind (p : Program σ α) (f : α → Program σ β) : p >>= f = p.bind f := rfl

@[simp] theorem call_bind (op : σ.Op) (next : σ.Reply op → Program σ α) (f : α → Program σ β) :
    (Program.call op next).bind f = .call op fun r => (next r).bind f := rfl

end Program

/-- What one call guarantees, as a transformer of a condition on its reply and the state after
it into a condition on the state before it. -/
structure CallSpec (σ : Signature) (S : Type) where
  pre : (op : σ.Op) → (σ.Reply op → S → Prop) → S → Prop
  mono : ∀ (op : σ.Op) (Q Q' : σ.Reply op → S → Prop), (∀ r s, Q r s → Q' r s) →
    ∀ s, pre op Q s → pre op Q' s

namespace CallSpec

variable {σ : Signature} {S : Type}

/-- Calls answered by the relation `H`, each step of which has to satisfy `G`. -/
def steps (H G : S → (op : σ.Op) → σ.Reply op → S → Prop) : CallSpec σ S where
  pre op Q s := ∀ r s', H s op r s' → G s op r s' ∧ Q r s'
  mono _ _ _ h _ hp r s' hs := ⟨(hp r s' hs).1, h r s' (hp r s' hs).2⟩

/-- Calls answered by `H` after the environment has moved by `R` to a state satisfying `I`. -/
def amid (I : S → Prop) (R : S → S → Prop) (H G : S → (op : σ.Op) → σ.Reply op → S → Prop) :
    CallSpec σ S where
  pre op Q s := ∀ s₁, R s s₁ → I s₁ → ∀ r s', H s₁ op r s' → G s₁ op r s' ∧ Q r s'
  mono _ _ _ h _ hp s₁ hR hI r s' hs :=
    ⟨(hp s₁ hR hI r s' hs).1, h r s' (hp s₁ hR hI r s' hs).2⟩

/-- The rule of one call amid others: a condition that the environment cannot falsify holds when
the call is answered. -/
theorem amid_pre {I : S → Prop} {R : S → S → Prop}
    {H G : S → (op : σ.Op) → σ.Reply op → S → Prop} {op : σ.Op} {Q : σ.Reply op → S → Prop}
    {s : S} (P : S → Prop) (hs : P s) (hstable : ∀ s s', P s → R s s' → P s')
    (h : ∀ s, I s → P s → ∀ r s', H s op r s' → G s op r s' ∧ Q r s') :
    (amid I (fun s s' => s = s' ∨ R s s') H G).pre op Q s := by
  intro s₁ hmoved hI r s' hstep
  refine h s₁ hI ?_ r s' hstep
  cases hmoved with
  | inl hsame => exact hsame ▸ hs
  | inr hmoved => exact hstable s s₁ hs hmoved

/-- Only the operations satisfying `P` are called; their replies are arbitrary. -/
def only (P : σ.Op → Prop) : CallSpec σ Unit where
  pre op Q s := P op ∧ ∀ r, Q r s
  mono _ _ _ h s hp := ⟨hp.1, fun r => h r s (hp.2 r)⟩

end CallSpec

namespace Program

variable {σ : Signature} {α β S : Type}

/-- The weakest condition under which every run of the program meets the specification of its
calls and returns with `Q`. -/
def wp (F : CallSpec σ S) : Program σ α → (α → S → Prop) → S → Prop
  | .done a, Q, s => Q a s
  | .call op next, Q, s => F.pre op (fun r s' => (next r).wp F Q s') s

variable {F : CallSpec σ S} {Q Q' : α → S → Prop} {s : S}

@[simp] theorem wp_done (a : α) : (Program.done a).wp F Q s = Q a s := rfl

@[simp] theorem wp_call (op : σ.Op) (next : σ.Reply op → Program σ α) :
    (Program.call op next).wp F Q s = F.pre op (fun r s' => (next r).wp F Q s') s := rfl

theorem wp_mono (p : Program σ α) (h : ∀ a s, Q a s → Q' a s) (hp : p.wp F Q s) : p.wp F Q' s := by
  induction p generalizing s with
  | done a => exact h a s hp
  | call op next ih => exact F.mono op _ _ (fun r s' hr => ih r hr) s hp

@[simp] theorem wp_bind (p : Program σ α) (f : α → Program σ β) (Q : β → S → Prop) :
    (p.bind f).wp F Q s = p.wp F (fun a s' => (f a).wp F Q s') s := by
  induction p generalizing s with
  | done a => rfl
  | call op next ih =>
    simp only [call_bind, wp_call]
    congr 1
    funext r s'
    exact ih r

theorem wp_steps_mono {H G G' : S → (op : σ.Op) → σ.Reply op → S → Prop} (p : Program σ α)
    (hG : ∀ s op r s', G s op r s' → G' s op r s') (h : ∀ a s, Q a s → Q' a s)
    (hp : p.wp (.steps H G) Q s) : p.wp (.steps H G') Q' s := by
  induction p generalizing s with
  | done a => exact h a s hp
  | call op next ih =>
    intro r s' hstep
    obtain ⟨hcall, hnext⟩ := hp r s' hstep
    exact ⟨hG s op r s' hcall, ih r hnext⟩

/-- Every operation the program can call satisfies `P`. -/
def Calls (P : σ.Op → Prop) (p : Program σ α) : Prop := p.wp (.only P) (fun _ _ => True) ()

variable {P : σ.Op → Prop} {p : Program σ α}

theorem Calls.bind {f : α → Program σ β} (hp : p.Calls P)
    (hf : ∀ a, (f a).Calls P) : (p.bind f).Calls P := by
  induction p with
  | done a => exact hf a
  | call op next ih => exact ⟨hp.1, fun r => ih r (hp.2 r)⟩

theorem Calls.imp {P' : σ.Op → Prop} (h : ∀ op, P op → P' op) (hp : p.Calls P) : p.Calls P' := by
  induction p with
  | done a => trivial
  | call op next ih => exact ⟨h op hp.1, fun r => ih r (hp.2 r)⟩

/-- A program that only calls operations satisfying `P` meets every specification that those
operations meet while keeping `I`. -/
theorem Calls.wp {I : S → Prop} (hp : p.Calls P)
    (h : ∀ op, P op → ∀ s, I s → F.pre op (fun _ s' => I s') s) (hs : I s) :
    p.wp F (fun _ s' => I s') s := by
  induction p generalizing s with
  | done a => exact hs
  | call op next ih =>
    exact F.mono op _ _ (fun r s' hr => ih r (hp.2 r) hr) s (h op hp.1 s hs)

/-- Run a program against a deterministic environment. -/
def exec (h : S → (op : σ.Op) → σ.Reply op × S) : Program σ α → S → α × S
  | .done a, s => (a, s)
  | .call op next, s => (next (h s op).1).exec h (h s op).2

variable {h : S → (op : σ.Op) → σ.Reply op × S}

@[simp] theorem exec_call (op : σ.Op) (next : σ.Reply op → Program σ α) :
    (Program.call op next).exec h s = (next (h s op).1).exec h (h s op).2 := rfl

@[simp] theorem exec_bind (p : Program σ α) (f : α → Program σ β) :
    (p.bind f).exec h s = (f (p.exec h s).1).exec h (p.exec h s).2 := by
  induction p generalizing s with
  | done a => rfl
  | call op next ih => exact ih _

/-- The state after the first `n` calls of a program, where an interruption leaves it. -/
def cut (h : S → (op : σ.Op) → σ.Reply op × S) : Nat → Program σ α → S → S
  | 0, _, s => s
  | _ + 1, .done _, s => s
  | n + 1, .call op next, s => (next (h s op).1).cut h n (h s op).2

@[simp] theorem cut_done (n : Nat) (a : α) : (Program.done a).cut h n s = s := by cases n <;> rfl

theorem wp.exec {G : S → (op : σ.Op) → σ.Reply op → S → Prop}
    (hp : p.wp (.steps (fun s op r s' => h s op = (r, s')) G) Q s) :
    Q (p.exec h s).1 (p.exec h s).2 := by
  induction p generalizing s with
  | done a => exact hp
  | call op next ih => exact ih _ (hp _ _ rfl).2

theorem wp.cut {I : S → Prop}
    (hp : p.wp (.steps (fun s op r s' => h s op = (r, s')) fun _ _ _ s' => I s') Q s) (hs : I s)
    (n : Nat) : I (p.cut h n s) := by
  induction p generalizing s n with
  | done a => simpa using hs
  | call op next ih =>
    cases n with
    | zero => exact hs
    | succ n =>
      obtain ⟨hI, hnext⟩ := hp _ _ rfl
      exact ih _ hnext hI n

/-- What is left of a program, and the state, after some of its calls. -/
inductive Reaches (H : S → (op : σ.Op) → σ.Reply op → S → Prop) :
    Program σ α → S → Program σ α → S → Prop where
  | here (p : Program σ α) (s : S) : Reaches H p s p s
  | call {op : σ.Op} {next : σ.Reply op → Program σ α} {q : Program σ α} {r : σ.Reply op} {s s' s'' : S}
      (h : H s op r s') (hrest : Reaches H (next r) s' q s'') : Reaches H (.call op next) s q s''

theorem wp.reaches {H : S → (op : σ.Op) → σ.Reply op → S → Prop} {I : S → Prop} {q : Program σ α}
    {s' : S}
    (hp : p.wp (.steps H fun s _ _ s' => I s → I s') Q s) (h : Reaches H p s q s') :
    (I s → I s') ∧ q.wp (.steps H fun s _ _ s' => I s → I s') Q s' := by
  induction h with
  | here p s => exact ⟨fun hs => hs, hp⟩
  | call hstep _ ih =>
    obtain ⟨hkeep, hnext⟩ := hp _ _ hstep
    obtain ⟨hrest, hq⟩ := ih hnext
    exact ⟨fun hs => hrest (hkeep hs), hq⟩

theorem reaches_exec {H : S → (op : σ.Op) → σ.Reply op → S → Prop}
    (hH : ∀ s op, H s op (h s op).1 (h s op).2) :
    Reaches H p s (.done (p.exec h s).1) (p.exec h s).2 := by
  induction p generalizing s with
  | done a => exact .here _ s
  | call op next ih => exact .call (hH s op) (ih _)

theorem Calls.wp_exec {I : S → Prop} (hp : p.Calls P)
    (hread : ∀ op, P op → ∀ s, (h s op).2 = s) (hs : I s) (hQ : Q (p.exec h s).1 s) :
    p.wp (.steps (fun s op r s' => h s op = (r, s')) fun _ _ _ s' => I s') Q s := by
  induction p with
  | done a => exact hQ
  | call op next ih =>
    intro r s' hstep
    have hs' : s' = s := by rw [← hread op hp.1 s, hstep]
    have hr : r = (h s op).1 := by rw [hstep]
    subst hs' hr
    refine ⟨hs, ih _ (hp.2 _) ?_⟩
    have : (h s' op).2 = s' := hread op hp.1 s'
    rwa [exec_call, this] at hQ

theorem Calls.exec_state (hp : p.Calls P)
    (hread : ∀ op, P op → ∀ s, (h s op).2 = s) : (p.exec h s).2 = s := by
  induction p with
  | done a => rfl
  | call op next ih =>
    rw [exec_call, hread op hp.1 s]
    exact ih _ (hp.2 _)

section Hoist

variable {τ : Signature} {f : σ.Op → τ.Op} {reply : (op : σ.Op) → τ.Reply (f op) → σ.Reply op}

/-- The program over an interface that answers the operations of the given one. -/
def hoist (f : σ.Op → τ.Op) (reply : (op : σ.Op) → τ.Reply (f op) → σ.Reply op) :
    Program σ α → Program τ α
  | .done a => .done a
  | .call op next => .call (f op) fun r => (next (reply op r)).hoist f reply

def restrict (F : CallSpec τ S) (f : σ.Op → τ.Op)
    (reply : (op : σ.Op) → τ.Reply (f op) → σ.Reply op) : CallSpec σ S where
  pre op Q s := F.pre (f op) (fun r s' => Q (reply op r) s') s
  mono op _ _ h := F.mono (f op) _ _ fun r s' => h (reply op r) s'

theorem wp_hoist {F : CallSpec τ S} (p : Program σ α) :
    (p.hoist f reply).wp F Q s ↔ p.wp (restrict F f reply) Q s := by
  induction p generalizing s with
  | done a => exact Iff.rfl
  | call op next ih =>
    constructor
    · intro h
      exact F.mono _ _ _ (fun r s' hr => (ih _).1 hr) s h
    · intro h
      exact F.mono _ _ _ (fun r s' hr => (ih _).2 hr) s h

theorem Calls.hoist {P : τ.Op → Prop} (h : p.Calls fun op => P (f op)) :
    (p.hoist f reply).Calls P := by
  induction p with
  | done a => trivial
  | call op next ih => exact ⟨h.1, fun r => ih _ (h.2 _)⟩

variable (f reply h) in
theorem exec_hoist {T : Type} (h' : T → (op : τ.Op) → τ.Reply op × T) (embed : S → T)
    (hstep : ∀ s op, reply op (h' (embed s) (f op)).1 = (h s op).1 ∧
      (h' (embed s) (f op)).2 = embed (h s op).2) (p : Program σ α) (s : S) :
    (p.hoist f reply).exec h' (embed s) = ((p.exec h s).1, embed (p.exec h s).2) := by
  induction p generalizing s with
  | done a => rfl
  | call op next ih =>
    obtain ⟨hreply, hstate⟩ := hstep s op
    rw [Program.hoist, exec_call, exec_call, hreply, hstate]
    exact ih _ _

end Hoist

end Program

open Program

variable {σ : Signature} {ε α β S : Type} {F : CallSpec σ S} {P : σ.Op → Prop} {s : S}
  {h : S → (op : σ.Op) → σ.Reply op × S}

/-- The outcome of a program that may fail, for the caller to inspect. -/
def attempt (p : ExceptT ε (Program σ) α) : ExceptT ε (Program σ) (Except ε α) :=
  ExceptT.mk (p.run.bind fun outcome => .done (.ok outcome))

@[simp] theorem run_attempt (p : ExceptT ε (Program σ) α) :
    (attempt p).run = p.run.bind fun outcome => .done (.ok outcome) := rfl

/-- The weakest precondition of a program that ends with a result or an error. -/
def ends (F : CallSpec σ S) (code : ExceptT ε (Program σ) α) (Q : Except ε α → S → Prop)
    (s : S) : Prop := code.run.wp F Q s

section Ends

variable {code : ExceptT ε (Program σ) α} {Q Q' : Except ε α → S → Prop}

theorem ends.mono (h : ends F code Q s) (hQ : ∀ r s, Q r s → Q' r s) : ends F code Q' s :=
  wp_mono code.run hQ h

theorem ends.done {R : β → S → Prop} {f : Except ε α → β} (h : ends F code Q s)
    (hR : ∀ r s', Q r s' → R (f r) s') : (code.run.bind fun r => .done (f r)).wp F R s := by
  rw [wp_bind]
  exact h.mono hR

theorem ends_mk {p : Program σ (Except ε α)} : ends F (ExceptT.mk p) Q s ↔ p.wp F Q s := Iff.rfl

theorem ends_iff_wp : ends F code Q s ↔ code.run.wp F Q s := Iff.rfl

theorem ends_pure {a : α} : ends F (pure a : ExceptT ε (Program σ) α) Q s ↔ Q (.ok a) s := Iff.rfl

theorem ends_throw {err : ε} :
    ends F (throw err : ExceptT ε (Program σ) α) Q s ↔ Q (.error err) s := Iff.rfl

variable {next : α → ExceptT ε (Program σ) β}

theorem ends_bind {Q : Except ε β → S → Prop} :
    ends F (code >>= next) Q s ↔ ends F code (fun
      | .ok a, s' => ends F (next a) Q s'
      | .error err, s' => Q (.error err) s') s := by
  rw [ends, ExceptT.run_bind, bind_eq_bind, wp_bind]
  refine iff_of_eq (congrArg (fun Q' => wp F code.run Q' s) ?_)
  funext r s'
  cases r <;> rfl

theorem ends_map {f : α → β} {Q : Except ε β → S → Prop} :
    ends F (f <$> code) Q s ↔ ends F code (fun r s' => Q (r.map f) s') s := by
  rw [map_eq_pure_bind, ends_bind]
  refine iff_of_eq (congrArg (fun Q' => ends F code Q' s) ?_)
  funext r s'
  cases r <;> rfl

theorem ends_attempt {Q : Except ε (Except ε α) → S → Prop} :
    ends F (attempt code) Q s ↔ ends F code (fun r s' => Q (.ok r) s') s := by
  rw [ends, run_attempt, wp_bind]
  rfl

theorem ends_liftExcept {r : Except ε α} :
    ends F (liftM r : ExceptT ε (Program σ) α) Q s ↔ Q r s := by
  cases r <;> rfl

theorem liftOk_bind (a : α) (next : α → ExceptT ε (Program σ) β) :
    (liftM (Except.ok a : Except ε α) : ExceptT ε (Program σ) α) >>= next = next a := rfl

theorem liftError_bind (err : ε) (next : α → ExceptT ε (Program σ) β) :
    (liftM (Except.error err : Except ε α) : ExceptT ε (Program σ) α) >>= next = throw err := rfl

theorem ends_hoist {τ : Signature} {F : CallSpec τ S} {f : σ.Op → τ.Op}
    {reply : (op : σ.Op) → τ.Reply (f op) → σ.Reply op} :
    ends F (ExceptT.mk (code.run.hoist f reply)) Q s ↔ ends (restrict F f reply) code Q s :=
  wp_hoist code.run

theorem ends_of_calls {I : S → Prop} (h : code.run.Calls P)
    (hP : ∀ op, P op → ∀ s, I s → F.pre op (fun _ s' => I s') s) (hs : I s) :
    ends F code (fun _ s' => I s') s := Calls.wp h hP hs

theorem Program.Calls.bindExcept
    (h : code.run.Calls P) (hnext : ∀ a, (next a).run.Calls P) : (code >>= next).run.Calls P := by
  apply Calls.bind h
  intro r
  cases r with
  | error err => exact trivial
  | ok a => exact hnext a

theorem calls_liftExcept (P : σ.Op → Prop) (r : Except ε α) :
    (liftM r : ExceptT ε (Program σ) α).run.Calls P := by
  cases r <;> exact trivial

theorem calls_liftExcept_bind {r : Except ε α} (h : ∀ a, r = .ok a → (next a).run.Calls P) :
    (liftM r >>= next).run.Calls P := by
  cases r with
  | error err => exact trivial
  | ok a => exact h a rfl

/-- The code leaves `I` as it finds it, however it ends. -/
def Preserves (F : CallSpec σ S) (I : S → Prop) (code : ExceptT ε (Program σ) α) : Prop :=
  ∀ s, I s → ends F code (fun _ s' => I s') s

variable {I : S → Prop}

theorem ends.bind_preserves
    (h : ends F code (fun _ s' => I s') s) (hnext : ∀ a, Preserves F I (next a)) :
    ends F (code >>= next) (fun _ s' => I s') s := by
  apply ends_bind.2
  apply h.mono
  intro r s' hs'
  cases r with
  | error err => exact hs'
  | ok a => exact hnext a s' hs'

theorem Preserves.bind (h : Preserves F I code)
    (hnext : ∀ a, Preserves F I (next a)) : Preserves F I (code >>= next) :=
  fun s hs => (h s hs).bind_preserves hnext

theorem Preserves.attempt (h : Preserves F I code) : Preserves F I (attempt code) :=
  fun s hs => ends_attempt.2 (h s hs)

theorem preserves_pure (a : α) : Preserves F I (pure a : ExceptT ε (Program σ) α) :=
  fun _ hs => ends_pure.2 hs

theorem preserves_throw (err : ε) : Preserves F I (throw err : ExceptT ε (Program σ) α) :=
  fun _ hs => ends_throw.2 hs

end Ends

attribute [irreducible] ends

section Execute

/-- Run a program that may fail against a deterministic environment. -/
def execute (h : S → (op : σ.Op) → σ.Reply op × S) (code : ExceptT ε (Program σ) α) (s : S) :
    Except ε α × S := code.run.exec h s

variable {code : ExceptT ε (Program σ) α} {s' : S}

@[simp] theorem execute_pure (a : α) :
    execute h (pure a : ExceptT ε (Program σ) α) s = (.ok a, s) := rfl

theorem execute_bind (code : ExceptT ε (Program σ) α) (next : α → ExceptT ε (Program σ) β) :
    execute h (code >>= next) s = match execute h code s with
      | (.ok a, s') => execute h (next a) s'
      | (.error err, s') => (.error err, s') := by
  rw [execute, ExceptT.run_bind, bind_eq_bind, exec_bind, execute]
  rcases exec h code.run s with ⟨err | a, s'⟩ <;> rfl

theorem execute_bind_ok {a : α} (next : α → ExceptT ε (Program σ) β)
    (hcode : execute h code s = (.ok a, s')) :
    execute h (code >>= next) s = execute h (next a) s' := by rw [execute_bind, hcode]

theorem execute_bind_error {err : ε} (next : α → ExceptT ε (Program σ) β)
    (hcode : execute h code s = (.error err, s')) :
    execute h (code >>= next) s = (.error err, s') := by rw [execute_bind, hcode]

@[simp] theorem execute_map (f : α → β) (code : ExceptT ε (Program σ) α) :
    execute h (f <$> code) s = ((execute h code s).1.map f, (execute h code s).2) := by
  rw [map_eq_pure_bind, execute_bind]
  rcases execute h code s with ⟨err | a, s'⟩ <;> rfl

@[simp] theorem execute_attempt (code : ExceptT ε (Program σ) α) :
    execute h (attempt code) s = (.ok (execute h code s).1, (execute h code s).2) := by
  rw [execute, run_attempt, exec_bind]
  rfl

@[simp] theorem execute_liftExcept (r : Except ε α) :
    execute h (liftM r : ExceptT ε (Program σ) α) s = (r, s) := by
  cases r <;> rfl

end Execute

end Effects
