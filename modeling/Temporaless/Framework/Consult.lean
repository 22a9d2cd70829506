import Temporaless.Framework.Program

/-!
# Programs that only read

An environment that answers every call and is not changed by it. Running a program against it is a
function of the program, which takes sequences to sequences.
-/

namespace Effects.Program

variable {σ : Signature} {α β ε ε' : Type} {h : (op : σ.Op) → σ.Reply op}

/-- The result of a program when every call is answered by `h`. -/
def eval (h : (op : σ.Op) → σ.Reply op) : Program σ α → α
  | .done a => a
  | .call op next => (next (h op)).eval h

theorem eval_bind (p : Program σ α) (f : α → Program σ β) :
    (p.bind f).eval h = (f (p.eval h)).eval h := by
  induction p with
  | done a => rfl
  | call op next ih => exact ih _

def consult (h : (op : σ.Op) → σ.Reply op) (code : ExceptT ε (Program σ) α) : Except ε α := code.run.eval h

variable {code : ExceptT ε (Program σ) α}

theorem consult_bind (code : ExceptT ε (Program σ) α) (next : α → ExceptT ε (Program σ) β) :
    consult h (code >>= next) = match consult h code with
      | .ok a => consult h (next a)
      | .error err => .error err := by
  rw [consult, ExceptT.run_bind, bind_eq_bind, eval_bind, consult]
  cases eval h code.run <;> rfl

@[simp] theorem consult_map (f : α → β) (code : ExceptT ε (Program σ) α) :
    consult h (f <$> code) = (consult h code).map f := by
  rw [map_eq_pure_bind, consult_bind]
  cases consult h code <;> rfl

@[simp] theorem consult_liftExcept (r : Except ε α) :
    consult h (liftM r : ExceptT ε (Program σ) α) = r := by
  cases r <;> rfl

@[simp] theorem consult_adapt (f : ε → ε') (code : ExceptT ε (Program σ) α) :
    consult h (ExceptT.adapt f code) = (consult h code).mapError f := by
  have hadapt : (ExceptT.adapt f code).run = code.run.bind fun r => .done (r.mapError f) := rfl
  rw [consult, hadapt, eval_bind]
  rfl

end Effects.Program
