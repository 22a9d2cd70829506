import Mathlib.Data.List.Basic

/-!
# Error trees

An error value carries a node of its own and the errors it unwraps to. Searching an error for a node
is a depth-first walk in which a node comes before the errors below it.
-/

namespace ErrorTree

/-- An error with nodes of type `ν`. -/
inductive Error (ν : Type) : Type where
  | node (own : ν) (causes : List (Error ν))

namespace Error

variable {ν β : Type}

mutual

/-- Does some node of the error match? -/
def contains (p : ν → Bool) : Error ν → Bool
  | .node own causes => p own || containsAny p causes

def containsAny (p : ν → Bool) : List (Error ν) → Bool
  | [] => false
  | e :: es => contains p e || containsAny p es

end

mutual

/-- The first node that `f` accepts, with what `f` reads off it and the errors below it. -/
def first (f : ν → Option β) : Error ν → Option (β × List (Error ν))
  | .node own causes =>
    match f own with
    | some b => some (b, causes)
    | none => firstAny f causes

def firstAny (f : ν → Option β) : List (Error ν) → Option (β × List (Error ν))
  | [] => none
  | e :: es =>
    match first f e with
    | some b => some b
    | none => firstAny f es

end

mutual

/-- The text of an error, computed from its node and the texts of the errors below it. -/
def text (render : ν → List String → String) : Error ν → String
  | .node own causes => render own (texts render causes)

def texts (render : ν → List String → String) : List (Error ν) → List String
  | [] => []
  | e :: es => text render e :: texts render es

end

@[simp] theorem contains_node (p : ν → Bool) (own : ν) (causes : List (Error ν)) :
    contains p (.node own causes) = (p own || containsAny p causes) := by rw [contains]

@[simp] theorem containsAny_nil (p : ν → Bool) : containsAny p ([] : List (Error ν)) = false := by
  rw [containsAny]

@[simp] theorem containsAny_cons (p : ν → Bool) (e : Error ν) (es : List (Error ν)) :
    containsAny p (e :: es) = (contains p e || containsAny p es) := by rw [containsAny]

theorem containsAny_eq_any (p : ν → Bool) (es : List (Error ν)) :
    containsAny p es = es.any (contains p) := by
  induction es with
  | nil => simp
  | cons e es ih => rw [containsAny_cons, List.any_cons, ih]

theorem first_node (f : ν → Option β) (own : ν) (causes : List (Error ν)) :
    first f (.node own causes) = match f own with
      | some b => some (b, causes)
      | none => firstAny f causes := by rw [first]

@[simp] theorem firstAny_nil (f : ν → Option β) :
    firstAny f ([] : List (Error ν)) = none := by rw [firstAny]

end Error

end ErrorTree
