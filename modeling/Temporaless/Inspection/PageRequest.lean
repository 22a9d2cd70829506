import Temporaless.Framework.Separated
import Temporaless.Storage.Keys

/-!
# Requests that list in pages

The text that names the method, the store, the namespace and the filters of such a request. Page tokens
are sealed for this text, so that it has to tell one request from another.
-/

namespace Temporaless.Inspection

/-- `ListWorkflowDirectory`, `ListWorkflowRuns` and `ListScheduledWakes`, without the size of the page and
the token. A status is the number of the enumeration, known or not. -/
inductive PageRequest where
  | directory (store ns workflowIDPrefix : String) (status : Int)
  | runs (store ns workflowID : String) (ascending : Bool)
  | wakes (store ns : String) (overdueOnly : Bool)
  deriving DecidableEq

/-- The text a token is bound to: the listing and all its filters. -/
def PageRequest.binding : PageRequest → String
  | .directory store ns workflowIDPrefix status =>
    "directory" ++ "\x1f" ++ store ++ "\x1f" ++ ns ++ "\x1f" ++ workflowIDPrefix ++ "\x1f" ++ status.repr
  | .runs store ns workflowID ascending =>
    "runs" ++ "\x1f" ++ store ++ "\x1f" ++ ns ++ "\x1f" ++ workflowID ++ "\x1f" ++ toString ascending
  | .wakes store ns overdueOnly =>
    "wakes" ++ "\x1f" ++ store ++ "\x1f" ++ ns ++ "\x1f" ++ toString overdueOnly

/-- `^[A-Za-z0-9._:=-]*$` -/
def idPrefixPattern (s : String) : Bool := s.toList.all segmentChar

def validateScopeSegments (ns workflowID : String) : Except Err Unit :=
  WorkflowKey.validate ⟨ns, if workflowID = "" then "placeholder" else workflowID, "placeholder"⟩

/-- What holds of a request when its token is opened or sealed: the namespace is one of those that the
store was registered with, and the filters have been checked. The ids of stores are not restricted by
the service. -/
def PageRequest.Admitted : PageRequest → Prop
  | .directory store ns workflowIDPrefix _ =>
    '\x1f' ∉ store.toList ∧ validateScopeSegments ns "" = .ok () ∧ idPrefixPattern workflowIDPrefix = true
  | .runs store ns workflowID _ =>
    '\x1f' ∉ store.toList ∧ validateScopeSegments ns "" = .ok () ∧
      validateScopeSegments ns workflowID = .ok ()
  | .wakes store ns _ => '\x1f' ∉ store.toList ∧ validateScopeSegments ns "" = .ok ()

section Separator

variable {s ns workflowID : String}

theorem separator_not_mem (h : s.toList.all segmentChar = true) : '\x1f' ∉ s.toList := by
  intro hmem
  have hchar := List.all_eq_true.1 h _ hmem
  exact absurd hchar (by decide)

theorem separator_not_mem_ns (h : validateScopeSegments ns workflowID = .ok ()) :
    '\x1f' ∉ ns.toList := by
  by_cases hns : ns = ""
  · simp [hns]
  · have hplain := (WorkflowKey.Valid.plain h).1
    rw [WorkflowKey.withDefaults_of_ne hns] at hplain
    exact separator_not_mem hplain.2

theorem separator_not_mem_workflowID (h : validateScopeSegments ns workflowID = .ok ()) :
    '\x1f' ∉ workflowID.toList := by
  by_cases hid : workflowID = ""
  · simp [hid]
  · have hplain := (WorkflowKey.Valid.plain h).2.1
    rw [if_neg hid] at hplain
    exact separator_not_mem hplain.2

end Separator

def PageRequest.fields : PageRequest → List (List Char) × List Char
  | .directory store ns workflowIDPrefix status =>
    (["directory".toList, store.toList, ns.toList, workflowIDPrefix.toList], status.repr.toList)
  | .runs store ns workflowID ascending =>
    (["runs".toList, store.toList, ns.toList, workflowID.toList], (toString ascending).toList)
  | .wakes store ns overdueOnly =>
    (["wakes".toList, store.toList, ns.toList], (toString overdueOnly).toList)

theorem toList_separated (s t : String) :
    (s ++ "\x1f" ++ t).toList = s.toList ++ '\x1f' :: t.toList := by
  rw [String.toList_append, String.toList_append, List.append_assoc]
  rfl

theorem toList_binding (request : PageRequest) :
    request.binding.toList = Separated.joined '\x1f' request.fields.1 request.fields.2 := by
  cases request with
  | directory store ns workflowIDPrefix status =>
    show ("directory" ++ "\x1f" ++ store ++ "\x1f" ++ ns ++ "\x1f" ++ workflowIDPrefix ++ "\x1f" ++
      status.repr).toList = _
    simp only [toList_separated, PageRequest.fields, Separated.joined, List.foldr_cons, List.foldr_nil,
      List.append_assoc, List.cons_append]
  | runs store ns workflowID ascending =>
    show ("runs" ++ "\x1f" ++ store ++ "\x1f" ++ ns ++ "\x1f" ++ workflowID ++ "\x1f" ++
      toString ascending).toList = _
    simp only [toList_separated, PageRequest.fields, Separated.joined, List.foldr_cons, List.foldr_nil,
      List.append_assoc, List.cons_append]
  | wakes store ns overdueOnly =>
    show ("wakes" ++ "\x1f" ++ store ++ "\x1f" ++ ns ++ "\x1f" ++ toString overdueOnly).toList = _
    simp only [toList_separated, PageRequest.fields, Separated.joined, List.foldr_cons, List.foldr_nil,
      List.append_assoc, List.cons_append]

variable {request request' : PageRequest}

theorem separator_not_mem_fields (h : request.Admitted) :
    ∀ field ∈ request.fields.1, '\x1f' ∉ field := by
  cases request with
  | directory store ns workflowIDPrefix status =>
    obtain ⟨hstore, hns, hprefix⟩ := h
    simp only [PageRequest.fields, List.forall_mem_cons, List.not_mem_nil, false_imp_iff, implies_true,
      and_true]
    exact ⟨by decide, hstore, separator_not_mem_ns hns, separator_not_mem hprefix⟩
  | runs store ns workflowID ascending =>
    obtain ⟨hstore, hns, hworkflow⟩ := h
    simp only [PageRequest.fields, List.forall_mem_cons, List.not_mem_nil, false_imp_iff, implies_true,
      and_true]
    exact ⟨by decide, hstore, separator_not_mem_ns hns, separator_not_mem_workflowID hworkflow⟩
  | wakes store ns overdueOnly =>
    obtain ⟨hstore, hns⟩ := h
    simp only [PageRequest.fields, List.forall_mem_cons, List.not_mem_nil, false_imp_iff, implies_true,
      and_true]
    exact ⟨by decide, hstore, separator_not_mem_ns hns⟩

theorem toString_bool_inj {a b : Bool} (h : toString a = toString b) : a = b := by
  cases a <;> cases b <;> first | rfl | exact absurd h (by decide)

theorem natText_inj {m n : Nat} (h : m.repr = n.repr) : m = n := by
  have hdigits := congrArg String.toList h
  rw [Nat.toList_repr, Nat.toList_repr] at hdigits
  rw [← @Nat.ofDigitChars_toDigits 10 m (by decide) (by decide), hdigits,
    Nat.ofDigitChars_toDigits (by decide) (by decide)]

theorem isDigit_of_mem_natText {c : Char} {n : Nat} (hmem : c ∈ n.repr.toList) : c.isDigit := by
  rw [Nat.toList_repr] at hmem
  exact Nat.isDigit_of_mem_toDigits (by decide) (by decide) hmem

theorem not_mem_natText {c : Char} (hdigit : c.isDigit = false) (n : Nat) : c ∉ n.repr.toList := by
  intro hmem
  simp [isDigit_of_mem_natText hmem] at hdigit

theorem intText_inj {a b : Int} (h : a.repr = b.repr) : a = b := by
  have hminus : ∀ m n : Nat, m.repr ≠ "-" ++ n.repr := by
    intro m n heq
    apply not_mem_natText (by decide : '-'.isDigit = false) m
    rw [heq, String.toList_append]
    exact List.mem_append_left _ List.mem_cons_self
  cases a with
  | ofNat m =>
    cases b with
    | ofNat n => exact congrArg Int.ofNat (natText_inj h)
    | negSucc n => exact absurd h (hminus m (n + 1))
  | negSucc m =>
    cases b with
    | ofNat n => exact absurd h.symm (hminus n (m + 1))
    | negSucc n =>
      have htexts := natText_inj (String.append_right_inj "-" |>.1 h)
      exact congrArg Int.negSucc (Nat.succ.inj htexts)

theorem eq_of_fields (h : request.fields = request'.fields) : request = request' := by
  cases request with
  | directory store ns workflowIDPrefix status =>
    cases request' with
    | directory =>
      simp only [PageRequest.fields, Prod.mk.injEq, List.cons.injEq, String.toList_inj, and_true,
        true_and] at h
      rw [h.1.1, h.1.2.1, h.1.2.2, intText_inj h.2]
    | runs => simp [PageRequest.fields] at h
    | wakes => simp [PageRequest.fields] at h
  | runs store ns workflowID ascending =>
    cases request' with
    | directory => simp [PageRequest.fields] at h
    | runs =>
      simp only [PageRequest.fields, Prod.mk.injEq, List.cons.injEq, String.toList_inj, and_true,
        true_and] at h
      rw [h.1.1, h.1.2.1, h.1.2.2, toString_bool_inj h.2]
    | wakes => simp [PageRequest.fields] at h
  | wakes store ns overdueOnly =>
    cases request' with
    | directory => simp [PageRequest.fields] at h
    | runs => simp [PageRequest.fields] at h
    | wakes =>
      simp only [PageRequest.fields, Prod.mk.injEq, List.cons.injEq, String.toList_inj, and_true,
        true_and] at h
      rw [h.1.1, h.1.2, toString_bool_inj h.2]

theorem length_fields_of_binding (h : request.Admitted)
    (h' : request'.Admitted) (heq : request.binding = request'.binding) :
    request.fields.1.length = request'.fields.1.length := by
  have hlist := congrArg String.toList heq
  rw [toList_binding, toList_binding] at hlist
  have hfields := separator_not_mem_fields h
  have hfields' := separator_not_mem_fields h'
  -- Requests of different methods differ in the first field.
  cases request <;> cases request' <;> first
    | exact absurd (Separated.append_cons_inj (hfields _ List.mem_cons_self)
        (hfields' _ List.mem_cons_self) hlist).1 (by decide)
    | rfl

theorem binding_inj (h : request.Admitted) (h' : request'.Admitted)
    (heq : request.binding = request'.binding) : request = request' := by
  have hlist := congrArg String.toList heq
  rw [toList_binding, toList_binding] at hlist
  obtain ⟨hfields, hrest⟩ := Separated.joined_inj (length_fields_of_binding h h' heq)
    (separator_not_mem_fields h) (separator_not_mem_fields h') hlist
  exact eq_of_fields (Prod.ext hfields hrest)

end Temporaless.Inspection
