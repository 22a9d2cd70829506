import Temporaless.Storage.OpenDAL

/-!
# The store interface and its meaning

The calls of `storage.Store` that read, write, list and delete records, and the finite maps they
are about. The families of activities, timers and events share their calls; claims live in a
store of their own.
-/

namespace Temporaless

open Function

/-- The record families that a store keeps below a run. -/
inductive StoreKind where
  | activity | timer | event
  deriving DecidableEq, Repr

namespace StoreKind

abbrev kind : StoreKind → RecordKind
  | .activity => .activity
  | .timer => .timer
  | .event => .event

abbrev Record : StoreKind → Type
  | .activity => ActivityRecord
  | .timer => TimerRecord
  | .event => EventRecord

def protoKey : (k : StoreKind) → k.Record → Option (ItemKey k.kind)
  | .activity, record => record.key
  | .timer, record => record.key
  | .event, record => record.key

/-- `ActivityKeyFromProto` and its siblings. -/
def key (k : StoreKind) (record : k.Record) : ItemKey k.kind := itemKeyFromProto (k.protoKey record)

/-- `ValidateActivityRecord` and its siblings. -/
def validate : (k : StoreKind) → k.Record → ItemKey k.kind → Except Err Unit
  | .activity, record, key => validateActivityRecord record key
  | .timer, record, key => validateTimerRecord record key
  | .event, record, key => validateEventRecord record key

abbrev Filter : StoreKind → Type
  | .activity => Unit
  | .timer => TimerStatus
  | .event => Unit

def everything : (k : StoreKind) → k.Filter
  | .activity => ()
  | .timer => .unspecified
  | .event => ()

def isEverything : (k : StoreKind) → k.Filter → Bool
  | .activity, _ => true
  | .timer, status => status == .unspecified
  | .event, _ => true

def admits : (k : StoreKind) → k.Filter → k.Record → Bool
  | .activity, _, _ => true
  | .timer, status, record => status == .unspecified || record.status == status
  | .event, _, _ => true

def check : (k : StoreKind) → k.Record → Except Err Unit
  | .activity, _ => .ok ()
  | .timer, record => OpenDALStore.checkPrepared record
  | .event, _ => .ok ()

def cancels : (k : StoreKind) → k.Record → Bool
  | .activity, _ => false
  | .timer, record => record.status == .canceled
  | .event, _ => false

def checkRun : (k : StoreKind) → WorkflowKey → Except Err Unit
  | .activity, run => (run.item .activity "placeholder").validate
  | .timer, run => run.validate
  | .event, run => (run.item .event "placeholder").validate

def accept (k : StoreKind) (record : k.Record) : Except Err Unit := do
  k.validate record (k.key record)
  k.check record

/-- What the store may hold at a key. -/
def Stored (k : StoreKind) (key : ItemKey k.kind) (record : k.Record) : Prop :=
  k.validate record key = .ok () ∧ key.ns ≠ "" ∧ k.check record = .ok () ∧ k.cancels record = false

@[simp] theorem isEverything_everything (k : StoreKind) : k.isEverything k.everything = true := by
  cases k <;> rfl

theorem admits_of_isEverything {k : StoreKind} {filter : k.Filter}
    (h : k.isEverything filter = true) (record : k.Record) : k.admits filter record = true := by
  cases k with
  | activity => rfl
  | event => rfl
  | timer =>
    simp only [isEverything] at h
    simp [admits, h]

theorem validate_eq_ok {k : StoreKind} {record : k.Record} {key : ItemKey k.kind}
    (h : k.validate record key = .ok ()) :
    (k.key record).Valid ∧ (k.key record).withDefaults = key.withDefaults := by
  cases k with
  | activity | timer | event => exact (validateItem_eq_ok.1 h).2

@[simp] theorem validate_withDefaults (k : StoreKind) (record : k.Record) (key : ItemKey k.kind) :
    k.validate record key.withDefaults = k.validate record key := by
  cases k with
  | activity | timer | event => exact validateItem_withDefaults _ _ _ key

/-- The validation depends on the run and the identifier of a key, not on how it spells them. -/
theorem validate_congr {k : StoreKind} (record : k.Record) {key key' : ItemKey k.kind}
    (h : key.withDefaults = key'.withDefaults) : k.validate record key = k.validate record key' := by
  rw [← validate_withDefaults, h, validate_withDefaults]

theorem accept_eq_ok {k : StoreKind} {record : k.Record} :
    k.accept record = .ok () ↔
      k.validate record (k.key record) = .ok () ∧ k.check record = .ok () := bind_eq_ok_unit

theorem Stored.key {k : StoreKind} {key : ItemKey k.kind} {record : k.Record}
    (h : k.Stored key record) : (k.key record).withDefaults = key := by
  rw [(validate_eq_ok h.1).2, ItemKey.withDefaults_of_ne h.2.1]

theorem stored_of_accept {k : StoreKind} {record : k.Record} (h : k.accept record = .ok ())
    (hlive : k.cancels record = false) : k.Stored (k.key record).withDefaults record := by
  obtain ⟨hvalid, hcheck⟩ := accept_eq_ok.1 h
  exact ⟨by rwa [validate_withDefaults], ItemKey.withDefaults_ns_ne _, hcheck, hlive⟩

end StoreKind

/-- The calls of the store interface. -/
inductive StoreOp where
  | getWorkflow (key : WorkflowKey)
  | putWorkflow (record : WorkflowRecord)
  | deleteWorkflow (key : WorkflowKey)
  | get (k : StoreKind) (key : ItemKey k.kind)
  | put (k : StoreKind) (record : k.Record)
  | list (k : StoreKind) (run : WorkflowKey) (filter : k.Filter)
  | delete (k : StoreKind) (key : ItemKey k.kind)

namespace StoreOp

abbrev Answer : StoreOp → Type
  | .getWorkflow _ => Option WorkflowRecord
  | .putWorkflow _ => Unit
  | .deleteWorkflow _ => Bool
  | .get k _ => Option k.Record
  | .put _ _ => Unit
  | .list k _ _ => List k.Record
  | .delete _ _ => Bool

abbrev Reply (op : StoreOp) : Type := Except Err op.Answer

def SameAnswer : (op : StoreOp) → op.Answer → op.Answer → Prop
  | .getWorkflow _, a, a' => a = a'
  | .putWorkflow _, a, a' => a = a'
  | .deleteWorkflow _, a, a' => a = a'
  | .get _ _, a, a' => a = a'
  | .put _ _, a, a' => a = a'
  | .list _ _ _, a, a' => a.Perm a'
  | .delete _ _, a, a' => a = a'

/-- Replies are compared up to the order of a listing. -/
def Agree (op : StoreOp) : op.Reply → op.Reply → Prop
  | .ok a, .ok a' => op.SameAnswer a a'
  | .error err, .error err' => err = err'
  | _, _ => False

theorem Agree.refl (op : StoreOp) (r : op.Reply) : op.Agree r r := by
  cases r with
  | error err => exact rfl
  | ok a =>
    cases op with
    | list k run filter => exact List.Perm.refl a
    | getWorkflow | putWorkflow | deleteWorkflow | get | put | delete => exact rfl

theorem Agree.eq {op : StoreOp} {r r' : op.Reply} (h : op.Agree r r')
    (hop : ∀ k run filter, op ≠ .list k run filter) : r = r' := by
  cases r with
  | error err =>
    cases r' with
    | error err' => exact congrArg Except.error h
    | ok a' => exact h.elim
  | ok a =>
    cases r' with
    | error err' => exact h.elim
    | ok a' =>
      cases op with
      | list k run filter => exact absurd rfl (hop k run filter)
      | getWorkflow | putWorkflow | deleteWorkflow | get | put | delete =>
        exact congrArg Except.ok h

theorem Agree.error {op : StoreOp} {r : op.Reply} {err : Err} (h : op.Agree r (.error err)) :
    r = .error err := by
  cases r with
  | error err' => exact congrArg Except.error h
  | ok a => exact h.elim

theorem Agree.ok {op : StoreOp} {r : op.Reply} {a : op.Answer} (h : op.Agree r (.ok a)) :
    ∃ a', r = .ok a' := by
  cases r with
  | ok a' => exact ⟨a', rfl⟩
  | error err => exact h.elim

end StoreOp

def checkPointerTimes (record : WorkflowRecord) : Except Err Unit :=
  match record.status, record.completedAt with
  | .completed, some t | .failed, some t =>
    t.check.mapError (wrapf "invalid workflow completed_at: ")
  | .unspecified, _ => .ok ()
  | _, _ =>
    match record.createdAt with
    | some t => t.check.mapError (wrapf "invalid workflow created_at: ")
    | none => .ok ()

def acceptWorkflow (record : WorkflowRecord) : Except Err Unit := do
  validateWorkflowRecord record (workflowKeyFromProto record.key)
  checkPointerTimes record

theorem validate_of_acceptWorkflow {workflow : WorkflowRecord} (h : acceptWorkflow workflow = .ok ()) :
    validateWorkflowRecord workflow (workflowKeyFromProto workflow.key).withDefaults = .ok () ∧
      (workflowKeyFromProto workflow.key).withDefaults.ns ≠ "" := by
  have hvalid := validateWorkflowRecord_eq_ok.1 (bind_eq_ok_unit.1 h).1
  refine ⟨validateWorkflowRecord_eq_ok.2 ?_, WorkflowKey.withDefaults_ns_ne _⟩
  simpa using hvalid

/-- The records of a store by key. Keys have their namespace filled in, and every record belongs
to its key. A canceled timer is absent, but its record is left behind until it is deleted. -/
structure Records where
  workflows : AList fun _ : WorkflowKey => WorkflowRecord
  items : (k : StoreKind) → AList fun _ : ItemKey k.kind => k.Record
  leftover : (k : StoreKind) → ItemKey k.kind → Bool
  workflow_stored : ∀ key record, workflows.lookup key = some record →
    validateWorkflowRecord record key = .ok () ∧ key.ns ≠ ""
  item_stored : ∀ k key record, (items k).lookup key = some record → k.Stored key record

namespace Records

def empty : Records where
  workflows := ∅
  items _ := ∅
  leftover _ _ := false
  workflow_stored := by simp
  item_stored := by simp

variable (s : Records)

def workflow (key : WorkflowKey) : Option WorkflowRecord := s.workflows.lookup key.withDefaults

def item (k : StoreKind) (key : ItemKey k.kind) : Option k.Record :=
  (s.items k).lookup key.withDefaults

def setWorkflow (key : WorkflowKey) (record : WorkflowRecord)
    (h : validateWorkflowRecord record key = .ok () ∧ key.ns ≠ "") : Records :=
  { s with
    workflows := s.workflows.insert key record
    workflow_stored := by
      intro key' record' hlookup
      by_cases hkey : key' = key
      · subst hkey
        rw [AList.lookup_insert] at hlookup
        cases hlookup
        exact h
      · rw [AList.lookup_insert_ne hkey] at hlookup
        exact s.workflow_stored key' record' hlookup }

def eraseWorkflow (key : WorkflowKey) : Records :=
  { s with
    workflows := s.workflows.erase key
    workflow_stored := by
      intro key' record' hlookup
      by_cases hkey : key' = key
      · subst hkey
        rw [AList.lookup_erase] at hlookup
        cases hlookup
      · rw [AList.lookup_erase_ne hkey] at hlookup
        exact s.workflow_stored key' record' hlookup }

def setItem (k : StoreKind) (key : ItemKey k.kind) (record : k.Record)
    (h : k.Stored key record) : Records :=
  { s with
    items := update s.items k ((s.items k).insert key record)
    item_stored := by
      intro k' key' record' hlookup
      by_cases hk : k' = k
      · subst hk
        rw [update_self] at hlookup
        by_cases hkey : key' = key
        · subst hkey
          rw [AList.lookup_insert] at hlookup
          cases hlookup
          exact h
        · rw [AList.lookup_insert_ne hkey] at hlookup
          exact s.item_stored k' key' record' hlookup
      · rw [update_of_ne hk] at hlookup
        exact s.item_stored k' key' record' hlookup }

/-- The record of a key goes; `left` says whether a canceled one is left behind. -/
def eraseItem (k : StoreKind) (key : ItemKey k.kind) (left : Bool) : Records :=
  { s with
    items := update s.items k ((s.items k).erase key)
    leftover := update s.leftover k (update (s.leftover k) key left)
    item_stored := by
      intro k' key' record' hlookup
      by_cases hk : k' = k
      · subst hk
        rw [update_self] at hlookup
        by_cases hkey : key' = key
        · subst hkey
          rw [AList.lookup_erase] at hlookup
          cases hlookup
        · rw [AList.lookup_erase_ne hkey] at hlookup
          exact s.item_stored k' key' record' hlookup
      · rw [update_of_ne hk] at hlookup
        exact s.item_stored k' key' record' hlookup }

def listed (k : StoreKind) (run : WorkflowKey) (filter : k.Filter) : List k.Record :=
  ((s.items k).entries.filter fun e =>
    e.1.run == run.withDefaults && k.admits filter e.2).map fun e => e.2

def step (s : Records) : (op : StoreOp) → op.Reply × Records
  | .getWorkflow key => (key.validate.map fun _ => s.workflow key, s)
  | .putWorkflow record =>
    match h : acceptWorkflow record with
    | .error err => (.error err, s)
    | .ok () => (.ok (), s.setWorkflow (workflowKeyFromProto record.key).withDefaults record
        (validate_of_acceptWorkflow h))
  | .deleteWorkflow key =>
    match key.validate with
    | .error err => (.error err, s)
    | .ok () => (.ok (s.workflow key).isSome, s.eraseWorkflow key.withDefaults)
  | .get k key => (key.validate.map fun _ => s.item k key, s)
  | .put k record =>
    match h : k.accept record with
    | .error err => (.error err, s)
    | .ok () =>
      if hlive : k.cancels record = false then
        (.ok (), s.setItem k (k.key record).withDefaults record (StoreKind.stored_of_accept h hlive))
      else (.ok (), s.eraseItem k (k.key record).withDefaults true)
  | .list k run filter =>
    ((k.checkRun run).map fun _ => s.listed k run filter, s)
  | .delete k key =>
    match key.validate with
    | .error err => (.error err, s)
    | .ok () => (.ok ((s.item k key).isSome || s.leftover k key.withDefaults),
        s.eraseItem k key.withDefaults false)

section Views

variable {s} {key key' : WorkflowKey} {record : WorkflowRecord}

@[simp] theorem workflow_withDefaults : s.workflow key.withDefaults = s.workflow key := by
  rw [workflow, WorkflowKey.withDefaults_withDefaults, workflow]

theorem workflow_setWorkflow (h : validateWorkflowRecord record key = .ok () ∧ key.ns ≠ "") :
    (s.setWorkflow key record h).workflow key' =
      if key'.withDefaults = key then some record else s.workflow key' := by
  simp only [workflow, setWorkflow]
  split
  · next heq => rw [heq, AList.lookup_insert]
  · next hne => rw [AList.lookup_insert_ne hne]

theorem workflow_eraseWorkflow : (s.eraseWorkflow key).workflow key' =
    if key'.withDefaults = key then none else s.workflow key' := by
  simp only [workflow, eraseWorkflow]
  split
  · next heq => rw [heq, AList.lookup_erase]
  · next hne => rw [AList.lookup_erase_ne hne]

theorem workflow_valid (h : s.workflow key = some record) :
    validateWorkflowRecord record key = .ok () := by
  have hvalid := validateWorkflowRecord_eq_ok.1 (s.workflow_stored _ _ h).1
  refine validateWorkflowRecord_eq_ok.2 ?_
  simpa using hvalid

variable {k k' : StoreKind} {item : k.Record} {itemKey itemKey' : ItemKey k.kind}

@[simp] theorem item_withDefaults : s.item k itemKey.withDefaults = s.item k itemKey := by
  rw [Records.item, ItemKey.withDefaults_withDefaults, Records.item]

theorem item_setItem (h : k.Stored itemKey item) :
    (s.setItem k itemKey item h).item k itemKey' =
      if itemKey'.withDefaults = itemKey then some item else s.item k itemKey' := by
  simp only [Records.item, setItem, update_self]
  split
  · next heq => rw [heq, AList.lookup_insert]
  · next hne => rw [AList.lookup_insert_ne hne]

theorem item_setItem_ne (h : k.Stored itemKey item) (hk : k' ≠ k) (key : ItemKey k'.kind) :
    (s.setItem k itemKey item h).item k' key = s.item k' key := by
  simp only [Records.item, setItem, update_of_ne hk]

theorem item_eraseItem {left : Bool} : (s.eraseItem k itemKey left).item k itemKey' =
    if itemKey'.withDefaults = itemKey then none else s.item k itemKey' := by
  simp only [Records.item, eraseItem, update_self]
  split
  · next heq => rw [heq, AList.lookup_erase]
  · next hne => rw [AList.lookup_erase_ne hne]

theorem item_eraseItem_ne {left : Bool} (hk : k' ≠ k) (key : ItemKey k'.kind) :
    (s.eraseItem k itemKey left).item k' key = s.item k' key := by
  simp only [Records.item, eraseItem, update_of_ne hk]

theorem leftover_eraseItem_self {left : Bool} :
    (s.eraseItem k itemKey left).leftover k itemKey = left := by
  simp only [eraseItem, update_self]

theorem leftover_eraseItem {left : Bool} {key : ItemKey k'.kind} (h : HEq key itemKey → k' ≠ k) :
    (s.eraseItem k itemKey left).leftover k' key = s.leftover k' key := by
  simp only [eraseItem]
  by_cases hk : k' = k
  · subst hk
    rw [update_self, update_of_ne fun heq => h (heq_of_eq heq) rfl]
  · rw [update_of_ne hk]

section

variable (h : s.item k itemKey = some item)

include h

theorem stored_of_item :
    k.Stored itemKey.withDefaults item := s.item_stored k _ _ h

theorem item_valid : k.validate item itemKey = .ok () := by
  rw [← StoreKind.validate_withDefaults]
  exact (stored_of_item h).1

theorem valid_of_item : itemKey.Valid := by
  obtain ⟨hvalid, heq⟩ := StoreKind.validate_eq_ok (item_valid h)
  rwa [← ItemKey.valid_withDefaults, ← heq, ItemKey.valid_withDefaults]

theorem key_id_of_item : (k.key item).id = itemKey.id := by
  have hkey := congrArg ItemKey.id (stored_of_item h).key
  simpa using hkey

end

theorem mem_listed {run : WorkflowKey} {filter : k.Filter} :
    item ∈ s.listed k run filter ↔
      (∃ id, s.item k (run.item k.kind id) = some item) ∧ k.admits filter item = true := by
  simp only [listed, List.mem_map, List.mem_filter, Bool.and_eq_true, beq_iff_eq]
  constructor
  · rintro ⟨⟨key, record⟩, ⟨hmem, hrun, hadmits⟩, rfl⟩
    have hlookup := AList.mem_lookup_iff.2 hmem
    refine ⟨⟨key.id, ?_⟩, hadmits⟩
    rw [Records.item, WorkflowKey.withDefaults_item, ← hrun]
    exact hlookup
  · rintro ⟨⟨id, hitem⟩, hadmits⟩
    refine ⟨⟨(run.item k.kind id).withDefaults, item⟩, ⟨AList.mem_lookup_iff.1 hitem, ?_, hadmits⟩,
      rfl⟩
    exact ItemKey.run_withDefaults (run.item k.kind id)

theorem nodup_listed (s : Records) (k : StoreKind) (run : WorkflowKey) (filter : k.Filter) :
    (s.listed k run filter).Nodup := by
  refine List.Nodup.map_on ?_ ((List.NodupKeys.nodup (s.items k).nodupKeys).filter _)
  rintro ⟨key, record⟩ hmem ⟨key', record'⟩ hmem' rfl
  have hlookup := AList.mem_lookup_iff.2 (List.mem_of_mem_filter hmem)
  have hlookup' := AList.mem_lookup_iff.2 (List.mem_of_mem_filter hmem')
  have hkey := (s.item_stored k key _ hlookup).key
  have hkey' := (s.item_stored k key' _ hlookup').key
  rw [← hkey, ← hkey']

end Views

section Steps

variable {s} {k : StoreKind} {record : k.Record} {workflow : WorkflowRecord} {err : Err}

theorem step_put_error (h : k.accept record = .error err) :
    s.step (.put k record) = (.error err, s) := by
  unfold step
  dsimp only
  split
  · next err' h' => rw [h] at h'; cases h'; rfl
  · next h' => rw [h] at h'; cases h'

theorem step_put_live (h : k.accept record = .ok ()) (hlive : k.cancels record = false) :
    s.step (.put k record) =
      (.ok (), s.setItem k (k.key record).withDefaults record (StoreKind.stored_of_accept h hlive)) := by
  unfold step
  dsimp only
  split
  · next err' h' => rw [h] at h'; cases h'
  · rw [dif_pos hlive]

theorem step_put_canceled (h : k.accept record = .ok ()) (hlive : k.cancels record = true) :
    s.step (.put k record) = (.ok (), s.eraseItem k (k.key record).withDefaults true) := by
  unfold step
  dsimp only
  split
  · next err' h' => rw [h] at h'; cases h'
  · rw [dif_neg (by simp [hlive])]

theorem step_putWorkflow_error (h : acceptWorkflow workflow = .error err) :
    s.step (.putWorkflow workflow) = (.error err, s) := by
  unfold step
  dsimp only
  split
  · next err' h' => rw [h] at h'; cases h'; rfl
  · next h' => rw [h] at h'; cases h'

theorem step_putWorkflow_ok (h : acceptWorkflow workflow = .ok ()) :
    s.step (.putWorkflow workflow) = (.ok (), s.setWorkflow
      (workflowKeyFromProto workflow.key).withDefaults workflow (validate_of_acceptWorkflow h)) := by
  unfold step
  dsimp only
  split
  · next err' h' => rw [h] at h'; cases h'
  · rfl

theorem step_delete {key : ItemKey k.kind} (h : key.Valid) :
    s.step (.delete k key) = (.ok ((s.item k key).isSome || s.leftover k key.withDefaults),
      s.eraseItem k key.withDefaults false) := by
  unfold step
  dsimp only
  rw [show key.validate = .ok () from h]

theorem step_delete_error {key : ItemKey k.kind} (h : key.validate = .error err) :
    s.step (.delete k key) = (.error err, s) := by
  unfold step
  dsimp only
  rw [h]

theorem step_deleteWorkflow {key : WorkflowKey} (h : key.Valid) :
    s.step (.deleteWorkflow key) =
      (.ok (s.workflow key).isSome, s.eraseWorkflow key.withDefaults) := by
  unfold step
  dsimp only
  rw [show key.validate = .ok () from h]

theorem step_deleteWorkflow_error {key : WorkflowKey} (h : key.validate = .error err) :
    s.step (.deleteWorkflow key) = (.error err, s) := by
  unfold step
  dsimp only
  rw [h]

end Steps

end Records

end Temporaless
