import Temporaless.Framework.System
import Temporaless.Python.Events

/-!
# An event is delivered once

Any number of processes deliver payloads for one event and wait for it, with caches of their own,
and a process may crash between any two operations. The first delivery creates the event object and
nothing changes it afterwards, so every call and every cache agrees with it.
-/

namespace Temporaless.Python

open PathTree Effects OpenDALStore

variable {record : EventRecord}

inductive EventOutcome where
  | delivered (payload : Any) (result : Except Err EventDeliveryDisposition)
  | waited (result : Except Err Message)
  | other

def EventOutcome.isCreated : EventOutcome → Bool
  | .delivered _ (.ok .created) => true
  | _ => false

/-- The bucket, the cache of each invocation, the process that has created the event and has not
returned yet, and what the completed calls have come to. -/
structure Deliveries (Bytes ι κ : Type) where
  bucket : Bucket Bytes
  caches : κ → EventCache
  creator : Option ι
  outcomes : List EventOutcome

/-- The run that each invocation caches, and the invocation of each process. -/
structure Invocations (ι κ : Type) where
  scope : κ → WorkflowKey
  home : ι → κ

def Elsewhere {Bytes : Type} (key : RecordKey .event) (scope : WorkflowKey) : EventOp Bytes → Prop
  | .bucket (.write path _) => path ≠ key.val.location
  | .bucket (.delete path) => path ≠ key.val.location
  | .create path _ => path ≠ key.val.location
  | .remember entries _ => scope = key.val.run → ∀ entry ∈ entries, entry.1 ≠ key.val.id
  | .bucket (.isExist _) | .bucket (.read _) | .bucket (.createDir _) | .bucket (.list _)
  | .bucket .now | .recollect => True

variable {fullName : String} {outcome : EventOutcome} {run : WorkflowKey}
  {records : List EventRecord}

def Poll.Aside {wire : Wire} (key : RecordKey .event) (scope : WorkflowKey) (poll : Poll wire) : Prop :=
  poll.arm.run.Calls (Elsewhere key scope) ∧ poll.resolve.run.Calls (Elsewhere key scope)

section System

variable (wire : Wire) (key : RecordKey .event) {ι κ : Type} [DecidableEq κ]
variable (inv : Invocations ι κ) (parses : Message → Bool)

def Deliveries.step (s : Deliveries wire.Bytes ι κ) (i : ι) :
    (op : EventOp wire.Bytes) → op.Reply × Deliveries wire.Bytes ι κ
  | .bucket op => ((s.bucket.step op).1, { s with bucket := (s.bucket.step op).2 })
  | .create path data =>
    if (s.bucket.objects.lookup path).isSome then (false, s)
    else (true, { s with
      bucket := { s.bucket with objects := s.bucket.objects.insert path data }
      creator := if path = key.val.location then some i else s.creator })
  | .recollect => (s.caches (inv.home i), s)
  | .remember entries listed => ((), { s with
      caches := Function.update s.caches (inv.home i) ((s.caches (inv.home i)).update entries listed) })

/-- One operation of a process. The clock may say any instant that a timestamp can hold. -/
inductive Acts (i : ι) (s : Deliveries wire.Bytes ι κ) :
    (op : EventOp wire.Bytes) → op.Reply → Deliveries wire.Bytes ι κ → Prop where
  | now (t : Int) (h : (Timestamp.new t).checkValid = true) : Acts i s (.bucket .now) t s
  | step (op : EventOp wire.Bytes) (h : op ≠ .bucket .now) :
      Acts i s op (s.step wire key inv i op).1 (s.step wire key inv i op).2

def Deliveries.release [DecidableEq ι] (s : Deliveries wire.Bytes ι κ) (i : ι) : Deliveries wire.Bytes ι κ :=
  { s with creator := if s.creator = some i then none else s.creator }

abbrev EventProgram := Program (eventSignature wire.Bytes) EventOutcome

def deliveryStore (scope : WorkflowKey) (cached : Bool) : EventDeliveryStore wire where
  capability := eventDeliveryCapability true
  deliverEvent := if cached then RunScopedCache.deliverEvent wire true scope
    else storeDeliverEvent wire true

/-- The calls of a process: deliveries of the event through the store or the cache, waits for it,
reads and listings of events through the cache, and whatever else leaves the event alone. -/
inductive EventCall (scope : WorkflowKey) : EventProgram wire → Prop where
  | deliver (cached : Bool) (record : EventRecord)
      (h : validateEventDeliveryRecord record none = .ok key.val) :
      EventCall scope (((deliveryStore wire scope cached).deliverEvent record).run.bind fun r =>
        .done (.delivered (eventPayload record) r))
  | send (cached : Bool) (payload : Message) :
      EventCall scope ((deliverEvent (deliveryStore wire scope cached) key.val payload).run.bind
        fun r => .done (.delivered payload.toAny r))
  | wait (fullName : String) (poll : Option (Poll wire)) (hscope : scope = key.val.run)
      (hpoll : ∀ p, poll = some p → p.Aside key scope) :
      EventCall scope ((waitEvent parses scope key.val.id fullName poll).run.bind fun r =>
        .done (.waited r))
  | get (k : EventKey) :
      EventCall scope ((RunScopedCache.getEvent wire scope k).run.bind fun _ => .done .other)
  | list (run : WorkflowKey) :
      EventCall scope ((RunScopedCache.listEvents wire scope run).run.bind fun _ => .done .other)
  | prefetch (others : EventM wire.Bytes Unit) (h : others.run.Calls (Elsewhere key scope)) :
      EventCall scope ((RunScopedCache.prefetch wire scope others).run.bind fun _ => .done .other)
  | other (code : EventM wire.Bytes Unit) (h : code.run.Calls (Elsewhere key scope)) :
      EventCall scope (code.run.bind fun _ => .done .other)

/-- Concurrent deliveries of and waits for one event; any of them may crash. -/
def deliveries [DecidableEq ι] :
    System (eventSignature wire.Bytes) ι (Deliveries wire.Bytes ι κ) EventOutcome where
  begins i s p s' := EventCall wire key parses (inv.scope (inv.home i)) p ∧ s' = s
  acts i s op r s' := Acts wire key inv i s op r s'
  returns i s outcome s' := s' = { s.release wire i with outcomes := outcome :: s.outcomes }
  crashes i s s' := s' = s.release wire i

/-- The event does not exist, and no cache holds anything. -/
structure Undelivered (s : Deliveries wire.Bytes ι κ) : Prop where
  bucket : s.bucket.objects.lookup key.val.location = none
  caches : ∀ k, s.caches k = EventCache.empty
  creator : s.creator = none
  outcomes : s.outcomes = []

end System

section Records

variable {wire : Wire} {key : RecordKey .event}

structure Deliverable (key : RecordKey .event) (record : EventRecord) : Prop where
  schemaVersion : record.schemaVersion = .event
  key : record.key = some key.val
  payload : record.payload.isSome = true
  receivedAt : checkReceivedAt record.receivedAt = .ok ()

theorem validateEventRecord_eq_ok {expected : Expectation EventKey}
    {k : EventKey} : validateEventRecord record expected = .ok k ↔ record.schemaVersion = .event ∧
      record.key = some k ∧ (k.Valid ∧ k.ns ≠ "") ∧ expected.Admits k := validateItemRecord_eq_ok

theorem validateEventDeliveryRecord_eq_ok {expected : Option EventKey} :
    validateEventDeliveryRecord record expected = .ok key.val ↔
      Deliverable key record ∧ ∀ k, expected = some k → k = key.val := by
  rw [validateEventDeliveryRecord, bind_eq_ok]
  simp only [bind_eq_ok_unit, require_eq_ok, validateEventRecord_eq_ok]
  constructor
  · intro h
    obtain ⟨k, ⟨hversion, hkey, -, hadmits⟩, hpayload, hreceived, hk⟩ := h
    obtain rfl : k = key.val := Except.ok.inj hk
    exact ⟨⟨hversion, hkey, hpayload, hreceived⟩, hadmits.key⟩
  · intro h
    obtain ⟨hrecord, hexpected⟩ := h
    exact ⟨key.val, ⟨hrecord.schemaVersion, hrecord.key, key.property, hexpected, by simp, by simp⟩,
      hrecord.payload, hrecord.receivedAt, rfl⟩

theorem Deliverable.validate (h : Deliverable key record)
    (expected : Option EventKey) (hexpected : ∀ k, expected = some k → k = key.val) :
    validateEventDeliveryRecord record expected = .ok key.val :=
  validateEventDeliveryRecord_eq_ok.2 ⟨h, hexpected⟩

theorem Deliverable.validateEventRecord (h : Deliverable key record)
    (expected : Expectation EventKey) (hexpected : expected.Admits key.val) :
    validateEventRecord record expected = .ok key.val :=
  validateEventRecord_eq_ok.2 ⟨h.schemaVersion, h.key, key.property, hexpected⟩

theorem sameEventPayload_iff {left right : EventRecord} (hleft : Deliverable key left)
    (hright : Deliverable key right) :
    sameEventPayload left right = true ↔ eventPayload left = eventPayload right := by
  simp [sameEventPayload, hleft.key, hright.key]

theorem validateEventDeliveryDisposition_eq_ok {disposition : EventDeliveryDisposition}
    (h : disposition ≠ .unspecified) :
    validateEventDeliveryDisposition disposition = .ok disposition := by
  cases disposition with
  | unspecified => exact absurd rfl h
  | created => rfl
  | idempotent => rfl

theorem deliverable_newEventRecord (payload : Message) {now : Int}
    (h : (Timestamp.new now).checkValid = true) :
    Deliverable key (newEventRecord key.val payload now) where
  schemaVersion := rfl
  key := rfl
  payload := rfl
  receivedAt := by simp [newEventRecord, checkReceivedAt, checkTimestamp, timestampFromProto, h]

end Records

section Invariant

variable {wire : Wire} {key : RecordKey .event} {ι κ : Type}

structure Stored (key : RecordKey .event) (record : EventRecord) (s : Deliveries wire.Bytes ι κ) :
    Prop where
  lookup : s.bucket.objects.lookup key.val.location = some (wire.event.marshal record)
  deliverable : Deliverable key record

theorem Stored.unique {record' : EventRecord} {s : Deliveries wire.Bytes ι κ}
    (h : Stored key record s) (h' : Stored key record' s) : record = record' := by
  have hdata := Option.some.inj (h.lookup.symm.trans h'.lookup)
  have hread := congrArg wire.event.unmarshal hdata
  rw [wire.event.unmarshal_marshal, wire.event.unmarshal_marshal] at hread
  exact Except.ok.inj hread

def unpacked (any : Any) : Message := ⟨typeName any, any.value⟩

theorem unpack_eq_ok {parses : Message → Bool} {any : Any} {message : Message}
    (h : unpack parses any fullName = .ok (some message)) : message = unpacked any := by
  unfold unpack at h
  dsimp only at h
  split at h
  · next htype =>
      split at h
      · cases h
        simp only [Bool.and_eq_true, beq_iff_eq] at htype
        rw [unpacked, htype.2]
      · cases h
  · cases h

def Agrees (key : RecordKey .event) (record : EventRecord) : EventOutcome → Prop
  | .delivered payload result => (∀ disposition, result = .ok disposition →
      eventPayload record = payload ∧ disposition ≠ .unspecified) ∧
      (eventPayload record ≠ payload → result = .error (eventDeliveryConflictError key.val))
  | .waited result => ∀ message, result = .ok message → message = unpacked (eventPayload record)
  | .other => True

def EventOutcome.Observed : EventOutcome → Prop
  | .delivered _ _ => True
  | .waited result => result.isOk = true
  | .other => False

/-- At most one call creates the event, and every answer agrees with the stored record. -/
structure Once (key : RecordKey .event) (scope : κ → WorkflowKey) (s : Deliveries wire.Bytes ι κ) :
    Prop where
  stored : ∀ data, s.bucket.objects.lookup key.val.location = some data →
    ∃ record, Stored key record s
  cached : ∀ k record, scope k = key.val.run → (s.caches k).get key.val.id = some (some record) →
    Stored key record s
  creator : s.creator.isSome = true → ∃ record, Stored key record s
  created : s.outcomes.countP EventOutcome.isCreated + (if s.creator.isSome then 1 else 0) ≤ 1
  observed : ∀ outcome ∈ s.outcomes, outcome.Observed → ∃ record, Stored key record s
  agrees : ∀ outcome ∈ s.outcomes, ∀ record, Stored key record s → Agrees key record outcome

def KeepsObject (key : RecordKey .event) (s s' : Deliveries wire.Bytes ι κ) : Prop :=
  ∀ data, s.bucket.objects.lookup key.val.location = some data →
    s'.bucket.objects.lookup key.val.location = some data

/-- Others never change the event once it is there, nor take a creation away. -/
structure KeepsEvent (key : RecordKey .event) (i : ι) (s s' : Deliveries wire.Bytes ι κ) : Prop where
  object : KeepsObject key s s'
  creator : s.creator = some i → s'.creator = some i

theorem KeepsEvent.refl (i : ι) (s : Deliveries wire.Bytes ι κ) : KeepsEvent key i s s :=
  ⟨fun _ h => h, fun h => h⟩

theorem KeepsEvent.trans {i : ι} {s s' s'' : Deliveries wire.Bytes ι κ} (h : KeepsEvent key i s s')
    (h' : KeepsEvent key i s' s'') : KeepsEvent key i s s'' :=
  ⟨fun data hdata => h'.object data (h.object data hdata), fun hi => h'.creator (h.creator hi)⟩

theorem Stored.kept {i : ι} {s s' : Deliveries wire.Bytes ι κ}
    (h : Stored key record s) (hkeeps : KeepsEvent key i s s') : Stored key record s' :=
  ⟨hkeeps.object _ h.lookup, h.deliverable⟩

/-- A step that leaves the object, the creation and the calls as they are, and the cache entries
that it does change hold the stored record. -/
theorem Once.same {scope : κ → WorkflowKey} {s s' : Deliveries wire.Bytes ι κ} (h : Once key scope s)
    (hobject : s'.bucket.objects.lookup key.val.location = s.bucket.objects.lookup key.val.location)
    (hcreator : s'.creator = s.creator) (houtcomes : s'.outcomes = s.outcomes)
    (hcaches : ∀ k record, scope k = key.val.run →
      (s'.caches k).get key.val.id = some (some record) →
      (s.caches k).get key.val.id = some (some record) ∨ Stored key record s) :
    Once key scope s' := by
  have hstored : ∀ record, Stored key record s ↔ Stored key record s' := by
    intro record
    constructor
    · intro hrecord
      exact ⟨hobject.trans hrecord.lookup, hrecord.deliverable⟩
    · intro hrecord
      exact ⟨hobject.symm.trans hrecord.lookup, hrecord.deliverable⟩
  have hexists : (∃ record, Stored key record s) → ∃ record, Stored key record s' := by
    intro hrecord
    obtain ⟨record, hrecord⟩ := hrecord
    exact ⟨record, (hstored record).1 hrecord⟩
  constructor
  · intro data hdata
    rw [hobject] at hdata
    exact hexists (h.stored data hdata)
  · intro k record hscope hget
    apply (hstored record).1
    rcases hcaches k record hscope hget with hget | hrecord
    · exact h.cached k record hscope hget
    · exact hrecord
  · intro hsome
    rw [hcreator] at hsome
    exact hexists (h.creator hsome)
  · rw [houtcomes, hcreator]
    exact h.created
  · intro outcome hmem hobserved
    rw [houtcomes] at hmem
    exact hexists (h.observed outcome hmem hobserved)
  · intro outcome hmem record hrecord
    rw [houtcomes] at hmem
    exact h.agrees outcome hmem record ((hstored record).2 hrecord)

theorem EventOutcome.observed_of_isCreated (h : outcome.isCreated = true) : outcome.Observed := by
  cases outcome with
  | delivered payload result => trivial
  | waited result => simp [isCreated] at h
  | other => simp [isCreated] at h

theorem agrees_of_not_observed (h : ¬ outcome.Observed) : Agrees key record outcome := by
  cases outcome with
  | delivered payload result => exact absurd trivial h
  | waited result =>
    intro message hresult
    rw [hresult] at h
    exact absurd rfl h
  | other => trivial

theorem Once.create {scope : κ → WorkflowKey} {s : Deliveries wire.Bytes ι κ} (h : Once key scope s)
    (hnone : s.bucket.objects.lookup key.val.location = none) (i : ι)
    (hrecord : Deliverable key record) :
    Once key scope { s with
      bucket := { s.bucket with
        objects := s.bucket.objects.insert key.val.location (wire.event.marshal record) }
      creator := some i } := by
  have habsent : ∀ record, ¬ Stored key record s := by
    intro record hstored
    rw [hstored.lookup] at hnone
    cases hnone
  have hunobserved : ∀ outcome ∈ s.outcomes, ¬ outcome.Observed := by
    intro outcome hmem hobserved
    obtain ⟨record, hstored⟩ := h.observed outcome hmem hobserved
    exact habsent record hstored
  constructor
  · exact fun _ _ => ⟨record, AList.lookup_insert _, hrecord⟩
  · intro k record hscope hget
    exact absurd (h.cached k record hscope hget) (habsent record)
  · exact fun _ => ⟨record, AList.lookup_insert _, hrecord⟩
  · have hcount : s.outcomes.countP EventOutcome.isCreated = 0 := by
      apply List.countP_eq_zero.2
      intro outcome hmem hcreated
      exact hunobserved outcome hmem (EventOutcome.observed_of_isCreated hcreated)
    simp [hcount]
  · intro outcome hmem hobserved
    exact absurd hobserved (hunobserved outcome hmem)
  · intro outcome hmem _ _
    exact agrees_of_not_observed (hunobserved outcome hmem)

def Stable (key : RecordKey .event) (i : ι) (P : Deliveries wire.Bytes ι κ → Prop) : Prop :=
  ∀ s s', P s → KeepsEvent key i s s' → P s'

theorem stable_true {i : ι} : Stable key i fun _ : Deliveries wire.Bytes ι κ => True :=
  fun _ _ _ _ => trivial

theorem stable_stored {i : ι} (record : EventRecord) :
    Stable key i fun s : Deliveries wire.Bytes ι κ => Stored key record s :=
  fun _ _ h hkeeps => h.kept hkeeps

def decodeEvent (wire : Wire) (key : RecordKey .event) (reply : Except Err wire.Bytes) :
    Except Err (Option EventRecord) :=
  (decodeMessage wire.event reply).bind
    (checked fun record => validateEventRecord record ⟨some key.val, none, some key.val.location⟩)

theorem Once.decodeEvent {scope : κ → WorkflowKey} {s : Deliveries wire.Bytes ι κ}
    (h : Once key scope s) :
    (Python.decodeEvent wire key (replyAt s.bucket.objects key.val.location) = .ok none ∧
        s.bucket.objects.lookup key.val.location = none) ∨
      ∃ record, Python.decodeEvent wire key (replyAt s.bucket.objects key.val.location) =
        .ok (some record) ∧ Stored key record s := by
  cases hlookup : s.bucket.objects.lookup key.val.location with
  | none =>
    left
    simp [Python.decodeEvent, replyAt, hlookup, decodeMessage, Except.bind, checked]
  | some data =>
    right
    obtain ⟨record, hrecord⟩ := h.stored data hlookup
    refine ⟨record, ?_, hrecord⟩
    have hvalid := hrecord.deliverable.validateEventRecord
      ⟨some key.val, none, some key.val.location⟩ ⟨by simp, by simp, by simp⟩
    simp [Python.decodeEvent, replyAt, hrecord.lookup, decodeMessage,
      wire.event.unmarshal_marshal, Except.bind, checked, hvalid, Except.map]

end Invariant

section Steps

variable {wire : Wire} {key : RecordKey .event} {ι κ α : Type} [DecidableEq κ]
variable {inv : Invocations ι κ} {i : ι} {s s' : Deliveries wire.Bytes ι κ}

abbrev delivering (wire : Wire) (key : RecordKey .event) (inv : Invocations ι κ) (i : ι) :
    CallSpec (eventSignature wire.Bytes) (Deliveries wire.Bytes ι κ) :=
  .amid (Once key inv.scope) (fun s s' => s = s' ∨ KeepsEvent key i s s') (Acts wire key inv i)
    fun s _ _ s' => Once key inv.scope s' ∧ KeepsObject key s s' ∧ ∀ j, j ≠ i → KeepsEvent key j s s'

theorem Bucket.lookup_step_elsewhere {Bytes : Type} {b : Bucket Bytes} {path : Path}
    {op : BucketOp Bytes} (hwrite : ∀ p data, op = .write p data → p ≠ path)
    (hdelete : ∀ p, op = .delete p → p ≠ path) :
    (b.step op).2.objects.lookup path = b.objects.lookup path := by
  cases op with
  | write p data => exact AList.lookup_insert_ne (hwrite p data rfl).symm
  | delete p =>
    cases hlookup : b.objects.lookup p with
    | none => simp [Bucket.step, hlookup]
    | some data =>
      simp only [Bucket.step, hlookup]
      exact AList.lookup_erase_ne (hdelete p rfl).symm
  | createDir dir => rfl
  | isExist p => rfl
  | read p => rw [step_reads _ (by trivial)]
  | list dir => rw [step_reads _ (by trivial)]
  | now => rfl

theorem Acts.elsewhere {op : EventOp wire.Bytes} {r : op.Reply}
    (hop : Elsewhere key (inv.scope (inv.home i)) op) (h : Acts wire key inv i s op r s')
    (hs : Once key inv.scope s) : Once key inv.scope s' ∧ ∀ j, KeepsEvent key j s s' := by
  cases h with
  | now t _ => exact ⟨hs, fun j => .refl j s⟩
  | step op _ =>
    cases op with
    | bucket op =>
      have hlookup : (s.bucket.step op).2.objects.lookup key.val.location =
          s.bucket.objects.lookup key.val.location := by
        apply Bucket.lookup_step_elsewhere
        · intro p data heq
          subst heq
          exact hop
        · intro p heq
          subst heq
          exact hop
      refine ⟨hs.same hlookup rfl rfl fun _ _ _ h => Or.inl h, fun j => ⟨?_, fun h => h⟩⟩
      intro data hdata
      exact hlookup.trans hdata
    | create path data =>
      by_cases hexists : (s.bucket.objects.lookup path).isSome = true
      · simp only [Deliveries.step, hexists, if_true]
        exact ⟨hs, fun j => .refl j s⟩
      · have hpath : path ≠ key.val.location := hop
        have hlookup : (s.bucket.objects.insert path data).lookup key.val.location =
            s.bucket.objects.lookup key.val.location := AList.lookup_insert_ne hpath.symm
        simp only [Deliveries.step, hexists, hpath, if_false, Bool.false_eq_true]
        refine ⟨hs.same hlookup rfl rfl fun _ _ _ h => Or.inl h, fun j => ⟨?_, fun h => h⟩⟩
        intro data hdata
        exact hlookup.trans hdata
    | recollect => exact ⟨hs, fun j => .refl j s⟩
    | remember entries listed =>
      refine ⟨hs.same rfl rfl rfl ?_, fun j => ⟨fun _ h => h, fun h => h⟩⟩
      intro k record hscope hget
      left
      by_cases hk : k = inv.home i
      · subst hk
        simp only [Deliveries.step, Function.update_self] at hget
        rcases EventCache.get_update hget with hold | hnew
        · exact hold
        · exact absurd rfl (hop hscope _ hnew)
      · simpa [Deliveries.step, hk] using hget

variable {P : Deliveries wire.Bytes ι κ → Prop}

theorem elsewhere_pre {op : EventOp wire.Bytes} {Q : op.Reply → Deliveries wire.Bytes ι κ → Prop}
    (hop : Elsewhere key (inv.scope (inv.home i)) op) (hP : Stable key i P) (hs : P s)
    (h : ∀ s r s', Once key inv.scope s → P s' → Acts wire key inv i s op r s' → Q r s') :
    (delivering wire key inv i).pre op Q s := by
  apply CallSpec.amid_pre P hs hP
  intro s honce hs r s' hacts
  obtain ⟨honce', hkeeps⟩ := hacts.elsewhere hop honce
  exact ⟨⟨honce', (hkeeps i).object, fun j _ => hkeeps j⟩, h s r s' honce (hP s s' hs (hkeeps i)) hacts⟩

theorem ends_elsewhere {code : EventM wire.Bytes α}
    (hcode : code.run.Calls (Elsewhere key (inv.scope (inv.home i)))) (hP : Stable key i P)
    (hs : P s) : ends (delivering wire key inv i) code (fun _ s' => P s') s := by
  apply ends_of_calls hcode ?_ hs
  intro op hop s hs
  apply elsewhere_pre hop hP hs
  intro _ _ _ _ hs' _
  exact hs'

theorem elsewhere_onBucket {code : BucketM wire.Bytes α} {scope : WorkflowKey}
    (h : ReadOnly code) : (onBucket code).run.Calls (Elsewhere key scope) := by
  apply Program.Calls.hoist
  apply Program.Calls.imp ?_ h
  intro op hop
  cases op with
  | write _ _ | delete _ | createDir _ => exact hop.elim
  | isExist _ | read _ | list _ | now => trivial

theorem ends_createEventDir (dir : Path) (hP : Stable key i P) (hs : P s) :
    ends (delivering wire key inv i) (onBucket (createDir dir))
      (fun r s' => r = .ok () ∧ P s') s := by
  rw [onBucket, ends_hoist, ends_createDir]
  apply elsewhere_pre (by trivial) hP hs
  intro s r s' _ hs' hacts
  cases hacts with
  | step _ _ => exact ⟨rfl, hs'⟩

theorem ends_getEvent {S : Type} {F : CallSpec (eventSignature wire.Bytes) S} {s : S}
    {Q : Except Err (Option EventRecord) → S → Prop} :
    ends F (onBucket (getEvent wire key.val)) Q s ↔
      F.pre (.bucket (.read key.val.location)) (fun r s' => Q (decodeEvent wire key r) s') s := by
  rw [onBucket, ends_hoist, getEvent, getItem, itemPath_of_stored, liftOk_bind]
  exact ends_checked rfl fun _ => rfl

theorem ends_readEvent (hP : Stable key i P) (hs : P s) :
    ends (delivering wire key inv i) (onBucket (getEvent wire key.val)) (fun r s' => P s' ∧
      ((r = .ok none ∧ s'.bucket.objects.lookup key.val.location = none) ∨
        ∃ record, r = .ok (some record) ∧ Stored key record s')) s := by
  apply ends_getEvent.2
  apply elsewhere_pre (by trivial) hP hs
  intro s r s' honce hs' hacts
  cases hacts with
  | step _ _ =>
    have hsame : (s.step wire key inv i (.bucket (.read key.val.location))).2 = s := by
      simp only [Deliveries.step, step_read]
    have hreply : (s.step wire key inv i (.bucket (.read key.val.location))).1 =
        replyAt s.bucket.objects key.val.location := by
      simp only [Deliveries.step, step_read]
    rw [hsame] at hs' ⊢
    rw [hreply]
    refine ⟨hs', honce.decodeEvent.imp (fun h => h) (fun h => h)⟩

theorem ends_rememberEvents {entries : List (String × Option EventRecord)} (listed : Bool)
    (hP : Stable key i P) (hs : P s) (hentries : ∀ s, P s → inv.scope (inv.home i) = key.val.run →
      ∀ record, (key.val.id, some record) ∈ entries → Stored key record s) :
    ends (delivering wire key inv i) (rememberEvents entries listed)
      (fun r s' => r = .ok () ∧ P s') s := by
  apply ends_mk.2
  apply CallSpec.amid_pre P hs hP
  intro s honce hs r s' hacts
  cases hacts with
  | step _ _ =>
    have hkeeps : ∀ j, KeepsEvent key j s (s.step wire key inv i (.remember entries listed)).2 :=
      fun j => ⟨fun _ h => h, fun h => h⟩
    refine ⟨⟨honce.same rfl rfl rfl ?_, (hkeeps i).object, fun j _ => hkeeps j⟩, rfl, hP s _ hs (hkeeps i)⟩
    intro k record hscope hget
    by_cases hk : k = inv.home i
    · subst hk
      simp only [Deliveries.step, Function.update_self] at hget
      exact (EventCache.get_update hget).imp id (hentries s hs hscope record)
    · left
      simpa [Deliveries.step, hk] using hget

structure Delivered (key : RecordKey .event) (payload : Any) (i : ι)
    (result : Except Err EventDeliveryDisposition) (s : Deliveries wire.Bytes ι κ) : Prop where
  agrees : ∃ record, Stored key record s ∧ Agrees key record (.delivered payload result)
  creator : result = .ok .created → s.creator = some i

omit [DecidableEq κ] in
theorem Delivered.kept {payload : Any} {result : Except Err EventDeliveryDisposition}
    (h : Delivered key payload i result s) (hkeeps : KeepsEvent key i s s') :
    Delivered key payload i result s' := by
  obtain ⟨record, hrecord, hagrees⟩ := h.agrees
  exact ⟨⟨record, hrecord.kept hkeeps, hagrees⟩, fun hr => hkeeps.creator (h.creator hr)⟩

def Present (key : RecordKey .event) (s : Deliveries wire.Bytes ι κ) : Prop :=
  (s.bucket.objects.lookup key.val.location).isSome = true

omit [DecidableEq κ] in
theorem stable_present : Stable key i (Present key : Deliveries wire.Bytes ι κ → Prop) := by
  intro s s' hpresent hkeeps
  obtain ⟨data, hdata⟩ := Option.isSome_iff_exists.1 hpresent
  rw [Present, hkeeps.object data hdata]
  rfl

theorem ends_compareDelivery (hrecord : Deliverable key record) (hs : Present key s) :
    ends (delivering wire key inv i) (compareDelivery wire key.val record)
      (fun r s' => Delivered key (eventPayload record) i r s') s := by
  apply ends_bind.2
  apply (ends_readEvent stable_present hs).mono
  intro r s' hread
  obtain ⟨hpresent, ⟨-, hnone⟩ | ⟨existing, rfl, hstored⟩⟩ := hread
  · rw [Present, hnone] at hpresent
    cases hpresent
  · have hvalid := hstored.deliverable.validate (some key.val) (by simp)
    dsimp only
    rw [hvalid, ends_bind, ends_liftExcept]
    by_cases hsame : eventPayload existing = eventPayload record
    · rw [if_pos ((sameEventPayload_iff hstored.deliverable hrecord).2 hsame)]
      refine ends_pure.2 ⟨⟨existing, hstored, ?_, ?_⟩, by simp⟩
      · intro disposition hdisposition
        cases hdisposition
        exact ⟨hsame, by simp⟩
      · exact fun hne => absurd hsame hne
    · rw [if_neg fun h => hsame ((sameEventPayload_iff hstored.deliverable hrecord).1 h)]
      refine ends_throw.2 ⟨⟨existing, hstored, ?_, fun _ => rfl⟩, by simp⟩
      intro disposition hdisposition
      cases hdisposition

theorem create_pre (hrecord : Deliverable key record) {Q : Bool → Deliveries wire.Bytes ι κ → Prop}
    (hcreated : ∀ s', Stored key record s' → s'.creator = some i → Q true s')
    (hexists : ∀ s', Present key s' → Q false s') :
    (delivering wire key inv i).pre (.create key.val.location (wire.event.marshal record)) Q s := by
  apply CallSpec.amid_pre (fun _ => True) trivial fun _ _ _ _ => trivial
  intro s honce _ r s' hacts
  cases hacts with
  | step _ _ =>
    by_cases hpresent : (s.bucket.objects.lookup key.val.location).isSome = true
    · simp only [Deliveries.step, hpresent, if_true]
      exact ⟨⟨honce, fun _ h => h, fun j _ => .refl j s⟩, hexists s hpresent⟩
    · have hnone : s.bucket.objects.lookup key.val.location = none := by simpa using hpresent
      have hnobody : s.creator = none := by
        cases hcreator : s.creator with
        | none => rfl
        | some j =>
          obtain ⟨stored, hstored⟩ := honce.creator (by rw [hcreator]; rfl)
          rw [hstored.lookup] at hnone
          cases hnone
      simp only [Deliveries.step, hpresent, if_true, if_false, Bool.false_eq_true]
      refine ⟨⟨honce.create hnone i hrecord, ?_, fun j _ => ⟨?_, ?_⟩⟩,
        hcreated _ ⟨AList.lookup_insert _, hrecord⟩ rfl⟩
      · intro data hdata
        rw [hnone] at hdata
        cases hdata
      · intro data hdata
        rw [hnone] at hdata
        cases hdata
      · intro hj
        rw [hnobody] at hj
        cases hj

theorem ends_storeDeliverEvent (hrecord : Deliverable key record) :
    ends (delivering wire key inv i) (storeDeliverEvent wire true record)
      (fun r s' => Delivered key (eventPayload record) i r s') s := by
  have hvalid := hrecord.validate none (by simp)
  simp only [storeDeliverEvent, hvalid, liftOk_bind, itemDirPath_of_stored,
    itemPath_of_stored, eventDeliveryCapability, if_true, ne_eq, not_true_eq_false, if_false]
  apply ends_bind.2
  apply (ends_createEventDir _ stable_true trivial).mono
  intro r s' hr
  obtain ⟨rfl, -⟩ := hr
  apply ends_bind.2
  apply ends_mk.2
  apply create_pre hrecord
  · intro s' hstored hcreator
    refine ends_pure.2 ⟨⟨record, hstored, ?_, fun hne => absurd rfl hne⟩, fun _ => hcreator⟩
    intro disposition hdisposition
    cases hdisposition
    exact ⟨rfl, by simp⟩
  · intro s' hpresent
    exact ends_compareDelivery hrecord hpresent

theorem ends_cachedDeliverEvent (hrecord : Deliverable key record) :
    ends (delivering wire key inv i)
      (RunScopedCache.deliverEvent wire true (inv.scope (inv.home i)) record)
      (fun r s' => Delivered key (eventPayload record) i r s') s := by
  have hvalid := hrecord.validate none (by simp)
  simp only [RunScopedCache.deliverEvent, hvalid, liftOk_bind]
  apply ends_bind.2
  apply (ends_storeDeliverEvent hrecord).mono
  intro r s₁ hdelivered
  cases r with
  | error err => exact hdelivered
  | ok disposition =>
    obtain ⟨stored, hstored, hagrees⟩ := hdelivered.agrees
    obtain ⟨hpayload, hspecified⟩ := hagrees.1 disposition rfl
    dsimp only
    rw [validateEventDeliveryDisposition_eq_ok hspecified, liftOk_bind]
    apply ends_bind.2
    apply (ends_readEvent (P := Delivered key (eventPayload record) i (.ok disposition))
      (fun _ _ h hkeeps => h.kept hkeeps) hdelivered).mono
    intro r s₂ hread
    obtain ⟨hdelivered, ⟨-, hnone⟩ | ⟨found, rfl, hfound⟩⟩ := hread
    · obtain ⟨stored, hstored, -⟩ := hdelivered.agrees
      rw [hstored.lookup] at hnone
      cases hnone
    · have hsame : sameEventPayload found record = true := by
        obtain ⟨stored, hstored, hagrees⟩ := hdelivered.agrees
        rw [sameEventPayload_iff hfound.deliverable hrecord, hfound.unique hstored]
        exact (hagrees.1 disposition rfl).1
      have hchecked := hfound.deliverable.validate (some key.val) (by simp)
      simp only [hchecked, hsame, require, if_true, liftOk_bind]
      split
      · apply ends_bind.2
        apply (ends_rememberEvents (P := fun s => Delivered key (eventPayload record) i
          (.ok disposition) s ∧ Stored key found s) false ?_ ⟨hdelivered, hfound⟩ ?_).mono
        · intro r s₃ hr
          obtain ⟨rfl, hdelivered, -⟩ := hr
          exact ends_pure.2 hdelivered
        · intro _ _ h hkeeps
          exact ⟨h.1.kept hkeeps, h.2.kept hkeeps⟩
        · intro s h _ other hmem
          obtain rfl : other = found := by simpa using hmem
          exact h.2
      · exact ends_pure.2 hdelivered

theorem ends_deliver (cached : Bool) (hrecord : Deliverable key record) :
    ends (delivering wire key inv i)
      ((deliveryStore wire (inv.scope (inv.home i)) cached).deliverEvent record)
      (fun r s' => Delivered key (eventPayload record) i r s') s := by
  cases cached with
  | false => exact ends_storeDeliverEvent hrecord
  | true => exact ends_cachedDeliverEvent hrecord

theorem ends_deliverEvent (cached : Bool) (payload : Message) :
    ends (delivering wire key inv i)
      (deliverEvent (deliveryStore wire (inv.scope (inv.home i)) cached) key.val payload)
      (fun r s' => Delivered key payload.toAny i r s') s := by
  have hkey := validateItemKey_eq_ok.2 key.property
  have hcapability : checkDeliveryCapability
      (deliveryStore wire (inv.scope (inv.home i)) cached).capability = .ok () := rfl
  simp only [deliverEvent, hkey, hcapability, liftOk_bind]
  apply ends_bind.2
  rw [onBucket, ends_hoist, clock, ends_mk]
  apply elsewhere_pre (by trivial) stable_true trivial
  intro s t s' _ _ hacts
  cases hacts with
  | step _ hne => exact absurd rfl hne
  | now _ hvalid =>
    have hrecord : Deliverable key (newEventRecord key.val payload t) :=
      deliverable_newEventRecord payload hvalid
    have hchecked := hrecord.validate (some key.val) (by simp)
    simp only [Program.wp_done, deliverRecord, hchecked, liftOk_bind]
    apply ends_bind.2
    apply (ends_deliver cached hrecord).mono
    intro r s₁ hdelivered
    cases r with
    | error err => exact hdelivered
    | ok disposition =>
      obtain ⟨stored, -, hagrees⟩ := hdelivered.agrees
      have hspecified := (hagrees.1 disposition rfl).2
      dsimp only
      rw [validateEventDeliveryDisposition_eq_ok hspecified]
      exact ends_liftExcept.2 hdelivered

omit [DecidableEq κ] in
theorem Stored.checkHit (h : Stored key record s) :
    RunScopedCache.checkHit key.val (some record) = .ok () := by
  have hvalid := h.deliverable.validateEventRecord ⟨some key.val, none, none⟩
    ⟨by simp, by simp, by simp⟩
  simp [RunScopedCache.checkHit, whenGiven, hvalid, Except.map]

theorem elsewhere_cachedGetEvent {scope : WorkflowKey} {k : EventKey} (hk : k ≠ key.val) :
    (RunScopedCache.getEvent wire scope k).run.Calls (Elsewhere key scope) := by
  have hread : (onBucket (getEvent wire k)).run.Calls (Elsewhere key scope) :=
    elsewhere_onBucket (readOnly_getItem validateEventRecord k)
  unfold RunScopedCache.getEvent
  split
  · apply hread.bindExcept
    intro record
    exact calls_liftExcept_bind fun _ _ => trivial
  · next hscope =>
      have hother : scope = key.val.run → k.id ≠ key.val.id := by
        intro hrun hid
        apply hk
        change k.run.item .event k.id = key.val.run.item .event key.val.id
        rw [hid, not_not.1 hscope, hrun]
      refine Program.Calls.bindExcept ⟨trivial, fun _ => trivial⟩ ?_
      intro cache
      split
      · exact calls_liftExcept_bind fun _ _ => trivial
      · split
        · trivial
        · apply hread.bindExcept
          intro record
          apply calls_liftExcept_bind
          intro _ _
          refine ⟨?_, fun _ => trivial⟩
          intro hrun entry hmem
          rw [List.mem_singleton.1 hmem]
          exact hother hrun

theorem ends_recollectEvents :
    ends (delivering wire key inv i) recollectEvents (fun r s' => ∃ cache, r = .ok cache ∧
      (inv.scope (inv.home i) = key.val.run → ∀ record,
        cache.get key.val.id = some (some record) → Stored key record s')) s := by
  apply ends_mk.2
  apply elsewhere_pre (by trivial) stable_true trivial
  intro s r s' honce _ hacts
  cases hacts with
  | step _ _ => exact ⟨_, rfl, fun hscope record hget => honce.cached _ record hscope hget⟩

theorem ends_cachedGetEvent :
    ends (delivering wire key inv i)
      (RunScopedCache.getEvent wire (inv.scope (inv.home i)) key.val)
      (fun r s' => ∀ record, r = .ok (some record) → Stored key record s') s := by
  unfold RunScopedCache.getEvent
  split
  · apply ends_bind.2
    apply (ends_readEvent stable_true trivial).mono
    intro r s' hread
    obtain ⟨-, ⟨rfl, -⟩ | ⟨record, rfl, hstored⟩⟩ := hread
    · exact ends_pure.2 (by simp)
    · dsimp only
      rw [hstored.checkHit]
      refine ends_pure.2 ?_
      intro found hfound
      cases hfound
      exact hstored
  · next hscope =>
      have hrun : inv.scope (inv.home i) = key.val.run := (not_not.1 hscope).symm
      apply ends_bind.2
      apply ends_recollectEvents.mono
      intro r s' hr
      obtain ⟨cache, rfl, hcache⟩ := hr
      dsimp only
      split
      · next hit hget =>
          cases hit with
          | none => exact ends_pure.2 (by simp)
          | some record =>
            have hstored := hcache hrun record hget
            rw [hstored.checkHit]
            refine ends_pure.2 ?_
            intro found hfound
            cases hfound
            exact hstored
      · split
        · exact ends_pure.2 (by simp)
        · apply ends_bind.2
          apply (ends_readEvent stable_true trivial).mono
          intro r s' hread
          obtain ⟨-, ⟨rfl, -⟩ | ⟨record, rfl, hstored⟩⟩ := hread
          · have hmiss : RunScopedCache.checkHit key.val none = .ok () := rfl
            dsimp only
            rw [hmiss, liftOk_bind]
            apply ends_bind.2
            apply (ends_rememberEvents false stable_true trivial (by simp)).mono
            intro r _ hr
            rw [hr.1]
            exact ends_pure.2 (by simp)
          · dsimp only
            rw [hstored.checkHit, liftOk_bind]
            apply ends_bind.2
            apply (ends_rememberEvents false (stable_stored record) hstored ?_).mono
            · intro r s'' hr
              obtain ⟨rfl, hstored⟩ := hr
              refine ends_pure.2 ?_
              intro found hfound
              cases hfound
              exact hstored
            · intro s'' hstored _ found hmem
              obtain rfl : found = record := by simpa using hmem
              exact hstored

def Listed (key : RecordKey .event) (records : List EventRecord) (s : Deliveries wire.Bytes ι κ) :
    Prop :=
  ∀ record ∈ records, record.key = some key.val → Stored key record s

omit [DecidableEq κ] in
theorem stable_listed (records : List EventRecord) :
    Stable key i fun s : Deliveries wire.Bytes ι κ => Listed key records s :=
  fun _ _ h hkeeps record hmem hkey => (h record hmem hkey).kept hkeeps

omit [DecidableEq κ] in
theorem Once.stored_of_decode (h : Once key inv.scope s)
    (hdecode : decodeMessage wire.event (replyAt s.bucket.objects key.val.location) = .ok (some record)) :
    Stored key record s := by
  obtain ⟨data, hlookup, hdata⟩ := lookup_of_decodeMessage hdecode
  obtain ⟨stored, hstored⟩ := h.stored data hlookup
  obtain rfl : wire.event.marshal stored = data := Option.some.inj (hstored.lookup.symm.trans hlookup)
  rw [wire.event.unmarshal_marshal] at hdata
  obtain rfl : stored = record := Except.ok.inj hdata
  exact hstored

abbrev onBucketAmid (wire : Wire) (key : RecordKey .event) (inv : Invocations ι κ) (i : ι) :
    CallSpec (bucketSignature wire.Bytes) (Deliveries wire.Bytes ι κ) :=
  Program.restrict (σ := bucketSignature wire.Bytes) (delivering wire key inv i) EventOp.bucket
    fun _ r => r

theorem ends_listMessage {path : Path} (hs : Listed key records s) :
    ends (onBucketAmid wire key inv i)
      (listMessage wire.event validateEventRecord run records path)
      (fun r s' => ∀ next, r = .ok next → Listed key next s') s := by
  apply ends_bind.2
  apply (ends_readMessage _ _).2
  apply elsewhere_pre (by trivial) (stable_listed records) hs
  intro s r s' honce hs' hacts
  cases hacts with
  | step _ _ =>
    have hsame : (s.step wire key inv i (.bucket (.read path))).2 = s := by
      simp only [Deliveries.step, step_read]
    have hreply : (s.step wire key inv i (.bucket (.read path))).1 =
        replyAt s.bucket.objects path := by
      simp only [Deliveries.step, step_read]
    rw [hsame] at hs' ⊢
    rw [hreply]
    cases hdecode : decodeMessage wire.event (replyAt s.bucket.objects path) with
    | error err =>
      intro next hnext
      cases hnext
    | ok found =>
      cases found with
      | none =>
        apply ends_pure.2
        intro next hnext
        cases hnext
        exact hs'
      | some record =>
        apply ends_bind.2
        apply ends_liftExcept.2
        cases hvalid : validateEventRecord record ⟨none, some run, some path⟩ with
        | error err =>
          intro next hnext
          cases hnext
        | ok k =>
          apply ends_pure.2
          intro next hnext
          cases hnext
          obtain ⟨-, hk, -, hadmits⟩ := validateEventRecord_eq_ok.1 hvalid
          intro other hmem hkey
          rcases List.mem_append.1 hmem with hmem | hmem
          · exact hs' other hmem hkey
          · obtain rfl := List.mem_singleton.1 hmem
            obtain rfl : k = key.val := Option.some.inj (hk.symm.trans hkey)
            rw [hadmits.path path rfl] at hdecode
            exact honce.stored_of_decode hdecode

theorem ends_listEvents (run : WorkflowKey) :
    ends (delivering wire key inv i) (onBucket (listEvents wire run))
      (fun r s' => ∀ records, r = .ok records → Listed key records s') s := by
  have hempty : ∀ s : Deliveries wire.Bytes ι κ, Listed key [] s := by
    intro s record hmem
    cases hmem
  have hfails : ∀ (err : Err) (s : Deliveries wire.Bytes ι κ) (records : List EventRecord),
      (.error err : Except Err (List EventRecord)) = .ok records → Listed key records s := by
    intro err s records hrecords
    cases hrecords
  rw [onBucket, ends_hoist]
  apply ends_bind.2
  apply ends_liftExcept.2
  cases itemDirPath (run.item .event "placeholder") with
  | error err => exact hfails err s
  | ok dir =>
    apply ends_bind.2
    have hlist : ends (delivering wire key inv i) (onBucket (listEntries dir))
        (fun _ _ => True) s :=
      ends_elsewhere (elsewhere_onBucket (readOnly_listEntries dir)) stable_true trivial
    rw [onBucket, ends_hoist] at hlist
    apply hlist.mono
    intro r s' _
    cases r with
    | error err => exact hfails err s'
    | ok entries =>
      cases entries with
      | none =>
        apply ends_pure.2
        intro records hrecords
        cases hrecords
        exact hempty s'
      | some entries =>
        exact ends_forEach (fun _ _ _ hs => ends_listMessage hs) _ (hempty s')

omit [DecidableEq κ] in
theorem Listed.stored {keys : List EventKey}
    (h : Listed key records s) (hkeys : eventKeysForRun run records = .ok keys)
    (hrun : run = key.val.run)
    (hmem : (key.val.id, some record) ∈ RunScopedCache.listedEntries keys records) :
    Stored key record s := by
  rw [RunScopedCache.listedEntries, List.mem_map] at hmem
  obtain ⟨⟨k, found⟩, hzip, heq⟩ := hmem
  obtain ⟨hid, hfound⟩ := Prod.mk.inj heq
  obtain rfl : found = record := Option.some.inj hfound
  have hvalid := validateRecord_of_keysForRun validateEventRecord hkeys _ hzip
  obtain ⟨-, hkey, -, hadmits⟩ := validateEventRecord_eq_ok.1 hvalid
  have hk : k = key.val := by
    change k.run.item .event k.id = key.val.run.item .event key.val.id
    rw [hid, ← hadmits.run run rfl, hrun]
  rw [hk] at hkey
  exact h found (List.of_mem_zip hzip).2 hkey

theorem ends_rememberListed (hrun : run = inv.scope (inv.home i)) (hs : Listed key records s) :
    ends (delivering wire key inv i)
      (liftM (eventKeysForRun run records) >>= fun keys =>
        rememberEvents (RunScopedCache.listedEntries keys records) true)
      (fun _ _ => True) s := by
  apply ends_bind.2
  apply ends_liftExcept.2
  cases hkeys : eventKeysForRun run records with
  | error err => trivial
  | ok keys =>
    apply (ends_rememberEvents true (stable_listed records) hs ?_).mono
    · intro _ _ _
      trivial
    · intro s' hs' hscope record hmem
      exact hs'.stored hkeys (hrun.trans hscope) hmem

theorem ends_cachedListEvents (run : WorkflowKey) :
    ends (delivering wire key inv i)
      (RunScopedCache.listEvents wire (inv.scope (inv.home i)) run) (fun _ _ => True) s := by
  have hkeys : ∀ (records : List EventRecord) (s : Deliveries wire.Bytes ι κ),
      ends (delivering wire key inv i)
        (liftM (eventKeysForRun run records) >>= fun _ => pure records :
          EventM wire.Bytes (List EventRecord)) (fun _ _ => True) s := by
    intro records s
    apply ends_bind.2
    apply ends_liftExcept.2
    cases eventKeysForRun run records with
    | error err => trivial
    | ok keys => exact ends_pure.2 trivial
  unfold RunScopedCache.listEvents
  split
  · apply ends_bind.2
    apply (ends_listEvents run).mono
    intro r s' _
    cases r with
    | error err => trivial
    | ok records => exact hkeys records s'
  · next hrun =>
      apply ends_bind.2
      apply ends_recollectEvents.mono
      intro r s₁ hr
      obtain ⟨cache, rfl, -⟩ := hr
      dsimp only
      split
      · exact hkeys _ s₁
      · apply ends_bind.2
        apply (ends_listEvents run).mono
        intro r s₂ hlisted
        cases r with
        | error err => trivial
        | ok records =>
          dsimp only
          rw [← bind_assoc]
          apply ends_bind.2
          apply (ends_rememberListed (not_not.1 hrun) (hlisted records rfl)).mono
          intro r s₃ _
          cases r with
          | error err => trivial
          | ok _ => exact ends_pure.2 trivial

theorem ends_prefetch {others : EventM wire.Bytes Unit}
    (h : others.run.Calls (Elsewhere key (inv.scope (inv.home i)))) :
    ends (delivering wire key inv i)
      (RunScopedCache.prefetch wire (inv.scope (inv.home i)) others) (fun _ _ => True) s := by
  apply ends_bind.2
  apply (ends_listEvents _).mono
  intro r s₁ hlisted
  cases r with
  | error err => trivial
  | ok records =>
    apply ends_bind.2
    apply (ends_elsewhere h (stable_listed records) (hlisted records rfl)).mono
    intro r s₂ hs₂
    cases r with
    | error err => trivial
    | ok _ => exact ends_rememberListed rfl hs₂

def Waited (key : RecordKey .event) (result : Except Err Message) (s : Deliveries wire.Bytes ι κ) :
    Prop :=
  ∀ message, result = .ok message → ∃ record, Stored key record s ∧ message = unpacked (eventPayload record)

omit [DecidableEq κ] in
theorem waited_error (err : Err) (s : Deliveries wire.Bytes ι κ) : Waited key (.error err) s := by
  intro message hmessage
  cases hmessage

theorem ends_resolveEvent {parses : Message → Bool} {poll : Option (Poll wire)}
    (hpoll : ∀ p, poll = some p → p.Aside key (inv.scope (inv.home i))) (hs : Stored key record s) :
    ends (delivering wire key inv i) (resolveEvent parses key.val fullName poll record)
      (fun r s' => Waited key r s') s := by
  have hvalid := hs.deliverable.validate (some key.val) (by simp)
  have hresolve : (poll.elim (pure ()) Poll.resolve).run.Calls
      (Elsewhere key (inv.scope (inv.home i))) := by
    cases poll with
    | none => trivial
    | some p => exact (hpoll p rfl).2
  rw [resolveEvent, hvalid, liftOk_bind]
  apply ends_bind.2
  apply (ends_elsewhere hresolve (stable_stored record) hs).mono
  intro r s' hstored
  cases r with
  | error err => exact waited_error err s'
  | ok _ =>
    apply ends_bind.2
    apply ends_liftExcept.2
    cases hunpack : unpack parses (eventPayload record) fullName with
    | error err => exact waited_error err s'
    | ok found =>
      cases found with
      | none => exact ends_throw.2 (waited_error _ s')
      | some found =>
        apply ends_pure.2
        intro message hmessage
        cases hmessage
        exact ⟨record, hstored, unpack_eq_ok hunpack⟩

theorem ends_waitEvent {parses : Message → Bool} {poll : Option (Poll wire)}
    (hscope : inv.scope (inv.home i) = key.val.run)
    (hpoll : ∀ p, poll = some p → p.Aside key (inv.scope (inv.home i))) :
    ends (delivering wire key inv i)
      (waitEvent parses (inv.scope (inv.home i)) key.val.id fullName poll)
      (fun r s' => Waited key r s') s := by
  have hkey : (inv.scope (inv.home i)).item .event key.val.id = key.val := by
    rw [hscope]
    rfl
  simp only [waitEvent, hkey, validateItemKey_eq_ok.2 key.property, liftOk_bind]
  apply ends_bind.2
  have hinterval : (poll.elim (pure ()) fun poll => liftM poll.interval :
      EventM wire.Bytes Unit).run.Calls (Elsewhere key (inv.scope (inv.home i))) := by
    cases poll with
    | none => trivial
    | some p => exact calls_liftExcept _ _
  apply (ends_elsewhere hinterval stable_true trivial).mono
  intro r s₁ _
  cases r with
  | error err => exact waited_error err s₁
  | ok _ =>
    apply ends_bind.2
    apply ends_attempt.2
    apply ends_cachedGetEvent.mono
    intro r s₂ hfound
    cases r with
    | error err => exact ends_throw.2 (waited_error _ s₂)
    | ok found =>
      cases found with
      | some record => exact ends_resolveEvent hpoll (hfound record rfl)
      | none =>
        apply ends_bind.2
        have harm : (poll.elim (pure none) fun poll => some <$> poll.arm :
            EventM wire.Bytes (Option Int)).run.Calls
              (Elsewhere key (inv.scope (inv.home i))) := by
          cases poll with
          | none => trivial
          | some p => exact Program.Calls.bindExcept (hpoll p rfl).1 fun _ => trivial
        apply (ends_elsewhere harm stable_true trivial).mono
        intro r s₃ _
        cases r with
        | error err => exact waited_error err s₃
        | ok wakeAt => exact ends_throw.2 (waited_error _ s₃)

end Steps

section Interleavings

variable {wire : Wire} {key : RecordKey .event} {ι κ : Type} [DecidableEq ι] [DecidableEq κ]
variable {inv : Invocations ι κ} {parses : Message → Bool} {i : ι} {s : Deliveries wire.Bytes ι κ}

def Returned (key : RecordKey .event) (i : ι) (outcome : EventOutcome)
    (s : Deliveries wire.Bytes ι κ) : Prop :=
  (outcome.Observed → ∃ record, Stored key record s ∧ Agrees key record outcome) ∧
    (outcome.isCreated = true → s.creator = some i)

omit [DecidableEq ι] [DecidableEq κ] in
theorem Delivered.returned {payload : Any} {result : Except Err EventDeliveryDisposition}
    (h : Delivered key payload i result s) : Returned key i (.delivered payload result) s := by
  refine ⟨fun _ => h.agrees, ?_⟩
  intro hcreated
  apply h.creator
  unfold EventOutcome.isCreated at hcreated
  split at hcreated
  · next heq =>
      cases heq
      rfl
  · cases hcreated

omit [DecidableEq ι] [DecidableEq κ] in
theorem Waited.returned {result : Except Err Message} (h : Waited key result s) :
    Returned key i (.waited result) s := by
  refine ⟨?_, by simp [EventOutcome.isCreated]⟩
  intro hobserved
  cases result with
  | error err => cases hobserved
  | ok message =>
    obtain ⟨record, hstored, rfl⟩ := h message rfl
    refine ⟨record, hstored, ?_⟩
    intro other hother
    cases hother
    rfl

omit [DecidableEq ι] in
theorem EventCall.wp {p : EventProgram wire}
    (h : EventCall wire key parses (inv.scope (inv.home i)) p) :
    p.wp (delivering wire key inv i) (fun outcome s' => Returned key i outcome s') s := by
  have hother {α : Type} {Q : α → Deliveries wire.Bytes ι κ → Prop} (r : α)
      (s : Deliveries wire.Bytes ι κ) (_ : Q r s) : Returned key i .other s :=
    ⟨False.elim, by simp [EventOutcome.isCreated]⟩
  cases h with
  | deliver cached record hrecord =>
    have hdeliverable := (validateEventDeliveryRecord_eq_ok.1 hrecord).1
    exact (ends_deliver cached hdeliverable).done fun _ _ hdelivered => hdelivered.returned
  | send cached payload =>
    exact (ends_deliverEvent cached payload).done fun _ _ hdelivered => hdelivered.returned
  | wait fullName poll hscope hpoll =>
    exact (ends_waitEvent hscope hpoll).done fun _ _ hwaited => hwaited.returned
  | get k =>
    by_cases hk : k = key.val
    · subst hk
      exact ends_cachedGetEvent.done hother
    · exact (ends_elsewhere (elsewhere_cachedGetEvent hk) stable_true trivial).done hother
  | list run => exact (ends_cachedListEvents run).done hother
  | prefetch others hothers => exact (ends_prefetch hothers).done hother
  | other code hcode => exact (ends_elsewhere hcode stable_true trivial).done hother

omit [DecidableEq ι] [DecidableEq κ] in
theorem Once.complete {scope : κ → WorkflowKey} {s' : Deliveries wire.Bytes ι κ}
    (h : Once key scope s) (hbucket : s'.bucket = s.bucket) (hcaches : s'.caches = s.caches)
    (hcreator : s'.creator.isSome = true → s.creator.isSome = true)
    (hcreated : s'.outcomes.countP EventOutcome.isCreated + (if s'.creator.isSome then 1 else 0) ≤ 1)
    (houtcomes : ∀ outcome ∈ s'.outcomes, outcome ∈ s.outcomes ∨
      (outcome.Observed → ∃ record, Stored key record s ∧ Agrees key record outcome)) :
    Once key scope s' := by
  have hstored : ∀ record, Stored key record s → Stored key record s' := by
    intro record hrecord
    exact ⟨by rw [hbucket]; exact hrecord.lookup, hrecord.deliverable⟩
  have hback : ∀ record, Stored key record s' → Stored key record s := by
    intro record hrecord
    exact ⟨by rw [← hbucket]; exact hrecord.lookup, hrecord.deliverable⟩
  constructor
  · intro data hdata
    rw [hbucket] at hdata
    obtain ⟨record, hrecord⟩ := h.stored data hdata
    exact ⟨record, hstored record hrecord⟩
  · intro k record hscope hget
    rw [hcaches] at hget
    exact hstored record (h.cached k record hscope hget)
  · intro hsome
    obtain ⟨record, hrecord⟩ := h.creator (hcreator hsome)
    exact ⟨record, hstored record hrecord⟩
  · exact hcreated
  · intro outcome hmem hobserved
    rcases houtcomes outcome hmem with hold | hnew
    · obtain ⟨record, hrecord⟩ := h.observed outcome hold hobserved
      exact ⟨record, hstored record hrecord⟩
    · obtain ⟨record, hrecord, -⟩ := hnew hobserved
      exact ⟨record, hstored record hrecord⟩
  · intro outcome hmem record hrecord
    rcases houtcomes outcome hmem with hold | hnew
    · exact h.agrees outcome hold record (hback record hrecord)
    · by_cases hobserved : outcome.Observed
      · obtain ⟨other, hother, hagrees⟩ := hnew hobserved
        rw [hother.unique (hback record hrecord)] at hagrees
        exact hagrees
      · exact agrees_of_not_observed hobserved

omit [DecidableEq κ] in
theorem keepsEvent_release {i j : ι} (hj : j ≠ i) (outcomes : List EventOutcome) :
    KeepsEvent key j s { s.release wire i with outcomes := outcomes } := by
  refine ⟨fun _ h => h, ?_⟩
  intro hcreator
  simp [Deliveries.release, hcreator, hj]

omit [DecidableEq κ] in
theorem creator_release (i : ι) :
    (s.release wire i).creator.isSome = true → s.creator.isSome = true := by
  intro h
  simp only [Deliveries.release] at h
  split at h
  · cases h
  · exact h

omit [DecidableEq κ] in
theorem Once.crash {scope : κ → WorkflowKey} (h : Once key scope s) (i : ι) :
    Once key scope (s.release wire i) := by
  refine h.complete rfl rfl (creator_release i) ?_ ?_
  · have hcreated := h.created
    have hcreator := creator_release (s := s) i
    change s.outcomes.countP EventOutcome.isCreated + _ ≤ 1
    split
    · next hsome => simpa [hcreator hsome] using hcreated
    · omega
  · exact fun _ hmem => Or.inl hmem

omit [DecidableEq κ] in
theorem Once.ret {scope : κ → WorkflowKey} (h : Once key scope s) {i : ι}
    (hreturned : Returned key i outcome s) :
    Once key scope { s.release wire i with outcomes := outcome :: s.outcomes } := by
  refine h.complete rfl rfl (creator_release i) ?_ ?_
  · have hcrash := (h.crash i).created
    change s.outcomes.countP EventOutcome.isCreated + _ ≤ 1 at hcrash
    cases houtcome : outcome.isCreated with
    | false => simpa [houtcome] using hcrash
    | true =>
      have hcreator := hreturned.2 houtcome
      have hcreated := h.created
      simp only [hcreator, Option.isSome_some, if_true] at hcreated
      simpa [houtcome, Deliveries.release, hcreator] using hcreated
  · intro earlier hmem
    rcases List.mem_cons.1 hmem with rfl | hmem
    · exact Or.inr hreturned.1
    · exact Or.inl hmem

variable (wire key inv parses) in
def deliveryOutline : System.Outline (deliveries wire key inv parses) (Undelivered wire key) where
  Inv := Once key inv.scope
  Rely := KeepsEvent key
  Guar i s _ _ s' :=
    Once key inv.scope s' ∧ KeepsObject key s s' ∧ ∀ j, j ≠ i → KeepsEvent key j s s'
  Post := Returned key
  init s hs := by
    constructor
    · intro data hdata
      rw [hs.bucket] at hdata
      cases hdata
    · intro k record _ hget
      rw [hs.caches k] at hget
      cases hget
    · simp [hs.creator]
    · simp [hs.creator, hs.outcomes]
    · simp [hs.outcomes]
    · simp [hs.outcomes]
  trans _ _ _ _ h h' := h.trans h'
  stable i outcome s s' hpost hkeeps := by
    refine ⟨?_, fun hcreated => hkeeps.creator (hpost.2 hcreated)⟩
    intro hobserved
    obtain ⟨record, hstored, hagrees⟩ := hpost.1 hobserved
    exact ⟨record, hstored.kept hkeeps, hagrees⟩
  begins i s p s' honce hbegins := by
    obtain ⟨hcall, rfl⟩ := hbegins
    exact ⟨honce, fun j _ => .refl j s', hcall.wp⟩
  acts i s op r s' _ _ hguar := ⟨hguar.1, hguar.2.2⟩
  returns i s outcome s' honce hpost hreturns := by
    subst hreturns
    exact ⟨honce.ret hpost, fun j hj => keepsEvent_release hj _⟩
  crashes i s s' honce hcrash := by
    subst hcrash
    exact ⟨honce.crash i, fun j hj => keepsEvent_release hj s.outcomes⟩

abbrev DeliveryConfig (wire : Wire) (ι κ : Type) :=
  Config (eventSignature wire.Bytes) ι (Deliveries wire.Bytes ι κ) EventOutcome

theorem keepsObject_of_step {c c' : DeliveryConfig wire ι κ}
    (hc : (deliveries wire key inv parses).Reachable (Undelivered wire key) c)
    (h : (deliveries wire key inv parses).Step c c') : KeepsObject key c.state c'.state := by
  cases h with
  | begins _ hbegins =>
    rw [hbegins.2]
    exact fun _ h => h
  | acts hi hacts =>
    exact ((deliveryOutline wire key inv parses).guar_of_reachable hc hi hacts).2.1
  | returns _ hreturns =>
    rw [show _ = _ from hreturns]
    exact fun _ h => h
  | crashes _ hcrash =>
    rw [show _ = _ from hcrash]
    exact fun _ h => h

theorem keepsObject_of_steps {c c' : DeliveryConfig wire ι κ}
    (hc : (deliveries wire key inv parses).Reachable (Undelivered wire key) c)
    (h : Relation.ReflTransGen (deliveries wire key inv parses).Step c c') :
    KeepsObject key c.state c'.state := by
  induction h with
  | refl => exact fun _ h => h
  | tail hsteps hstep ih =>
    obtain ⟨s₀, hstart, hrun⟩ := hc
    have hreached := keepsObject_of_step ⟨s₀, hstart, hrun.trans hsteps⟩ hstep
    exact fun data hdata => hreached data (ih data hdata)

/-- An event is delivered once. In every run in which nobody puts or deletes it: the object never
changes after it first exists; at most one delivery returns `CREATED`; a delivery that returns
carried the stored payload, and one with another payload raises the conflict; and all waits that
return a payload return the same one. -/
theorem event_delivered_once {c : DeliveryConfig wire ι κ}
    (hc : (deliveries wire key inv parses).Reachable (Undelivered wire key) c) :
    (∀ c', Relation.ReflTransGen (deliveries wire key inv parses).Step c c' →
      ∀ data, c.state.bucket.objects.lookup key.val.location = some data →
        c'.state.bucket.objects.lookup key.val.location = some data) ∧
    c.state.outcomes.countP EventOutcome.isCreated ≤ 1 ∧
    (∀ payload result, .delivered payload result ∈ c.state.outcomes →
      ∃ record, c.state.bucket.objects.lookup key.val.location = some (wire.event.marshal record) ∧
        (∀ disposition, result = .ok disposition → eventPayload record = payload ∧
          (disposition = .created ∨ disposition = .idempotent)) ∧
        (eventPayload record ≠ payload → result = .error (eventDeliveryConflictError key.val))) ∧
    ∀ message message', .waited (.ok message) ∈ c.state.outcomes →
      .waited (.ok message') ∈ c.state.outcomes → message = message' := by
  have honce := ((deliveryOutline wire key inv parses).good_of_reachable hc).inv
  refine ⟨fun c' hsteps => keepsObject_of_steps hc hsteps, ?_, ?_, ?_⟩
  · have hcreated := honce.created
    omega
  · intro payload result hmem
    obtain ⟨record, hstored⟩ := honce.observed _ hmem trivial
    obtain ⟨hok, hconflict⟩ := honce.agrees _ hmem record hstored
    refine ⟨record, hstored.lookup, ?_, hconflict⟩
    intro disposition hresult
    obtain ⟨hpayload, hspecified⟩ := hok disposition hresult
    cases disposition with
    | unspecified => exact absurd rfl hspecified
    | created => exact ⟨hpayload, Or.inl rfl⟩
    | idempotent => exact ⟨hpayload, Or.inr rfl⟩
  · intro message message' hmem hmem'
    obtain ⟨record, hstored⟩ := honce.observed _ hmem rfl
    rw [honce.agrees _ hmem record hstored message rfl,
      honce.agrees _ hmem' record hstored message' rfl]

end Interleavings

section Doorbell

def doorbellKey : RecordKey .event := ⟨⟨"default", "wf", "run", "doorbell"⟩, by decide, by decide⟩

def ring (times : UInt8) : Message := ⟨"Ring", [times]⟩

def doorbellInvocations : Invocations Bool Unit := ⟨fun _ => doorbellKey.val.run, fun _ => ()⟩

abbrev DoorbellConfig := DeliveryConfig taggedWire Bool Unit

abbrev doorbell : System (eventSignature taggedWire.Bytes) Bool (Deliveries taggedWire.Bytes Bool Unit)
    EventOutcome := deliveries taggedWire doorbellKey doorbellInvocations fun _ => true

namespace DoorbellConfig

def isNow : EventOp taggedWire.Bytes → Bool
  | .bucket .now => true
  | _ => false

def move (i : Bool) (s : Deliveries taggedWire.Bytes Bool Unit) (op : EventOp taggedWire.Bytes) :
    Option (op.Reply × Deliveries taggedWire.Bytes Bool Unit) :=
  if isNow op && !(Timestamp.new s.bucket.time).checkValid then none
  else some (s.step taggedWire doorbellKey doorbellInvocations i op)

def begun (c : DoorbellConfig) (i : Bool) (p : EventProgram taggedWire) : DoorbellConfig :=
  ⟨Function.update c.procs i (some p), c.state⟩

def turns (c : DoorbellConfig) (schedule : List Bool) : DoorbellConfig :=
  schedule.foldl (System.turn move) c

def returned (c : DoorbellConfig) (i : Bool) (outcome : EventOutcome) : DoorbellConfig :=
  ⟨Function.update c.procs i none,
    { c.state.release taggedWire i with outcomes := outcome :: c.state.outcomes }⟩

def start : DoorbellConfig := ⟨fun _ => none, ⟨⟨∅, [], 0⟩, fun _ => .empty, none, []⟩⟩

def sends (times : UInt8) : EventProgram taggedWire :=
  (deliverEvent (deliveryStore taggedWire doorbellKey.val.run true) doorbellKey.val (ring times)).run.bind
    fun r => .done (.delivered (ring times).toAny r)

def raced : DoorbellConfig :=
  ((start.begun false (sends 1)).begun true (sends 2)).turns
    [false, false, true, true, true, false, false, true, true]

def waits : EventProgram taggedWire :=
  (waitEvent (fun _ => true) doorbellKey.val.run "doorbell" "Ring" none).run.bind fun r =>
    .done (.waited r)

def conflicting : EventOutcome :=
  .delivered (ring 1).toAny (.error (eventDeliveryConflictError doorbellKey.val))

def creating : EventOutcome := .delivered (ring 2).toAny (.ok .created)

/-- Both return, and the first one waits for the event. -/
def answered : DoorbellConfig :=
  ((((raced.returned true creating).returned false conflicting).begun false waits).turns
    [false]).returned false (.waited (.ok (ring 2)))

variable {c : DoorbellConfig}

abbrev Reaches (c : DoorbellConfig) : Prop := Relation.ReflTransGen doorbell.Step start c

theorem Reaches.turns (h : Reaches c) (schedule : List Bool) : Reaches (c.turns schedule) := by
  apply h.trans
  apply System.steps_of_turns
  intro i s op r s' hmove
  unfold move at hmove
  split at hmove
  · cases hmove
  · next hvalid =>
      have heq := Option.some.inj hmove
      obtain rfl : _ = r := congrArg Prod.fst heq
      obtain rfl : _ = s' := congrArg Prod.snd heq
      by_cases hnow : op = .bucket .now
      · subst hnow
        exact .now s.bucket.time (by simpa [isNow] using hvalid)
      · exact .step op hnow

theorem Reaches.begun (h : Reaches c) {i : Bool} {p : EventProgram taggedWire}
    (hi : c.procs i = none)
    (hp : EventCall taggedWire doorbellKey (fun _ => true) doorbellKey.val.run p) :
    Reaches (c.begun i p) := h.tail (.begins hi ⟨hp, rfl⟩)

theorem Reaches.returned (h : Reaches c) {i : Bool}
    (hi : c.procs i = some (.done outcome)) : Reaches (c.returned i outcome) :=
  h.tail (.returns hi rfl)

end DoorbellConfig

open DoorbellConfig

/-- One of two senders creates the event, the other one is told of the conflict, and a wait
returns what the first one has sent. -/
theorem doorbell_delivered_once :
    doorbell.Reachable (Undelivered taggedWire doorbellKey) answered ∧
      answered.state.outcomes = [.waited (.ok (ring 2)), conflicting, creating] ∧
      answered.state.outcomes.countP EventOutcome.isCreated ≤ 1 := by
  have hsends : ∀ times, EventCall taggedWire doorbellKey (fun _ => true) doorbellKey.val.run
      (sends times) := fun times => .send true (ring times)
  have hwaits : EventCall taggedWire doorbellKey (fun _ => true) doorbellKey.val.run waits :=
    .wait "Ring" none rfl (by simp)
  have hbegun : Reaches ((start.begun false (sends 1)).begun true (sends 2)) :=
    Reaches.begun (Reaches.begun .refl rfl (hsends 1)) rfl (hsends 2)
  have hraced : Reaches raced := hbegun.turns _
  have hreturned : Reaches ((raced.returned true creating).returned false conflicting) :=
    Reaches.returned (Reaches.returned hraced rfl) rfl
  have hanswered : Reaches answered :=
    Reaches.returned ((Reaches.begun hreturned rfl hwaits).turns [false]) rfl
  have hreachable : doorbell.Reachable (Undelivered taggedWire doorbellKey) answered :=
    ⟨start.state, ⟨rfl, fun _ => rfl, rfl, rfl⟩, hanswered⟩
  exact ⟨hreachable, rfl, (event_delivered_once hreachable).2.1⟩

end Doorbell

end Temporaless.Python
