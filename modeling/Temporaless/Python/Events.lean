import Temporaless.Python.Records

/-!
# Event delivery of the Python SDK

`deliver_event` of the store, of the run-scoped cache and of the module, and `wait_event`. Besides
the operations of the bucket there is a write that creates an object only if there is none, and the
cache of events of the invocation.
-/

namespace Temporaless.Python

open PathTree Effects OpenDALStore

inductive EventDeliveryDisposition where
  | unspecified | created | idempotent
  deriving DecidableEq, Repr

inductive EventDeliveryCapability where
  | unspecified | noAtomicEventDelivery | createOnlyEventDelivery
  deriving DecidableEq, Repr

/-- The events of a `RunScopedCache`: `none` records that there was no event. -/
structure EventCache where
  events : List (String × Option EventRecord)
  listed : Bool

namespace EventCache

def empty : EventCache := ⟨[], false⟩

def get (cache : EventCache) (eventID : String) : Option (Option EventRecord) :=
  cache.events.lookup eventID

def assign (events : List (String × Option EventRecord)) (entry : String × Option EventRecord) :
    List (String × Option EventRecord) :=
  if events.any (·.1 == entry.1) then events.map fun e => if e.1 == entry.1 then entry else e
  else events ++ [entry]

def update (cache : EventCache) (entries : List (String × Option EventRecord)) (listed : Bool) :
    EventCache :=
  ⟨entries.foldl assign cache.events, cache.listed || listed⟩

theorem lookup_assign {events : List (String × Option EventRecord)}
    {entry : String × Option EventRecord} {eventID : String} {value : Option EventRecord}
    (h : (assign events entry).lookup eventID = some value) :
    events.lookup eventID = some value ∨ (eventID, value) = entry := by
  obtain ⟨name, record⟩ := entry
  unfold assign at h
  split at h
  · clear * - h
    induction events with
    | nil => simp at h
    | cons e events ih =>
      obtain ⟨other, held⟩ := e
      by_cases hother : other = name
      · subst hother
        by_cases hid : eventID = other
        · subst hid
          simp at h
          exact Or.inr (by rw [h])
        · simp only [List.map_cons, beq_self_eq_true, if_true, List.lookup_cons,
            beq_eq_false_iff_ne.2 hid] at h ⊢
          exact ih h
      · simp only [List.map_cons, beq_eq_false_iff_ne.2 hother, Bool.false_eq_true, if_false,
          List.lookup_cons] at h ⊢
        by_cases hid : eventID = other
        · subst hid
          simpa using Or.inl h
        · simp only [beq_eq_false_iff_ne.2 hid] at h ⊢
          exact ih h
  · rw [List.lookup_append] at h
    cases hlookup : events.lookup eventID with
    | some found =>
      rw [hlookup] at h
      exact Or.inl h
    | none =>
      rw [hlookup] at h
      by_cases hid : eventID = name
      · subst hid
        simp at h
        exact Or.inr (by rw [h])
      · simp [List.lookup_cons, beq_eq_false_iff_ne.2 hid] at h

theorem get_update {cache : EventCache} {entries : List (String × Option EventRecord)} {listed : Bool}
    {eventID : String} {value : Option EventRecord}
    (h : (cache.update entries listed).get eventID = some value) :
    cache.get eventID = some value ∨ (eventID, value) ∈ entries := by
  have hfold : ∀ (entries events : List (String × Option EventRecord)),
      (entries.foldl assign events).lookup eventID = some value →
      events.lookup eventID = some value ∨ (eventID, value) ∈ entries := by
    intro entries
    induction entries with
    | nil => exact fun events h => Or.inl h
    | cons entry entries ih =>
      intro events h
      rcases ih (assign events entry) h with hlookup | hmem
      · rcases lookup_assign hlookup with hold | hnew
        · exact Or.inl hold
        · exact Or.inr (hnew ▸ List.mem_cons_self)
      · exact Or.inr (List.mem_cons_of_mem _ hmem)
  exact hfold entries cache.events h

end EventCache

inductive EventOp (Bytes : Type) where
  | bucket (op : BucketOp Bytes)
  | create (path : Path) (data : Bytes)
  | recollect
  | remember (entries : List (String × Option EventRecord)) (listed : Bool)

/-- A write with `if_not_exists` answers `false` where it raises `AlreadyExists` or
`ConditionNotMatch`. -/
abbrev EventOp.Reply {Bytes : Type} : EventOp Bytes → Type
  | .bucket op => op.Reply
  | .create _ _ => Bool
  | .recollect => EventCache
  | .remember _ _ => Unit

abbrev eventSignature (Bytes : Type) : Signature := ⟨EventOp Bytes, EventOp.Reply⟩

abbrev EventM (Bytes : Type) (α : Type) := ExceptT Err (Program (eventSignature Bytes)) α

section Operations

variable {Bytes α : Type}

def onBucket (code : BucketM Bytes α) : EventM Bytes α :=
  ExceptT.mk (code.run.hoist (τ := eventSignature Bytes) EventOp.bucket fun _ r => r)

def createObject (path : Path) (data : Bytes) : EventM Bytes Bool :=
  ExceptT.mk (.call (σ := eventSignature Bytes) (.create path data) fun r => .done (.ok r))

def recollectEvents : EventM Bytes EventCache :=
  ExceptT.mk (.call (σ := eventSignature Bytes) .recollect fun r => .done (.ok r))

def rememberEvents (entries : List (String × Option EventRecord)) (listed : Bool) :
    EventM Bytes Unit :=
  ExceptT.mk (.call (σ := eventSignature Bytes) (.remember entries listed) fun _ => .done (.ok ()))

end Operations

def checkReceivedAt (receivedAt : Option Timestamp) : Except Err Unit :=
  match receivedAt with
  | none => throw (recordError "event delivery received_at is required")
  | some t => checkTimestamp t "event delivery has invalid received_at: "

def validateEventDeliveryRecord (record : EventRecord) (expectedKey : Option EventKey) :
    Except Err EventKey := do
  let key ← validateEventRecord record ⟨expectedKey, none, none⟩
  require record.payload.isSome "event delivery payload is required"
  checkReceivedAt record.receivedAt
  return key

/-- A field that is not set serializes as an empty message does. -/
def eventPayload (record : EventRecord) : Any := record.payload.getD ⟨"", []⟩

def sameEventPayload (left right : EventRecord) : Bool :=
  itemKeyFromProto left.key == itemKeyFromProto right.key && eventPayload left == eventPayload right

def validateEventDeliveryDisposition (disposition : EventDeliveryDisposition) :
    Except Err EventDeliveryDisposition := do
  require (disposition != .unspecified) "event delivery store returned invalid disposition 0"
  return disposition

def eventDeliveryConflictError (key : EventKey) : Err :=
  exception .eventDeliveryConflictError ("event '" ++ key.workflowID ++ "'/'" ++ key.runID ++ "'/'" ++
    key.id ++ "' already contains a different payload")

/-- The capability of a store whose operator has `write_with_if_not_exists`, or has it not. -/
def eventDeliveryCapability (conditional : Bool) : EventDeliveryCapability :=
  if conditional then .createOnlyEventDelivery else .noAtomicEventDelivery

section Store

variable (wire : Wire) (conditional : Bool)

def compareDelivery (key : EventKey) (record : EventRecord) :
    EventM wire.Bytes EventDeliveryDisposition := do
  match ← onBucket (getEvent wire key) with
  | none => throw (exception .runtimeError
      "conditional event create reported an existing object that could not be read")
  | some existing =>
    let _ ← validateEventDeliveryRecord existing (some key)
    if sameEventPayload existing record then return .idempotent
    throw (eventDeliveryConflictError key)

/-- `OpenDALStore.deliver_event`. -/
def storeDeliverEvent (record : EventRecord) : EventM wire.Bytes EventDeliveryDisposition := do
  let key ← validateEventDeliveryRecord record none
  if eventDeliveryCapability conditional ≠ .createOnlyEventDelivery then
    throw (exception .eventDeliveryUnsupportedError
      "OpenDAL backend does not support atomic event creation")
  let dir ← itemDirPath key
  onBucket (createDir dir)
  let path ← itemPath key
  if ← createObject path (wire.event.marshal record) then return .created
  compareDelivery wire key record

end Store

namespace RunScopedCache

variable (wire : Wire) (conditional : Bool) (scope : WorkflowKey)

def checkHit (key : EventKey) (record : Option EventRecord) : Except Err Unit :=
  whenGiven record fun record => (validateEventRecord record ⟨some key, none, none⟩).map fun _ => ()

def getEvent (key : EventKey) : EventM wire.Bytes (Option EventRecord) := do
  if key.run ≠ scope then
    let record ← onBucket (Python.getEvent wire key)
    checkHit key record
    return record
  let cache ← recollectEvents
  match cache.get key.id with
  | some record =>
    checkHit key record
    return record
  | none =>
    if cache.listed then
      return none
    let record ← onBucket (Python.getEvent wire key)
    checkHit key record
    rememberEvents [(key.id, record)] false
    return record

def deliverEvent (record : EventRecord) : EventM wire.Bytes EventDeliveryDisposition := do
  let key ← validateEventDeliveryRecord record none
  let disposition ← storeDeliverEvent wire conditional record
  let disposition ← validateEventDeliveryDisposition disposition
  match ← onBucket (Python.getEvent wire key) with
  | none => throw (recordError
      "atomic event delivery succeeded but the stored event could not be read")
  | some stored =>
    let _ ← validateEventDeliveryRecord stored (some key)
    require (sameEventPayload stored record)
      "atomic event delivery succeeded with a different stored payload"
    if key.run = scope then
      rememberEvents [(key.id, some stored)] false
    return disposition

def listedEntries (keys : List EventKey) (records : List EventRecord) :
    List (String × Option EventRecord) :=
  (keys.zip records).map fun entry => (entry.1.id, some entry.2)

def listEvents (key : WorkflowKey) : EventM wire.Bytes (List EventRecord) := do
  if key ≠ scope then
    let records ← onBucket (Python.listEvents wire key)
    let _ ← eventKeysForRun key records
    return records
  let cache ← recollectEvents
  if cache.listed then
    let records := cache.events.filterMap Prod.snd
    let _ ← eventKeysForRun key records
    return records
  let records ← onBucket (Python.listEvents wire key)
  let keys ← eventKeysForRun key records
  rememberEvents (listedEntries keys records) true
  return records

/-- `prefetch`: the listings of activities and timers run beside that of the events and touch
neither an event nor its cache entry. -/
def prefetch (others : EventM wire.Bytes Unit) : EventM wire.Bytes Unit := do
  let records ← onBucket (Python.listEvents wire scope)
  others
  let keys ← eventKeysForRun scope records
  rememberEvents (listedEntries keys records) true

end RunScopedCache

section Callers

variable (wire : Wire)

/-- The methods of an `EventDeliveryStore`. -/
structure EventDeliveryStore where
  capability : EventDeliveryCapability
  deliverEvent : EventRecord → EventM wire.Bytes EventDeliveryDisposition

variable {wire}

def checkDeliveryCapability (capability : EventDeliveryCapability) : Except Err Unit :=
  match capability with
  | .unspecified | .noAtomicEventDelivery =>
    throw (exception .eventDeliveryUnsupportedError
      "configured store does not support atomic event creation")
  | .createOnlyEventDelivery => return

def newEventRecord (key : EventKey) (payload : Message) (now : Int) : EventRecord where
  schemaVersion := .event
  key := some key
  payload := some payload.toAny
  receivedAt := some (Timestamp.new now)

/-- `deliver_event` of the module, after the record has been made. -/
def deliverRecord (store : EventDeliveryStore wire) (key : EventKey) (record : EventRecord) :
    EventM wire.Bytes EventDeliveryDisposition := do
  let _ ← validateEventDeliveryRecord record (some key)
  let disposition ← store.deliverEvent record
  validateEventDeliveryDisposition disposition

def deliverEvent (store : EventDeliveryStore wire) (key : EventKey) (payload : Message) :
    EventM wire.Bytes EventDeliveryDisposition := do
  validateItemKey key
  checkDeliveryCapability store.capability
  let now ← onBucket clock
  deliverRecord store key (newEventRecord key payload now)

/-- `Any.TypeName`: what follows the last slash of the type URL. -/
def typeName (any : Any) : String :=
  String.ofList (any.typeURL.toList.reverse.takeWhile (· != '/')).reverse

/-- `Any.Unpack` into a message of type `fullName`, unless its bytes cannot be parsed. -/
def unpack (parses : Message → Bool) (any : Any) (fullName : String) : Except Err (Option Message) :=
  let message : Message := ⟨fullName, any.value⟩
  if any.typeURL.toList.contains '/' && typeName any == fullName then
    if parses message then .ok (some message)
    else .error (exception .decodeError "Error parsing message")
  else .ok none

/-- The polling of a wait: its options, and the code that arms and resolves the poll timer. -/
structure Poll (wire : Wire) where
  interval : Except Err Unit
  arm : EventM wire.Bytes Int
  resolve : EventM wire.Bytes Unit

def workflowInfrastructure (operation : String) (err : Err) : Err :=
  match err with
  | .node (.exception .decodeError _) _ | .node (.exception .runRecordValidationError _) _
  | .node (.exception .validationError _) _
  | .node (.exception .workflowInfrastructureError _) _ => err
  | _ => .node (.exception .workflowInfrastructureError
      ("workflow infrastructure operation '" ++ operation ++ "' failed: " ++ err.message)) [err]

/-- `isoformat` of an instant in UTC, in microseconds. -/
def isoformat (t : Int) : String :=
  let seconds := t / 1000000
  let micros := (t % 1000000).toNat
  let (year, month, day) := civilDate (seconds / 86400)
  let ofDay := (seconds % 86400).toNat
  padded 4 year.toNat ++ "-" ++ padded 2 month ++ "-" ++ padded 2 day ++ "T" ++
    padded 2 (ofDay / 3600) ++ ":" ++ padded 2 (ofDay / 60 % 60) ++ ":" ++ padded 2 (ofDay % 60) ++
    (if micros = 0 then "" else "." ++ padded 6 micros) ++ "+00:00"

def eventPending (eventID : String) (wakeAt : Option Int) : Err :=
  exception .eventPendingError ("event '" ++ eventID ++ "' is pending" ++
    (wakeAt.map fun t => "; next poll at " ++ isoformat t).getD "")

/-- The part of `wait_event` that has a record to return. -/
def resolveEvent (parses : Message → Bool) (key : EventKey) (fullName : String)
    (poll : Option (Poll wire)) (record : EventRecord) : EventM wire.Bytes Message := do
  let _ ← validateEventDeliveryRecord record (some key)
  poll.elim (pure ()) Poll.resolve
  match ← unpack parses (eventPayload record) fullName with
  | none => throw (exception .workflowConflictError
      "stored event payload type does not match requested payload")
  | some message => return message

def waitEvent (parses : Message → Bool) (scope : WorkflowKey) (eventID fullName : String)
    (poll : Option (Poll wire)) : EventM wire.Bytes Message := do
  let key := scope.item .event eventID
  validateItemKey key
  poll.elim (pure ()) fun poll => liftM poll.interval
  match ← attempt (RunScopedCache.getEvent wire scope key) with
  | .error err => throw (workflowInfrastructure "read workflow event" err)
  | .ok none =>
    let wakeAt ← poll.elim (pure none) fun poll => some <$> poll.arm
    throw (eventPending eventID wakeAt)
  | .ok (some record) => resolveEvent parses key fullName poll record

end Callers

end Temporaless.Python
