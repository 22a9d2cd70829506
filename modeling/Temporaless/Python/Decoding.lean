import Temporaless.Framework.Loop
import Temporaless.Python.Ledger

/-!
# What one read of the Python store says

The point reads of the Python store read one object and judge its bytes. What they answer is a
function of the reply to that read, whatever the rest of the bucket holds and whoever else is at
work on it.
-/

namespace Temporaless.Python

open PathTree Effects OpenDALStore

variable {err : Err} {path : Path} {record : TimerRecord} {entry : DueTimerEntry}

def Recoverable (err : Err) : Prop := recoverable err

abbrev Recovers {α : Type} (check : Except Err α) : Prop := Loop.Raises Recoverable check

section Recovers

variable {α : Type}

@[grind ←] theorem recoverable_exception {cls : ExceptionClass} (hcls : cls.recoverable = true)
    (text : String) : Recoverable (exception cls text) := hcls

@[grind ←] theorem recoverable_recordError (text : String) : Recoverable (recordError text) := rfl

@[grind ←] theorem recovers_require (ok : Bool) (text : String) : Recovers (require ok text) := by
  grind [require]

@[grind ←] theorem recovers_validate (message : String) (violations : List Violation) :
    Recovers (validate message violations) := by
  grind [validate, ExceptionClass.recoverable]

@[grind ←] theorem recovers_whenGiven {expected : Option α} {check : α → Except Err Unit}
    (h : ∀ a, Recovers (check a)) : Recovers (whenGiven expected check) := by
  cases expected with
  | none => exact Loop.raises_ok _
  | some a => exact h a

@[grind ←] theorem recovers_validateUserScope (ns workflowID : String) :
    Recovers (validateUserScope ns workflowID) := by
  grind [validateUserScope, ExceptionClass.recoverable]

@[grind ←] theorem recovers_validateWorkflowKey (key : WorkflowKey) :
    Recovers (validateWorkflowKey key) := by
  grind [validateWorkflowKey]

@[grind ←] theorem recovers_validateTimerKey (key : TimerKey) : Recovers (validateTimerKey key) := by
  grind [validateTimerKey]

@[grind ←] theorem recovers_validateRecordLocation {Key : Type} [DecidableEq Key] (recordKey : Key)
    (run : WorkflowKey) {path : Except Err Path} (hpath : Recovers path) (recordKind : String)
    (expected : Expectation Key) :
    Recovers (validateRecordLocation recordKey run path recordKind expected) := by
  grind [validateRecordLocation, validateRunIdentity]

@[grind ←] theorem recovers_checkTimestamp (t : Timestamp) (text : String) :
    Recovers (checkTimestamp t text) := by
  grind [checkTimestamp]

@[grind ←] theorem recovers_validateTimerRecord (record : TimerRecord) (expected : Expectation TimerKey) :
    Recovers (validateTimerRecord record expected) := by
  apply (recovers_require _ _).bind
  intro _
  apply (recovers_validate _ _).bind
  intro _
  apply (recovers_validateTimerKey _).bind
  intro _
  apply (recovers_validateRecordLocation _ _ ((recovers_validateTimerKey _).map _) _ _).bind
  intro _
  exact Loop.raises_ok _

@[grind ←] theorem recovers_validateEntryStatus (record : TimerRecord) :
    Recovers (validateEntryStatus record) := by
  grind [validateEntryStatus]

@[grind ←] theorem recovers_validateDueEntry (entry : DueTimerEntry) (expectedKey : Option TimerKey)
    (expectedRun : Option WorkflowKey) (ns : Option String) (path : Option Path) :
    Recovers (validateDueEntry entry expectedKey expectedRun ns path) := by
  apply (recovers_validateEntryStatus _).bind
  intro _
  apply (recovers_validate _ _).bind
  intro _
  apply (recovers_validate _ _).bind
  intro _
  apply (recovers_validate _ _).bind
  intro _
  apply (recovers_validateTimerRecord _ _).bind
  intro timerKey
  apply (recovers_validateWorkflowKey _).bind
  intro _
  apply (recovers_require _ _).bind
  intro _
  apply (recovers_require _ _).bind
  intro _
  apply (recovers_whenGiven fun _ => recovers_require _ _).bind
  intro _
  apply (recovers_require _ _).bind
  intro _
  apply (recovers_whenGiven fun _ => ((recovers_validateTimerKey _).map _).bind fun _ =>
    recovers_require _ _).bind
  intro _
  exact Loop.raises_ok _

end Recovers

section Decode

variable {wire : Wire} {α S : Type} {F : CallSpec (bucketSignature wire.Bytes) S} {s : S}

def decodeMessage {Bytes : Type} (codec : Codec Bytes α) : Except Err Bytes → Except Err (Option α)
  | .error err => if isOpenDALNotFound err then .ok none else .error err
  | .ok data =>
    match codec.unmarshal data with
    | .error text => .error (exception .decodeError text)
    | .ok record => .ok (some record)

def checked {κ : Type} (check : α → Except Err κ) : Option α → Except Err (Option α)
  | none => .ok none
  | some record => (check record).map fun _ => some record

def decodeEntry (wire : Wire) (key : RecordKey .timer) (reply : Except Err wire.Bytes) :
    Except Err (Option DueTimerEntry) :=
  (decodeMessage wire.due reply).bind
    (checked fun entry => validateDueEntry entry (some key.val) none none (some key.val.dueLocation))

def decodePoint (wire : Wire) (key : RecordKey .timer) (reply : Except Err wire.Bytes) :
    Except Err (Option TimerRecord) :=
  (decodeMessage wire.timer reply).bind
    (checked fun record => validateTimerRecord record ⟨some key.val, none, some key.val.location⟩)

theorem ends_readMessage (codec : Codec wire.Bytes α) (path : Path)
    {Q : Except Err (Option α) → S → Prop} :
    ends F (readMessage codec path) Q s ↔
      F.pre (.read path) (fun r s' => Q (decodeMessage codec r) s') s := by
  rw [readMessage, ends_bind, ends_attempt, ends_readObject]
  refine iff_of_eq (congrArg (fun Q' => F.pre (.read path) Q' s) ?_)
  funext r s'
  cases r with
  | error err => by_cases h : isOpenDALNotFound err <;> simp [decodeMessage, h, ends_pure,
      ends_throw]
  | ok data => rcases h : codec.unmarshal data with text | record <;> simp [decodeMessage, h,
      ends_pure, ends_throw]

/-- An object that is there is deleted, unless it has just been removed by another process. -/
theorem ends_deleteIfExists {Q : Except Err Bool → S → Prop}
    (h : F.pre (.isExist path) (fun r s' => r = .ok false ∧ Q (.ok false) s' ∨
      r = .ok true ∧ F.pre (.delete path) (fun r s'' => r = .ok () ∧ Q (.ok true) s'' ∨
        r = .error (notFoundError path) ∧ Q (.ok false) s'') s') s) :
    ends F (deleteIfExists path) Q s := by
  apply ends_bind.2
  apply ends_attempt.2
  apply ends_isExist.2
  apply F.mono _ _ _ ?_ s h
  intro r s' hexists
  rcases hexists with ⟨rfl, hQ⟩ | ⟨rfl, hdelete⟩
  · exact ends_pure.2 hQ
  · apply ends_bind.2
    apply ends_attempt.2
    apply ends_deleteObject.2
    apply F.mono _ _ _ ?_ s' hdelete
    intro r s'' hdeleted
    rcases hdeleted with ⟨rfl, hQ⟩ | ⟨rfl, hQ⟩
    · exact ends_pure.2 hQ
    · simp only [isOpenDALNotFound_notFoundError, if_true]
      exact ends_pure.2 hQ

theorem ends_checked {codec : Codec wire.Bytes α} {κ : Type}
    {check : α → Except Err κ} {next : Option α → BucketM wire.Bytes (Option α)}
    {Q : Except Err (Option α) → S → Prop} (hnone : next none = pure none)
    (hsome : ∀ record, next (some record) = liftM (check record) >>= fun _ => pure (some record)) :
    ends F (readMessage codec path >>= next) Q s ↔
      F.pre (.read path) (fun r s' => Q ((decodeMessage codec r).bind (checked check)) s') s := by
  rw [ends_bind, ends_readMessage]
  refine iff_of_eq (congrArg (fun Q' => F.pre (.read path) Q' s) ?_)
  funext r s'
  rcases decodeMessage codec r with err | _ | record
  · rfl
  · simp only [hnone, ends_pure]
    rfl
  · simp only [hsome, ends_bind, ends_liftExcept, Except.bind, checked]
    rcases check record with err | key
    · rfl
    · simp only [ends_pure, Except.map]

variable (key : RecordKey .timer)

theorem ends_readDueEntry {Q : Except Err (Option DueTimerEntry) → S → Prop} :
    ends F (readDueEntry wire key.val) Q s ↔
      F.pre (.read key.val.dueLocation) (fun r s' => Q (decodeEntry wire key r) s') s := by
  rw [readDueEntry, ends_bind, ends_liftExcept, dueEntryPath_of_stored]
  exact ends_checked rfl fun _ => rfl

theorem ends_getCanonicalTimer {Q : Except Err (Option TimerRecord) → S → Prop} :
    ends F (getCanonicalTimer wire key.val) Q s ↔
      F.pre (.read key.val.location) (fun r s' => Q (decodePoint wire key r) s') s := by
  rw [getCanonicalTimer, ends_bind, ends_liftExcept, timerPath_of_stored]
  exact ends_checked rfl fun _ => rfl

theorem decodePoint_recoverable {reply : Except Err wire.Bytes}
    (h : decodePoint wire key reply = .error err)
    (hreply : ∀ err, reply = .error err → isOpenDALNotFound err) : recoverable err := by
  have hrecovers : Recovers (decodePoint wire key reply) := by
    refine Loop.Raises.bind ?_ ?_
    · cases reply with
      | error err =>
        simp only [decodeMessage, hreply err rfl, if_true]
        exact Loop.raises_ok _
      | ok data =>
        simp only [decodeMessage]
        rcases wire.timer.unmarshal data with text | record
        · exact Loop.raises_error rfl
        · exact Loop.raises_ok _
    · intro record
      cases record with
      | none => exact Loop.raises_ok _
      | some record => exact (recovers_validateTimerRecord record _).map _
  exact hrecovers err h

end Decode

section Bucket

variable {wire : Wire} (objects : Objects wire) (key : RecordKey .timer)

def replyAt (path : Path) : Except Err wire.Bytes :=
  (objects.lookup path).elim (.error (notFoundError path)) .ok

def ledgerAt : Except Err (Option DueTimerEntry) :=
  decodeEntry wire key (replyAt objects key.val.dueLocation)

def pointAt : Except Err (Option TimerRecord) :=
  decodePoint wire key (replyAt objects key.val.location)

variable {objects key} {b : Bucket wire.Bytes}

theorem step_read (path : Path) : b.step (.read path) = (replyAt b.objects path, b) := by
  unfold replyAt
  cases h : b.objects.lookup path <;> simp [Bucket.step, h]

theorem replyAt_error (h : replyAt objects path = .error err) : isOpenDALNotFound err := by
  unfold replyAt at h
  cases hlookup : objects.lookup path with
  | none =>
    rw [hlookup] at h
    cases h
    exact isOpenDALNotFound_notFoundError path
  | some data =>
    rw [hlookup] at h
    cases h

theorem lookup_of_decodeMessage {α : Type} {codec : Codec wire.Bytes α} {record : α}
    (h : decodeMessage codec (replyAt objects path) = .ok (some record)) :
    ∃ data, objects.lookup path = some data ∧ codec.unmarshal data = .ok record := by
  unfold replyAt at h
  cases hlookup : objects.lookup path with
  | none => simp [hlookup, decodeMessage] at h
  | some data =>
    refine ⟨data, rfl, ?_⟩
    simp only [hlookup, Option.elim_some, decodeMessage] at h
    rcases hdata : codec.unmarshal data with text | found
    · rw [hdata] at h
      cases h
    · rw [hdata] at h
      cases h
      rfl

theorem recovers_decodeMessage {α : Type} (codec : Codec wire.Bytes α) (objects : Objects wire)
    (path : Path) : Recovers (decodeMessage codec (replyAt objects path)) := by
  intro err h
  cases hreply : replyAt objects path with
  | error err' =>
    rw [hreply] at h
    simp [decodeMessage, replyAt_error hreply] at h
  | ok data =>
    rw [hreply] at h
    simp only [decodeMessage] at h
    cases hdata : codec.unmarshal data with
    | error text =>
      rw [hdata] at h
      cases h
      rfl
    | ok record =>
      rw [hdata] at h
      cases h

theorem pointAt_recoverable (h : pointAt objects key = .error err) : recoverable err :=
  decodePoint_recoverable key h fun _ => replyAt_error

theorem ledgerAt_of_lookup {objects' : Objects wire}
    (h : objects'.lookup key.val.dueLocation = objects.lookup key.val.dueLocation) :
    ledgerAt objects' key = ledgerAt objects key := by
  rw [ledgerAt, ledgerAt, replyAt, replyAt, h]

theorem pointAt_of_lookup {objects' : Objects wire}
    (h : objects'.lookup key.val.location = objects.lookup key.val.location) :
    pointAt objects' key = pointAt objects key := by
  rw [pointAt, pointAt, replyAt, replyAt, h]

theorem ledgerAt_none (h : objects.lookup key.val.dueLocation = none) :
    ledgerAt objects key = .ok none := by
  simp [ledgerAt, replyAt, decodeEntry, decodeMessage, h, Except.bind, checked]

theorem pointAt_none (h : objects.lookup key.val.location = none) :
    pointAt objects key = .ok none := by
  simp [pointAt, replyAt, decodePoint, decodeMessage, h, Except.bind, checked]

theorem ledgerAt_some (hrecord : Carries record key) (hstatus : validateEntryStatus record = .ok ())
    (h : objects.lookup key.val.dueLocation =
      some (wire.due.marshal (dueEntry record key.val.run))) :
    ledgerAt objects key = .ok (some (dueEntry record key.val.run)) := by
  have hvalid : validateDueEntry (dueEntry record key.val.run) (some key.val) none none
      (some key.val.dueLocation) = .ok key.val := by
    rw [hrecord.dueEntry_fields]
    exact hrecord.validateDueEntry hstatus rfl (by simp) (by simp) (by simp) (by simp)
  simp [ledgerAt, decodeEntry, replyAt, decodeMessage, h, wire.due.unmarshal_marshal, Except.bind,
    checked, hvalid, Except.map]

theorem pointAt_some (hrecord : Carries record key)
    (h : objects.lookup key.val.location = some (wire.timer.marshal record)) :
    pointAt objects key = .ok (some record) := by
  have hvalid := hrecord.validateTimerRecord ⟨some key.val, none, some key.val.location⟩
    (by simp) (by simp) (by simp)
  simp [pointAt, decodePoint, replyAt, decodeMessage, h, wire.timer.unmarshal_marshal, Except.bind,
    checked, hvalid, Except.map]

theorem checked_eq_ok {α κ : Type} {check : α → Except Err κ} {read : Except Err (Option α)} :
    (∀ found, read.bind (checked check) = .ok found →
      read = .ok found ∧ ∀ record, found = some record → ∃ k, check record = .ok k) := by
  intro found h
  rcases read with err | _ | record
  · cases h
  · cases h
    exact ⟨rfl, fun _ h => by cases h⟩
  · simp only [Except.bind, checked] at h
    rcases hcheck : check record with err | k
    · rw [hcheck] at h
      cases h
    · rw [hcheck] at h
      cases h
      exact ⟨rfl, fun _ h => by cases h; exact ⟨k, hcheck⟩⟩

theorem checked_eq_some {α κ : Type} {check : α → Except Err κ}
    {read : Except Err (Option α)} {record : α} : read.bind (checked check) = .ok (some record) ↔
      read = .ok (some record) ∧ ∃ k, check record = .ok k := by
  constructor
  · intro h
    obtain ⟨hread, hchecked⟩ := checked_eq_ok _ h
    exact ⟨hread, hchecked record rfl⟩
  · intro h
    obtain ⟨rfl, k, hk⟩ := h
    simp [Except.bind, checked, hk, Except.map]

theorem ledgerAt_eq_some : ledgerAt objects key = .ok (some entry) ↔
    decodeMessage wire.due (replyAt objects key.val.dueLocation) = .ok (some entry) ∧
      validateDueEntry entry none none none none = .ok key.val := by
  rw [ledgerAt, decodeEntry, checked_eq_some]
  apply and_congr_right
  intro _
  constructor
  · intro h
    obtain ⟨k, hk⟩ := h
    obtain ⟨hvalid, hkey, -⟩ := validateDueEntry_eq_ok.1 hk
    rw [hkey key.val rfl]
    exact hvalid
  · intro h
    exact ⟨key.val, validateDueEntry_eq_ok.2 ⟨h, by simp, by simp, by simp, by simp⟩⟩

theorem pointAt_eq_some : pointAt objects key = .ok (some record) ↔
    decodeMessage wire.timer (replyAt objects key.val.location) = .ok (some record) ∧
      validateTimerRecord record ⟨none, none, none⟩ = .ok key.val := by
  rw [pointAt, decodePoint, checked_eq_some]
  apply and_congr_right
  intro _
  constructor
  · intro h
    obtain ⟨k, hk⟩ := h
    obtain ⟨hvalid, hkey, -⟩ := validateTimerRecord_eq_ok.1 hk
    rw [hkey key.val rfl]
    exact hvalid
  · intro h
    exact ⟨key.val, validateTimerRecord_eq_ok.2 ⟨h, by simp, by simp, by simp⟩⟩

theorem carries_of_ledgerAt (h : ledgerAt objects key = .ok (some entry)) :
    Carries (entryRecord entry) key ∧ validateEntryStatus (entryRecord entry) = .ok () := by
  obtain ⟨-, hchecked⟩ := checked_eq_ok _ h
  obtain ⟨k, hvalid⟩ := hchecked entry rfl
  obtain ⟨key', -, hrecord, hstatus, hpath⟩ := carries_of_validateDueEntry hvalid
  have hkey : key' = key := Subtype.ext (ItemKey.dueLocation_injective (hpath _ rfl)).symm
  exact ⟨hkey ▸ hrecord, hstatus⟩

theorem carries_of_pointAt (h : pointAt objects key = .ok (some record)) : Carries record key := by
  obtain ⟨-, hchecked⟩ := checked_eq_ok _ h
  obtain ⟨k, hvalid⟩ := hchecked record rfl
  obtain ⟨key', rfl, hrecord⟩ := carries_of_validateTimerRecord hvalid
  have hkey : key = key' := Subtype.ext ((expected_of_validateTimerRecord hvalid).1 _ rfl)
  exact hkey ▸ hrecord

theorem carries_tombstoneSource {canonical : Option TimerRecord} {ledger : Option DueTimerEntry}
    (hcanonical : ∀ record, canonical = some record → Carries record key)
    (hledger : ledgerAt objects key = .ok ledger) :
    Carries (tombstoneSource key.val canonical ledger) key := by
  cases canonical with
  | some record => exact hcanonical record rfl
  | none =>
    cases ledger with
    | none => exact ⟨rfl, rfl⟩
    | some entry =>
      by_cases hstatus : (entryRecord entry).status = .canceled
      · simp only [tombstoneSource, Option.bind_some, liveRecord, hstatus, if_true]
        exact ⟨rfl, rfl⟩
      · simp only [tombstoneSource, Option.bind_some, liveRecord, hstatus, if_false]
        exact (carries_of_ledgerAt hledger).1

theorem lookup_of_decodeMessage_none {α : Type} {codec : Codec wire.Bytes α}
    (h : decodeMessage codec (replyAt objects path) = .ok none) : objects.lookup path = none := by
  unfold replyAt at h
  cases hlookup : objects.lookup path with
  | none => rfl
  | some data =>
    simp only [hlookup, Option.elim_some, decodeMessage] at h
    rcases hdata : codec.unmarshal data with text | found
    · rw [hdata] at h
      cases h
    · rw [hdata] at h
      cases h

theorem lookup_of_ledgerAt_none (h : ledgerAt objects key = .ok none) :
    objects.lookup key.val.dueLocation = none :=
  lookup_of_decodeMessage_none (checked_eq_ok _ h).1

theorem lookup_of_pointAt_none (h : pointAt objects key = .ok none) :
    objects.lookup key.val.location = none :=
  lookup_of_decodeMessage_none (checked_eq_ok _ h).1

private theorem exec_of_ends {α : Type} {code : BucketM wire.Bytes α}
    {decode : Except Err wire.Bytes → Except Err α}
    (h : ∀ (F : CallSpec (bucketSignature wire.Bytes) (Bucket wire.Bytes))
      (Q : Except Err α → Bucket wire.Bytes → Prop) (s : Bucket wire.Bytes),
      ends F code Q s ↔ F.pre (.read path) (fun r s' => Q (decode r) s') s) :
    b.exec code = (decode (replyAt b.objects path), b) := by
  have hrun : ends (.steps (fun s op r s' => Bucket.step s op = (r, s')) fun _ _ _ _ => True)
      code (fun r s' => r = decode (replyAt b.objects path) ∧ s' = b) b := by
    apply (h _ _ b).2
    intro r s' hstep
    rw [step_read] at hstep
    cases hstep
    exact ⟨trivial, rfl, rfl⟩
  obtain ⟨hresult, hstate⟩ := Program.wp.exec (ends_iff_wp.1 hrun)
  exact Prod.ext hresult hstate

theorem exec_readMessage_at {α : Type} (codec : Codec wire.Bytes α) (path : Path) :
    b.exec (readMessage codec path) = (decodeMessage codec (replyAt b.objects path), b) :=
  exec_of_ends fun _ _ _ => ends_readMessage codec path

theorem exec_readDueEntry_at : b.exec (readDueEntry wire key.val) = (ledgerAt b.objects key, b) :=
  exec_of_ends fun _ _ _ => ends_readDueEntry key

theorem exec_getCanonicalTimer_at :
    b.exec (getCanonicalTimer wire key.val) = (pointAt b.objects key, b) :=
  exec_of_ends fun _ _ _ => ends_getCanonicalTimer key

theorem exec_getTimer_bare (h : ledgerAt b.objects key = .ok none) :
    b.exec (getTimer wire key.val) = (pointAt b.objects key, b) := by
  simp only [getTimer, exec_bind, exec_readDueEntry_at, h, exec_attempt, exec_getCanonicalTimer_at]
  rcases pointAt b.objects key with err | record
  · rfl
  · rfl

theorem exec_getTimer_entry (h : ledgerAt b.objects key = .ok (some entry))
    (hne : pointAt b.objects key ≠ .ok (some (entryRecord entry))) :
    b.exec (getTimer wire key.val) = (.ok (liveRecord entry), b) := by
  simp only [getTimer, exec_bind, exec_readDueEntry_at, h, exec_attempt, exec_getCanonicalTimer_at]
  rcases hpoint : pointAt b.objects key with err | record
  · simp [pointAt_recoverable hpoint]
  · have hsame : record ≠ some (entryRecord entry) := by
      intro heq
      exact hne (hpoint.trans (by rw [heq]))
    simp [hsame]

theorem exec_getTimer_same (h : ledgerAt b.objects key = .ok (some entry))
    (hpoint : pointAt b.objects key = .ok (some (entryRecord entry))) :
    b.exec (getTimer wire key.val) = (.ok (some (entryRecord entry)), b) := by
  simp only [getTimer, exec_bind, exec_readDueEntry_at, h, exec_attempt, exec_getCanonicalTimer_at,
    hpoint, if_true, exec_pure]

theorem exec_getTimer_error (h : ledgerAt b.objects key = .error err) :
    b.exec (getTimer wire key.val) = (.error err, b) := by
  simp only [getTimer, exec_bind, exec_readDueEntry_at, h]

end Bucket

end Temporaless.Python
