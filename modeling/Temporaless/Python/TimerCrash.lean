import Temporaless.Python.TimerReads
import Temporaless.Storage.TimerAtomic

/-!
# Timer calls of the Python store under crashes

A call that is cut acts as a whole or not at all, except where a CANCELED record in the ledger is
taken for the wrong thing: a put of such a record reads as a deletion until its point is written, and
a tombstone that happens to equal the point record reads as that record until the point is removed.
-/

namespace Temporaless.Python

open PathTree Effects OpenDALStore

section Writes

variable {wire : Wire} {objects objects' : Objects wire} {a : Address}
variable {key : RecordKey .timer} {record : TimerRecord}

def Changes (a : Address) (objects objects' : Objects wire) : Prop :=
  ∀ path, path ≠ a.path → objects'.lookup path = objects.lookup path

theorem changes_insert (data : wire.Bytes) : Changes a objects (objects.insert a.path data) :=
  fun _ hpath => AList.lookup_insert_ne hpath

theorem changes_erase : Changes a objects (objects.erase a.path) :=
  fun _ hpath => AList.lookup_erase_ne hpath

theorem Changes.ledgerAt (h : Changes a objects objects') (ha : Address.due key ≠ a) :
    ledgerAt objects' key = Python.ledgerAt objects key :=
  ledgerAt_of_lookup (h _ (Address.path_ne ha))

theorem Changes.pointAt (h : Changes a objects objects') (ha : Address.item .timer key ≠ a) :
    pointAt objects' key = Python.pointAt objects key :=
  pointAt_of_lookup (h _ (Address.path_ne ha))

theorem Changes.timerAt (h : Changes a objects objects') (hledger : Address.due key ≠ a)
    (hpoint : Address.item .timer key ≠ a) : timerAt objects' key = Python.timerAt objects key := by
  rw [Python.timerAt, ledgerOf, pointOf, h.ledgerAt hledger, h.pointAt hpoint]
  rfl

theorem Readable.changed (h : Readable objects) (hchanges : Changes a objects objects')
    (hledger : ∀ key, a = .due key → ∃ entry, ledgerAt objects' key = .ok entry)
    (hpoint : ∀ key, a = .item .timer key → ∃ record, pointAt objects' key = .ok record) :
    Readable objects' := by
  constructor
  · intro path data hdata
    by_cases hpath : path = a.path
    · exact ⟨a, hpath⟩
    · rw [hchanges path hpath] at hdata
      exact h.laidOut path data hdata
  · intro key
    by_cases ha : a = .due key
    · exact hledger key ha
    · rw [hchanges.ledgerAt (Ne.symm ha)]
      exact h.ledger key
  · intro key
    by_cases ha : a = .item .timer key
    · exact hpoint key ha
    · rw [hchanges.pointAt (Ne.symm ha)]
      exact h.point key

section Prepare

variable (hcarries : Carries record key) (hstatus : validateEntryStatus record = .ok ())
include hcarries hstatus

theorem ledgerAt_prepare :
    ledgerAt (prepare objects key record) key = .ok (some (dueEntry record key.val.run)) :=
  ledgerAt_some hcarries hstatus (AList.lookup_insert _)

theorem ledgerOf_prepare : ledgerOf (prepare objects key record) key = some record :=
  ledgerOf_eq_some.2 ⟨_, ledgerAt_prepare hcarries hstatus, rfl⟩

theorem Readable.prepare (h : Readable objects) : Readable (prepare objects key record) := by
  apply h.changed (changes_insert _)
  · intro k hk
    obtain rfl := Address.due.inj hk
    exact ⟨_, ledgerAt_prepare hcarries hstatus⟩
  · intro k hk
    cases hk

theorem timerAt_prepare (k : RecordKey .timer) : timerAt (prepare objects key record) k =
    if k = key then resolve (some record) (pointOf objects key) else timerAt objects k := by
  have hchanges : Changes (.due key) objects (prepare objects key record) := changes_insert _
  split
  · next hk =>
      rw [hk, timerAt, ledgerOf_prepare hcarries hstatus, pointOf, hchanges.pointAt (by simp)]
      rfl
  · next hk => exact hchanges.timerAt (by simpa using hk) (by simp)

end Prepare

section Publish

variable (hcarries : Carries record key)
include hcarries

theorem pointAt_publish : pointAt (publish objects key record) key = .ok (some record) :=
  pointAt_some hcarries (AList.lookup_insert _)

theorem Readable.publish (h : Readable objects) : Readable (publish objects key record) := by
  apply h.changed (changes_insert _)
  · intro k hk
    cases hk
  · intro k hk
    obtain rfl : key = k := by simpa using hk
    exact ⟨_, pointAt_publish hcarries⟩

theorem timerAt_publish (k : RecordKey .timer) : timerAt (publish objects key record) k =
    if k = key then resolve (ledgerOf objects key) (some record) else timerAt objects k := by
  have hchanges : Changes (.item .timer key) objects (publish objects key record) := changes_insert _
  split
  · next hk =>
      rw [hk, timerAt, pointOf_eq_some.2 (pointAt_publish hcarries), ledgerOf,
        hchanges.ledgerAt (by simp)]
      rfl
  · next hk => exact hchanges.timerAt (by simp) (by simpa using hk)

end Publish

theorem pointAt_erase : pointAt (objects.erase (Address.item .timer key).path) key = .ok none :=
  pointAt_none (AList.lookup_erase _ _)

theorem Readable.erase (h : Readable objects) :
    Readable (objects.erase (Address.item .timer key).path) := by
  apply h.changed changes_erase
  · intro k hk
    cases hk
  · intro k hk
    obtain rfl : key = k := by simpa using hk
    exact ⟨_, pointAt_erase⟩

theorem timerAt_erase (k : RecordKey .timer) :
    timerAt (objects.erase (Address.item .timer key).path) k =
      if k = key then resolve (ledgerOf objects key) none else timerAt objects k := by
  have hchanges : Changes (.item .timer key) objects
      (objects.erase (Address.item .timer key).path) := changes_erase
  split
  · next hk =>
      have hpoint : pointOf (objects.erase (Address.item .timer key).path) key = none := by
        rw [pointOf, pointAt_erase]
        rfl
      rw [hk, timerAt, hpoint, ledgerOf, hchanges.ledgerAt (by simp)]
      rfl
  · next hk => exact hchanges.timerAt (by simp) (by simpa using hk)

end Writes

def acceptedKey (record : TimerRecord) : Option (RecordKey .timer) :=
  match validateTimerRecord record ⟨none, none, none⟩, validateEntryStatus record with
  | .ok key, .ok _ => if h : key.Valid ∧ key.ns ≠ "" then some ⟨key, h⟩ else none
  | _, _ => none

theorem acceptedKey_eq_some {record : TimerRecord} {key : RecordKey .timer} :
    acceptedKey record = some key ↔ Carries record key ∧ validateEntryStatus record = .ok () := by
  constructor
  · intro h
    simp only [acceptedKey] at h
    split at h
    · next k _ hvalid hstatus =>
        obtain ⟨key', rfl, hcarries⟩ := carries_of_validateTimerRecord hvalid
        rw [dif_pos key'.property] at h
        cases h
        exact ⟨hcarries, hstatus⟩
    · cases h
  · intro h
    have hvalid := h.1.validateTimerRecord ⟨none, none, none⟩ (by simp) (by simp) (by simp)
    simp only [acceptedKey, hvalid, h.2]
    rw [dif_pos key.property]

inductive TimerCall where
  | put (record : TimerRecord)
  | delete (key : TimerKey)
  | due (fuel : Nat) (ns : String) (now : Int)

def TimerCall.apply (timers : TimerMap) : TimerCall → TimerMap
  | .put record => (acceptedKey record).elim timers fun key => timers.insert key record
  | .delete key => if h : key.Valid ∧ key.ns ≠ "" then timers.erase ⟨key, h⟩ else timers
  | .due _ _ _ => timers

section Calls

variable (wire : Wire)

def TimerCall.code : TimerCall → BucketM wire.Bytes Unit
  | .put record => putTimer wire record
  | .delete key => (fun _ => ()) <$> deleteTimer wire key
  | .due fuel ns now => (fun _ => ()) <$> dueTimers wire fuel ns now

variable {wire} in
/-- An interrupted call cannot be misread. A CANCELED record is put where its key has no timer or
where the point holds it already, and a delete finds no point record that is its own tombstone, unless
that record is the timer. -/
def TimerCall.Clear (objects : Objects wire) : TimerCall → Prop
  | .put record => record.status = .canceled → ∀ key, Carries record key →
      timerAt objects key = none ∨ pointOf objects key = some record
  | .delete k => ∀ key : RecordKey .timer, key.val = k → ∀ record,
      pointOf objects key = some record → tombstone record = record →
        timerAt objects key = some record
  | .due _ _ _ => True

/-- Every interrupted call of the sequence is clear where it begins. A call with a number is
interrupted after so many operations. -/
def Guarded : List (TimerCall × Option Nat) → Bucket wire.Bytes → Prop
  | [], _ => True
  | (call, none) :: calls, b => Guarded calls (b.exec (call.code wire)).2
  | (call, some n) :: calls, b =>
    call.Clear b.objects ∧ Guarded calls (b.cut n (call.code wire))

variable {wire} in
/-- Point reads show the map, and the listing of a run shows in order what the point reads find. -/
structure Observed (b : Bucket wire.Bytes) (timers : TimerMap) : Prop where
  get : ∀ key : RecordKey .timer,
    b.exec (getTimer wire key.val) = (.ok (timers.lookup key), b)
  list : ∀ (run : RunKey) (fuel : Nat), b.walkFuel ≤ fuel → ∃ records,
    (b.exec (listTimers wire fuel run.val .unspecified)).1 = .ok records ∧
      records.Pairwise (timerID · < timerID ·) ∧
      ∀ record, record ∈ records ↔ ∃ key : RecordKey .timer, key.val.run = run.val ∧
        b.exec (getTimer wire key.val) = (.ok (some record), b)

/-- In every state of the sequence the reads show the map, on which a completed call has its effect
and an interrupted one has it or not. -/
def Atomic : List (TimerCall × Option Nat) → Bucket wire.Bytes → TimerMap → Prop
  | [], b, timers => Observed b timers
  | (call, none) :: calls, b, timers =>
    Observed b timers ∧ Atomic calls (b.exec (call.code wire)).2 (call.apply timers)
  | (call, some n) :: calls, b, timers =>
    Observed b timers ∧ (Atomic calls (b.cut n (call.code wire)) timers ∨
      Atomic calls (b.cut n (call.code wire)) (call.apply timers))

end Calls

section Represents

variable {wire : Wire} {b b' : Bucket wire.Bytes} {timers : TimerMap}
variable {key : RecordKey .timer} {record : TimerRecord}

/-- The map of timers the Python store's objects stand for. -/
structure Represents (b : Bucket wire.Bytes) (timers : TimerMap) : Prop where
  readable : Readable b.objects
  lookup : ∀ key, timers.lookup key = timerAt b.objects key

theorem Represents.of_objects (h : Represents b timers) (hb : b'.objects = b.objects) :
    Represents b' timers :=
  ⟨by rw [hb]; exact h.readable, fun key => by rw [hb]; exact h.lookup key⟩

section Assign

variable {state : Option TimerRecord} (h : Represents b timers) (hread : Readable b'.objects)
variable (hstate : ∀ k, timerAt b'.objects k = if k = key then state else timerAt b.objects k)
include h hread hstate

theorem Represents.same (hsame : timerAt b.objects key = state) : Represents b' timers := by
  refine ⟨hread, fun k => ?_⟩
  rw [hstate, h.lookup]
  split
  · next hk => rw [hk, hsame]
  · rfl

theorem Represents.insert (hsome : state = some record) :
    Represents b' (timers.insert key record) := by
  refine ⟨hread, fun k => ?_⟩
  rw [hstate, hsome]
  split
  · next hk => rw [hk, Finmap.lookup_insert]
  · next hk => rw [Finmap.lookup_insert_of_ne _ hk, h.lookup]

theorem Represents.erase (hnone : state = none) : Represents b' (timers.erase key) := by
  refine ⟨hread, fun k => ?_⟩
  rw [hstate, hnone]
  split
  · next hk => rw [hk, Finmap.lookup_erase]
  · next hk => rw [Finmap.lookup_erase_ne hk, h.lookup]

end Assign

section

variable (h : Represents b timers)

include h

theorem runs_put (record : TimerRecord) :
    b.Runs (fun b' => (TimerCall.put record).Clear b.objects →
        Represents b' timers ∨ Represents b' ((TimerCall.put record).apply timers))
      (putTimer wire record) fun _ b' => Represents b' ((TimerCall.put record).apply timers) := by
  rcases hkey : acceptedKey record with _ | key
  · have happly : (TimerCall.put record).apply timers = timers := by simp [TimerCall.apply, hkey]
    rw [happly]
    apply runs_putTimer_rejected
    · intro key hcarries hstatus
      rw [acceptedKey_eq_some.2 ⟨hcarries, hstatus⟩] at hkey
      cases hkey
    · intro _
      exact h
  · obtain ⟨hcarries, hstatus⟩ := acceptedKey_eq_some.1 hkey
    have happly : (TimerCall.put record).apply timers = timers.insert key record := by
      simp [TimerCall.apply, hkey]
    rw [happly]
    have hprepared := h.readable.prepare hcarries hstatus
    apply runs_putTimer hcarries hstatus
    · intro b' hb' _
      exact Or.inl (h.of_objects hb')
    · intro b' hb' hclear
      rw [← hb'] at hprepared
      have hstate : ∀ k, timerAt b'.objects k = if k = key then
          resolve (some record) (pointOf b.objects key) else timerAt b.objects k := by
        rw [hb']
        exact timerAt_prepare hcarries hstatus
      by_cases hread : record.status = .canceled ∧ pointOf b.objects key ≠ some record
      · -- the prepared record reads as a tombstone
        have hnone : resolve (some record) (pointOf b.objects key) = none := by simp [resolve, hread]
        have hbefore := (hclear hread.1 key hcarries).resolve_right hread.2
        exact Or.inl (h.same hprepared hstate (hbefore.trans hnone.symm))
      · have hsome : resolve (some record) (pointOf b.objects key) = some record := by
          simp [resolve, hread]
        exact Or.inr (h.insert hprepared hstate hsome)
    · intro b' hb'
      have hpublished := hprepared.publish hcarries
      rw [← hb'] at hpublished
      have hstate : ∀ k, timerAt b'.objects k =
          if k = key then some record else timerAt b.objects k := by
        intro k
        rw [hb', timerAt_publish hcarries, timerAt_prepare hcarries hstatus,
          ledgerOf_prepare hcarries hstatus]
        split
        · simp [resolve]
        · rfl
      have hafter := h.insert hpublished hstate rfl
      exact ⟨fun _ => Or.inr hafter, hafter⟩

theorem Represents.tombstone (hcarries : Carries record key)
    (hb : b'.objects = prepare b.objects key (OpenDALStore.tombstone record)) :
    (pointOf b.objects key ≠ some (OpenDALStore.tombstone record) →
        Represents b' (timers.erase key)) ∧
      (pointOf b.objects key = some (OpenDALStore.tombstone record) →
        timerAt b.objects key = some (OpenDALStore.tombstone record) → Represents b' timers) := by
  have hprepared := h.readable.prepare hcarries.tombstone validateEntryStatus_tombstone
  have hstate : ∀ k, timerAt b'.objects k = if k = key then
      resolve (some (OpenDALStore.tombstone record)) (pointOf b.objects key)
      else timerAt b.objects k := by
    rw [hb]
    exact timerAt_prepare hcarries.tombstone validateEntryStatus_tombstone
  rw [← hb] at hprepared
  constructor
  · intro hpoint
    exact h.erase hprepared hstate (resolve_tombstone hpoint)
  · intro hpoint htimer
    apply h.same hprepared hstate
    rw [htimer, hpoint]
    simp [resolve]

theorem Represents.removed (hcarries : Carries record key)
    (hb : b'.objects = (prepare b.objects key (OpenDALStore.tombstone record)).erase
      (Address.item .timer key).path) : Represents b' (timers.erase key) := by
  have hprepared := h.readable.prepare hcarries.tombstone validateEntryStatus_tombstone
  have hstate : ∀ k, timerAt b'.objects k = if k = key then none else timerAt b.objects k := by
    intro k
    rw [hb, timerAt_erase, timerAt_prepare hcarries.tombstone validateEntryStatus_tombstone,
      ledgerOf_prepare hcarries.tombstone validateEntryStatus_tombstone]
    split
    · exact resolve_tombstone nofun
    · rfl
  apply h.erase ?_ hstate rfl
  rw [hb]
  exact hprepared.erase

theorem runs_deleteStored (key : RecordKey .timer) :
    b.Runs (fun b' => (TimerCall.delete key.val).Clear b.objects →
        Represents b' timers ∨ Represents b' (timers.erase key))
      (deleteTimer wire key.val) fun _ b' => Represents b' (timers.erase key) := by
  obtain ⟨entry, hentry⟩ := h.readable.ledger key
  have hsource : Carries (tombstoneSource key.val (pointOf b.objects key) entry) key :=
    carries_tombstoneSource (fun _ hrecord => carries_of_pointAt (pointOf_eq_some.1 hrecord)) hentry
  have hpoint : b.objects.lookup key.val.location = none → pointOf b.objects key = none := by
    intro hnone
    rw [pointOf, pointAt_none hnone]
    rfl
  have hread : b.exec (readDueEntry wire key.val) = (.ok entry, b) := by
    rw [exec_readDueEntry_at, hentry]
  apply runs_deleteTimer (exec_usableCanonical_at key) hread
  · intro _
    exact hsource
  · intro b' hb' _
    exact Or.inl (h.of_objects hb')
  · intro hnone hlive
    have hledger : ledgerOf b.objects key = entry.map entryRecord := by
      simp [ledgerOf, hentry, Except.toOption]
    have htimer : timerAt b.objects key = none := by
      rw [timerAt, hledger, hpoint hnone, resolve_none, hlive]
    apply h.erase h.readable ?_ rfl
    intro k
    split
    · next hk => rw [hk, htimer]
    · rfl
  · intro _ b' hb'
    obtain ⟨hgone, hkept⟩ := h.tombstone hsource hb'
    constructor
    · intro hclear
      by_cases heq : pointOf b.objects key =
          some (tombstone (tombstoneSource key.val (pointOf b.objects key) entry))
      · -- the source of the tombstone is the point record, which is its own tombstone
        obtain ⟨record, hrecord⟩ : ∃ record, pointOf b.objects key = some record := ⟨_, heq⟩
        have horigin : tombstoneSource key.val (pointOf b.objects key) entry = record := by
          rw [hrecord]
          rfl
        rw [horigin] at heq hkept
        have hself : tombstone record = record := Option.some.inj (heq.symm.trans hrecord)
        rw [hself] at heq hkept
        exact Or.inl (hkept heq (hclear key rfl record hrecord hself))
      · exact Or.inr (hgone heq)
    · intro hnone _
      apply hgone
      rw [hpoint hnone]
      exact (Option.some_ne_none _).symm
  · intro _ b' hb'
    have hremoved := h.removed hsource hb'
    exact ⟨fun _ => Or.inr hremoved, fun _ => hremoved⟩

theorem runs_delete (k : TimerKey) :
    b.Runs (fun b' => (TimerCall.delete k).Clear b.objects →
        Represents b' timers ∨ Represents b' ((TimerCall.delete k).apply timers))
      (deleteTimer wire k) fun _ b' => Represents b' ((TimerCall.delete k).apply timers) := by
  cases hvalid : validateTimerKey k with
  | error err =>
    have hnot : ¬ (k.Valid ∧ k.ns ≠ "") := by
      intro hk
      have hstored := validateTimerKey_of_stored ⟨k, hk⟩
      rw [hvalid] at hstored
      cases hstored
    have happly : (TimerCall.delete k).apply timers = timers := by
      simp only [TimerCall.apply]
      rw [dif_neg hnot]
    rw [happly]
    simp only [deleteTimer, runs_bind, runs_liftExcept, hvalid]
    exact h
  | ok u =>
    have hk := stored_of_validateTimerKey (bind_eq_ok_unit.1 hvalid).1
    have happly : (TimerCall.delete k).apply timers = timers.erase ⟨k, hk⟩ := by
      simp only [TimerCall.apply]
      rw [dif_pos hk]
    rw [happly]
    exact runs_deleteStored h ⟨k, hk⟩

end

section Scan

variable {entry : DueTimerEntry} (h : Represents b timers)
variable (hentry : ledgerAt b.objects key = .ok (some entry))
include h hentry

theorem runs_publishPoint_live (hlive : (entryRecord entry).status ≠ .canceled) :
    b.Runs (fun b' => Represents b' timers) (putCanonicalTimer wire (entryRecord entry))
      fun _ b' => Represents b' timers := by
  have hcarries := (carries_of_ledgerAt hentry).1
  have hledger : ledgerOf b.objects key = some (entryRecord entry) :=
    ledgerOf_eq_some.2 ⟨entry, hentry, rfl⟩
  apply runs_putCanonicalTimer hcarries
  · intro b' hb'
    exact h.of_objects hb'
  · intro b' hb'
    have hread := h.readable.publish hcarries
    have hstate : ∀ k, timerAt b'.objects k = if k = key then
        resolve (ledgerOf b.objects key) (some (entryRecord entry)) else timerAt b.objects k := by
      rw [hb']
      exact timerAt_publish hcarries
    rw [← hb'] at hread
    have hsame : Represents b' timers := by
      apply h.same hread hstate
      simp [timerAt, hledger, resolve, hlive]
    exact ⟨hsame, hsame⟩

theorem runs_erasePoint (hcanceled : (entryRecord entry).status = .canceled)
    (hdiffers : pointOf b.objects key ≠ some (entryRecord entry)) :
    b.Runs (fun b' => Represents b' timers) (deleteIfExists key.val.location)
      fun _ b' => Represents b' timers := by
  have hledger : ledgerOf b.objects key = some (entryRecord entry) :=
    ledgerOf_eq_some.2 ⟨entry, hentry, rfl⟩
  apply runs_deleteIfExists h
  · intro _
    exact h
  · intro b' hb'
    have hstate : ∀ k, timerAt b'.objects k = if k = key then
        resolve (ledgerOf b.objects key) none else timerAt b.objects k := by
      rw [hb']
      exact timerAt_erase
    have hread : Readable b'.objects := by
      rw [hb']
      exact h.readable.erase
    have hsame : Represents b' timers := by
      apply h.same hread hstate
      simp [timerAt, hledger, resolve, hcanceled, hdiffers]
    exact ⟨hsame, hsame⟩

theorem runs_scanPrepared (now : Int) (path : Path) (run : WorkflowKey) :
    b.Runs (fun b' => Represents b' timers)
      (scanPrepared wire now path key.val run (entryRecord entry)) fun _ b' => Represents b' timers := by
  obtain ⟨point, hpoint⟩ := h.readable.point key
  have hpointOf : pointOf b.objects key = point := by simp [pointOf, hpoint, Except.toOption]
  simp only [scanPrepared, runs_bind, runs_attempt]
  refine (readOnly_getCanonicalTimer key.val).runs h ?_
  rw [exec_getCanonicalTimer_at, hpoint]
  cases point with
  | none =>
    dsimp only
    split
    · next hscheduled =>
        apply (runs_publishPoint_live h hentry (by simp [hscheduled])).bind_keeps
        intro _
        exact keeps_pure _
    · exact runs_pure.2 h
  | some timer =>
    dsimp only
    split
    · exact (readOnly_dueWake _ _ _ _ _).keeps b h
    · next hdiffers =>
        have hrepair : b.Runs (fun b' => Represents b' timers)
            (repairPoint wire key.val (entryRecord entry)) fun _ b' => Represents b' timers := by
          unfold repairPoint
          split
          · next hcanceled =>
              simp only [timerPath_of_stored, liftOk_bind]
              apply (runs_erasePoint h hentry hcanceled ?_).bind_keeps
              · intro _
                exact keeps_pure _
              · rw [hpointOf]
                exact fun heq => hdiffers (Option.some.inj heq)
          · next hlive => exact runs_publishPoint_live h hentry hlive
        exact hrepair.bind_keeps fun _ => keeps_pure _

end Scan

theorem keeps_represents_dueTimers (fuel : Nat) (ns : String) (now : Int) :
    Bucket.Keeps (fun b => Represents b timers) (dueTimers wire fuel ns now) := by
  apply keeps_dueTimers
  · apply keeps_quarantineDueEntry
    · intro dir b hb
      exact runs_createDir.2 ⟨hb.of_objects rfl, hb.of_objects rfl⟩
    · intro ns digest data b hb
      have hchanges : Changes (.quarantine ns digest) b.objects
          (b.objects.insert (Address.quarantine ns digest).path data) := changes_insert data
      have hcopy : Represents { b with
          objects := b.objects.insert (Address.quarantine ns digest).path data } timers := by
        refine ⟨hb.readable.changed hchanges nofun nofun, fun key => ?_⟩
        rw [hb.lookup, hchanges.timerAt (by simp) (by simp)]
      exact runs_writeObject.2 ⟨hcopy, hcopy⟩
  · intro b key entry hb hentry now path run
    exact runs_scanPrepared hb hentry now path run

theorem runs_timerCall (h : Represents b timers) (call : TimerCall) :
    b.Runs (fun b' => call.Clear b.objects → Represents b' timers ∨ Represents b' (call.apply timers))
      (call.code wire) fun _ b' => Represents b' (call.apply timers) := by
  cases call with
  | put record => exact runs_put h record
  | delete key => exact runs_map.2 (runs_delete h key)
  | due fuel ns now =>
    apply runs_map.2
    apply (keeps_represents_dueTimers fuel ns now b h).imp
    · intro b' hb' _
      exact Or.inl hb'
    · intro _ b' hb'
      exact hb'

theorem Represents.observed (h : Represents b timers) : Observed b timers := by
  constructor
  · intro key
    rw [h.readable.exec_getTimer, h.lookup]
    rfl
  · intro run fuel hfuel
    obtain ⟨records, b', hexec, -, hsorted, hmem⟩ := h.readable.exec_listTimers run hfuel
    refine ⟨records, by rw [hexec], hsorted, ?_⟩
    intro record
    simp [hmem, h.readable.exec_getTimer]

end Represents

/-- A sequence of calls is atomic when its interruptions are clear. -/
theorem atomic_of_guarded (wire : Wire) (calls : List (TimerCall × Option Nat))
    (b : Bucket wire.Bytes) (timers : TimerMap) (h : Represents b timers)
    (hguarded : Guarded wire calls b) : Atomic wire calls b timers := by
  induction calls generalizing b timers with
  | nil => exact h.observed
  | cons entry calls ih =>
      obtain ⟨call, n⟩ := entry
      have hruns := runs_timerCall h call
      cases n with
      | none => exact ⟨h.observed, ih _ _ hruns.exec hguarded⟩
      | some n =>
          obtain ⟨hclear, hrest⟩ := hguarded
          refine ⟨h.observed, ?_⟩
          rcases hruns.cut (fun _ => Or.inl h) n hclear with hbefore | hafter
          · exact Or.inl (ih _ _ hbefore hrest)
          · exact Or.inr (ih _ _ hafter hrest)

theorem represents_empty (wire : Wire) (time : Int) :
    Represents (⟨∅, [], time⟩ : Bucket wire.Bytes) ∅ := by
  have hledger : ∀ key, ledgerAt (∅ : Objects wire) key = .ok none :=
    fun key => ledgerAt_none (AList.lookup_empty _)
  have hpoint : ∀ key, pointAt (∅ : Objects wire) key = .ok none :=
    fun key => pointAt_none (AList.lookup_empty _)
  refine ⟨⟨nofun, fun key => ⟨_, hledger key⟩, fun key => ⟨_, hpoint key⟩⟩, fun key => ?_⟩
  rw [timerAt, ledgerOf, pointOf, hledger, hpoint]
  rfl

def bell (status : TimerStatus) : TimerRecord := { bellTimer status with firedAt := none }

def bellKey : RecordKey .timer := ⟨⟨"default", "wf", "run", "bell"⟩, by decide, by decide⟩

/-- The bell is scheduled and fires, but the second put is cut before it reaches the point; then it is
deleted, and that is cut before the point is removed. -/
def firedBell : List (TimerCall × Option Nat) :=
  [(.put (bell .scheduled), none), (.put (bell .fired), some 2), (.delete bellKey.val, some 5)]

theorem atomic_firedBell :
    Guarded taggedWire firedBell ⟨∅, [], 0⟩ ∧ Atomic taggedWire firedBell ⟨∅, [], 0⟩ ∅ := by
  have hguarded : Guarded taggedWire firedBell ⟨∅, [], 0⟩ := by
    refine ⟨nofun, ?_, trivial⟩
    intro key hkey record hpoint hself
    obtain rfl : key = bellKey := Subtype.ext hkey
    obtain rfl : bell .scheduled = record := Option.some.inj hpoint
    cases hself
  exact ⟨hguarded, atomic_of_guarded taggedWire firedBell _ _ (represents_empty taggedWire 0) hguarded⟩

/-- The bell is scheduled, and its cancellation is cut before it reaches the point. -/
def canceledBell : List (TimerCall × Option Nat) :=
  [(.put (bell .scheduled), none), (.put (bell .canceled), some 2)]

/-- The bell is put as CANCELED, its new schedule is cut before it reaches the point, and a delete
is cut before it removes the point. -/
def revivedBell : List (TimerCall × Option Nat) :=
  [(.put (bell .canceled), none), (.put (bell .scheduled), some 2), (.delete bellKey.val, some 5)]

theorem apply_put_bell (timers : TimerMap) {status : TimerStatus} (h : status ≠ .unspecified) :
    (TimerCall.put (bell status)).apply timers = timers.insert bellKey (bell status) := by
  have haccepted : acceptedKey (bell status) = some bellKey := by
    apply acceptedKey_eq_some.2
    refine ⟨⟨rfl, rfl⟩, validateEntryStatus_eq_ok.2 ⟨h, fun _ => ⟨⟨100, 0⟩, rfl, rfl⟩⟩⟩
  rw [TimerCall.apply, haccepted]
  rfl

theorem Observed.lookup_eq {wire : Wire} {b : Bucket wire.Bytes} {timers : TimerMap}
    {key : RecordKey .timer} {found : Option TimerRecord} (h : Observed b timers)
    (hread : (b.exec (getTimer wire key.val)).1 = .ok found) : timers.lookup key = found := by
  rw [h.get] at hread
  exact Except.ok.inj hread

/-- After the first sequence the bell is neither scheduled nor CANCELED but gone. After the second
put of the other the bell is scheduled, and then it is neither scheduled nor gone but CANCELED. -/
theorem not_atomic_bell : ¬ Atomic taggedWire canceledBell ⟨∅, [], 0⟩ ∅ ∧
    ¬ Atomic taggedWire revivedBell ⟨∅, [], 0⟩ ∅ := by
  have hscheduled := fun timers => apply_put_bell timers (show TimerStatus.scheduled ≠ _ by decide)
  have hcanceled := fun timers => apply_put_bell timers (show TimerStatus.canceled ≠ _ by decide)
  have hdelete : ∀ timers : TimerMap,
      (TimerCall.delete bellKey.val).apply timers = timers.erase bellKey := fun _ => rfl
  constructor
  · intro h
    simp only [canceledBell, Atomic, hscheduled, hcanceled] at h
    obtain ⟨-, -, h | h⟩ := h
    · have hread : Finmap.lookup bellKey _ = none := h.lookup_eq rfl
      rw [Finmap.lookup_insert] at hread
      cases hread
    · have hread : Finmap.lookup bellKey _ = none := h.lookup_eq rfl
      rw [Finmap.lookup_insert] at hread
      cases hread
  · intro h
    simp only [revivedBell, Atomic, hscheduled, hcanceled, hdelete] at h
    obtain ⟨-, -, h | ⟨-, h | h⟩⟩ := h
    · have hread : Finmap.lookup bellKey _ = some (bell .scheduled) := h.1.lookup_eq rfl
      rw [Finmap.lookup_insert] at hread
      cases hread
    · have hread : Finmap.lookup bellKey _ = some (bell .canceled) := h.lookup_eq rfl
      rw [Finmap.lookup_insert] at hread
      cases hread
    · have hread : Finmap.lookup bellKey _ = some (bell .canceled) := h.lookup_eq rfl
      rw [Finmap.lookup_erase] at hread
      cases hread

end Temporaless.Python
