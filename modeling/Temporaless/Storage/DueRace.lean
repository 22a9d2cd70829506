import Temporaless.Framework.System
import Temporaless.Storage.Reached

/-!
# A due scan beside the writers of a timer

One process scans while another one puts and deletes a timer, and their object operations
interleave. The scan repairs a lagging timer by writing back the ledger entry it has read, so it can
undo a write that completed in between. As long as the ledger still holds what was read there,
readers see no change.
-/

namespace Temporaless.OpenDALStore

open PathTree Effects

inductive Party where
  | scan | writer
  deriving DecidableEq

/-- The bucket, and what the two parties have done so far: the ledger object the scan read last,
whether a write is under way, and what the last completed write established. -/
structure Race (Bytes : Type) where
  bucket : Bucket Bytes
  seen : Option Bytes
  writing : Bool
  established : Option TimerRecord

def outcome {α : Type} (state : Option TimerRecord) : Except Err α → Option (Option TimerRecord)
  | .ok _ => some state
  | .error _ => none

variable (wire : Wire) (key : RecordKey .timer)

abbrev RaceProgram := Program (bucketSignature wire.Bytes) (Option (Option TimerRecord))

def putCode (record : TimerRecord) : RaceProgram wire :=
  (putTimer wire record).run.bind fun r =>
    .done (outcome ((some record).filter (·.status ≠ .canceled)) r)

def deleteCode (k : TimerKey) : RaceProgram wire :=
  (deleteTimer wire k).run.bind fun r => .done (outcome none r)

def scanCode (fuel : Nat) (ns : String) (now : Int) : RaceProgram wire :=
  (dueTimers wire fuel ns now).run.bind fun _ => .done none

/-- The calls of the parties: any scan, and any write or delete of the one timer. -/
inductive Begins : Party → RaceProgram wire → Prop where
  | scan (fuel : Nat) (ns : String) (now : Int) : Begins .scan (scanCode wire fuel ns now)
  | put (record : TimerRecord) (h : (itemKeyFromProto record.key).withDefaults = key.val) :
      Begins .writer (putCode wire record)
  | delete (k : TimerKey) (h : k.withDefaults = key.val) : Begins .writer (deleteCode wire k)

namespace Race

variable {wire}

def onBegin (s : Race wire.Bytes) : Party → Race wire.Bytes
  | .scan => s
  | .writer => { s with writing := true }

def look (s : Race wire.Bytes) : Party → BucketOp wire.Bytes → Option wire.Bytes
  | .scan, .read path =>
    if path = key.val.dueLocation then s.bucket.objects.lookup path else s.seen
  | _, _ => s.seen

def act (s : Race wire.Bytes) (i : Party) (op : BucketOp wire.Bytes) :
    op.Reply × Race wire.Bytes :=
  ((s.bucket.step op).1, { s with bucket := (s.bucket.step op).2, seen := s.look key i op })

def onReturn (s : Race wire.Bytes) (result : Option (Option TimerRecord)) :
    Party → Race wire.Bytes
  | .scan => s
  | .writer => { s with writing := false, established := result.getD s.established }

end Race

/-- When the scan rewrites the ledger object, the object is still the one it has read. -/
def Undisturbed (i : Party) (s : Race wire.Bytes) (op : BucketOp wire.Bytes) : Prop :=
  match i, op with
  | .scan, .write path _ =>
    path = key.val.dueLocation → s.bucket.objects.lookup path = s.seen
  | _, _ => True

/-- The runs of the two parties in which every operation is `allowed`. -/
def race (allowed : Party → Race wire.Bytes → BucketOp wire.Bytes → Prop) :
    System (bucketSignature wire.Bytes) Party (Race wire.Bytes) (Option (Option TimerRecord)) where
  begins i s p s' := Begins wire key i p ∧ (i = .writer → s.writing = false) ∧ s' = s.onBegin i
  acts i s op r s' := allowed i s op ∧ s.act key i op = (r, s')
  returns i s a s' := s' = s.onReturn a i
  crashes _ _ _ := False

variable {i : Party} {α : Type} {data : wire.Bytes} {code : BucketM wire.Bytes α}

/-- A bucket the record store has left behind, with nobody at work. -/
structure Start (s : Race wire.Bytes) : Prop where
  reached : Reached wire s.bucket
  idle : s.writing = false
  established : s.bucket.exec (getTimer wire key.val) = (.ok s.established, s.bucket)

section Parties

variable {wire key} {s s' : Race wire.Bytes} {op : BucketOp wire.Bytes}

/-- Between two writes, readers see what the last one established. -/
structure Sound (key : RecordKey .timer) (s : Race wire.Bytes) : Prop where
  tidy : Tidy wire s.bucket.objects
  settled : s.writing = false → timerState wire s.bucket.objects key = s.established

/-- What one party may count on while the other acts. -/
def Rely (key : RecordKey .timer) : Party → Race wire.Bytes → Race wire.Bytes → Prop
  | .scan, s, s' => s'.seen = s.seen ∧ ∀ k : RecordKey .timer,
      (s.bucket.objects.lookup k.val.dueLocation).isSome →
        (s'.bucket.objects.lookup k.val.dueLocation).isSome
  | .writer, s, s' => s'.established = s.established ∧ s'.writing = s.writing ∧
      s'.bucket.objects.lookup key.val.dueLocation = s.bucket.objects.lookup key.val.dueLocation

def Party.other : Party → Party
  | .scan => .writer
  | .writer => .scan

def Keeps (key : RecordKey .timer) (i : Party) (s s' : Race wire.Bytes) : Prop :=
  Sound key s' ∧ Rely key i.other s s'

abbrev amidst (wire : Wire) (key : RecordKey .timer) (i : Party) :
    CallSpec (bucketSignature wire.Bytes) (Race wire.Bytes) :=
  .amid (Sound key) (fun s s' => s = s' ∨ Rely key i s s')
    ((race wire key (Undisturbed wire key)).acts i) fun s _ _ s' => Keeps key i s s'

theorem timerState_of_lookup {objects objects' : Objects wire}
    (h : objects'.lookup key.val.dueLocation = objects.lookup key.val.dueLocation) :
    timerState wire objects' key = timerState wire objects key := by
  simp only [timerState, ledgerRecord, storedRecord, h]

theorem timerState_of_entry {objects : Objects wire} {record : TimerRecord}
    (h : objects.lookup key.val.dueLocation = some (wire.due.marshal (dueEntry record))) :
    timerState wire objects key = (some record).filter (·.status ≠ .canceled) := by
  rw [timerState, ledgerRecord, storedRecord_some h]
  rfl

theorem Rely.refl (i : Party) (s : Race wire.Bytes) : Rely key i s s := by
  cases i with
  | scan => exact ⟨rfl, fun _ h => h⟩
  | writer => exact ⟨rfl, rfl, rfl⟩

theorem Rely.trans {s'' : Race wire.Bytes} (h : Rely key i s s')
    (h' : Rely key i s' s'') : Rely key i s s'' := by
  cases i with
  | scan => exact ⟨h'.1.trans h.1, fun k hk => h'.2 k (h.2 k hk)⟩
  | writer => exact ⟨h'.1.trans h.1, h'.2.1.trans h.2.1, h'.2.2.trans h.2.2⟩

theorem keeps_scan (hs : Sound key s) (htidy : Tidy wire (s.bucket.step op).2.objects)
    (hlookup : (s.bucket.step op).2.objects.lookup key.val.dueLocation =
      s.bucket.objects.lookup key.val.dueLocation) : Keeps key .scan s (s.act key .scan op).2 := by
  refine ⟨⟨htidy, fun hidle => ?_⟩, rfl, rfl, hlookup⟩
  exact (timerState_of_lookup hlookup).trans (hs.settled hidle)

theorem keeps_writer (hs : s.writing = true) (htidy : Tidy wire (s.bucket.step op).2.objects)
    (hledger : ∀ k : RecordKey .timer, (s.bucket.objects.lookup k.val.dueLocation).isSome →
      ((s.bucket.step op).2.objects.lookup k.val.dueLocation).isSome) :
    Keeps key .writer s (s.act key .writer op).2 := by
  refine ⟨⟨htidy, fun hidle => ?_⟩, ?_, hledger⟩
  · exact absurd (hs.symm.trans hidle) (by decide)
  · cases op <;> rfl

theorem keeps_same (hs : Sound key s) (hwriting : i = .writer → s.writing = true)
    (h : (s.bucket.step op).2.objects = s.bucket.objects) : Keeps key i s (s.act key i op).2 := by
  have htidy : Tidy wire (s.bucket.step op).2.objects := by
    rw [h]
    exact hs.tidy
  cases i with
  | scan => exact keeps_scan hs htidy (by rw [h])
  | writer =>
    apply keeps_writer (hwriting rfl) htidy
    intro k hk
    rwa [h]

/-- The rule of one operation: a condition that the other party cannot falsify holds before it. -/
theorem amidst_pre {P : Race wire.Bytes → Prop} {Q : op.Reply → Race wire.Bytes → Prop}
    (hs : P s) (hstable : ∀ s s', P s → Rely key i s s' → P s')
    (h : ∀ s, Sound key s → P s → Undisturbed wire key i s op →
      Keeps key i s (s.act key i op).2 ∧ Q (s.act key i op).1 (s.act key i op).2) :
    (amidst wire key i).pre op Q s := by
  intro s₁ hmoved hsound r s' hacts
  obtain ⟨hallowed, hact⟩ := hacts
  have hP : P s₁ := by
    rcases hmoved with rfl | hmoved
    · exact hs
    · exact hstable s s₁ hs hmoved
  have hstep := h s₁ hsound hP hallowed
  rw [hact] at hstep
  exact hstep

end Parties

section Scan

variable {wire key} {s : Race wire.Bytes} {k : RecordKey .timer} {record : TimerRecord}

/-- The scan is at work on the entry of a key: the entry exists, and if it is the entry of the
timer in question, it is the one the scan has read. -/
structure Scanning (key k : RecordKey .timer) (record : TimerRecord) (s : Race wire.Bytes) :
    Prop where
  present : (s.bucket.objects.lookup k.val.dueLocation).isSome
  seen : k = key → s.seen = some (wire.due.marshal (dueEntry record))

theorem Scanning.stable (s s' : Race wire.Bytes) (h : Scanning key k record s)
    (hrely : Rely key .scan s s') : Scanning key k record s' :=
  ⟨hrely.2 k h.present, fun hk => hrely.1.trans (h.seen hk)⟩

abbrev Harmless {α : Type} (key : RecordKey .timer) (code : BucketM wire.Bytes α) : Prop :=
  Preserves (amidst wire key .scan) (fun _ => True) code

theorem Harmless.of_readOnly (h : ReadOnly code) : Harmless key code := by
  intro s _
  apply ends_of_calls (I := fun _ => True) h ?_ trivial
  intro op hop s' _
  apply amidst_pre (P := fun _ => True) trivial (fun _ _ _ _ => trivial)
  intro s hs _ _
  refine ⟨keeps_same hs (by rintro ⟨⟩) ?_, trivial⟩
  rw [step_reads op hop]

theorem harmless_createDir (dir : Path) : Harmless key (createDir dir : BucketM wire.Bytes Unit) := by
  intro s _
  apply ends_createDir.2
  apply amidst_pre (P := fun _ => True) trivial (fun _ _ _ _ => trivial)
  intro s hs _ _
  exact ⟨keeps_same hs (by rintro ⟨⟩) rfl, trivial⟩

theorem harmless_write {a : Address} (hdata : WellStored wire a data)
    (hdue : ∀ k, a ≠ .due k) (hpoint : ∀ k, a ≠ .item .timer k) :
    Harmless key (writeObject a.path data) := by
  intro s _
  apply ends_writeObject.2
  apply amidst_pre (P := fun _ => True) trivial (fun _ _ _ _ => trivial)
  intro s hs _ _
  refine ⟨keeps_scan hs ?_ ?_, trivial⟩
  · exact hs.tidy.insert hdata fun k hk => absurd hk (hpoint k)
  · exact lookup_insert_address (a := .due key) (hdue key).symm _

theorem harmless_deletePoint (k : RecordKey .timer) :
    Harmless key (deleteObject (Address.item .timer k).path : BucketM wire.Bytes Unit) := by
  intro s _
  apply ends_deleteObject.2
  apply amidst_pre (P := fun _ => True) trivial (fun _ _ _ _ => trivial)
  intro s hs _ _
  refine ⟨?_, trivial⟩
  rcases hpoint : s.bucket.objects.lookup (Address.item .timer k).path with _ | data
  · exact keeps_same hs (by rintro ⟨⟩) (by simp [Bucket.step, hpoint])
  · have hobjects : (s.bucket.step (.delete (Address.item .timer k).path)).2.objects =
        s.bucket.objects.erase (Address.item .timer k).path := by simp [Bucket.step, hpoint]
    apply keeps_scan hs
    · rw [hobjects]
      exact hs.tidy.erase (by simp)
    · rw [hobjects]
      exact lookup_erase_address (a := .due key) (by simp)

def Aside (key : RecordKey .timer) (op : BucketOp wire.Bytes) : Prop :=
  Reads op ∧ op ≠ .read key.val.dueLocation

theorem look_of_aside {op : BucketOp wire.Bytes} (h : Aside key op) (s : Race wire.Bytes) :
    s.look key .scan op = s.seen := by
  cases op with
  | read path =>
    have hpath : path ≠ key.val.dueLocation := by
      intro heq
      exact h.2 (by rw [heq])
    simp [Race.look, hpath]
  | _ => rfl

theorem Scanning.act {op : BucketOp wire.Bytes} (h : Scanning key k record s)
    (hlook : s.look key .scan op = s.seen)
    (hledger : ((s.bucket.step op).2.objects.lookup k.val.dueLocation).isSome) :
    Scanning key k record (s.act key .scan op).2 :=
  ⟨hledger, fun hk => hlook.trans (h.seen hk)⟩

theorem scan_aside (h : code.run.Calls (Aside key)) (hs : Scanning key k record s) :
    ends (amidst wire key .scan) code (fun _ s' => Scanning key k record s') s := by
  apply ends_of_calls (I := Scanning key k record) h ?_ hs
  intro op hop s' hs'
  apply amidst_pre hs' Scanning.stable
  intro s hsound hs _
  have hsame := step_reads op hop.1 s.bucket
  refine ⟨keeps_same hsound (by rintro ⟨⟩) (by rw [hsame]), ?_⟩
  exact hs.act (look_of_aside hop s) (by rw [hsame]; exact hs.present)

theorem scan_createDir {dir : Path} (hs : Scanning key k record s) :
    ends (amidst wire key .scan) (createDir dir)
      (fun r s' => r = .ok () ∧ Scanning key k record s') s := by
  apply ends_createDir.2
  apply amidst_pre hs Scanning.stable
  intro s hsound hs _
  refine ⟨keeps_same hsound (by rintro ⟨⟩) rfl, rfl, ?_⟩
  exact hs.act rfl hs.present

theorem scan_prepare (hprep : Preparable record k) (hs : Scanning key k record s) :
    ends (amidst wire key .scan)
      (writeObject (Address.due k).path (wire.due.marshal (dueEntry record)))
      (fun r s' => r = .ok () ∧ Scanning key k record s') s := by
  apply ends_writeObject.2
  apply amidst_pre hs Scanning.stable
  intro s hsound hs hundisturbed
  have hentry : (prepare s.bucket.objects k record).lookup k.val.dueLocation =
      some (wire.due.marshal (dueEntry record)) := lookup_prepare
  refine ⟨keeps_scan hsound (hsound.tidy.prepare hprep) ?_, rfl, ?_⟩
  · by_cases hk : k = key
    · subst hk
      have hstill : s.bucket.objects.lookup k.val.dueLocation = s.seen := hundisturbed rfl
      rw [hstill, hs.seen rfl]
      exact hentry
    · exact lookup_insert_address (a := .due key) (fun h => hk (Address.due.inj h).symm) _
  · apply hs.act rfl
    change ((prepare s.bucket.objects k record).lookup k.val.dueLocation).isSome
    rw [hentry]
    rfl

theorem scan_publish (hprep : Preparable record k) (hs : Scanning key k record s) :
    ends (amidst wire key .scan)
      (writeObject (Address.item .timer k).path (wire.timer.marshal record)) (fun _ _ => True) s := by
  apply ends_writeObject.2
  apply amidst_pre hs Scanning.stable
  intro s hsound hs _
  refine ⟨keeps_scan hsound (hsound.tidy.publish hprep hs.present) ?_, trivial⟩
  exact lookup_insert_address (a := .due key) (by simp) _

theorem scan_putTimer (hprep : Preparable record k) (hs : Scanning key k record s) :
    ends (amidst wire key .scan) (putTimer wire record) (fun _ _ => True) s := by
  simp only [putTimer, putDueEntry, hprep.key, ends_bind, ends_liftExcept,
    ends_pure, hprep.valid, hprep.check_eq, k.dueEntryPath_eq, k.path_eq, k.dirPath_eq]
  refine (scan_createDir hs).mono ?_
  rintro r s₁ ⟨rfl, hs₁⟩
  refine (scan_createDir hs₁).mono ?_
  rintro r s₂ ⟨rfl, hs₂⟩
  refine (scan_prepare hprep hs₂).mono ?_
  rintro r s₃ ⟨rfl, hs₃⟩
  exact scan_publish hprep hs₃

theorem aside_getTimerPoint (k : RecordKey .timer) :
    (getTimerPoint wire k.val).run.Calls (Aside key) := by
  have hne : (Address.item .timer k).path ≠ (Address.due key).path := Address.path_ne (by simp)
  apply (calls_getRecord _ _ _ _).imp
  intro op hop
  obtain ⟨p, hp, hop⟩ := hop
  rw [k.path_eq] at hp
  cases hp
  rcases hop with rfl | rfl
  · exact ⟨trivial, by simp⟩
  · exact ⟨trivial, fun heq => hne (BucketOp.read.inj heq)⟩

theorem path_eq_address (k : RecordKey .timer) :
    k.val.path = .ok (Address.item .timer k).path := k.path_eq

theorem harmless_deleteIfExists (k : RecordKey .timer) :
    Harmless key (deleteIfExists (Address.item .timer k).path : BucketM wire.Bytes Bool) := by
  apply (Harmless.of_readOnly (readOnly_isExist _)).bind
  intro present
  split
  · exact preserves_pure _
  · apply (harmless_deletePoint k).attempt.bind
    intro deleted
    split
    · split
      · exact preserves_pure _
      · exact preserves_throw _
    · exact preserves_pure _

theorem harmless_completeDelete (k : RecordKey .timer) (point : Except Err (Option TimerRecord)) :
    Harmless key (completeDelete wire k.val point) := by
  unfold completeDelete
  split
  · exact preserves_pure _
  · rw [path_eq_address]
    apply (harmless_deleteIfExists k).bind
    intro _
    exact preserves_pure _

theorem scan_repairOrReport (now : Int) (hprep : Preparable record k)
    (hs : Scanning key k record s) (point : Except Err (Option TimerRecord)) :
    ends (amidst wire key .scan) (repairOrReport wire now (dueEntry record) record point)
      (fun _ _ => True) s := by
  unfold repairOrReport
  rw [hprep.entryTimerKey]
  split
  · exact (harmless_completeDelete k point).bind (fun _ => preserves_pure _) s trivial
  · split
    · exact (scan_putTimer hprep hs).bind_preserves fun _ => preserves_pure _
    · split
      · exact preserves_pure _ s trivial
      · exact (Harmless.of_readOnly (readOnly_dueWorkflow _ _)).bind (fun _ => preserves_pure _) s trivial

theorem scan_scanPrepared (now : Int) (hprep : Preparable record k) (hs : Scanning key k record s) :
    ends (amidst wire key .scan) (scanPrepared wire now (dueEntry record) record)
      (fun _ _ => True) s := by
  unfold scanPrepared
  rw [hprep.entryTimerKey]
  refine ends_bind.2 (ends_attempt.2 ?_)
  apply (scan_aside (aside_getTimerPoint k) hs).mono
  intro point s' hs'
  dsimp only
  split
  · split
    · exact ends_bind.2 (ends_throw.2 trivial)
    · exact scan_repairOrReport now hprep hs' _
  · exact scan_repairOrReport now hprep hs' _

theorem scan_readEntry (ledgerPath : Path) :
    ends (amidst wire key .scan) (readListedProto wire.due ledgerPath)
      (fun r s' => ∀ entry, r = .ok entry → ∃ data a, wire.due.unmarshal data = .ok entry ∧
        ledgerPath = Address.path a ∧ WellStored wire a data ∧
        (s'.bucket.objects.lookup ledgerPath).isSome ∧
        (ledgerPath = key.val.dueLocation → s'.seen = some data)) s := by
  apply ends_bind.2
  apply ends_readObject.2
  apply amidst_pre (P := fun _ => True) trivial (fun _ _ _ _ => trivial)
  intro s hs _ _
  constructor
  · apply keeps_same hs (by rintro ⟨⟩)
    rw [step_reads (.read ledgerPath) trivial]
  · rcases hlookup : s.bucket.objects.lookup ledgerPath with _ | data
    · have hreply : (s.act key .scan (.read ledgerPath)).1 = .error (notFoundError ledgerPath) := by
        simp [Race.act, Bucket.step, hlookup]
      rw [hreply]
      rintro entry ⟨⟩
    · have hreply : (s.act key .scan (.read ledgerPath)).1 = .ok data := by
        simp [Race.act, Bucket.step, hlookup]
      have hobjects : (s.act key .scan (.read ledgerPath)).2.bucket.objects = s.bucket.objects :=
        congrArg Bucket.objects (step_reads (.read ledgerPath) trivial s.bucket)
      rw [hreply]
      rcases hentry : wire.due.unmarshal data with text | entry
      · simp only [hentry, ends_throw]
        rintro entry ⟨⟩
      · simp only [hentry, ends_pure]
        rintro entry ⟨⟩
        obtain ⟨a, ha, hstored⟩ := hs.tidy.placed ledgerPath data hlookup
        refine ⟨data, a, hentry, ha, hstored, ?_, ?_⟩
        · rw [hobjects, hlookup]
          rfl
        · intro hpath
          simp [Race.act, Race.look, ← hpath, hlookup]

theorem harmless_rejectDueEntry (root : DueLedgerRoot) (ns : String)
    (hroot : root.quarantinePath = dueInvalidRoot ns) (ledgerPath : Path) (scanErr : Err) :
    Harmless key (rejectDueEntry wire root ledgerPath scanErr : BucketM wire.Bytes α) := by
  have hquarantine : Harmless key (quarantineDueEntry wire root.quarantinePath ledgerPath) := by
    rw [hroot]
    apply (Harmless.of_readOnly (readOnly_readObject _)).attempt.bind
    intro read
    split
    · split
      · exact preserves_pure _
      · exact preserves_throw _
    · apply (harmless_createDir _).bind
      intro _
      exact harmless_write (a := .quarantine ns (wire.digest (render ledgerPath))) trivial
        (by simp) (by simp)
  apply hquarantine.attempt.bind
  intro result
  split
  · exact preserves_throw _
  · exact preserves_throw _

theorem scanning_of_checks {root ledgerPath : Path} {entry : DueTimerEntry}
    {a : Address} (hdata : wire.due.unmarshal data = .ok entry) (ha : ledgerPath = a.path)
    (hstored : WellStored wire a data) (hpresent : (s.bucket.objects.lookup ledgerPath).isSome)
    (hseen : ledgerPath = key.val.dueLocation → s.seen = some data)
    (hchecks : validateDueEntry root ledgerPath entry (entryTimerKey entry)
      (entryWorkflowKey entry) = .ok ()) :
    ∃ k record, entry = dueEntry record ∧ Preparable record k ∧ Scanning key k record s := by
  obtain ⟨hkey, hpath⟩ := location_of_validateDueEntry hchecks
  have haddress : a = .due ((entryTimerKey entry).stored hkey) :=
    Address.path_injective (ha.symm.trans hpath)
  rw [haddress] at hstored
  obtain ⟨record, hrecord, hprep⟩ := hstored
  rw [hrecord, wire.due.unmarshal_marshal] at hdata
  refine ⟨(entryTimerKey entry).stored hkey, record, (Except.ok.inj hdata).symm, hprep, ?_, ?_⟩
  · rw [hpath] at hpresent
    exact hpresent
  · intro hk
    rw [← hrecord]
    apply hseen
    rw [hpath, hk]
    rfl

theorem harmless_scanEntry (now : Int) (root : DueLedgerRoot) (ns : String)
    (hroot : root.quarantinePath = dueInvalidRoot ns) (ledgerPath : Path) :
    Harmless key (scanEntry wire now root ledgerPath) := by
  intro s _
  refine ends_bind.2 (ends_attempt.2 ?_)
  apply (scan_readEntry ledgerPath).mono
  intro r s' hread
  rcases r with err | entry
  · dsimp only
    split
    · exact preserves_pure _ s' trivial
    · exact harmless_rejectDueEntry root ns hroot ledgerPath _ s' trivial
  · obtain ⟨data, a, hdata, ha, hstored, hpresent, hseen⟩ := hread entry rfl
    rcases hchecks : validateDueEntry root.path ledgerPath entry (entryTimerKey entry)
        (entryWorkflowKey entry) with err | u
    · simp only [hchecks]
      exact harmless_rejectDueEntry root ns hroot ledgerPath _ s' trivial
    · obtain ⟨k, record, rfl, hprep, hscanning⟩ :=
        scanning_of_checks hdata ha hstored hpresent hseen hchecks
      simp only [hchecks]
      exact scan_scanPrepared now hprep hscanning

theorem harmless_scanPaths (now : Int) (root : DueLedgerRoot) (ns : String)
    (hroot : root.quarantinePath = dueInvalidRoot ns) (paths : List Path) :
    Harmless key (scanPaths wire now root paths) := by
  induction paths with
  | nil => exact preserves_pure _
  | cons ledgerPath paths ih =>
    apply (harmless_scanEntry now root ns hroot ledgerPath).bind
    intro found
    apply ih.bind
    intro due
    exact preserves_pure _

theorem harmless_scanRoots (fuel : Nat) (now : Int) (roots : List DueLedgerRoot)
    (hroots : ∀ root ∈ roots, ∃ ns, root.quarantinePath = dueInvalidRoot ns) :
    Harmless key (scanRoots wire fuel now roots) := by
  induction roots with
  | nil => exact preserves_pure _
  | cons root roots ih =>
    obtain ⟨ns, hroot⟩ := hroots root (by simp)
    apply (Harmless.of_readOnly (readOnly_walkOpenDAL fuel root.path)).bind
    intro paths
    apply (harmless_scanPaths now root ns hroot paths).bind
    intro due
    apply (ih fun root hmem => hroots root (List.mem_cons_of_mem _ hmem)).bind
    intro rest
    exact preserves_pure _

theorem scan_dueRoots (ns : String) :
    ends (amidst wire key .scan) (dueRoots wire ns)
      (fun r _ => ∀ roots, r = .ok roots →
        ∀ root ∈ roots, ∃ ns', root.quarantinePath = dueInvalidRoot ns') s := by
  unfold dueRoots
  split
  · rw [ends_bind, ends_liftExcept]
    rcases (WorkflowKey.mk ns "placeholder" "placeholder").validate with err | u
    · rintro roots ⟨⟩
    · apply ends_pure.2
      rintro roots ⟨⟩
      simp
  · refine ends_bind.2 (ends_attempt.2 ?_)
    apply ends_listDir.2
    apply amidst_pre (P := fun _ => True) trivial (fun _ _ _ _ => trivial)
    intro s hs _ _
    constructor
    · apply keeps_same hs (by rintro ⟨⟩)
      rw [step_reads (.list storageRoot) trivial]
    · by_cases hdir : s.bucket.locations.any (storageRoot <+: ·)
      · have hreply : (s.act key .scan (.list storageRoot)).1 =
            .ok ⟨s.bucket.entries storageRoot, none⟩ := by simp [Race.act, Bucket.step, hdir]
        rw [hreply]
        apply ends_pure.2
        rintro roots ⟨⟩ root hroot
        rw [List.mem_insertionSort, subdirectories_entries, List.map_map, List.mem_map] at hroot
        obtain ⟨space, -, rfl⟩ := hroot
        exact ⟨space, rfl⟩
      · have hreply : (s.act key .scan (.list storageRoot)).1 =
            .error (notFoundError storageRoot) := by simp [Race.act, Bucket.step, hdir]
        rw [hreply]
        simp only [isOpenDALNotFound_notFoundError, if_true, ends_pure]
        rintro roots ⟨⟩
        simp

theorem harmless_dueTimers (fuel : Nat) (ns : String) (now : Int) :
    Harmless key (dueTimers wire fuel ns now) := by
  unfold dueTimers
  split
  · exact preserves_throw _
  · intro s _
    apply ends_bind.2
    apply (scan_dueRoots ns).mono
    intro r s' hroots
    cases r with
    | error err => trivial
    | ok roots =>
      exact (harmless_scanRoots fuel now roots (hroots roots rfl)).bind (fun _ => preserves_pure _) s' trivial

end Scan

section Writer

variable {wire key} {s : Race wire.Bytes} {ledger : Option wire.Bytes} {e : Option TimerRecord}
variable {record : TimerRecord}

/-- A write is under way; the ledger object is the one the writer left there. -/
structure Writing (key : RecordKey .timer) (ledger : Option wire.Bytes) (e : Option TimerRecord)
    (s : Race wire.Bytes) : Prop where
  busy : s.writing = true
  ledger : s.bucket.objects.lookup key.val.dueLocation = ledger
  established : s.established = e

theorem Writing.stable (s s' : Race wire.Bytes) (h : Writing key ledger e s)
    (hrely : Rely key .writer s s') : Writing key ledger e s' :=
  ⟨hrely.2.1.trans h.busy, hrely.2.2.trans h.ledger, hrely.1.trans h.established⟩

theorem writer_pre {op : BucketOp wire.Bytes} {Q : op.Reply → Race wire.Bytes → Prop}
    (hs : Writing key ledger e s) (hop : ∀ b : Bucket wire.Bytes, (b.step op).2.objects = b.objects)
    (hQ : ∀ s₁ s', Sound key s₁ → Writing key ledger e s₁ → Writing key ledger e s' →
      Q (s₁.bucket.step op).1 s') : (amidst wire key .writer).pre op Q s := by
  apply amidst_pre hs Writing.stable
  intro s hsound hs _
  refine ⟨keeps_same hsound (fun _ => hs.busy) (hop s.bucket), ?_⟩
  apply hQ s _ hsound hs
  refine ⟨hs.busy, ?_, hs.established⟩
  exact (congrArg (AList.lookup key.val.dueLocation) (hop s.bucket)).trans hs.ledger

theorem writer_createDir (dir : Path) (hs : Writing key ledger e s) :
    ends (amidst wire key .writer) (createDir dir)
      (fun r s' => r = .ok () ∧ Writing key ledger e s') s := by
  apply ends_createDir.2
  apply writer_pre hs (fun _ => rfl)
  intro s₁ s' _ _ hs'
  exact ⟨rfl, hs'⟩

theorem writer_isExist (path : Path) (hs : Writing key ledger e s) :
    ends (amidst wire key .writer) (isExist path)
      (fun r s' => Writing key ledger e s' ∧ ∃ s₁, Sound key s₁ ∧ Writing key ledger e s₁ ∧
        r = .ok (s₁.bucket.objects.lookup path).isSome) s := by
  apply ends_isExist.2
  apply writer_pre hs (fun _ => rfl)
  intro s₁ s' hsound hs₁ hs'
  exact ⟨hs', s₁, hsound, hs₁, rfl⟩

theorem writer_readLedger (hs : Writing key (some data) e s) :
    ends (amidst wire key .writer) (readObject key.val.dueLocation)
      (fun r s' => r = .ok data ∧ Writing key (some data) e s') s := by
  apply ends_readObject.2
  apply writer_pre hs
  · intro b
    rw [step_reads (.read key.val.dueLocation) trivial]
  · intro s₁ s' _ hs₁ hs'
    refine ⟨?_, hs'⟩
    simp [Bucket.step, hs₁.ledger]

theorem writer_prepare (hprep : Preparable record key) (hs : Writing key ledger e s) :
    ends (amidst wire key .writer)
      (writeObject (Address.due key).path (wire.due.marshal (dueEntry record)))
      (fun r s' => r = .ok () ∧
        Writing key (some (wire.due.marshal (dueEntry record))) e s') s := by
  apply ends_writeObject.2
  apply amidst_pre hs Writing.stable
  intro s hsound hs _
  have hentry : (prepare s.bucket.objects key record).lookup key.val.dueLocation =
      some (wire.due.marshal (dueEntry record)) := lookup_prepare
  refine ⟨keeps_writer hs.busy (hsound.tidy.prepare hprep) ?_, rfl, hs.busy, hentry, hs.established⟩
  intro k hk
  change ((prepare s.bucket.objects key record).lookup k.val.dueLocation).isSome
  by_cases heq : k = key
  · rw [heq, hentry]
    rfl
  · have hother : (prepare s.bucket.objects key record).lookup k.val.dueLocation =
        s.bucket.objects.lookup k.val.dueLocation :=
      lookup_insert_address (a := .due k) (fun h => heq (Address.due.inj h)) _
    rw [hother]
    exact hk

theorem writer_publish (hprep : Preparable record key) (hs : Writing key (some data) e s) :
    ends (amidst wire key .writer)
      (writeObject (Address.item .timer key).path (wire.timer.marshal record))
      (fun r s' => r = .ok () ∧ Writing key (some data) e s') s := by
  apply ends_writeObject.2
  apply amidst_pre hs Writing.stable
  intro s hsound hs _
  have hledger : ∀ k : RecordKey .timer, (publish s.bucket.objects key record).lookup
      k.val.dueLocation = s.bucket.objects.lookup k.val.dueLocation :=
    fun k => lookup_insert_address (a := .due k) (by simp) _
  refine ⟨keeps_writer hs.busy (hsound.tidy.publish hprep ?_) ?_, rfl, hs.busy, ?_, hs.established⟩
  · rw [hs.ledger]
    rfl
  · intro k hk
    change ((publish s.bucket.objects key record).lookup k.val.dueLocation).isSome
    rw [hledger]
    exact hk
  · exact (hledger key).trans hs.ledger

theorem writer_deletePoint (hs : Writing key ledger e s) :
    ends (amidst wire key .writer) (deleteObject (Address.item .timer key).path)
      (fun r s' => (r = .ok () ∨ r = .error (notFoundError (Address.item .timer key).path)) ∧
        Writing key ledger e s') s := by
  apply ends_deleteObject.2
  apply amidst_pre hs Writing.stable
  intro s hsound hs _
  rcases hpoint : s.bucket.objects.lookup (Address.item .timer key).path with _ | data
  · have hstep : s.bucket.step (.delete (Address.item .timer key).path) =
        (.error (notFoundError (Address.item .timer key).path), s.bucket) := by
      simp [Bucket.step, hpoint]
    refine ⟨keeps_same hsound (fun _ => hs.busy) (by rw [hstep]), ?_⟩
    simp only [Race.act, hstep]
    exact ⟨Or.inr trivial, hs.busy, hs.ledger, hs.established⟩
  · have hstep : s.bucket.step (.delete (Address.item .timer key).path) =
        (.ok (), { s.bucket with
          objects := s.bucket.objects.erase (Address.item .timer key).path }) := by
      simp [Bucket.step, hpoint]
    have hledger : ∀ k : RecordKey .timer,
        (s.bucket.objects.erase (Address.item .timer key).path).lookup k.val.dueLocation =
          s.bucket.objects.lookup k.val.dueLocation :=
      fun k => lookup_erase_address (a := .due k) (by simp)
    constructor
    · apply keeps_writer hs.busy
      · rw [hstep]
        exact hsound.tidy.erase (by simp)
      · intro k hk
        rw [hstep]
        change ((s.bucket.objects.erase (Address.item .timer key).path).lookup
          k.val.dueLocation).isSome
        rw [hledger]
        exact hk
    · simp only [Race.act, hstep]
      exact ⟨Or.inl trivial, hs.busy, (hledger key).trans hs.ledger, hs.established⟩

theorem writer_putTimer (hprep : Preparable record key) (hs : Writing key ledger e s) :
    ends (amidst wire key .writer) (putTimer wire record)
      (fun r s' => r = .ok () ∧
        Writing key (some (wire.due.marshal (dueEntry record))) e s') s := by
  simp only [putTimer, putDueEntry, hprep.key, ends_bind, ends_liftExcept,
    ends_pure, hprep.valid, hprep.check_eq, key.dueEntryPath_eq, path_eq_address, key.dirPath_eq]
  apply (writer_createDir _ hs).mono
  rintro r s₁ ⟨rfl, hs₁⟩
  apply (writer_createDir _ hs₁).mono
  rintro r s₂ ⟨rfl, hs₂⟩
  apply (writer_prepare hprep hs₂).mono
  rintro r s₃ ⟨rfl, hs₃⟩
  exact writer_publish hprep hs₃

theorem writer_putTimer_rejected (hprep : ¬∃ k, Preparable record k) (hs : Writing key ledger e s) :
    ends (amidst wire key .writer) (putTimer wire record)
      (fun r s' => (∃ err, r = .error err) ∧ Writing key ledger e s') s := by
  rw [exists_preparable_iff, not_and] at hprep
  simp only [putTimer, ends_bind, ends_liftExcept]
  rcases hvalid : validateTimerRecord record (itemKeyFromProto record.key).withDefaults with err | u
  · exact ⟨⟨err, rfl⟩, hs⟩
  · rcases hcheck : checkPrepared record with err | u'
    · have hkey := ItemKey.valid_withDefaults.2 (validateItem_eq_ok.1 hvalid).2.1
      simp only [ItemKey.path_of_valid hkey, ItemKey.dirPath_of_valid hkey, putDueEntry,
        ends_bind, ends_liftExcept, hvalid, hcheck]
      apply (writer_createDir _ hs).mono
      rintro r s₁ ⟨rfl, hs₁⟩
      exact ⟨⟨err, rfl⟩, hs₁⟩
    · exact absurd hcheck (hprep hvalid)

theorem writer_getDueEntry {k : TimerKey} (hk : k.Valid) (hkey : k.stored hk = key)
    (hprep : Preparable record key)
    (hs : Writing key (some (wire.due.marshal (dueEntry record))) e s) :
    ends (amidst wire key .writer) (getDueEntry wire k)
      (fun r s' => r = .ok (some (dueEntry record)) ∧
        Writing key (some (wire.due.marshal (dueEntry record))) e s') s := by
  have hval : k.withDefaults = key.val := congrArg Subtype.val hkey
  have hpath : dueEntryPath k = .ok key.val.dueLocation := by
    rw [ItemKey.dueEntryPath_of_valid hk, hval]
  simp only [getDueEntry, ends_bind, ends_liftExcept, hpath, hval]
  apply (writer_isExist _ hs).mono
  rintro r s₁ ⟨hs₁, s₀, -, hs₀, rfl⟩
  simp only [hs₀.ledger, Option.isSome_some, Bool.not_true, Bool.false_eq_true, if_false,
    readListedProto, ends_bind]
  apply (writer_readLedger hs₁).mono
  rintro r s₂ ⟨rfl, hs₂⟩
  simp only [wire.due.unmarshal_marshal, ends_pure, ends_liftExcept,
    hprep.entryTimerKey, hprep.entryWorkflowKey, hprep.validateDueEntry, Except.mapError,
    guardCorrupt, beq_self_eq_true, if_true]
  exact ⟨trivial, hs₂⟩

theorem writer_getDueEntry_absent {k : TimerKey} (hk : k.Valid) (hkey : k.stored hk = key)
    (hs : Writing key none e s) :
    ends (amidst wire key .writer) (getDueEntry wire k)
      (fun r s' => r = .ok none ∧ Writing key none e s') s := by
  have hpath : dueEntryPath k = .ok key.val.dueLocation := by
    rw [ItemKey.dueEntryPath_of_valid hk, ← hkey]
    rfl
  simp only [getDueEntry, ends_bind, ends_liftExcept, hpath]
  apply (writer_isExist _ hs).mono
  rintro r s₁ ⟨hs₁, s₀, -, hs₀, rfl⟩
  simp only [hs₀.ledger, Option.isSome_none, Bool.not_false, if_true, ends_pure]
  exact ⟨trivial, hs₁⟩

theorem writer_deleteIfExists (hs : Writing key ledger e s) :
    ends (amidst wire key .writer) (deleteIfExists (Address.item .timer key).path)
      (fun r s' => (∃ deleted, r = .ok deleted) ∧ Writing key ledger e s') s := by
  apply ends_bind.2
  apply (writer_isExist _ hs).mono
  rintro r s₁ ⟨hs₁, s₀, -, -, rfl⟩
  dsimp only
  split
  · exact ends_pure.2 ⟨⟨false, rfl⟩, hs₁⟩
  · apply ends_bind.2
    apply ends_attempt.2
    apply (writer_deletePoint hs₁).mono
    rintro r s₂ ⟨rfl | rfl, hs₂⟩
    · exact ends_pure.2 ⟨⟨true, rfl⟩, hs₂⟩
    · simp only [isOpenDALNotFound_notFoundError, if_true]
      exact ends_pure.2 ⟨⟨false, rfl⟩, hs₂⟩

theorem writer_deleteTimer {k : TimerKey} (hk : k.Valid) (hkey : k.stored hk = key)
    (hsound : Sound key s) (hs : Writing key ledger e s) :
    ends (amidst wire key .writer) (deleteTimer wire k)
      (fun r s' => (∃ deleted, r = .ok deleted) ∧ s'.writing = true ∧
        timerState wire s'.bucket.objects key = none) s := by
  have hpath : k.path = .ok (Address.item .timer key).path := by
    rw [ItemKey.path_of_valid hk, ← hkey]
    rfl
  simp only [deleteTimer, ends_bind, ends_liftExcept, hpath]
  apply (writer_isExist _ hs).mono
  rintro r s₁ ⟨hs₁, s₀, hsound₀, hs₀, rfl⟩
  rcases hsound.tidy.ledger_cases key with ⟨hlookup, -⟩ | ⟨record, hlookup, -, hprep⟩
  · -- neither object exists, and the scan does not make one
    obtain rfl : ledger = none := hs.ledger.symm.trans hlookup
    have hpoint : s₀.bucket.objects.lookup (Address.item .timer key).path = none :=
      hsound₀.tidy.pointRecord_none hs₀.ledger
    apply (writer_getDueEntry_absent hk hkey hs₁).mono
    rintro r s₂ ⟨rfl, hs₂⟩
    simp only [hpoint, Option.isSome_none, Bool.not_false, Option.bind_none, Option.isNone_none,
      Bool.and_self, if_true, ends_pure]
    refine ⟨⟨false, rfl⟩, hs₂.busy, ?_⟩
    rw [timerState, ledgerRecord, storedRecord_none hs₂.ledger]
    rfl
  · obtain rfl : ledger = some (wire.due.marshal (dueEntry record)) := hs.ledger.symm.trans hlookup
    apply (writer_getDueEntry hk hkey hprep hs₁).mono
    rintro r s₂ ⟨rfl, hs₂⟩
    dsimp only
    split
    · next hgone =>
        simp only [Bool.and_eq_true] at hgone
        refine ends_pure.2 ⟨⟨false, rfl⟩, hs₂.busy, ?_⟩
        rw [timerState_of_entry hs₂.ledger]
        simpa [preparedRecord, hprep.dueEntry_key] using hgone.2
    · have hsource : (dueEntry record).record = some record := rfl
      simp only [tombstoneSource, hsource, ends_bind, ends_pure, putDueEntry,
        hprep.tombstone.key, ends_liftExcept, hprep.tombstone.valid, hprep.tombstone.check_eq,
        key.dueEntryPath_eq]
      apply (writer_createDir _ hs₂).mono
      rintro r s₃ ⟨rfl, hs₃⟩
      apply (writer_prepare hprep.tombstone hs₃).mono
      rintro r s₄ ⟨rfl, hs₄⟩
      apply (writer_deleteIfExists hs₄).mono
      rintro r s₅ ⟨⟨deleted, rfl⟩, hs₅⟩
      refine ⟨⟨true, rfl⟩, hs₅.busy, ?_⟩
      rw [timerState_of_entry hs₅.ledger]
      rfl

end Writer

section Interleaving

variable {wire key}

def Returned (key : RecordKey .timer) :
    Party → Option (Option TimerRecord) → Race wire.Bytes → Prop
  | .scan, _, _ => True
  | .writer, result, s => s.writing = true ∧
      timerState wire s.bucket.objects key = result.getD s.established

theorem begins_safe {s : Race wire.Bytes} {p : RaceProgram wire} (hs : Sound key s)
    (hidle : i = .writer → s.writing = false) (h : Begins wire key i p) :
    p.wp (amidst wire key i) (Returned key i) (s.onBegin i) := by
  cases h with
  | scan fuel ns now =>
    exact (harmless_dueTimers fuel ns now s trivial).done fun _ _ h => h
  | put record hkey =>
    have hstart : Writing key (s.bucket.objects.lookup key.val.dueLocation) s.established
        (s.onBegin .writer) := ⟨rfl, rfl, rfl⟩
    have hstate := hs.settled (hidle rfl)
    by_cases hprep : ∃ k, Preparable record k
    · obtain ⟨k, hprep⟩ := hprep
      obtain rfl : k = key := Subtype.ext (hprep.key.symm.trans hkey)
      apply (writer_putTimer hprep hstart).done
      rintro r s' ⟨rfl, hs'⟩
      exact ⟨hs'.busy, timerState_of_entry hs'.ledger⟩
    · apply (writer_putTimer_rejected hprep hstart).done
      rintro r s' ⟨⟨err, rfl⟩, hs'⟩
      refine ⟨hs'.busy, ?_⟩
      rw [timerState_of_lookup hs'.ledger, hstate]
      exact hs'.established.symm
  | delete k hkey =>
    have hk : k.Valid := by
      rw [← ItemKey.valid_withDefaults, hkey]
      exact key.property.1
    have hstart : Writing key (s.bucket.objects.lookup key.val.dueLocation) s.established
        (s.onBegin .writer) := ⟨rfl, rfl, rfl⟩
    have hsound : Sound key (s.onBegin .writer) := by
      refine ⟨hs.tidy, ?_⟩
      rintro ⟨⟩
    apply (writer_deleteTimer hk (Subtype.ext hkey) hsound hstart).done
    rintro r s' ⟨⟨deleted, rfl⟩, hbusy, hstate⟩
    exact ⟨hbusy, hstate⟩

def raceOutline (wire : Wire) (key : RecordKey .timer) :
    (race wire key (Undisturbed wire key)).Outline (Start wire key) where
  Inv := Sound key
  Rely := Rely key
  Guar i s _ _ s' := Keeps key i s s'
  Post := Returned key
  init := by
    intro s hs
    have htidy := hs.reached.tidy
    refine ⟨htidy, fun _ => ?_⟩
    have hread := exec_getTimer htidy key.val key.property.1
    rw [hs.established, key.stored] at hread
    exact (Except.ok.inj (congrArg Prod.fst hread)).symm
  trans := by
    intro i s s' s'' h h'
    exact h.trans h'
  stable := by
    intro i a s s' hpost hrely
    cases i with
    | scan => trivial
    | writer =>
        refine ⟨hrely.2.1.trans hpost.1, ?_⟩
        rw [timerState_of_lookup hrely.2.2, hrely.1]
        exact hpost.2
  begins := by
    intro i s p s' hs hbegins
    obtain ⟨hp, hidle, rfl⟩ := hbegins
    refine ⟨?_, ?_, begins_safe hs hidle hp⟩
    · cases i with
      | scan => exact hs
      | writer =>
          refine ⟨hs.tidy, ?_⟩
          rintro ⟨⟩
    · intro j hj
      cases i with
      | scan => exact Rely.refl j s
      | writer =>
          cases j with
          | scan => exact ⟨rfl, fun _ hk => hk⟩
          | writer => exact absurd rfl hj
  acts := by
    intro i s op r s' _ _ hkeeps
    refine ⟨hkeeps.1, ?_⟩
    intro j hj
    cases i <;> cases j
    · exact absurd rfl hj
    · exact hkeeps.2
    · exact hkeeps.2
    · exact absurd rfl hj
  returns := by
    intro i s a s' hs hpost hreturns
    subst hreturns
    cases i with
    | scan => exact ⟨hs, fun j _ => Rely.refl j s⟩
    | writer =>
        refine ⟨⟨hs.tidy, fun _ => hpost.2⟩, ?_⟩
        intro j hj
        cases j with
        | scan => exact ⟨rfl, fun _ hk => hk⟩
        | writer => exact absurd rfl hj
  crashes := by
    intro i s s' _ hcrash
    exact hcrash.elim

theorem writing_of_reachable {allowed : Party → Race wire.Bytes → BucketOp wire.Bytes → Prop}
    {c : Config (bucketSignature wire.Bytes) Party (Race wire.Bytes) (Option (Option TimerRecord))}
    (h : (race wire key allowed).Reachable (Start wire key) c) (hidle : c.procs .writer = none) :
    c.state.writing = false := by
  obtain ⟨s₀, h₀, hsteps⟩ := h
  induction hsteps with
  | refl => exact h₀.idle
  | tail _ hstep ih =>
    cases hstep with
    | @begins i p s' hi hbegins =>
      obtain ⟨-, -, rfl⟩ := hbegins
      cases i with
      | scan => exact ih (by simpa using hidle)
      | writer => simp at hidle
    | @acts i op next r s' hi hacts =>
      obtain ⟨-, hact⟩ := hacts
      cases hact
      cases i with
      | scan => exact ih (by simpa using hidle)
      | writer => simp at hidle
    | @returns i a s' hi hreturns =>
      subst hreturns
      cases i with
      | scan => exact ih (by simpa using hidle)
      | writer => rfl
    | crashes hi hcrash => exact hcrash.elim

/-- While the ledger is undisturbed between the reads and the repairs of the scan, readers see
what the last completed write established. -/
theorem getTimer_of_undisturbed
    {c : Config (bucketSignature wire.Bytes) Party (Race wire.Bytes) (Option (Option TimerRecord))}
    (h : (race wire key (Undisturbed wire key)).Reachable (Start wire key) c)
    (hidle : c.procs .writer = none) :
    c.state.bucket.exec (getTimer wire key.val) = (.ok c.state.established, c.state.bucket) := by
  have hsound := ((raceOutline wire key).good_of_reachable h).inv
  have hsettled := hsound.settled (writing_of_reachable h hidle)
  rw [exec_getTimer hsound.tidy key.val key.property.1, key.stored, hsettled]

end Interleaving

section LateRepair

def napKey : RecordKey .timer := ⟨⟨"default", "wf", "run", "nap"⟩, by decide, by decide⟩

abbrev NapConfig := Config (bucketSignature taggedWire.Bytes) Party (Race taggedWire.Bytes)
  (Option (Option TimerRecord))

namespace NapConfig

variable (allowed : Party → Race taggedWire.Bytes → BucketOp taggedWire.Bytes → Prop)
variable [∀ i s op, Decidable (allowed i s op)]

def start : NapConfig := ⟨fun _ => none, ⟨⟨∅, [], 0⟩, none, false, none⟩⟩

def begun (c : NapConfig) (i : Party) (p : RaceProgram taggedWire) : NapConfig :=
  ⟨Function.update c.procs i (some p), c.state.onBegin i⟩

def returned (c : NapConfig) (i : Party) (a : Option (Option TimerRecord)) : NapConfig :=
  ⟨Function.update c.procs i none, c.state.onReturn a i⟩

def turns (c : NapConfig) (schedule : List Party) : NapConfig :=
  schedule.foldl (System.turn fun i s op =>
    if allowed i s op then some (s.act napKey i op) else none) c

def lagging : NapConfig :=
  turns allowed ((turns allowed (start.begun .writer (putCode taggedWire napTimer))
    (.replicate 3 .writer)).begun .scan (scanCode taggedWire 20 "" (100 * nanosPerSecond)))
      (.replicate 6 .scan)

variable {allowed} {c c₀ : NapConfig}

abbrev Reaches (allowed : Party → Race taggedWire.Bytes → BucketOp taggedWire.Bytes → Prop)
    (c c' : NapConfig) : Prop := Relation.ReflTransGen (race taggedWire napKey allowed).Step c c'

theorem Reaches.turns (h : Reaches allowed c₀ c) (schedule : List Party) :
    Reaches allowed c₀ (turns allowed c schedule) := by
  apply h.trans
  apply System.steps_of_turns
  intro i s op r s' hmove
  obtain ⟨hallowed, hact⟩ := Option.ite_none_right_eq_some.1 hmove
  exact ⟨hallowed, Option.some.inj hact⟩

omit [∀ i s op, Decidable (allowed i s op)] in
theorem Reaches.begun (h : Reaches allowed c₀ c) {p : RaceProgram taggedWire}
    (hp : Begins taggedWire napKey i p) (hi : c.procs i = none)
    (hidle : i = .writer → c.state.writing = false) : Reaches allowed c₀ (c.begun i p) :=
  h.tail (.begins hi ⟨hp, hidle, rfl⟩)

omit [∀ i s op, Decidable (allowed i s op)] in
theorem Reaches.returned (h : Reaches allowed c₀ c)
    {a : Option (Option TimerRecord)} (hi : c.procs i = some (.done a)) :
    Reaches allowed c₀ (c.returned i a) :=
  h.tail (.returns hi rfl)

end NapConfig

open NapConfig

instance (i : Party) (s : Race taggedWire.Bytes) (op : BucketOp taggedWire.Bytes) :
    Decidable (Undisturbed taggedWire napKey i s op) :=
  match i, op with
  | .scan, .write path _ =>
    have : DecidableEq (Option taggedWire.Bytes) := inferInstanceAs (DecidableEq (Option Payload))
    inferInstanceAs (Decidable (path = napKey.val.dueLocation →
      s.bucket.objects.lookup path = s.seen))
  | .scan, .isExist _ | .scan, .read _ | .scan, .delete _ | .scan, .createDir _ | .scan, .list _
  | .scan, .now | .writer, _ => .isTrue trivial

/-- The scan repairs the lagging timer while its put is still under way. -/
def napRepaired : NapConfig :=
  (turns (Undisturbed taggedWire napKey) (lagging (Undisturbed taggedWire napKey))
    [.scan, .scan, .scan, .scan, .writer]).returned .writer (some (some napTimer))

/-- A repair in time is invisible: the put and the repair publish the same timer. -/
theorem getTimer_napRepaired :
    (race taggedWire napKey (Undisturbed taggedWire napKey)).Reachable (Start taggedWire napKey)
        napRepaired ∧
      napRepaired.procs .writer = none ∧
      napRepaired.state.bucket.exec (getTimer taggedWire napKey.val) =
        (.ok (some napTimer), napRepaired.state.bucket) := by
  have hput : Reaches (Undisturbed taggedWire napKey) start _ :=
    Reaches.begun .refl (.put napTimer rfl) rfl fun _ => rfl
  have hlagging := ((hput.turns (.replicate 3 .writer)).begun
    (.scan 20 "" (100 * nanosPerSecond)) rfl (by simp)).turns (.replicate 6 .scan)
  have hreturned := (hlagging.turns [.scan, .scan, .scan, .scan, .writer]).returned
    (i := .writer) (a := some (some napTimer)) rfl
  have hreachable : (race taggedWire napKey (Undisturbed taggedWire napKey)).Reachable
      (Start taggedWire napKey) napRepaired := ⟨start.state, ⟨.empty 0, rfl, rfl⟩, hreturned⟩
  exact ⟨hreachable, rfl, getTimer_of_undisturbed hreachable rfl⟩

def always : Party → Race taggedWire.Bytes → BucketOp taggedWire.Bytes → Prop := fun _ _ _ => True

instance (i : Party) (s : Race taggedWire.Bytes) (op : BucketOp taggedWire.Bytes) :
    Decidable (always i s op) := .isTrue trivial

def napDeleted : NapConfig :=
  (turns always (((turns always (lagging always) [.writer]).returned .writer
    (some (some napTimer))).begun .writer (deleteCode taggedWire napKey.val))
      (.replicate 7 .writer)).returned .writer (some none)

def napRestored : NapConfig := (turns always napDeleted (.replicate 4 .scan)).returned .scan none

/-- A timer whose delete has completed is put back by the repair of a scan. -/
theorem late_repair_restores_deleted :
    (race taggedWire napKey always).Reachable (Start taggedWire napKey) napRestored ∧
      napRestored.procs .writer = none ∧ napRestored.procs .scan = none ∧
      napRestored.state.established = none ∧
      (napRestored.state.bucket.exec (getTimer taggedWire napKey.val)).1 = .ok (some napTimer) := by
  have hput : Reaches always start _ := Reaches.begun .refl (.put napTimer rfl) rfl fun _ => rfl
  have hlagging := ((hput.turns (.replicate 3 .writer)).begun
    (.scan 20 "" (100 * nanosPerSecond)) rfl (by simp)).turns (.replicate 6 .scan)
  have hcompleted := (hlagging.turns [.writer]).returned
    (i := .writer) (a := some (some napTimer)) rfl
  have hdeleted := ((hcompleted.begun (.delete napKey.val rfl) rfl fun _ => rfl).turns
    (.replicate 7 .writer)).returned (i := .writer) (a := some none) rfl
  have hrestored := (hdeleted.turns (.replicate 4 .scan)).returned (i := .scan) (a := none) rfl
  exact ⟨⟨start.state, ⟨.empty 0, rfl, rfl⟩, hrestored⟩, rfl, rfl, rfl, rfl⟩

end LateRepair

end Temporaless.OpenDALStore
