import Temporaless.Framework.System
import Temporaless.Python.Decoding
import Temporaless.Python.Walks

/-!
# Python due scans beside the writers of a timer

Any number of processes scan while the calls of another one put and delete a timer, and their object
operations interleave. A scan of the Python store repairs the point object only, so no repair
changes what readers see, however old the entry is that it was made from.
-/

namespace Temporaless.Python

open PathTree Effects OpenDALStore

/-- The scanning processes, and the one that makes the calls for the timer. -/
inductive Process (ι : Type) where
  | scan (i : ι)
  | writer
  deriving DecidableEq

/-- The bucket, whether a write is under way, and what the last completed write established. -/
structure Scanned (Bytes : Type) where
  bucket : Bucket Bytes
  writing : Bool
  established : Option (Option TimerRecord)

def outcome {α : Type} (state : Option TimerRecord) : Except Err α → Option (Option TimerRecord)
  | .ok _ => some state
  | .error _ => none

variable (wire : Wire) (key : RecordKey .timer) (ι : Type)

abbrev ScanProgram := Program (bucketSignature wire.Bytes) (Option (Option TimerRecord))

/-- The calls of the processes: any scan, and any write of a scheduled or fired record or delete
of the one timer. -/
inductive Begins : Process ι → ScanProgram wire → Prop where
  | scan (i : ι) (fuel : Nat) (ns : String) (now : Int) :
      Begins (.scan i) ((dueTimers wire fuel ns now).run.bind fun _ => .done none)
  | put (record : TimerRecord) (hkey : timerKeyFromProto record.key = key.val)
      (hstatus : record.status = .scheduled ∨ record.status = .fired) :
      Begins .writer ((putTimer wire record).run.bind fun r => .done (outcome (some record) r))
  | delete : Begins .writer ((deleteTimer wire key.val).run.bind fun r => .done (outcome none r))

namespace Scanned

variable {wire ι}

def onBegin (s : Scanned wire.Bytes) : Process ι → Scanned wire.Bytes
  | .scan _ => s
  | .writer => { s with writing := true }

def onReturn (s : Scanned wire.Bytes) (result : Option (Option TimerRecord)) :
    Process ι → Scanned wire.Bytes
  | .scan _ => s
  | .writer => { s with writing := false, established := result.or s.established }

end Scanned

/-- The interleavings of the scans, which may also crash, with the calls of the writer. -/
def scanRace :
    System (bucketSignature wire.Bytes) (Process ι) (Scanned wire.Bytes)
      (Option (Option TimerRecord)) where
  begins i s p s' := Begins wire key ι i p ∧ (i = .writer → s.writing = false) ∧ s' = s.onBegin i
  acts _ s op r s' := ∃ b, s.bucket.step op = (r, b) ∧ s' = { s with bucket := b }
  returns i s a s' := s' = s.onReturn a i
  crashes i s s' := i ≠ .writer ∧ s' = s

/-- Any bucket, with nobody at work and nothing established yet. -/
def Unscanned (s : Scanned wire.Bytes) : Prop := s.writing = false ∧ s.established = none

section Objects

variable {wire key} {objects objects' : Objects wire}

def PointLive (key : RecordKey .timer) (objects : Objects wire) : Prop :=
  ∀ record, pointAt objects key = .ok (some record) → record.status ≠ .canceled

/-- The objects at rest, and the timer a read finds in them. -/
inductive Settled (key : RecordKey .timer) (objects : Objects wire) : Option TimerRecord → Prop where
  | absent (hledger : objects.lookup key.val.dueLocation = none)
      (hpoint : objects.lookup key.val.location = none) : Settled key objects none
  | live (entry : DueTimerEntry) (hledger : ledgerAt objects key = .ok (some entry))
      (hstatus : (entryRecord entry).status ≠ .canceled) :
      Settled key objects (some (entryRecord entry))
  | tombstone (entry : DueTimerEntry) (hledger : ledgerAt objects key = .ok (some entry))
      (hstatus : (entryRecord entry).status = .canceled) (hpoint : PointLive key objects) :
      Settled key objects none

/-- A change that repairs may make: the ledger object stays, and the point object becomes a live
record at most, and only where there is a ledger object. -/
structure Repairs (key : RecordKey .timer) (objects objects' : Objects wire) : Prop where
  ledger : objects'.lookup key.val.dueLocation = objects.lookup key.val.dueLocation
  live : PointLive key objects → PointLive key objects'
  bare : objects.lookup key.val.dueLocation = none →
    objects'.lookup key.val.location = objects.lookup key.val.location

theorem Repairs.refl (objects : Objects wire) : Repairs key objects objects :=
  ⟨rfl, id, fun _ => rfl⟩

theorem Repairs.trans {objects'' : Objects wire} (h : Repairs key objects objects')
    (h' : Repairs key objects' objects'') : Repairs key objects objects'' where
  ledger := h'.ledger.trans h.ledger
  live hlive := h'.live (h.live hlive)
  bare hbare := (h'.bare (h.ledger.trans hbare)).trans (h.bare hbare)

theorem Settled.repaired {state : Option TimerRecord} (h : Settled key objects state)
    (hrepairs : Repairs key objects objects') : Settled key objects' state := by
  have hentry := ledgerAt_of_lookup hrepairs.ledger
  cases h with
  | absent hledger hpoint =>
    exact .absent (hrepairs.ledger.trans hledger) ((hrepairs.bare hledger).trans hpoint)
  | live entry hledger hstatus => exact .live entry (hentry.trans hledger) hstatus
  | tombstone entry hledger hstatus hpoint =>
    exact .tombstone entry (hentry.trans hledger) hstatus (hrepairs.live hpoint)

theorem Settled.exec_getTimer {b : Bucket wire.Bytes} {state : Option TimerRecord}
    (h : Settled key b.objects state) : b.exec (getTimer wire key.val) = (.ok state, b) := by
  cases h with
  | absent hledger hpoint => rw [exec_getTimer_bare (ledgerAt_none hledger), pointAt_none hpoint]
  | live entry hledger hstatus =>
    by_cases hsame : pointAt b.objects key = .ok (some (entryRecord entry))
    · exact exec_getTimer_same hledger hsame
    · rw [exec_getTimer_entry hledger hsame, liveRecord, if_neg hstatus]
  | tombstone entry hledger hstatus hpoint =>
    have hne : pointAt b.objects key ≠ .ok (some (entryRecord entry)) := by
      intro hsame
      exact hpoint _ hsame hstatus
    rw [exec_getTimer_entry hledger hne, liveRecord, if_pos hstatus]

end Objects

section Processes

variable {wire key ι} {s : Scanned wire.Bytes} {op : BucketOp wire.Bytes}

def Calm (key : RecordKey .timer) (s : Scanned wire.Bytes) : Prop :=
  ∀ state, s.established = some state → Settled key s.bucket.objects state

def Quiet (key : RecordKey .timer) (s : Scanned wire.Bytes) : Prop := s.writing = false → Calm key s

def Rely (key : RecordKey .timer) : Process ι → Scanned wire.Bytes → Scanned wire.Bytes → Prop
  | .scan _, s, s' => (s.bucket.objects.lookup key.val.dueLocation).isSome →
      (s'.bucket.objects.lookup key.val.dueLocation).isSome
  | .writer, s, s' => s'.established = s.established ∧ s'.writing = s.writing ∧
      Repairs key s.bucket.objects s'.bucket.objects

theorem Rely.refl (i : Process ι) (s : Scanned wire.Bytes) : Rely key i s s := by
  cases i with
  | scan i => exact id
  | writer => exact ⟨rfl, rfl, .refl _⟩

theorem Rely.trans {i : Process ι} {s s' s'' : Scanned wire.Bytes} (h : Rely key i s s')
    (h' : Rely key i s' s'') : Rely key i s s'' := by
  cases i with
  | scan i => exact fun hs => h' (h hs)
  | writer => exact ⟨h'.1.trans h.1, h'.2.1.trans h.2.1, h.2.2.trans h'.2.2⟩

abbrev beside (wire : Wire) (key : RecordKey .timer) (i : Process ι) :
    CallSpec (bucketSignature wire.Bytes) (Scanned wire.Bytes) :=
  .amid (Quiet key) (fun s s' => s = s' ∨ Rely key i s s') ((scanRace wire key ι).acts i)
    fun s _ _ s' => Quiet key s' ∧ ∀ j, j ≠ i → Rely key j s s'

def Scanned.after (s : Scanned wire.Bytes) (op : BucketOp wire.Bytes) : Scanned wire.Bytes :=
  { s with bucket := (s.bucket.step op).2 }

theorem Scanned.after_reads (hop : Reads op) (s : Scanned wire.Bytes) : s.after op = s := by
  rw [Scanned.after, step_reads op hop]

theorem scan_pre {i : ι} {Q : op.Reply → Scanned wire.Bytes → Prop} (P : Scanned wire.Bytes → Prop)
    (hs : P s) (hstable : ∀ s s', P s → Rely key (.scan i) s s' → P s')
    (h : ∀ s, P s → Repairs key s.bucket.objects (s.after op).bucket.objects ∧
      Q (s.bucket.step op).1 (s.after op)) : (beside wire key (.scan i)).pre op Q s := by
  apply CallSpec.amid_pre P hs hstable
  intro s hquiet hP r s' hacts
  obtain ⟨b, hstep, rfl⟩ := hacts
  have hstepped := h s hP
  rw [Scanned.after, hstep] at hstepped
  obtain ⟨hrepairs, hQ⟩ := hstepped
  refine ⟨⟨?_, ?_⟩, hQ⟩
  · intro hidle state hstate
    exact (hquiet hidle state hstate).repaired hrepairs
  · intro j _
    cases j with
    | scan j =>
      intro hledger
      exact hrepairs.ledger ▸ hledger
    | writer => exact ⟨rfl, rfl, hrepairs⟩

theorem writer_pre {Q : op.Reply → Scanned wire.Bytes → Prop} (P : Scanned wire.Bytes → Prop)
    (hwriting : s.writing = true) (hs : P s)
    (hstable : ∀ s s', P s → Rely (ι := ι) key .writer s s' → P s')
    (h : ∀ s, s.writing = true → P s → ((s.bucket.objects.lookup key.val.dueLocation).isSome →
      ((s.after op).bucket.objects.lookup key.val.dueLocation).isSome) ∧
      Q (s.bucket.step op).1 (s.after op)) :
    (beside wire key (.writer : Process ι)).pre op Q s := by
  apply CallSpec.amid_pre (fun s => s.writing = true ∧ P s) ⟨hwriting, hs⟩
  · intro s s' hP hrely
    exact ⟨hrely.2.1.trans hP.1, hstable s s' hP.2 hrely⟩
  · intro s _ hP r s' hacts
    obtain ⟨b, hstep, rfl⟩ := hacts
    have hstepped := h s hP.1 hP.2
    rw [Scanned.after, hstep] at hstepped
    refine ⟨⟨?_, ?_⟩, hstepped.2⟩
    · intro hidle
      exact absurd (hP.1.symm.trans hidle) (by decide)
    · intro j hj
      cases j with
      | scan j => exact hstepped.1
      | writer => exact absurd rfl hj

end Processes

section Scan

variable {wire key ι} {s : Scanned wire.Bytes} {i : ι} {k : RecordKey .timer} {record : TimerRecord}

theorem repairs_of_lookup {objects objects' : Objects wire}
    (hledger : objects'.lookup key.val.dueLocation = objects.lookup key.val.dueLocation)
    (hpoint : objects'.lookup key.val.location = objects.lookup key.val.location) :
    Repairs key objects objects' := by
  refine ⟨hledger, ?_, fun _ => hpoint⟩
  rw [PointLive, PointLive, pointAt_of_lookup hpoint]
  exact id

def Found (key k : RecordKey .timer) (s : Scanned wire.Bytes) : Prop :=
  k = key → (s.bucket.objects.lookup key.val.dueLocation).isSome

theorem Found.stable (s s' : Scanned wire.Bytes) (h : Found key k s)
    (hrely : Rely key (.scan i) s s') : Found key k s' :=
  fun hk => hrely (h hk)

theorem repairs_point {objects objects' : Objects wire}
    (hledger : k = key → (objects.lookup key.val.dueLocation).isSome)
    (hlive : k = key → PointLive key objects')
    (hothers : ∀ a : Address, a ≠ .item .timer k → objects'.lookup a.path = objects.lookup a.path) :
    Repairs key objects objects' := by
  have hdue := hothers (.due key) (by simp)
  by_cases hk : k = key
  · refine ⟨hdue, fun _ => hlive hk, ?_⟩
    intro hbare
    have hfound := hledger hk
    rw [hbare] at hfound
    cases hfound
  · apply repairs_of_lookup hdue
    apply hothers (.item .timer key)
    intro heq
    cases heq
    exact hk rfl

def Harmless {α : Type} (key : RecordKey .timer) (i : ι) (code : BucketM wire.Bytes α) : Prop :=
  Preserves (beside wire key (.scan i)) (fun _ => True) code

theorem Harmless.of_readOnly {α : Type} {code : BucketM wire.Bytes α} (h : ReadOnly code) :
    Harmless key i code := by
  intro s _
  apply ends_of_calls (I := fun _ => True) h ?_ trivial
  intro op hop s' _
  apply scan_pre (fun _ => True) trivial (fun _ _ _ _ => trivial)
  intro s _
  rw [Scanned.after_reads hop]
  exact ⟨.refl _, trivial⟩

theorem found_readOnly {α : Type} {code : BucketM wire.Bytes α} (h : ReadOnly code)
    (hs : Found key k s) :
    ends (beside wire key (.scan i)) code (fun _ s' => Found key k s') s := by
  apply ends_of_calls (I := Found key k) h ?_ hs
  intro op hop s' hs'
  apply scan_pre (Found key k) hs' Found.stable
  intro s hs
  rw [Scanned.after_reads hop]
  exact ⟨.refl _, hs⟩

theorem scan_createDir {dir : Path} (hs : Found key k s) :
    ends (beside wire key (.scan i)) (createDir dir)
      (fun r s' => r = .ok () ∧ Found key k s') s := by
  apply ends_createDir.2
  apply scan_pre (Found key k) hs Found.stable
  intro s hs
  exact ⟨.refl _, rfl, hs⟩

theorem scan_putCanonicalTimer (hrecord : Carries record k) (hstatus : record.status ≠ .canceled)
    (hs : Found key k s) :
    ends (beside wire key (.scan i)) (putCanonicalTimer wire record) (fun _ _ => True) s := by
  rw [putCanonicalTimer_eq hrecord]
  apply ends_bind.2
  apply (scan_createDir hs).mono
  intro r s' hr
  obtain ⟨rfl, hs'⟩ := hr
  apply ends_writeObject.2
  apply scan_pre (Found key k) hs' Found.stable
  intro s hs
  refine ⟨?_, trivial⟩
  apply repairs_point hs
  · intro hk record' hpoint
    subst hk
    have hwritten := hpoint.symm.trans (pointAt_some hrecord (AList.lookup_insert _))
    cases hwritten
    exact hstatus
  · intro a ha
    exact lookup_insert_address ha _

theorem step_deletePoint (b : Bucket wire.Bytes) (k : RecordKey .timer) :
    ((b.step (.delete k.val.location)).1 = .ok () ∨
      (b.step (.delete k.val.location)).1 = .error (notFoundError k.val.location)) ∧
      (b.step (.delete k.val.location)).2.objects.lookup k.val.location = none ∧
      ∀ a : Address, a ≠ .item .timer k →
        (b.step (.delete k.val.location)).2.objects.lookup a.path = b.objects.lookup a.path := by
  cases hpoint : b.objects.lookup k.val.location with
  | none => simp [Bucket.step, hpoint]
  | some data =>
    simp only [Bucket.step, hpoint, true_or, true_and]
    refine ⟨AList.lookup_erase _ _, ?_⟩
    intro a ha
    exact lookup_erase_address ha

theorem pointLive_of_none {objects : Objects wire} (h : objects.lookup key.val.location = none) :
    PointLive key objects := by
  intro record hpoint
  rw [pointAt_none h] at hpoint
  cases hpoint

theorem scan_deletePoint (hs : Found key k s) :
    ends (beside wire key (.scan i)) (deleteIfExists k.val.location)
      (fun _ _ => True) s := by
  apply ends_deleteIfExists
  apply scan_pre (Found key k) hs Found.stable
  intro s hs
  refine ⟨.refl _, ?_⟩
  cases hexists : (s.bucket.objects.lookup k.val.location).isSome with
  | false => exact .inl ⟨congrArg Except.ok hexists, trivial⟩
  | true =>
    refine .inr ⟨congrArg Except.ok hexists, ?_⟩
    apply scan_pre (Found key k) hs Found.stable
    intro s hs
    obtain ⟨hreply, hgone, hothers⟩ := step_deletePoint s.bucket k
    constructor
    · apply repairs_point hs
      · intro hk
        subst hk
        exact pointLive_of_none hgone
      · exact hothers
    · exact hreply.imp (fun h => ⟨h, trivial⟩) (fun h => ⟨h, trivial⟩)

theorem scan_repairPoint (hrecord : Carries record k) (hs : Found key k s) :
    ends (beside wire key (.scan i)) (repairPoint wire k.val record) (fun _ _ => True) s := by
  unfold repairPoint
  split
  · rw [timerPath_of_stored, liftOk_bind]
    exact (scan_deletePoint hs).bind_preserves fun _ => preserves_pure _
  · next hstatus => exact scan_putCanonicalTimer hrecord hstatus hs

theorem scan_scanPrepared (now : Int) (ledgerPath : Path) (workflowKey : WorkflowKey)
    (hrecord : Carries record k) (hs : Found key k s) :
    ends (beside wire key (.scan i))
      (scanPrepared wire now ledgerPath k.val workflowKey record) (fun _ _ => True) s := by
  apply ends_bind.2
  apply ends_attempt.2
  apply (found_readOnly (readOnly_getCanonicalTimer k.val) hs).mono
  intro r s' hs'
  dsimp only
  split
  · split
    · exact (scan_repairPoint hrecord hs').bind_preserves fun _ => preserves_pure _
    · exact ends_throw.2 trivial
  · split
    · next hstatus =>
        have hlive : record.status ≠ .canceled := by simp [hstatus]
        exact (scan_putCanonicalTimer hrecord hlive hs').bind_preserves fun _ =>
          preserves_pure _
    · exact ends_pure.2 trivial
  · split
    · exact Harmless.of_readOnly (readOnly_dueWake _ _ _ _ _) s' trivial
    · exact (scan_repairPoint hrecord hs').bind_preserves fun _ => preserves_pure _

theorem harmless_quarantineDueEntry (ns : String) (ledgerPath : Path) :
    Harmless key i (quarantineDueEntry wire ns ledgerPath) := by
  apply (Harmless.of_readOnly (readOnly_readObject _)).attempt.bind
  intro read
  split
  · exact preserves_pure _
  · apply Preserves.bind ?_ fun _ => preserves_pure _
    apply Preserves.attempt
    apply Preserves.bind
    · intro s _
      apply ends_createDir.2
      apply scan_pre (fun _ => True) trivial fun _ _ _ _ => trivial
      exact fun s _ => ⟨.refl _, trivial⟩
    · intro _ s _
      apply ends_writeObject.2
      apply scan_pre (fun _ => True) trivial fun _ _ _ _ => trivial
      intro s _
      refine ⟨?_, trivial⟩
      exact repairs_of_lookup
        (lookup_insert_address (show Address.due key ≠ .quarantine ns _ by simp) _)
        (lookup_insert_address (show Address.item .timer key ≠ .quarantine ns _ by simp) _)

theorem harmless_rejectEntry {α : Type} (ns : String) (ledgerPath : Path) (err report : Err) :
    Harmless key i (do
      if recoverable err then
        quarantineDueEntry wire ns ledgerPath
        throw report
      throw err : BucketM wire.Bytes α) := by
  by_cases hrecoverable : recoverable err = true
  · simp only [hrecoverable, if_true]
    exact (harmless_quarantineDueEntry ns ledgerPath).bind fun _ => preserves_throw _
  · simp only [hrecoverable, if_false, Bool.false_eq_true]
    exact preserves_throw _

theorem harmless_scanEntry (now : Int) (ns : String) (due : List DueTimer) (ledgerPath : Path) :
    Harmless key i (scanEntry wire now ns due ledgerPath) := by
  intro s _
  apply ends_bind.2
  apply ends_attempt.2
  apply ends_bind.2
  rw [ends_readMessage]
  apply scan_pre (fun _ => True) trivial fun _ _ _ _ => trivial
  intro s _
  have hread : Reads (.read ledgerPath : BucketOp wire.Bytes) := trivial
  rw [Scanned.after_reads hread, step_read]
  refine ⟨.refl _, ?_⟩
  rcases hread : decodeMessage wire.due (replyAt s.bucket.objects ledgerPath) with err | _ | entry
  · exact harmless_rejectEntry ns ledgerPath err _ s trivial
  · exact ends_pure.2 (ends_pure.2 trivial)
  · apply ends_bind.2
    rw [ends_liftExcept]
    rcases hvalid : validateDueEntry entry none none (some ns) (some ledgerPath) with err | timerKey
    · exact harmless_rejectEntry ns ledgerPath err _ s trivial
    · obtain ⟨k, rfl, hrecord, -, hpath⟩ := carries_of_validateDueEntry hvalid
      have hfound : Found key k s := by
        intro hk
        obtain ⟨data, hdata, -⟩ := lookup_of_decodeMessage hread
        rw [← hk, ← hpath ledgerPath rfl, hdata]
        rfl
      apply ends_pure.2
      exact (scan_scanPrepared now ledgerPath _ hrecord hfound).bind_preserves fun _ =>
        preserves_pure _

theorem harmless_dueTimers (fuel : Nat) (ns : String) (now : Int) :
    Harmless key i (dueTimers wire fuel ns now) := by
  have hspaces : ∀ spaces, Harmless key i (scanNamespaces wire fuel now spaces) := by
    intro spaces
    induction spaces with
    | nil => exact preserves_pure _
    | cons space spaces ih =>
      apply Preserves.bind
      · exact preserves_walkBinpb (fun dir => Harmless.of_readOnly (readOnly_listEntries dir))
          (harmless_scanEntry now space) fuel _ _
      · intro due
        exact Preserves.bind ih fun _ => preserves_pure _
  apply (Harmless.of_readOnly (readOnly_dueScanNamespaces ns)).bind
  intro spaces
  exact (hspaces spaces).bind fun _ => preserves_pure _

end Scan

section Writer

variable {wire key ι} {s : Scanned wire.Bytes} {record : TimerRecord}

/-- A condition on what was established and on the objects, during a write. -/
structure Held (P : Option (Option TimerRecord) → Objects wire → Prop) (s : Scanned wire.Bytes) :
    Prop where
  writing : s.writing = true
  holds : P s.established s.bucket.objects

def Repairable (key : RecordKey .timer) (P : Option (Option TimerRecord) → Objects wire → Prop) :
    Prop :=
  ∀ established objects objects', P established objects → Repairs key objects objects' →
    P established objects'

def calm (key : RecordKey .timer) (established : Option (Option TimerRecord))
    (objects : Objects wire) : Prop :=
  ∀ state, established = some state → Settled key objects state

theorem repairable_calm :
    Repairable key (calm key : Option (Option TimerRecord) → Objects wire → Prop) := by
  intro established objects objects' h hrepairs state hstate
  exact (h state hstate).repaired hrepairs

theorem repairable_ledger (read : Except Err (Option DueTimerEntry)) :
    Repairable key fun _ (objects : Objects wire) => ledgerAt objects key = read := by
  intro _ objects objects' h hrepairs
  rw [ledgerAt_of_lookup hrepairs.ledger]
  exact h

theorem Repairable.and {P P' : Option (Option TimerRecord) → Objects wire → Prop}
    (h : Repairable key P) (h' : Repairable key P') :
    Repairable key fun established objects => P established objects ∧ P' established objects :=
  fun e o o' hP hrepairs => ⟨h e o o' hP.1 hrepairs, h' e o o' hP.2 hrepairs⟩

variable {P : Option (Option TimerRecord) → Objects wire → Prop}

theorem held_pre {op : BucketOp wire.Bytes} {Q : op.Reply → Scanned wire.Bytes → Prop}
    (hP : Repairable key P) (hs : Held P s)
    (h : ∀ s, Held P s → ((s.bucket.objects.lookup key.val.dueLocation).isSome →
      ((s.after op).bucket.objects.lookup key.val.dueLocation).isSome) ∧
      Q (s.bucket.step op).1 (s.after op)) :
    (beside wire key (.writer : Process ι)).pre op Q s := by
  apply writer_pre (fun s => P s.established s.bucket.objects) hs.writing hs.holds
  · intro s s' hs hrely
    rw [hrely.1]
    exact hP _ _ _ hs hrely.2.2
  · intro s hwriting hs
    exact h s ⟨hwriting, hs⟩

theorem held_reads {op : BucketOp wire.Bytes} {Q : op.Reply → Scanned wire.Bytes → Prop}
    (hop : Reads op) (hP : Repairable key P) (hs : Held P s)
    (h : ∀ s, Held P s → Q (s.bucket.step op).1 s) :
    (beside wire key (.writer : Process ι)).pre op Q s := by
  apply held_pre hP hs
  intro s hs
  rw [Scanned.after_reads hop]
  exact ⟨id, h s hs⟩

theorem held_createDir {dir : Path} (hP : Repairable key P) (hs : Held P s) :
    ends (beside wire key (.writer : Process ι)) (createDir dir)
      (fun r s' => r = .ok () ∧ Held P s') s := by
  apply ends_createDir.2
  apply held_pre hP hs
  intro s hs
  exact ⟨id, rfl, hs.writing, hs.holds⟩

theorem held_putDueEntry (hrecord : Carries record key)
    (hstatus : validateEntryStatus record = .ok ()) (hP : Repairable key P) (hs : Held P s) :
    ends (beside wire key (.writer : Process ι)) (putDueEntry wire record)
      (fun r s' => r = .ok () ∧ Held (fun _ objects =>
        ledgerAt objects key = .ok (some (dueEntry record key.val.run))) s') s := by
  rw [putDueEntry_eq hrecord hstatus]
  apply ends_bind.2
  apply (held_createDir hP hs).mono
  intro r s' hr
  obtain ⟨rfl, hs'⟩ := hr
  apply ends_writeObject.2
  apply held_pre hP hs'
  intro s hs
  have hlookup : (s.after (.write key.val.dueLocation
      (wire.due.marshal (dueEntry record key.val.run)))).bucket.objects.lookup key.val.dueLocation =
      some (wire.due.marshal (dueEntry record key.val.run)) := AList.lookup_insert _
  refine ⟨fun _ => ?_, rfl, hs.writing, ledgerAt_some hrecord hstatus hlookup⟩
  rw [hlookup]
  rfl

structure Ended (key : RecordKey .timer) (result : Option (Option TimerRecord))
    (s : Scanned wire.Bytes) : Prop where
  writing : s.writing = true
  failed : result = none → Calm key s
  settled : ∀ state, result = some state → Settled key s.bucket.objects state

theorem Ended.of_calm (hs : Held (calm key) s) : Ended key none s :=
  ⟨hs.writing, fun _ => hs.holds, by simp⟩

theorem Ended.of_settled {state : Option TimerRecord} (hwriting : s.writing = true)
    (hs : Settled key s.bucket.objects state) : Ended key (some state) s := by
  refine ⟨hwriting, by simp, ?_⟩
  intro state' hstate
  cases hstate
  exact hs

theorem writer_putTimer (hkey : timerKeyFromProto record.key = key.val)
    (hlive : record.status ≠ .canceled) (hs : Held (calm key) s) :
    ends (beside wire key (.writer : Process ι)) (putTimer wire record)
      (fun r s' => Ended key (outcome (some record) r) s') s := by
  by_cases haccepted : ∃ k : RecordKey .timer, Carries record k ∧ validateEntryStatus record = .ok ()
  · obtain ⟨k, hrecord, hstatus⟩ := haccepted
    obtain rfl : k = key := Subtype.ext (hrecord.timerKeyFromProto.symm.trans hkey)
    rw [putTimer_eq hrecord]
    apply ends_bind.2
    apply (held_putDueEntry hrecord hstatus repairable_calm hs).mono
    intro r s' hr
    obtain ⟨rfl, hs'⟩ := hr
    apply ends_bind.2
    apply (held_createDir (repairable_ledger _) hs').mono
    intro r s' hr
    obtain ⟨rfl, hs'⟩ := hr
    apply ends_writeObject.2
    apply held_pre (repairable_ledger _) hs'
    intro s hs
    have hledger : (s.after (.write k.val.location (wire.timer.marshal record))).bucket.objects.lookup
        k.val.dueLocation = s.bucket.objects.lookup k.val.dueLocation :=
      lookup_insert_address (show Address.due k ≠ .item .timer k by simp) _
    rw [hledger]
    refine ⟨id, Ended.of_settled hs.writing ?_⟩
    exact .live (dueEntry record k.val.run) ((ledgerAt_of_lookup hledger).trans hs.holds) hlive
  · obtain ⟨err, hput⟩ := putTimer_rejected wire fun k hrecord hstatus =>
      haccepted ⟨k, hrecord, hstatus⟩
    rw [hput]
    exact ends_throw.2 (Ended.of_calm hs)

/-- What the writer knows of the point once it has asked for it: if it was missing, no canceled
record can appear there, and none at all without a ledger object. -/
def Missing (key : RecordKey .timer) (canonicalExists : Bool) (objects : Objects wire) : Prop :=
  canonicalExists = false → PointLive key objects ∧
    (objects.lookup key.val.dueLocation = none → objects.lookup key.val.location = none)

theorem repairable_missing (canonicalExists : Bool) :
    Repairable key fun _ (objects : Objects wire) => Missing key canonicalExists objects := by
  intro _ objects objects' h hrepairs hexists
  obtain ⟨hlive, hbare⟩ := h hexists
  refine ⟨hrepairs.live hlive, ?_⟩
  intro hnone
  rw [hrepairs.ledger] at hnone
  rw [hrepairs.bare hnone]
  exact hbare hnone

def deleting (key : RecordKey .timer) (canonicalExists : Bool)
    (established : Option (Option TimerRecord)) (objects : Objects wire) : Prop :=
  calm key established objects ∧ Missing key canonicalExists objects

theorem repairable_deleting (canonicalExists : Bool) :
    Repairable key (deleting key canonicalExists : _ → Objects wire → Prop) :=
  repairable_calm.and (repairable_missing canonicalExists)

theorem held_usableCanonical {canonicalExists : Bool} (hs : Held (deleting key canonicalExists) s) :
    ends (beside wire key (.writer : Process ι))
      (usableCanonical wire key.val canonicalExists)
      (fun r s' => Held (deleting key canonicalExists) s' ∧ ∃ canonical, r = .ok canonical ∧
        ∀ record, canonical = some record → Carries record key) s := by
  unfold usableCanonical
  cases canonicalExists with
  | false => exact ends_pure.2 ⟨hs, none, rfl, by simp⟩
  | true =>
    simp only [Bool.not_true, Bool.false_eq_true, if_false]
    apply ends_bind.2
    apply ends_attempt.2
    apply (ends_getCanonicalTimer key).2
    apply held_reads (by trivial) (repairable_deleting true) hs
    intro s hs
    rw [step_read]
    rcases hpoint : decodePoint wire key (replyAt s.bucket.objects key.val.location) with err | found
    · simp only [pointAt_recoverable hpoint, if_true]
      exact ends_pure.2 ⟨hs, none, rfl, by simp⟩
    · refine ends_pure.2 ⟨hs, found, rfl, ?_⟩
      intro record hfound
      subst hfound
      exact carries_of_pointAt hpoint

theorem settled_of_missing {objects : Objects wire} {ledger : Option DueTimerEntry}
    (hmissing : Missing key false objects) (hledger : ledgerAt objects key = .ok ledger)
    (hnone : ledger.bind liveRecord = none) : Settled key objects none := by
  obtain ⟨hlive, hbare⟩ := hmissing rfl
  cases ledger with
  | none =>
    have hlookup := lookup_of_ledgerAt_none hledger
    exact .absent hlookup (hbare hlookup)
  | some entry =>
    refine .tombstone entry hledger ?_ hlive
    simpa [liveRecord] using hnone

theorem writer_removePoint {entry : DueTimerEntry} (hstatus : (entryRecord entry).status = .canceled)
    (hs : Held (fun _ objects => ledgerAt objects key = .ok (some entry)) s) :
    ends (beside wire key (.writer : Process ι)) (deleteIfExists key.val.location)
      (fun r s' => (∃ removed, r = .ok removed) ∧ s'.writing = true ∧
        Settled key s'.bucket.objects none) s := by
  apply ends_deleteIfExists
  apply held_reads (by trivial) (repairable_ledger _) hs
  intro s hs
  cases hexists : (s.bucket.objects.lookup key.val.location).isSome with
  | false =>
    have hnone : s.bucket.objects.lookup key.val.location = none := by simpa using hexists
    refine .inl ⟨congrArg Except.ok hexists, ⟨false, rfl⟩, hs.writing, ?_⟩
    exact .tombstone entry hs.holds hstatus (pointLive_of_none hnone)
  | true =>
    refine .inr ⟨congrArg Except.ok hexists, ?_⟩
    apply held_pre (repairable_ledger _) hs
    intro s hs
    obtain ⟨hreply, hgone, hothers⟩ := step_deletePoint s.bucket key
    have hledger := hothers (.due key) (by simp)
    have hsettled : Settled key (s.after (.delete key.val.location)).bucket.objects none :=
      .tombstone entry ((ledgerAt_of_lookup hledger).trans hs.holds) hstatus
        (pointLive_of_none hgone)
    constructor
    · intro hsome
      exact hledger ▸ hsome
    · exact hreply.imp (fun h => ⟨h, ⟨true, rfl⟩, hs.writing, hsettled⟩)
        (fun h => ⟨h, ⟨false, rfl⟩, hs.writing, hsettled⟩)

theorem writer_publishTombstone (hrecord : Carries record key) {P} (hP : Repairable key P)
    (hs : Held P s) (result : Bool) :
    ends (beside wire key (.writer : Process ι)) (do
      putDueEntry wire (tombstone record)
      let _ ← deleteIfExists key.val.location
      return result) (fun r s' => Ended key (outcome none r) s') s := by
  have hstatus : validateEntryStatus (tombstone record) = .ok () :=
    validateEntryStatus_eq_ok.2 ⟨by simp [tombstone], by simp [tombstone]⟩
  apply ends_bind.2
  apply (held_putDueEntry hrecord.tombstone hstatus hP hs).mono
  intro r s' hr
  obtain ⟨rfl, hs'⟩ := hr
  apply ends_bind.2
  apply (writer_removePoint rfl hs').mono
  intro r s' hr
  obtain ⟨⟨removed, rfl⟩, hwriting, hsettled⟩ := hr
  exact ends_pure.2 (Ended.of_settled hwriting hsettled)

theorem writer_deleteTimer (hs : Held (calm key) s) :
    ends (beside wire key (.writer : Process ι)) (deleteTimer wire key.val)
      (fun r s' => Ended key (outcome none r) s') s := by
  simp only [deleteTimer, validateTimerKey_of_stored, timerPath_of_stored, liftOk_bind]
  apply ends_bind.2
  apply ends_isExist.2
  apply held_reads (by trivial) repairable_calm hs
  intro s hs
  have hs' : Held (deleting key (s.bucket.objects.lookup key.val.location).isSome) s := by
    refine ⟨hs.writing, hs.holds, ?_⟩
    intro hexists
    have hnone : s.bucket.objects.lookup key.val.location = none := by simpa using hexists
    exact ⟨pointLive_of_none hnone, fun _ => hnone⟩
  have hreply : (s.bucket.step (.isExist key.val.location)).1 =
      .ok (s.bucket.objects.lookup key.val.location).isSome := rfl
  rw [hreply]
  generalize (s.bucket.objects.lookup key.val.location).isSome = canonicalExists at hs'
  apply ends_bind.2
  apply (held_usableCanonical hs').mono
  intro r s₁ hr
  obtain ⟨hs₁, canonical, rfl, hcanonical⟩ := hr
  apply ends_bind.2
  apply (ends_readDueEntry key).2
  apply held_reads (by trivial) (repairable_deleting canonicalExists) hs₁
  intro s₂ hs₂
  rw [step_read]
  rcases hledger : decodeEntry wire key (replyAt s₂.bucket.objects key.val.dueLocation) with err | ledger
  · exact Ended.of_calm ⟨hs₂.writing, hs₂.holds.1⟩
  · have hsource := carries_tombstoneSource hcanonical hledger
    dsimp only
    split
    · next hgone =>
        simp only [Bool.and_eq_true, Bool.not_eq_true', Option.isNone_iff_eq_none] at hgone
        have hmissing := hs₂.holds.2
        rw [hgone.1] at hmissing
        exact ends_pure.2 (Ended.of_settled hs₂.writing
          (settled_of_missing hmissing hledger hgone.2))
    · exact writer_publishTombstone hsource (repairable_deleting canonicalExists) hs₂ _

end Writer

section Interleaving

variable {wire key ι} [DecidableEq ι]

omit [DecidableEq ι] in
theorem relies_onBegin {j : Process ι} (hj : j ≠ .writer) (s : Scanned wire.Bytes) :
    Rely key j s (s.onBegin (.writer : Process ι)) := by
  cases j with
  | scan j => exact id
  | writer => exact absurd rfl hj

omit [DecidableEq ι] in
theorem relies_onReturn {j : Process ι} (hj : j ≠ .writer) (s : Scanned wire.Bytes)
    (result : Option (Option TimerRecord)) :
    Rely key j s (s.onReturn result (.writer : Process ι)) := by
  cases j with
  | scan j => exact id
  | writer => exact absurd rfl hj

variable (wire key ι) in
def scanOutline : System.Outline (scanRace wire key ι) (Unscanned wire) where
  Inv := Quiet key
  Rely := Rely key
  Guar i s _ _ s' := Quiet key s' ∧ ∀ j, j ≠ i → Rely key j s s'
  Post i result s := i = .writer → Ended key result s
  init s hs := by
    intro _ state hstate
    rw [hs.2] at hstate
    cases hstate
  trans _ _ _ _ h h' := h.trans h'
  stable i result s s' hpost hrely := by
    intro hi
    subst hi
    obtain ⟨hwriting, hfailed, hsettled⟩ := hpost rfl
    refine ⟨hrely.2.1.trans hwriting, ?_, ?_⟩
    · intro hnone state hstate
      rw [hrely.1] at hstate
      exact (hfailed hnone state hstate).repaired hrely.2.2
    · intro state hstate
      exact (hsettled state hstate).repaired hrely.2.2
  begins i s p s' hquiet hbegins := by
    obtain ⟨hcall, hidle, rfl⟩ := hbegins
    cases hcall with
    | scan i fuel ns now =>
        refine ⟨hquiet, fun j _ => .refl j s, ?_⟩
        apply (harmless_dueTimers fuel ns now s trivial).done
        intro _ _ _ hscan
        cases hscan
    | put record hkey hstatus =>
        have hlive : record.status ≠ .canceled := by
          rcases hstatus with h | h <;> simp [h]
        have hs : Held (calm key) (s.onBegin (.writer : Process ι)) := ⟨rfl, hquiet (hidle rfl)⟩
        refine ⟨by simp [Quiet, Scanned.onBegin], fun j hj => relies_onBegin hj s, ?_⟩
        exact (writer_putTimer hkey hlive hs).done fun _ _ hended _ => hended
    | delete =>
        have hs : Held (calm key) (s.onBegin (.writer : Process ι)) := ⟨rfl, hquiet (hidle rfl)⟩
        refine ⟨by simp [Quiet, Scanned.onBegin], fun j hj => relies_onBegin hj s, ?_⟩
        exact (writer_deleteTimer hs).done fun _ _ hended _ => hended
  acts i s op r s' _ _ hguar := hguar
  returns i s result s' hquiet hpost hreturns := by
    subst hreturns
    cases i with
    | scan i => exact ⟨hquiet, fun j _ => .refl j s⟩
    | writer =>
        refine ⟨fun _ => ?_, fun j hj => relies_onReturn hj s result⟩
        intro state hstate
        cases result with
        | none => exact (hpost rfl).failed rfl state hstate
        | some established =>
            cases hstate
            exact (hpost rfl).settled _ rfl
  crashes i s s' hquiet hcrash := by
    obtain ⟨hi, rfl⟩ := hcrash
    exact ⟨hquiet, fun j _ => .refl j s'⟩

theorem writing_of_reachable
    {c : Config (bucketSignature wire.Bytes) (Process ι) (Scanned wire.Bytes)
      (Option (Option TimerRecord))}
    (h : (scanRace wire key ι).Reachable (Unscanned wire) c) (hidle : c.procs .writer = none) :
    c.state.writing = false := by
  obtain ⟨s₀, hstart, hsteps⟩ := h
  induction hsteps with
  | refl => exact hstart.1
  | @tail c c' _ hstep ih =>
    cases hstep with
    | @begins i p s' hi hbegins =>
      obtain ⟨-, -, rfl⟩ := hbegins
      cases i with
      | scan i => exact ih (by simpa using hidle)
      | writer => simp at hidle
    | @acts i op next r s' hi hacts =>
      obtain ⟨b, -, rfl⟩ := hacts
      cases i with
      | scan i => exact ih (by simpa using hidle)
      | writer => simp at hidle
    | @returns i a s' hi hreturns =>
      subst hreturns
      cases i with
      | scan i => exact ih (by simpa using hidle)
      | writer => rfl
    | @crashes i p s' hi hcrash =>
      obtain ⟨hscan, rfl⟩ := hcrash
      cases i with
      | scan i => exact ih (by simpa using hidle)
      | writer => exact absurd rfl hscan

/-- Whatever the scans do, readers of the timer get what the last completed call of the writer
established. -/
theorem getTimer_beside_scans
    {c : Config (bucketSignature wire.Bytes) (Process ι) (Scanned wire.Bytes)
      (Option (Option TimerRecord))}
    (h : (scanRace wire key ι).Reachable (Unscanned wire) c) (hidle : c.procs .writer = none)
    {state : Option TimerRecord} (hstate : c.state.established = some state) :
    c.state.bucket.exec (getTimer wire key.val) = (.ok state, c.state.bucket) := by
  have hquiet := ((scanOutline wire key ι).good_of_reachable h).inv
  have hsettled := hquiet (writing_of_reachable h hidle) state hstate
  exact hsettled.exec_getTimer

end Interleaving

section LateRepair

def chimeTimer : TimerRecord where
  schemaVersion := .timer
  key := some ⟨"default", "wf", "run", "chime"⟩
  timerKind := .sleep
  duration := some ⟨60, 0⟩
  status := .scheduled
  fireAt := some ⟨60, 0⟩
  createdAt := some ⟨0, 0⟩
  firedAt := none
  retryActivityId := ""

def chimeKey : RecordKey .timer := ⟨⟨"default", "wf", "run", "chime"⟩, by decide, by decide⟩

abbrev ChimeConfig := Config (bucketSignature taggedWire.Bytes) (Process Unit)
  (Scanned taggedWire.Bytes) (Option (Option TimerRecord))

namespace ChimeConfig

def begun (c : ChimeConfig) (i : Process Unit) (p : ScanProgram taggedWire) : ChimeConfig :=
  ⟨Function.update c.procs i (some p), c.state.onBegin i⟩

def returned (c : ChimeConfig) (i : Process Unit) (a : Option (Option TimerRecord)) : ChimeConfig :=
  ⟨Function.update c.procs i none, c.state.onReturn a i⟩

def turns (c : ChimeConfig) (i : Process Unit) (n : Nat) : ChimeConfig :=
  (List.replicate n i).foldl
    (System.turn fun _ s op => some ((s.bucket.step op).1, s.after op)) c

def start : ChimeConfig := ⟨fun _ => none, ⟨⟨∅, [], 0⟩, false, none⟩⟩

def lagging : ChimeConfig :=
  (((start.begun .writer
    ((putTimer taggedWire chimeTimer).run.bind fun r => .done (outcome (some chimeTimer) r))).turns
      .writer 2).begun (.scan ())
        ((dueTimers taggedWire 20 "default" 0).run.bind fun _ => .done none)).turns (.scan ()) 5

/-- The put completes and the timer is deleted, and then the scan repairs what it had found. -/
def repaired : ChimeConfig :=
  (((((lagging.turns .writer 2).returned .writer (some (some chimeTimer))).begun .writer
    ((deleteTimer taggedWire chimeKey.val).run.bind fun r => .done (outcome none r))).turns
      .writer 7).returned .writer (some none)).turns (.scan ()) 2

end ChimeConfig

namespace ChimeConfig

variable {c : ChimeConfig}

abbrev Reaches (c : ChimeConfig) : Prop :=
  Relation.ReflTransGen (scanRace taggedWire chimeKey Unit).Step start c

theorem Reaches.turns (h : Reaches c) (i : Process Unit) (n : Nat) : Reaches (c.turns i n) := by
  apply h.trans
  apply System.steps_of_turns
  intro _ s op r s' hmove
  cases Option.some.inj hmove
  exact ⟨_, rfl, rfl⟩

theorem Reaches.begun (h : Reaches c) {i : Process Unit} {p : ScanProgram taggedWire}
    (hp : Begins taggedWire chimeKey Unit i p) (hi : c.procs i = none)
    (hidle : i = .writer → c.state.writing = false) : Reaches (c.begun i p) :=
  h.tail (.begins hi ⟨hp, hidle, rfl⟩)

theorem Reaches.returned (h : Reaches c) {i : Process Unit} {a : Option (Option TimerRecord)}
    (hi : c.procs i = some (.done a)) : Reaches (c.returned i a) :=
  h.tail (.returns hi rfl)

end ChimeConfig

open ChimeConfig

/-- The point record that a late repair brings back stays invisible. -/
theorem getTimer_beside_late_repair :
    (scanRace taggedWire chimeKey Unit).Reachable (Unscanned taggedWire) repaired ∧
      repaired.procs .writer = none ∧ repaired.state.established = some none ∧
      (repaired.state.bucket.objects.lookup chimeKey.val.location).isSome ∧
      repaired.state.bucket.exec (getTimer taggedWire chimeKey.val) =
        (.ok none, repaired.state.bucket) := by
  have hput : Reaches (start.begun .writer _) :=
    Reaches.begun .refl (.put chimeTimer rfl (.inl rfl)) rfl fun _ => rfl
  have hlagging : Reaches lagging :=
    ((hput.turns .writer 2).begun (.scan () 20 "default" 0) rfl (by simp)).turns (.scan ()) 5
  have hcompleted := (hlagging.turns .writer 2).returned
    (i := .writer) (a := some (some chimeTimer)) rfl
  have hdeleted := ((hcompleted.begun .delete rfl fun _ => rfl).turns .writer 7).returned
    (i := .writer) (a := some none) rfl
  have hreachable : (scanRace taggedWire chimeKey Unit).Reachable (Unscanned taggedWire) repaired :=
    ⟨start.state, ⟨rfl, rfl⟩, hdeleted.turns (.scan ()) 2⟩
  exact ⟨hreachable, rfl, rfl, rfl, getTimer_beside_scans hreachable rfl rfl⟩

end LateRepair

end Temporaless.Python
