import Temporaless.Python.Ledger

/-!
# One timer written by both stores

Calls of the Go store and of the Python store take turns on one timer. The ledger entry they leave
behind passes the checks of both as long as no Python call publishes a record without a deadline,
which its entry says is set.
-/

namespace Temporaless.Python

open PathTree Effects OpenDALStore

variable {wire : Wire}

/-- A timer call of either implementation on one shared store. -/
inductive LedgerCall where
  | goPut (record : TimerRecord)
  | goDelete
  | pythonPut (record : TimerRecord)
  | pythonDelete

variable (wire) in
def LedgerCall.code (key : RecordKey .timer) : LedgerCall → BucketM wire.Bytes Unit
  | .goPut record => OpenDALStore.putTimer wire record
  | .goDelete => (fun _ => ()) <$> OpenDALStore.deleteTimer wire key.val
  | .pythonPut record => putTimer wire record
  | .pythonDelete => (fun _ => ()) <$> deleteTimer wire key.val

def LedgerCall.On (key : RecordKey .timer) : LedgerCall → Prop
  | .goPut record | .pythonPut record =>
    record.key = some key.val ∧ checkOptional record.fireAt = .ok ()
  | .goDelete | .pythonDelete => True

/-- The bucket after each call of a run whose calls all succeed. -/
def Follows (key : RecordKey .timer) (b : Bucket wire.Bytes) :
    List (LedgerCall × Bucket wire.Bytes) → Prop
  | [] => True
  | (call, b') :: rest =>
    call.On key ∧ b.exec (call.code wire key) = (.ok (), b') ∧ Follows key b' rest

/-- The ledger object of the timer passes the checks of both stores. -/
def Accepted (b : Bucket wire.Bytes) (key : RecordKey .timer) : Prop :=
  ∀ data, b.objects.lookup key.val.dueLocation = some data →
    ∃ entry, wire.due.unmarshal data = .ok entry ∧
      OpenDALStore.validateDueEntry (dueRoot key.val.ns) key.val.dueLocation entry
        (entryTimerKey entry) (entryWorkflowKey entry) = .ok () ∧
      validateDueEntry entry (some key.val) none none (some key.val.dueLocation) = .ok key.val

/-- The point object of the timer is absent, damaged, or a record of the timer whose deadline is
absent or an instant. -/
def PointLegal (b : Bucket wire.Bytes) (key : RecordKey .timer) : Prop :=
  ∀ data, b.objects.lookup key.val.location = some data →
    (∃ text, wire.timer.unmarshal data = .error text) ∨
      ∃ record, wire.timer.unmarshal data = .ok record ∧ Carries record key ∧
        checkOptional record.fireAt = .ok ()

/-- The timer before the first call: any point object, and no ledger object. -/
structure Unlisted (b : Bucket wire.Bytes) (key : RecordKey .timer) : Prop where
  ledger : b.objects.lookup key.val.dueLocation = none
  point : PointLegal b key

def HasDeadline (b : Bucket wire.Bytes) (key : RecordKey .timer) : LedgerCall → Prop
  | .goPut _ | .goDelete => True
  | .pythonPut record => record.fireAt.isSome
  | .pythonDelete =>
    match (b.objects.lookup key.val.location).map wire.timer.unmarshal with
    | some (.ok record) => record.fireAt.isSome
    | some (.error _) => ∃ record, timerState wire b.objects key = some record ∧ record.fireAt.isSome
    | none => ∀ record, timerState wire b.objects key = some record → record.fireAt.isSome

def Deadlined (key : RecordKey .timer) (b : Bucket wire.Bytes) :
    List (LedgerCall × Bucket wire.Bytes) → Prop
  | [] => True
  | (call, b') :: rest => HasDeadline b key call ∧ Deadlined key b' rest

/-- The ledger holds the Go entry of a record that both stores accept. -/
structure Level (b : Bucket wire.Bytes) (key : RecordKey .timer) : Prop where
  ledger : ∀ data, b.objects.lookup key.val.dueLocation = some data →
    ∃ record, data = wire.due.marshal (OpenDALStore.dueEntry record) ∧ Shareable record key
  point : PointLegal b key

variable {b b' : Bucket wire.Bytes} {key : RecordKey .timer} {record : TimerRecord}

theorem Unlisted.level (h : Unlisted b key) : Level b key := by
  refine ⟨fun data hdata => ?_, h.point⟩
  rw [h.ledger] at hdata
  cases hdata

theorem Level.accepted (h : Level b key) : Accepted b key := by
  intro data hdata
  obtain ⟨record, rfl, hrecord⟩ := h.ledger data hdata
  refine ⟨OpenDALStore.dueEntry record, wire.due.unmarshal_marshal _, ?_, ?_⟩
  · rw [hrecord.preparable.entryTimerKey, hrecord.preparable.entryWorkflowKey]
    exact hrecord.preparable.validateDueEntry
  · rw [hrecord.preparable.dueEntry_key]
    exact hrecord.carries.validateDueEntry hrecord.status rfl (by simp) (by simp) (by simp) (by simp)

theorem not_accepted (hrecord : Carries record key) (hstatus : record.status ≠ .unspecified)
    (hfire : record.fireAt = none) (hlookup : b.objects.lookup key.val.dueLocation =
      some (wire.due.marshal (dueEntry record key.val.run))) : ¬ Accepted b key := by
  intro h
  obtain ⟨entry, hentry, hgo, -⟩ := h _ hlookup
  obtain rfl := Except.ok.inj ((wire.due.unmarshal_marshal _).symm.trans hentry)
  apply hrecord.validateDueEntry_ne hstatus hfire
  have htimer : entryTimerKey (dueEntry record key.val.run) = key.val := hrecord.timerKeyFromProto
  have hworkflow : entryWorkflowKey (dueEntry record key.val.run) = key.val.run :=
    WorkflowKey.withDefaults_of_ne key.property.2
  rwa [htimer, hworkflow] at hgo

theorem Level.of_lookup (hrecord : Shareable record key)
    (hledger : b'.objects.lookup key.val.dueLocation =
      some (wire.due.marshal (OpenDALStore.dueEntry record))) (hpoint : PointLegal b' key) :
    Level b' key := by
  refine ⟨fun data hdata => ?_, hpoint⟩
  rw [hledger] at hdata
  exact ⟨record, (Option.some.inj hdata).symm, hrecord⟩

theorem pointLegal_of_some (hrecord : Carries record key)
    (hchecked : checkOptional record.fireAt = .ok ())
    (hpoint : b'.objects.lookup key.val.location = some (wire.timer.marshal record)) :
    PointLegal b' key := by
  intro data hdata
  rw [hpoint] at hdata
  obtain rfl := Option.some.inj hdata
  exact .inr ⟨record, wire.timer.unmarshal_marshal record, hrecord, hchecked⟩

theorem pointLegal_of_none (hpoint : b'.objects.lookup key.val.location = none) :
    PointLegal b' key := by
  intro data hdata
  rw [hpoint] at hdata
  cases hdata

variable {objects : Objects wire}

theorem lookup_due_publish :
    (publish objects key record).lookup key.val.dueLocation =
      objects.lookup key.val.dueLocation := by
  have hne : Address.due key ≠ .item .timer key := by simp
  exact lookup_insert_address hne _

theorem lookup_due_erase :
    (objects.erase key.val.location).lookup key.val.dueLocation =
      objects.lookup key.val.dueLocation := by
  have hne : Address.due key ≠ .item .timer key := by simp
  exact lookup_erase_address hne

theorem goPut_objects (h : b.exec (OpenDALStore.putTimer wire record) = (.ok (), b')) :
    ∃ k, Preparable record k ∧
      b'.objects = publish (OpenDALStore.prepare b.objects k record) k record := by
  by_cases hprep : ∃ k, Preparable record k
  · obtain ⟨k, hprep⟩ := hprep
    have hrun := (OpenDALStore.runs_putTimer (I := fun _ => True) hprep (fun _ _ => trivial)
      (fun _ _ => trivial) (b := b) (Q := fun _ c => c.objects =
        publish (OpenDALStore.prepare b.objects k record) k record) fun _ hc => ⟨trivial, hc⟩).exec
    rw [h] at hrun
    exact ⟨k, hprep, hrun⟩
  · have hrun := (OpenDALStore.runs_putTimer_rejected (I := fun _ => True) hprep (b := b)
      (Q := fun r _ => r ≠ .ok ()) fun _ _ => ⟨trivial, fun _ => nofun⟩).exec
    rw [h] at hrun
    exact absurd rfl hrun

theorem pythonPut_objects (h : b.exec (putTimer wire record) = (.ok (), b')) :
    ∃ k, Carries record k ∧ validateEntryStatus record = .ok () ∧
      b'.objects = publish (prepare b.objects k record) k record := by
  by_cases haccept : ∃ k, Carries record k ∧ validateEntryStatus record = .ok ()
  · obtain ⟨k, hcarries, hstatus⟩ := haccept
    have hrun := (runs_putTimer (I := fun _ => True) hcarries hstatus (fun _ _ => trivial)
      (fun _ _ => trivial) (b := b) (Q := fun _ c => c.objects =
        publish (prepare b.objects k record) k record) fun _ hc => ⟨trivial, hc⟩).exec
    rw [h] at hrun
    exact ⟨k, hcarries, hstatus, hrun⟩
  · have hreject : ∀ k : RecordKey .timer, Carries record k → validateEntryStatus record ≠ .ok () :=
      fun k hk hs => haccept ⟨k, hk, hs⟩
    have hrun := (runs_putTimer_rejected (I := fun _ => True) hreject (b := b)
      (Q := fun r _ => r ≠ .ok ()) fun _ => nofun).exec
    rw [h] at hrun
    exact absurd rfl hrun

theorem level_goPut (hon : (LedgerCall.goPut record).On key)
    (h : b.exec (OpenDALStore.putTimer wire record) = (.ok (), b')) : Level b' key := by
  obtain ⟨k, hprep, hobjects⟩ := goPut_objects h
  obtain rfl : k = key := by
    apply Subtype.ext
    rw [← hprep.key, hon.1]
    exact key.withDefaults
  have hrecord : Shareable record k := ⟨hprep, hon.1⟩
  refine .of_lookup hrecord ?_ (pointLegal_of_some hrecord.carries hon.2 ?_)
  · rw [hobjects, lookup_due_publish, lookup_prepare]
  · rw [hobjects, lookup_publish]

theorem step_pythonPut (hon : (LedgerCall.pythonPut record).On key)
    (h : b.exec (putTimer wire record) = (.ok (), b')) :
    (record.fireAt.isSome → Level b' key) ∧ (¬ record.fireAt.isSome → ¬ Accepted b' key) := by
  obtain ⟨k, hcarries, hstatus, hobjects⟩ := pythonPut_objects h
  obtain rfl : k = key := Subtype.ext (Option.some.inj (hcarries.key.symm.trans hon.1))
  have hledger : b'.objects.lookup k.val.dueLocation =
      some (wire.due.marshal (dueEntry record k.val.run)) := by
    rw [hobjects, lookup_due_publish]
    exact AList.lookup_insert _
  constructor
  · intro hfire
    rw [hcarries.dueEntry_eq hfire] at hledger
    refine .of_lookup (.of_carries hcarries hstatus hon.2) hledger (pointLegal_of_some hcarries hon.2 ?_)
    rw [hobjects, lookup_publish]
  · intro hfire
    exact not_accepted hcarries (validateEntryStatus_eq_ok.1 hstatus).1 (by simpa using hfire) hledger

theorem Level.ledger_cases (h : Level b key) :
    (b.objects.lookup key.val.dueLocation = none ∧ ledgerRecord wire b.objects key = none) ∨
      ∃ record, b.objects.lookup key.val.dueLocation =
          some (wire.due.marshal (OpenDALStore.dueEntry record)) ∧
        ledgerRecord wire b.objects key = some record ∧ Shareable record key := by
  rcases hlookup : b.objects.lookup key.val.dueLocation with _ | data
  · left
    rw [ledgerRecord, storedRecord_none hlookup]
    exact ⟨rfl, rfl⟩
  · right
    obtain ⟨record, rfl, hrecord⟩ := h.ledger data hlookup
    refine ⟨record, rfl, ?_, hrecord⟩
    rw [ledgerRecord, storedRecord_some hlookup]
    rfl

theorem Level.exec_readDueEntry (h : Level b key) :
    b.exec (readDueEntry wire key.val) =
      (.ok ((ledgerRecord wire b.objects key).map OpenDALStore.dueEntry), b) := by
  rcases h.ledger_cases with ⟨hlookup, hledger⟩ | ⟨record, hlookup, hledger, hrecord⟩
  · rw [hledger]
    exact exec_readDueEntry_none hlookup
  · rw [hledger]
    exact exec_readDueEntry_some hrecord hlookup

theorem Level.shareable (h : Level b key) (hledger : ledgerRecord wire b.objects key = some record) :
    Shareable record key := by
  rcases h.ledger_cases with ⟨-, hnone⟩ | ⟨found, -, hsome, hfound⟩
  · rw [hnone] at hledger
    cases hledger
  · rw [hsome] at hledger
    rwa [← Option.some.inj hledger]

theorem PointLegal.cases (h : PointLegal b key) :
    b.objects.lookup key.val.location = none ∨
      (∃ data text, b.objects.lookup key.val.location = some data ∧
        wire.timer.unmarshal data = .error text) ∨
      ∃ data record, b.objects.lookup key.val.location = some data ∧
        wire.timer.unmarshal data = .ok record ∧ Carries record key ∧
        checkOptional record.fireAt = .ok () := by
  rcases hlookup : b.objects.lookup key.val.location with _ | data
  · exact .inl rfl
  · rcases h data hlookup with ⟨text, hdata⟩ | ⟨record, hdata, hrecord⟩
    · exact .inr (.inl ⟨data, text, rfl, hdata⟩)
    · exact .inr (.inr ⟨data, record, rfl, hdata, hrecord⟩)

/-- Neither the point object nor a live ledger record is there, and a delete has nothing to do. -/
def Gone (b : Bucket wire.Bytes) (key : RecordKey .timer) : Prop :=
  b.objects.lookup key.val.location = none ∧ timerState wire b.objects key = none

theorem Level.exec_usableCanonical (h : Level b key) :
    ∃ canonical, b.exec (usableCanonical wire key.val (b.objects.lookup key.val.location).isSome) =
        (.ok canonical, b) ∧
      (∀ record, canonical = some record →
        Carries record key ∧ checkOptional record.fireAt = .ok ()) ∧
      (HasDeadline b key .pythonDelete ↔ Gone b key ∨ (tombstoneSource key.val canonical
        ((ledgerRecord wire b.objects key).map OpenDALStore.dueEntry)).fireAt.isSome) := by
  rcases h.point.cases with hnone | ⟨data, text, hdata, hbad⟩ | ⟨data, record, hdata, hread, hrecord⟩
  · refine ⟨none, by simp [usableCanonical, hnone], by simp, ?_⟩
    simp only [HasDeadline, hnone, Gone, tombstoneSource, liveRecord_ledger, Option.map_none]
    cases timerState wire b.objects key with
    | none => simp
    | some record => simp
  · refine ⟨none, ?_, by simp, ?_⟩
    · simp [usableCanonical, hdata, exec_bind, exec_getCanonicalTimer_error hdata hbad, recoverable,
        ExceptionClass.recoverable,
        exception]
    · simp only [HasDeadline, hdata, hbad, Gone, tombstoneSource, liveRecord_ledger, Option.map_some]
      cases timerState wire b.objects key with
      | none => simp [emptyTimer]
      | some record => simp
  · refine ⟨some record, ?_, ?_, ?_⟩
    · simp [usableCanonical, hdata, exec_bind, exec_getCanonicalTimer_some hdata hread hrecord.1]
    · intro found hfound
      rwa [← Option.some.inj hfound]
    · simp [HasDeadline, hdata, hread, Gone, tombstoneSource]

theorem Level.carries_tombstoneSource (h : Level b key) {canonical : Option TimerRecord}
    (hcanonical : ∀ record, canonical = some record →
      Carries record key ∧ checkOptional record.fireAt = .ok ()) :
    Carries (tombstoneSource key.val canonical
        ((ledgerRecord wire b.objects key).map OpenDALStore.dueEntry)) key ∧
      checkOptional (tombstoneSource key.val canonical
        ((ledgerRecord wire b.objects key).map OpenDALStore.dueEntry)).fireAt = .ok () := by
  simp only [tombstoneSource, liveRecord_ledger]
  cases canonical with
  | some record => exact hcanonical record rfl
  | none =>
    cases hstate : timerState wire b.objects key with
    | none => exact ⟨⟨rfl, rfl⟩, rfl⟩
    | some record =>
      have hrecord := h.shareable (Option.filter_eq_some_iff.1 hstate).1
      exact ⟨hrecord.carries, hrecord.preparable.checked⟩

theorem pointLegal_of_lookup (h : PointLegal b key)
    (hlookup : b'.objects.lookup key.val.location = b.objects.lookup key.val.location) :
    PointLegal b' key := by
  intro data hdata
  rw [hlookup] at hdata
  exact h data hdata

theorem lookup_insert_due {data : wire.Bytes} :
    (objects.insert key.val.dueLocation data).lookup key.val.location =
      objects.lookup key.val.location := by
  have hne : Address.item .timer key ≠ .due key := by simp
  exact lookup_insert_address hne data

theorem step_pythonDelete (h : Level b key)
    (hexec : b.exec ((fun _ => ()) <$> deleteTimer wire key.val) = (.ok (), b')) :
    (HasDeadline b key .pythonDelete → Level b' key) ∧
      (¬ HasDeadline b key .pythonDelete → ¬ Accepted b' key) := by
  obtain ⟨canonical, hcanonical, hlegal, hdeadline⟩ := h.exec_usableCanonical
  obtain ⟨hsource, hchecked⟩ := h.carries_tombstoneSource hlegal
  set source := tombstoneSource key.val canonical
    ((ledgerRecord wire b.objects key).map OpenDALStore.dueEntry) with hsourceDef
  have hrun := (runs_deleteTimer (I := fun _ => True) hcanonical h.exec_readDueEntry (fun _ => hsource)
    (fun _ _ => trivial) (Q := fun _ c => (Gone b key ∧ c = b) ∨ (¬ Gone b key ∧ PointLegal c key ∧
      c.objects.lookup key.val.dueLocation =
        some (wire.due.marshal (dueEntry (tombstone source) key.val.run)))) ?_ ?_ ?_).exec
  · rw [exec_map] at hexec
    obtain rfl : (b.exec (deleteTimer wire key.val)).2 = b' := congrArg Prod.snd hexec
    rcases hrun with ⟨hgone, hsame⟩ | ⟨hfound, hpoint, hledger⟩
    · rw [hsame]
      exact ⟨fun _ => h, fun hno => absurd (hdeadline.2 (.inl hgone)) hno⟩
    · rw [hdeadline, or_iff_right hfound]
      constructor
      · intro hfire
        rw [Carries.dueEntry_eq hsource.tombstone hfire] at hledger
        exact .of_lookup (.tombstone hsource hchecked) hledger hpoint
      · intro hfire
        have hnone : source.fireAt = none := by simpa using hfire
        exact not_accepted hsource.tombstone nofun hnone hledger
  · intro hnone hstate
    rw [liveRecord_ledger] at hstate
    exact .inl ⟨⟨hnone, hstate⟩, rfl⟩
  · intro hfound c hc
    rw [liveRecord_ledger] at hfound
    refine ⟨trivial, fun _ _ => .inr ⟨hfound, pointLegal_of_lookup h.point ?_, ?_⟩⟩
    · rw [hc]
      exact lookup_insert_due
    · rw [hc]
      exact AList.lookup_insert _
  · intro hfound c hc
    rw [liveRecord_ledger] at hfound
    refine ⟨trivial, fun _ => .inr ⟨hfound, pointLegal_of_none ?_, ?_⟩⟩
    · rw [hc]
      exact AList.lookup_erase _ _
    · rw [hc, lookup_due_erase]
      exact AList.lookup_insert _

theorem Level.exec_tombstoneSource (h : Level b key) :
    ∃ source, (¬ Gone b key → b.exec (OpenDALStore.tombstoneSource wire key.val
        ((ledgerRecord wire b.objects key).map OpenDALStore.dueEntry)) = (.ok (some source), b)) ∧
      Carries source key ∧ checkOptional source.fireAt = .ok () := by
  have hminimal : Carries (minimalTombstone key.val) key :=
    ⟨rfl, by simp [minimalTombstone, key.withDefaults]⟩
  rcases h.ledger_cases with ⟨-, hledger⟩ | ⟨record, -, hledger, hrecord⟩
  · rw [hledger]
    rcases h.point.cases with hnone | ⟨data, text, hdata, hbad⟩ | ⟨data, record, hdata, hread, hrecord⟩
    · have hstate : timerState wire b.objects key = none := by rw [timerState, hledger]; rfl
      exact ⟨_, fun hfound => absurd ⟨hnone, hstate⟩ hfound, hminimal, rfl⟩
    · refine ⟨minimalTombstone key.val, fun _ => ?_, hminimal, rfl⟩
      simp [OpenDALStore.tombstoneSource, getTimerPoint, getRecord, exec_bind, key.path_eq, hdata,
        exec_readObject b hdata, hbad]
    · refine ⟨record, fun _ => ?_, hrecord⟩
      simp [OpenDALStore.tombstoneSource, getTimerPoint, getRecord, exec_bind, key.path_eq, hdata,
        exec_readObject b hdata, hread, hrecord.1.valid, Except.map]
  · rw [hledger]
    exact ⟨record, fun _ => rfl, hrecord.carries, hrecord.preparable.checked⟩

theorem Level.exec_getDueEntry (h : Level b key) :
    b.exec (getDueEntry wire key.val) =
      (.ok ((ledgerRecord wire b.objects key).map OpenDALStore.dueEntry), b) := by
  rcases h.ledger_cases with ⟨hlookup, hledger⟩ | ⟨record, hlookup, hledger, hrecord⟩
  · rw [hledger]
    exact exec_getDueEntry_none key.property.1 (by rwa [key.stored])
  · rw [hledger]
    refine exec_getDueEntry_some key.property.1 ?_ ?_
    · rw [key.stored]
      exact hrecord.preparable
    · rwa [key.stored]

theorem preparedRecord_ledger :
    ((ledgerRecord wire objects key).map OpenDALStore.dueEntry).bind preparedRecord =
      timerState wire objects key := by
  rw [timerState]
  cases ledgerRecord wire objects key <;> rfl

theorem level_goDelete (h : Level b key)
    (hexec : b.exec ((fun _ => ()) <$> OpenDALStore.deleteTimer wire key.val) = (.ok (), b')) :
    Level b' key := by
  rw [exec_map] at hexec
  obtain rfl : (b.exec (OpenDALStore.deleteTimer wire key.val)).2 = b' := congrArg Prod.snd hexec
  obtain ⟨source, hexec, hsource, hchecked⟩ := h.exec_tombstoneSource
  have htomb := Shareable.tombstone hsource hchecked
  refine (runs_deleteTimer_of_source (I := fun _ => True) (Q := fun _ c => Level c key)
    key.property.1 h.exec_getDueEntry (fun _ _ => trivial) (fun _ _ => h) ?_).exec
  rw [key.stored, preparedRecord_ledger]
  intro hfound
  refine ⟨source, hexec ?_, htomb.preparable, fun c hc => ⟨trivial, fun _ _ => ?_⟩,
    fun c hc => ⟨trivial, fun _ => ?_⟩⟩
  · intro hgone
    simp [hgone.1, hgone.2] at hfound
  · refine .of_lookup htomb ?_ (pointLegal_of_lookup h.point ?_)
    · rw [hc, lookup_prepare]
    · rw [hc]
      exact lookup_insert_due
  · refine .of_lookup htomb ?_ (pointLegal_of_none ?_)
    · rw [hc]
      exact lookup_due_erase.trans lookup_prepare
    · rw [hc]
      exact AList.lookup_erase _ _

theorem step_call {call : LedgerCall} (h : Level b key) (hon : call.On key)
    (hexec : b.exec (call.code wire key) = (.ok (), b')) :
    (HasDeadline b key call → Level b' key) ∧ (¬ HasDeadline b key call → ¬ Accepted b' key) := by
  cases call with
  | goPut record => exact ⟨fun _ => level_goPut hon hexec, fun hno => absurd trivial hno⟩
  | goDelete => exact ⟨fun _ => level_goDelete h hexec, fun hno => absurd trivial hno⟩
  | pythonPut record => exact step_pythonPut hon hexec
  | pythonDelete => exact step_pythonDelete h hexec

theorem Level.run {run : List (LedgerCall × Bucket wire.Bytes)} (h : Level b key)
    (hrun : Follows key b run) : (∀ step ∈ run, Accepted step.2 key) ↔ Deadlined key b run := by
  induction run generalizing b with
  | nil => simp [Deadlined]
  | cons step rest ih =>
    obtain ⟨call, b'⟩ := step
    obtain ⟨hon, hexec, hrest⟩ := hrun
    obtain ⟨hkeeps, hbreaks⟩ := step_call h hon hexec
    simp only [List.forall_mem_cons, Deadlined]
    by_cases hfire : HasDeadline b key call
    · have hlevel := hkeeps hfire
      rw [ih hlevel hrest]
      simp [hlevel.accepted, hfire]
    · simp [hbreaks hfire, hfire]

/-- Both stores accept every ledger object that a run of successful calls leaves behind, exactly
when each record that a Python call of the run publishes has a deadline. -/
theorem ledger_accepted_iff {run : List (LedgerCall × Bucket wire.Bytes)} (h : Unlisted b key)
    (hrun : Follows key b run) : (∀ step ∈ run, Accepted step.2 key) ↔ Deadlined key b run :=
  h.level.run hrun

def alarmKey : RecordKey .timer := ⟨⟨"default", "wf", "run", "alarm"⟩, by decide, by decide⟩

def alarmTimer : TimerRecord where
  schemaVersion := .timer
  key := some alarmKey.val
  timerKind := .sleep
  duration := some ⟨60, 0⟩
  status := .scheduled
  fireAt := some ⟨100, 0⟩
  createdAt := some ⟨40, 0⟩
  firedAt := none
  retryActivityId := ""

def noObjects : Bucket taggedWire.Bytes := ⟨∅, [], 0⟩

/-- The buckets after the Python store has written a timer and the Go store has removed it. -/
def alarmPut : Bucket taggedWire.Bytes :=
  (noObjects.exec (putTimer taggedWire alarmTimer)).2

def alarmDeleted : Bucket taggedWire.Bytes :=
  (alarmPut.exec (LedgerCall.goDelete.code taggedWire alarmKey)).2

theorem ledger_accepted_alarm : Unlisted noObjects alarmKey ∧
    ∀ step ∈ [(LedgerCall.pythonPut alarmTimer, alarmPut), (.goDelete, alarmDeleted)],
      Accepted step.2 alarmKey := by
  have hstart : Unlisted noObjects alarmKey := ⟨rfl, pointLegal_of_none rfl⟩
  have hrun : Follows alarmKey noObjects
      [(LedgerCall.pythonPut alarmTimer, alarmPut), (.goDelete, alarmDeleted)] :=
    ⟨⟨rfl, rfl⟩, rfl, trivial, rfl, trivial⟩
  exact ⟨hstart, (ledger_accepted_iff hstart hrun).2 ⟨rfl, trivial, trivial⟩⟩

/-- A bucket with a point object that is no timer record, and the bucket after the Python store has
deleted the timer. -/
def damaged : Bucket taggedWire.Bytes :=
  ⟨(∅ : Objects taggedWire).insert alarmKey.val.location (.due ⟨none, none, none, none⟩), [], 0⟩

def damagedDeleted : Bucket taggedWire.Bytes :=
  (damaged.exec (LedgerCall.pythonDelete.code taggedWire alarmKey)).2

theorem damaged_delete_rejected :
    Unlisted damaged alarmKey ∧ Follows alarmKey damaged [(.pythonDelete, damagedDeleted)] ∧
      ¬ Accepted damagedDeleted alarmKey := by
  refine ⟨⟨rfl, ?_⟩, ⟨trivial, rfl, trivial⟩, ?_⟩
  · intro data hdata
    obtain rfl := Option.some.inj hdata
    exact .inl ⟨_, rfl⟩
  · intro h
    obtain ⟨entry, hentry, hgo, -⟩ := h _ rfl
    obtain rfl := Except.ok.inj hentry
    cases hgo

end Temporaless.Python
