import Temporaless.Python.DeleteExact

/-!
# What the deletion of a run depends on

Whether `delete_run` succeeds depends on the objects of the run alone, so deletions of several runs
do not disturb each other. The fuel of the walk makes no difference once there is enough of it.
-/

namespace Temporaless.Python

open PathTree Effects OpenDALStore

variable {kind : RecordKind}

section Fuel

variable {wire : RecordWire} {b : Bucket wire.Bytes} {fuel : Nat}

theorem exec_listTimers_fuel (run : RunKey) (hfuel : b.walkFuel ≤ fuel) :
    b.exec (listTimers wire.toWire fuel run.val .unspecified) =
      b.exec (listTimers wire.toWire b.walkFuel run.val .unspecified) := by
  simp only [listTimers, validateWorkflowKey_of_stored, liftOk_bind]
  exact exec_bind_congr b _ (exec_walkShadows_fuel run hfuel)

theorem exec_planDeletion_fuel (run : RunKey) (hfuel : b.walkFuel ≤ fuel) :
    b.exec (planDeletion wire fuel run.val) = b.exec (planDeletion wire b.walkFuel run.val) := by
  rcases exec_listClaims (b := b) run with ⟨err, hclaims, -⟩ | ⟨claims, -, hclaims, -⟩
  · simp only [planDeletion, exec_bind_error b _ hclaims]
  rcases exec_listActivities (b := b) run with ⟨err, hactivities, -⟩ | ⟨activities, -, hactivities, -⟩
  · simp only [planDeletion, exec_bind_ok b _ hclaims, exec_bind_error b _ hactivities]
  · simp only [planDeletion, exec_bind_ok b _ hclaims, exec_bind_ok b _ hactivities]
    exact exec_bind_congr b _ (exec_listTimers_fuel run hfuel)

theorem exec_deleteRun_fuel (run : RunKey) (hfuel : b.walkFuel ≤ fuel) :
    b.exec (deleteRun wire fuel run.val) = b.exec (deleteRun wire b.walkFuel run.val) :=
  exec_bind_congr b _ (exec_planDeletion_fuel run hfuel)

end Fuel

section Success

variable {wire : RecordWire} {b b' : Bucket wire.Bytes} {run : RunKey}

variable (wire run) in
/-- The listings of the run do not raise, and the ledger object of every timer can be used. -/
structure Deletes (b : Bucket wire.Bytes) : Prop where
  plannable : Plannable wire run b
  ledgers : ∀ key : RecordKey .timer, key.val.run = run.val → (timerAt b.objects key).isSome →
    ∃ entry, ledgerAt b.objects key = .ok entry

/-- No record of the run is left, nor a timer a read would find. -/
structure RunGone (run : RunKey) (objects : Objects wire.toWire) : Prop where
  workflow : objects.lookup run.val.location = none
  items : ∀ {kind : RecordKind} (key : RecordKey kind), kind ≠ .timer → key.val.run = run.val →
    objects.lookup key.val.location = none
  timers : ∀ key : RecordKey .timer, key.val.run = run.val → timerAt objects key = none

theorem exec_deleteRun_deletes {fuel : Nat} (hfuel : b.walkFuel ≤ fuel) (run : RunKey) :
    ∃ r b', b.exec (deleteRun wire fuel run.val) = (r, b') ∧ Outside run b.objects b'.objects ∧
      ((Deletes wire run b ∧ (∃ total, r = .ok total) ∧ RunGone run b'.objects) ∨
        ¬ Deletes wire run b ∧ ∃ err, r = .error err) := by
  obtain ⟨r, b', hexec, houtside, ⟨hbad, hr, -⟩ | ⟨hplannable, plan, timers, hplans,
    ⟨hr, hread, hswept⟩ | ⟨err, before, key, after, hr, hsplit, -, herror, -⟩⟩⟩ := exec_deleteRun run hfuel
  · exact ⟨r, b', hexec, houtside, .inr ⟨fun h => hbad h.plannable, hr⟩⟩
  · refine ⟨r, b', hexec, houtside, .inl ⟨⟨hplannable, ?_⟩, hr, hswept.workflow, hswept.items, ?_⟩⟩
    · intro key hrun hsome
      exact hread key ((hplans.timers key).2 ⟨hrun, hsome⟩)
    · intro key hrun
      exact hswept.timerAt hplans.timers hrun
  · refine ⟨r, b', hexec, houtside, .inr ⟨?_, err, hr⟩⟩
    intro h
    obtain ⟨hrun, hsome⟩ := (hplans.timers key).1 (by simp [hsplit])
    obtain ⟨entry, hentry⟩ := h.ledgers key hrun hsome
    rw [herror] at hentry
    cases hentry

theorem Filed.of_fewer {α : Type} {codec : Codec wire.Bytes α}
    {validateRecord : α → Expectation (ItemKey kind) → Except Err (ItemKey kind)}
    (h : Filed codec validateRecord run b) (hfewer : ∀ path, path.dropLast = itemDir kind run →
      b'.objects.lookup path = b.objects.lookup path ∨ b'.objects.lookup path = none) :
    Filed codec validateRecord run b' := by
  intro path hpath
  obtain ⟨hrecord, hdir⟩ := List.mem_filter.1 hpath
  have hdir : path.dropLast = itemDir kind run := by simpa using hdir
  rcases hfewer path hdir with hsame | hnone
  · have hold := h path (List.mem_filter.2 ⟨mem_records_of_same hsame hrecord, by simp [hdir]⟩)
    rwa [itemAt, replyAt, ← hsame] at hold
  · have hsome := isSome_of_mem_records hrecord
    rw [hnone] at hsome
    cases hsome

def SameRecords (run : RunKey) (objects objects' : Objects wire.toWire) : Prop :=
  ∀ path, OfRun run.val path → path.dropLast ≠ itemDir .claim run →
    objects'.lookup path = objects.lookup path

theorem SameRecords.symm {objects objects' : Objects wire.toWire}
    (h : SameRecords run objects objects') :
    SameRecords run objects' objects :=
  fun path hpath hdir => (h path hpath hdir).symm

theorem ofRun_of_itemDir {path : Path} (h : path.dropLast = itemDir kind run) :
    OfRun run.val path := by
  left
  rw [h]
  exact List.prefix_append _ _

theorem itemDir_ne_claim (h : kind ≠ .claim) : itemDir kind run ≠ itemDir .claim run := by
  intro heq
  have hname := List.append_cancel_left heq
  cases kind <;> simp [RecordKind.name] at hname h

section SameRecords

variable (h : SameRecords run b.objects b'.objects)
include h

theorem SameRecords.filed {α : Type} {codec : Codec wire.Bytes α}
    {validateRecord : α → Expectation (ItemKey kind) → Except Err (ItemKey kind)}
    (hkind : kind ≠ .claim)
    (hfiled : Filed codec validateRecord run b) : Filed codec validateRecord run b' := by
  apply hfiled.of_fewer
  intro path hdir
  exact .inl (h path (ofRun_of_itemDir hdir) (by rw [hdir]; exact itemDir_ne_claim hkind))

theorem SameRecords.ledgerAt {key : RecordKey .timer} (hrun : key.val.run = run.val) :
    ledgerAt b'.objects key = ledgerAt b.objects key := by
  apply ledgerAt_of_lookup (h _ (ofRun_due hrun) _)
  intro heq
  simp only [ItemKey.dueLocation, itemDir, runDir, dueRoot, storageRoot, List.cons_append, List.nil_append,
    List.dropLast_cons_cons, List.cons.injEq] at heq
  exact workflowID_ne_due run heq.2.2.2.1.symm

theorem SameRecords.pointAt {key : RecordKey .timer} (hrun : key.val.run = run.val) :
    pointAt b'.objects key = pointAt b.objects key := by
  apply pointAt_of_lookup (h _ (ofRun_item hrun) _)
  rw [dropLast_location hrun]
  exact itemDir_ne_claim (by decide)

theorem SameRecords.covered
    (hcovered : ∀ path ∈ b.records.filter (·.dropLast = timerDir run), Covered run b.objects path) :
    ∀ path ∈ b'.records.filter (·.dropLast = timerDir run), Covered run b'.objects path := by
  intro path hpath
  obtain ⟨hrecord, hdir⟩ := List.mem_filter.1 hpath
  have hdir : path.dropLast = timerDir run := by simpa using hdir
  have hsame := h path (ofRun_of_itemDir hdir) (by rw [hdir]; exact itemDir_ne_claim (by decide))
  rcases hcovered path (List.mem_filter.2 ⟨mem_records_of_same hsame hrecord, by simp [hdir]⟩) with
    hok | ⟨key, hkey, hlocation, hentry⟩
  · left
    rwa [recordAt, replyAt, hsame]
  · right
    refine ⟨key, hkey, hlocation, ?_⟩
    rwa [ledgerOf, h.ledgerAt hkey]

theorem SameRecords.deletes (hclaims : Filed wire.claim validateClaimRecord run b')
    (hdeletes : Deletes wire run b) : Deletes wire run b' where
  plannable := ⟨hclaims, h.filed (by decide) hdeletes.plannable.activities,
    h.covered hdeletes.plannable.timers, h.filed (by decide) hdeletes.plannable.events⟩
  ledgers key hrun hsome := by
    rw [h.ledgerAt hrun]
    apply hdeletes.ledgers key hrun
    rwa [timerAt, ledgerOf, pointOf, h.ledgerAt hrun, h.pointAt hrun] at hsome

end SameRecords

end Success

section SameObjects

variable {wire : RecordWire} {run : RunKey} {b b' : Bucket wire.Bytes}

def SameObjects (run : RunKey) (objects objects' : Objects wire.toWire) : Prop :=
  ∀ path, OfRun run.val path → objects'.lookup path = objects.lookup path

theorem SameObjects.trans {objects objects' objects'' : Objects wire.toWire}
    (h : SameObjects run objects objects') (h' : SameObjects run objects' objects'') :
    SameObjects run objects objects'' :=
  fun path hpath => (h' path hpath).trans (h path hpath)

theorem SameObjects.sameRecords {objects objects' : Objects wire.toWire}
    (h : SameObjects run objects objects') : SameRecords run objects objects' :=
  fun path hpath _ => h path hpath

theorem Outside.sameObjects {other : RunKey} {objects objects' : Objects wire.toWire}
    (h : Outside run objects objects') (hne : other ≠ run) : SameObjects other objects objects' := by
  intro path hpath
  apply h path _ (not_isCopy hpath)
  intro hrun
  exact hne (hrun.unique hpath)

theorem SameObjects.filed (h : SameObjects run b.objects b'.objects) {α : Type}
    {codec : Codec wire.Bytes α}
    {validateRecord : α → Expectation (ItemKey kind) → Except Err (ItemKey kind)}
    (hfiled : Filed codec validateRecord run b) : Filed codec validateRecord run b' :=
  hfiled.of_fewer fun path hdir => .inl (h path (ofRun_of_itemDir hdir))

theorem SameObjects.deletes (h : SameObjects run b.objects b'.objects) (hdeletes : Deletes wire run b) :
    Deletes wire run b' :=
  h.sameRecords.deletes (h.filed hdeletes.plannable.claims) hdeletes

theorem SameObjects.runGone (h : SameObjects run b.objects b'.objects) (hgone : RunGone run b.objects) :
    RunGone run b'.objects where
  workflow := (h _ (ofRun_workflow run)).trans hgone.workflow
  items key hkind hrun := (h _ (ofRun_item hrun)).trans (hgone.items key hkind hrun)
  timers key hrun := by
    rw [timerAt, ledgerOf, pointOf, h.sameRecords.ledgerAt hrun, h.sameRecords.pointAt hrun]
    exact hgone.timers key hrun

end SameObjects

section Fewer

variable {wire : RecordWire} {run : RunKey} {b b' : Bucket wire.Bytes}
variable {objects objects' : Objects wire.toWire}

def FewerClaims (run : RunKey) (objects objects' : Objects wire.toWire) : Prop :=
  ∀ path, objects'.lookup path = objects.lookup path ∨
    path.dropLast = itemDir .claim run ∧ objects'.lookup path = none

theorem FewerClaims.refl (run : RunKey) (objects : Objects wire.toWire) :
    FewerClaims run objects objects := fun _ => .inl rfl

theorem FewerClaims.outside (h : FewerClaims run objects objects') : Outside run objects objects' := by
  intro path hpath _
  rcases h path with hsame | ⟨hdir, -⟩
  · exact hsame
  · exact absurd (ofRun_of_itemDir hdir) hpath

theorem FewerClaims.sameRecords (h : FewerClaims run objects objects') :
    SameRecords run objects objects' := by
  intro path _ hdir
  exact (h path).resolve_right fun hclaim => hdir hclaim.1

theorem FewerClaims.filed (h : FewerClaims run b.objects b'.objects)
    (hfiled : Filed wire.claim validateClaimRecord run b) :
    Filed wire.claim validateClaimRecord run b' :=
  hfiled.of_fewer fun path _ => (h path).imp_right And.right

theorem exec_deleteClaims {keys : List ClaimKey} (b : Bucket wire.Bytes)
    (hkeys : ∀ k ∈ keys, ∃ key : RecordKey .claim, key.val = k ∧ key.val.run = run.val) :
    ∃ total b', b.exec (deleteEach (deleteClaim wire) keys 0) = (.ok total, b') ∧
      FewerClaims run b.objects b'.objects ∧ ∀ k ∈ keys, b'.objects.lookup k.location = none := by
  have hstored : ∀ k ∈ keys, k.Valid ∧ k.ns ≠ "" := by
    intro k hk
    obtain ⟨key, rfl, -⟩ := hkeys k hk
    exact key.property
  obtain ⟨total, b', hexec, herased⟩ := exec_deleteItems (b := b) hstored 0
  refine ⟨total, b', hexec, ?_, ?_⟩
  · intro path
    rw [herased path]
    split
    next hpath =>
      obtain ⟨k, hk, rfl⟩ := List.mem_map.1 hpath
      obtain ⟨key, rfl, hrun⟩ := hkeys k hk
      exact .inr ⟨dropLast_location hrun, rfl⟩
    · exact .inl rfl
  · intro k hk
    rw [herased, if_pos (List.mem_map.2 ⟨k, hk, rfl⟩)]

theorem Copies.outside (h : Copies b b') : Outside run b.objects b'.objects :=
  fun path _ hcopy => h.lookup path fun ns hns => hcopy ⟨ns, hns⟩

theorem Outside.trans {objects'' : Objects wire.toWire} (h : Outside run objects objects')
    (h' : Outside run objects' objects'') : Outside run objects objects'' :=
  fun path hpath hcopy => (h' path hpath hcopy).trans (h path hpath hcopy)

theorem Copies.sameRecords (h : Copies b b') : SameRecords run b.objects b'.objects :=
  fun path hpath _ => h.lookup path fun ns hns => not_isCopy hpath ⟨ns, hns⟩

theorem SameRecords.trans {objects'' : Objects wire.toWire}
    (h : SameRecords run objects objects') (h' : SameRecords run objects' objects'') :
    SameRecords run objects objects'' :=
  fun path hpath hdir => (h' path hpath hdir).trans (h path hpath hdir)

end Fewer

end Temporaless.Python
