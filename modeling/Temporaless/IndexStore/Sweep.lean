import Mathlib.Order.Filter.AtTopBot.Basic
import Temporaless.IndexStore.Store
import Temporaless.Python.DeleteFrame
import Temporaless.Python.DueScan

/-!
# Retention of the indexed store

A sweep takes candidates from the index and decides on the records of the bucket. It deletes no run
that the bucket does not show as completed before the cutoff, and all of them where the index is a
true image of the bucket.
-/

namespace Temporaless.IndexStore

open PathTree Effects Python

variable {record : WorkflowRecord}

section Delete

variable {wire : RecordWire} (config : Config) (run : RunKey) (w : World wire.Bytes)

def World.claimBucket : Bucket wire.Bytes := if config.claimStore.isSome then w.claims else w.bucket

def World.setClaimBucket (b : Bucket wire.Bytes) : World wire.Bytes :=
  if config.claimStore.isSome then { w with claims := b } else { w with bucket := b }

theorem exec_onClaims {α : Type} (code : BucketM wire.Bytes α) : w.exec (onClaims wire config code) =
    (((w.claimBucket config).exec code).1, w.setClaimBucket config ((w.claimBucket config).exec code).2) := by
  unfold onClaims World.claimBucket World.setClaimBucket
  split
  · exact exec_separate w code
  · exact exec_inner w code

def Config.claimCapability : Except Err ClaimCapability :=
  currentClaimCapability (config.claimStore.getD config.innerCapability)

structure ClaimsListed : Prop where
  supported : ∃ capability, config.claimCapability = .ok capability
  filed : config.claimCapability = .ok .createOnlyClaims →
    Filed wire.claim Python.validateClaimRecord run (w.claimBucket config)

/-- What the plan of the claims names: claims of the run, all of them where there are claims. -/
structure ClaimsPlanned (keys : List ClaimKey) : Prop where
  ofRun : ∀ k ∈ keys, ∃ key : RecordKey .claim, key.val = k ∧ key.val.run = run.val
  none : config.claimCapability ≠ .ok .createOnlyClaims → keys = []
  all : config.claimCapability = .ok .createOnlyClaims →
    Names run (w.claimBucket config).objects keys

theorem exec_claimDeletionPlan : ∃ r, w.exec (claimDeletionPlan wire config run.val) = (r, w) ∧
    ((ClaimsListed config run w ∧ ∃ keys, r = .ok keys ∧ ClaimsPlanned config run w keys) ∨
      ¬ ClaimsListed config run w ∧ ∃ err, r = .error err) := by
  have hcapability : config.claimCapability =
      currentClaimCapability (config.claimStore.getD config.innerCapability) := rfl
  unfold claimDeletionPlan
  rw [← hcapability]
  rcases hcap : config.claimCapability with err | capability
  · refine ⟨.error err, rfl, .inr ⟨?_, err, rfl⟩⟩
    intro h
    obtain ⟨capability, hok⟩ := h.supported
    rw [hcap] at hok
    cases hok
  · rw [liftOk_bind]
    split
    next hnone =>
      refine ⟨.ok [], rfl, .inl ⟨⟨⟨capability, hcap⟩, ?_⟩, [], rfl, by simp, fun _ => rfl, ?_⟩⟩
      · intro hcreate
        exact absurd (Except.ok.inj (hcap.symm.trans hcreate)) hnone
      · intro hcreate
        exact absurd (Except.ok.inj (hcap.symm.trans hcreate)) hnone
    next hcreate =>
      rw [ne_eq, not_not] at hcreate
      subst hcreate
      have hsame : w.setClaimBucket config (w.claimBucket config) = w := by
        unfold World.setClaimBucket World.claimBucket
        split <;> rfl
      rcases exec_listClaims (b := w.claimBucket config) run with ⟨err, hlist, hbad⟩ |
        ⟨records, keys, hlist, hfiled, hkeys, -, hnames⟩
      · refine ⟨.error err, ?_, .inr ⟨fun h => hbad (h.filed hcap), err, rfl⟩⟩
        simp only [execute_bind, exec_onClaims, hlist, hsame]
      · refine ⟨.ok keys, ?_, .inl ⟨⟨⟨_, hcap⟩, fun _ => hfiled⟩, keys, rfl, ?_, ?_, fun _ => hnames⟩⟩
        · simp only [execute_bind, exec_onClaims, hlist, hsame, hkeys, execute_liftExcept]
        · intro k hk
          obtain ⟨key, hkey, hrun, -⟩ := (hnames k).1 hk
          exact ⟨key, hkey, hrun⟩
        · intro hnone
          exact absurd hcap hnone

/-- The claims that the wrapped store keeps beside a claim store can be listed. -/
structure InnerClaimsListed : Prop where
  supported : config.claimStore.isSome →
    ∃ capability, currentClaimCapability config.innerCapability = .ok capability
  filed : config.claimStore.isSome → currentClaimCapability config.innerCapability = .ok .createOnlyClaims →
    Filed wire.claim Python.validateClaimRecord run w.bucket

theorem exec_validateInnerClaims : ∃ r, w.exec (validateInnerClaims wire config run.val) = (r, w) ∧
    ((InnerClaimsListed config run w ∧ r = .ok ()) ∨
      ¬ InnerClaimsListed config run w ∧ ∃ err, r = .error err) := by
  unfold validateInnerClaims
  split
  next hnone =>
    have hsome : ¬ config.claimStore.isSome := by simpa using hnone
    exact ⟨.ok (), rfl, .inl ⟨⟨fun h => absurd h hsome, fun h => absurd h hsome⟩, rfl⟩⟩
  next hsome =>
    have hsome : config.claimStore.isSome := Option.isSome_iff_ne_none.2 (by simpa using hsome)
    rcases hcap : currentClaimCapability config.innerCapability with err | capability
    · refine ⟨.error err, rfl, .inr ⟨?_, err, rfl⟩⟩
      intro h
      obtain ⟨capability, hok⟩ := h.supported hsome
      rw [hcap] at hok
      cases hok
    · rw [liftOk_bind]
      split
      next hnone =>
        refine ⟨.ok (), rfl, .inl ⟨⟨fun _ => ⟨capability, hcap⟩, ?_⟩, rfl⟩⟩
        intro _ hcreate
        exact absurd (Except.ok.inj (hcap.symm.trans hcreate)) hnone
      next hcreate =>
        rw [ne_eq, not_not] at hcreate
        subst hcreate
        rcases exec_listClaims (b := w.bucket) run with ⟨err, hlist, hbad⟩ |
          ⟨records, keys, hlist, hfiled, hkeys, -⟩
        · refine ⟨.error err, ?_, .inr ⟨fun h => hbad (h.filed hsome hcap), err, rfl⟩⟩
          simp only [execute_bind, exec_inner, hlist]
        · refine ⟨.ok (), ?_, .inl ⟨⟨fun _ => ⟨_, hcap⟩, fun _ _ => hfiled⟩, rfl⟩⟩
          simp only [execute_bind, exec_inner, hlist, hkeys, execute_liftExcept,
            execute_pure]

structure RecordsListed : Prop where
  activities : Filed wire.activity Python.validateActivityRecord run w.bucket
  timers : ∀ path ∈ w.bucket.records.filter (·.dropLast = timerDir run), Covered run w.bucket.objects path
  events : Filed wire.event Python.validateEventRecord run w.bucket
  claims : InnerClaimsListed config run w

theorem exec_validateInnerDeletionPlan : ∃ r b', Copies w.bucket b' ∧
    (∀ fuel, w.bucket.walkFuel ≤ fuel →
      w.exec (validateInnerDeletionPlan wire config fuel run.val) = (r, { w with bucket := b' })) ∧
    ((RecordsListed config run w ∧ r = .ok ()) ∨ ¬ RecordsListed config run w ∧ ∃ err, r = .error err) := by
  rcases exec_listActivities (b := w.bucket) run with ⟨err, hactivities, hbad⟩ |
    ⟨activities, activityKeys, hactivities, hfiledActivities, hactivityKeys, -⟩
  · refine ⟨.error err, w.bucket, .refl _, ?_, .inr ⟨fun h => hbad h.activities, err, rfl⟩⟩
    intro fuel _
    simp only [validateInnerDeletionPlan, execute_bind, exec_inner, hactivities]
  obtain ⟨b', hcopies, ⟨err, htimers, path, hpath, hbad⟩ | ⟨timers, htimers, hsorted, hmem, hcovered⟩⟩ :=
    exec_listTimers (b := w.bucket) run le_rfl
  · refine ⟨.error err, b', hcopies, ?_, .inr ⟨fun h => hbad (h.timers path hpath), err, rfl⟩⟩
    intro fuel hfuel
    simp only [validateInnerDeletionPlan, execute_bind, exec_inner, hactivities,
      exec_listTimers_fuel run hfuel, htimers]
  have htimerKeys := (exists_planned hsorted hmem).1
  rcases exec_listEvents (b := b') run with ⟨err, hevents, hbad⟩ |
    ⟨events, eventKeys, hevents, hfiledEvents, heventKeys, -⟩
  · refine ⟨.error err, b', hcopies, ?_, .inr ⟨fun h => hbad (hcopies.filed.2 h.events), err, rfl⟩⟩
    intro fuel hfuel
    simp only [validateInnerDeletionPlan, execute_bind, exec_inner, hactivities,
      exec_listTimers_fuel run hfuel, htimers, hevents]
  obtain ⟨r, hclaims, hr⟩ := exec_validateInnerClaims config run { w with bucket := b' }
  have hlisted : InnerClaimsListed config run { w with bucket := b' } ↔ InnerClaimsListed config run w := by
    constructor
    · intro h
      exact ⟨h.supported, fun hsome hcreate => hcopies.filed.1 (h.filed hsome hcreate)⟩
    · intro h
      exact ⟨h.supported, fun hsome hcreate => hcopies.filed.2 (h.filed hsome hcreate)⟩
  refine ⟨r, b', hcopies, ?_, ?_⟩
  · intro fuel hfuel
    simp only [validateInnerDeletionPlan, execute_bind, exec_inner, hactivities,
      exec_listTimers_fuel run hfuel, htimers, hevents, hactivityKeys, htimerKeys, heventKeys,
      execute_liftExcept, hclaims]
  · rcases hr with ⟨hok, hr⟩ | ⟨hbad, hr⟩
    · exact .inl ⟨⟨hfiledActivities, hcovered, hcopies.filed.1 hfiledEvents, hlisted.1 hok⟩, hr⟩
    · exact .inr ⟨fun h => hbad (hlisted.2 h.claims), hr⟩

structure Deletable : Prop where
  claims : ClaimsListed config run w
  supported : config.claimStore.isSome →
    ∃ capability, currentClaimCapability config.innerCapability = .ok capability
  records : Deletes wire run w.bucket

/-- No claim of the run is left in the claim store. -/
def ClaimsGone : Prop := config.claimCapability = .ok .createOnlyClaims →
  ∀ key : RecordKey .claim, key.val.run = run.val →
    (w.claimBucket config).objects.lookup key.val.location = none

theorem fewerClaims_setClaimBucket {b : Bucket wire.Bytes}
    (h : FewerClaims run (w.claimBucket config).objects b.objects) :
    FewerClaims run w.bucket.objects (w.setClaimBucket config b).bucket.objects ∧
      FewerClaims run w.claims.objects (w.setClaimBucket config b).claims.objects := by
  unfold World.claimBucket at h
  unfold World.setClaimBucket
  split
  next hsome =>
    rw [if_pos hsome] at h
    exact ⟨.refl run _, h⟩
  next hnone =>
    rw [if_neg hnone] at h
    exact ⟨h, .refl run _⟩

theorem claimBucket_setClaimBucket (b : Bucket wire.Bytes) :
    (w.setClaimBucket config b).claimBucket config = b := by
  unfold World.setClaimBucket World.claimBucket
  split <;> rfl

theorem lookup_claimBucket {b : Bucket wire.Bytes} (hcopies : Copies w.bucket b) {path : Path}
    (hpath : OfRun run.val path) :
    (World.claimBucket config { w with bucket := b }).objects.lookup path =
      (w.claimBucket config).objects.lookup path := by
  unfold World.claimBucket
  split
  · rfl
  · exact hcopies.lookup path fun ns hns => not_isCopy hpath ⟨ns, hns⟩

theorem exec_deletePlannedClaims {keys : List ClaimKey} {b : Bucket wire.Bytes}
    (hlisted : ClaimsListed config run w) (hkeys : ClaimsPlanned config run w keys)
    (hcopies : Copies w.bucket b) : ∃ total w',
      World.exec (onClaims wire config (deleteEach (deleteClaim wire) keys 0)) { w with bucket := b } =
        (.ok total, w') ∧
      Outside run w.bucket.objects w'.bucket.objects ∧ Outside run w.claims.objects w'.claims.objects ∧
      w'.fates = w.fates ∧ ClaimsGone config run w' ∧
      (Deletes wire run w'.bucket ↔ Deletes wire run w.bucket) := by
  obtain ⟨total, c, hdelete, hfewer, herased⟩ :=
    exec_deleteClaims (World.claimBucket config { w with bucket := b }) hkeys.ofRun
  obtain ⟨hbucket, hclaims⟩ := fewerClaims_setClaimBucket config run { w with bucket := b } hfewer
  have hsame := hcopies.sameRecords.trans hbucket.sameRecords
  refine ⟨total, World.setClaimBucket config { w with bucket := b } c, ?_, hcopies.outside.trans hbucket.outside,
    hclaims.outside, ?_, ?_, ?_, ?_⟩
  · rw [exec_onClaims, hdelete]
  · unfold World.setClaimBucket
    split <;> rfl
  · intro hcreate key hrun
    rw [claimBucket_setClaimBucket]
    by_cases hkey : key.val ∈ keys
    · exact herased key.val hkey
    · -- a claim that the plan does not name was not there
      rcases hfewer key.val.location with hsame | ⟨-, hnone⟩
      · rw [hsame, lookup_claimBucket config run w hcopies (ofRun_item hrun), ← Option.not_isSome_iff_eq_none]
        exact fun hsome => hkey ((hkeys.all hcreate key.val).2 ⟨key, rfl, hrun, hsome⟩)
      · exact hnone
  · intro h
    apply hsame.symm.deletes _ h
    by_cases hsome : config.claimStore.isSome
    · have hfiled := h.plannable.claims
      rw [World.setClaimBucket, if_pos hsome] at hfiled
      exact hcopies.filed.1 hfiled
    by_cases hcreate : config.claimCapability = .ok .createOnlyClaims
    · have hfiled := hlisted.filed hcreate
      rwa [World.claimBucket, if_neg hsome] at hfiled
    · have hfiled := h.plannable.claims
      obtain rfl := hkeys.none hcreate
      obtain ⟨-, rfl⟩ := Prod.mk.inj hdelete
      rw [World.setClaimBucket, if_neg hsome, World.claimBucket, if_neg hsome] at hfiled
      exact hcopies.filed.1 hfiled
  · intro h
    exact hsame.deletes (hbucket.filed (hcopies.filed.2 h.plannable.claims)) h

theorem exec_deleteRun : ∃ r w',
    (∀ᶠ fuel in Filter.atTop, w.exec (deleteRun wire config fuel run.val) = (r, w')) ∧
    Outside run w.bucket.objects w'.bucket.objects ∧ Outside run w.claims.objects w'.claims.objects ∧
    ((∀ n, w.fates n = .commits) → ∀ n, w'.fates n = .commits) ∧
    ((Deletable config run w ∧ (∃ total, r = .ok total) ∧ RunGone run w'.bucket.objects ∧
        ClaimsGone config run w') ∨
      ¬ Deletable config run w ∧ ∃ err, r = .error err) := by
  obtain ⟨r, hplan, ⟨hlisted, keys, rfl, hkeys⟩ | ⟨hbad, err, rfl⟩⟩ := exec_claimDeletionPlan config run w
  swap
  · refine ⟨.error err, w, .of_forall ?_, fun _ _ _ => rfl, fun _ _ _ => rfl, id, .inr ⟨?_, err, rfl⟩⟩
    · intro fuel
      rw [deleteRun, World.exec, execute_bind_error _ hplan]
    · exact fun h => hbad h.claims
  obtain ⟨r, b₁, hcopies, hvalidate, ⟨hrecords, rfl⟩ | ⟨hbad, err, rfl⟩⟩ :=
    exec_validateInnerDeletionPlan config run w
  swap
  · refine ⟨.error err, { w with bucket := b₁ }, ?_, hcopies.outside, fun _ _ _ => rfl, id,
      .inr ⟨?_, err, rfl⟩⟩
    · filter_upwards [Filter.eventually_ge_atTop w.bucket.walkFuel] with fuel hfuel
      simp only [deleteRun, execute_bind, hplan, hvalidate fuel hfuel]
    · intro h
      exact hbad ⟨h.records.plannable.activities, h.records.plannable.timers, h.records.plannable.events,
        h.supported, fun _ _ => h.records.plannable.claims⟩
  obtain ⟨total, w₂, hdelete, hbucket, hclaims, hfates, hgone, hdeletes⟩ :=
    exec_deletePlannedClaims config run w hlisted hkeys hcopies
  obtain ⟨r, b₃, hinner, houtside, hcases⟩ := exec_deleteRun_deletes (le_refl w₂.bucket.walkFuel) run
  have hopening : ∀ fuel, w.bucket.walkFuel ≤ fuel → w₂.bucket.walkFuel ≤ fuel →
      w.exec (deleteRun wire config fuel run.val) = World.exec (do
        let records ← (liftM r : IndexM wire.Bytes Nat)
        quietly (.deleteRunRows run.val true)
        return total + records) { w₂ with bucket := b₃ } := by
    intro fuel hfuel hfuel₂
    simp only [deleteRun, execute_bind, hplan, hvalidate fuel hfuel, hdelete, exec_inner,
      exec_deleteRun_fuel run hfuel₂, hinner, execute_liftExcept]
  have hbuckets := hbucket.trans houtside
  have hgone₃ : RunGone run b₃.objects → ClaimsGone config run { w₂ with bucket := b₃ } := by
    intro hrun hcreate key hkey
    unfold World.claimBucket
    split
    next hsome =>
      have hclaim := hgone hcreate key hkey
      rwa [World.claimBucket, if_pos hsome] at hclaim
    · exact hrun.items key (by decide) hkey
  have hlarge : ∀ᶠ fuel in Filter.atTop, w.bucket.walkFuel ≤ fuel ∧ w₂.bucket.walkFuel ≤ fuel :=
    (Filter.eventually_ge_atTop _).and (Filter.eventually_ge_atTop _)
  rcases hcases with ⟨hok, ⟨records, rfl⟩, hrun⟩ | ⟨hbad, err, rfl⟩
  · have hafter := sameBuckets_transact { w₂ with bucket := b₃ } (.deleteRunRows run.val true)
    refine ⟨.ok (total + records), (World.transact { w₂ with bucket := b₃ } (.deleteRunRows run.val true)).2,
      ?_, ?_, ?_, ?_, .inl ⟨⟨hlisted, hrecords.claims.supported, hdeletes.1 hok⟩, ⟨_, rfl⟩, ?_, ?_⟩⟩
    · filter_upwards [hlarge] with fuel hfuel
      rw [hopening fuel hfuel.1 hfuel.2, liftOk_bind]
      exact execute_bind_ok _ (exec_quietly _ _)
    · rwa [hafter.bucket]
    · rwa [hafter.claims]
    · intro hcommits n
      rw [fates_transact, hfates]
      exact hcommits _
    · rwa [hafter.bucket]
    · intro hcreate key hkey
      rw [World.claimBucket, hafter.bucket, hafter.claims]
      exact hgone₃ hrun hcreate key hkey
  · refine ⟨.error err, { w₂ with bucket := b₃ }, ?_, hbuckets, hclaims, ?_,
      .inr ⟨fun h => hbad (hdeletes.2 h.records), err, rfl⟩⟩
    · filter_upwards [hlarge] with fuel hfuel
      rw [hopening fuel hfuel.1 hfuel.2]
      rfl
    · intro hcommits n
      exact (congrFun hfates n).trans (hcommits n)

end Delete

section Safety

variable {wire : RecordWire} {config : Config} {b : Bucket wire.Bytes} {now : DateTime} {maxAge : Int}

/-- The record of the run shows that it was completed before the cutoff. -/
structure Eligible (b : Bucket wire.Bytes) (now : DateTime) (maxAge : Int) (key : WorkflowKey) : Prop where
  record : ∃ record completedAt t, workflowReply b key = .ok (some record) ∧ record.status = .completed ∧
    record.completedAt = some completedAt ∧ timestampFromProto completedAt = .ok t ∧
    ∃ cutoff, now.sub maxAge = .ok cutoff ∧ t ≤ cutoff.instant

theorem expired_eq_true : expired now maxAge record = .ok true ↔
    ∃ completedAt t, record.status = .completed ∧ record.completedAt = some completedAt ∧
      timestampFromProto completedAt = .ok t ∧ ∃ cutoff, now.sub maxAge = .ok cutoff ∧ t ≤ cutoff.instant := by
  unfold expired
  by_cases hstatus : record.status = .completed
  · rcases hcompleted : record.completedAt with _ | completedAt
    · simp [hstatus, pure, Except.pure]
    · rcases htime : timestampFromProto completedAt with err | t
      · simp [hstatus, htime, throw, throwThe, MonadExceptOf.throw]
      · rcases hcutoff : now.sub maxAge with err | cutoff <;>
          simp [hstatus, htime, bind, Except.bind, pure, Except.pure]
  · simp [hstatus, pure, Except.pure]

theorem eligible_iff {key : WorkflowKey} (hreply : workflowReply b key = .ok (some record)) :
    Eligible b now maxAge key ↔ expired now maxAge record = .ok true := by
  rw [expired_eq_true]
  constructor
  · intro h
    obtain ⟨record', completedAt, t, hreply', hrest⟩ := h.record
    obtain rfl : record' = record := Option.some.inj (Except.ok.inj (hreply'.symm.trans hreply))
    exact ⟨completedAt, t, hrest⟩
  · intro h
    obtain ⟨completedAt, t, hrest⟩ := h
    exact ⟨record, completedAt, t, hreply, hrest⟩

/-- Objects other than copies have changed only where they belong to one of the runs. -/
def ChangedOnly (runs : WorkflowKey → Prop) (objects objects' : OpenDALStore.Objects wire.toWire) : Prop :=
  ∀ path, ¬ IsCopy path → (∀ run : RunKey, runs run.val → ¬ OfRun run.val path) →
    objects'.lookup path = objects.lookup path

variable {runs : WorkflowKey → Prop} {objects objects' objects'' : OpenDALStore.Objects wire.toWire}

theorem ChangedOnly.refl (runs : WorkflowKey → Prop) (objects : OpenDALStore.Objects wire.toWire) :
    ChangedOnly runs objects objects := fun _ _ _ => rfl

theorem ChangedOnly.outside {run : RunKey} (h : ChangedOnly runs objects objects') (hrun : runs run.val)
    (h' : Outside run objects' objects'') : ChangedOnly runs objects objects'' :=
  fun path hcopy hpath => (h' path (hpath run hrun) hcopy).trans (h path hcopy hpath)

theorem Eligible.of_changed {b' : Bucket wire.Bytes} {run : RunKey}
    (h : ChangedOnly (fun key => Eligible b now maxAge key ∧ runs key) b.objects b'.objects)
    (hrun : Eligible b' now maxAge run.val) : Eligible b now maxAge run.val := by
  by_cases hchanged : ∃ other : RunKey, Eligible b now maxAge other.val ∧ OfRun other.val run.val.location
  · obtain ⟨other, hother, hlocation⟩ := hchanged
    rwa [← OfRun.unique (ofRun_workflow run) hlocation]
  · have hsame : workflowReply b' run.val = workflowReply b run.val := by
      apply workflowReply_of_lookup run
      apply h _ (not_isCopy (ofRun_workflow run))
      intro other hother hlocation
      exact hchanged ⟨other, hother.1, hlocation⟩
    obtain ⟨record, completedAt, t, hreply, hrest⟩ := hrun.record
    exact ⟨record, completedAt, t, hsame ▸ hreply, hrest⟩

end Safety

section Row

variable {wire : RecordWire} {config : Config} {w : World wire.Bytes} {now : DateTime} {maxAge : Int}

theorem transact_upsert {k : IndexKind} {record : k.Record} {row : k.Row} (hfate : w.fates 0 = .commits)
    (hrow : k.project record = .ok row) : (w.transact (.upsert k record)).1 = .ok () := by
  simp only [World.transact, hfate, Index.commit, hrow, Except.map, Index.orRollBack]

theorem World.SameBuckets.claimBucket {w' : World wire.Bytes} (h : w.SameBuckets w') :
    w'.claimBucket config = w.claimBucket config := by
  rw [World.claimBucket, World.claimBucket, h.bucket, h.claims]

theorem World.SameBuckets.deletable {w' : World wire.Bytes} (h : w.SameBuckets w') {run : RunKey}
    (hrun : Deletable config run w) : Deletable config run w' where
  claims := ⟨hrun.claims.supported, by rw [h.claimBucket]; exact hrun.claims.filed⟩
  supported := hrun.supported
  records := by
    rw [h.bucket]
    exact hrun.records

theorem World.SameBuckets.outside {w' : World wire.Bytes} (h : w.SameBuckets w') (run : RunKey) :
    Outside run w.bucket.objects w'.bucket.objects ∧ Outside run w.claims.objects w'.claims.objects := by
  rw [h.bucket, h.claims]
  exact ⟨fun _ _ _ => rfl, fun _ _ _ => rfl⟩

variable (config now maxAge) in
/-- What becomes of a run whose record is there: it is deleted only if it is eligible, and it is
deleted if that is possible. -/
theorem exec_sweepRecord (run : RunKey) (deleted : Nat)
    (hreply : workflowReply w.bucket run.val = .ok (some record)) : ∃ r w',
      (∀ᶠ fuel in Filter.atTop,
        w.exec (sweepRecord wire config fuel now maxAge deleted run.val record) = (r, w')) ∧
      (w.SameBuckets w' ∨ Eligible w.bucket now maxAge run.val ∧
        Outside run w.bucket.objects w'.bucket.objects ∧ Outside run w.claims.objects w'.claims.objects) ∧
      ((∀ n, w.fates n = .commits) → Eligible w.bucket now maxAge run.val →
        (∃ row, IndexKind.workflow.project record = .ok row) → Deletable config run w →
          r = .ok (deleted + 1) ∧ RunGone run w'.bucket.objects ∧ ClaimsGone config run w' ∧
            ∀ n, w'.fates n = .commits) := by
  have hsame := sameBuckets_transact w (.upsert .workflow record)
  have hfates := fates_transact w (.upsert .workflow record)
  rcases hupsert : w.transact (.upsert .workflow record) with ⟨err | _, w₁⟩
  · rw [hupsert] at hsame
    refine ⟨.error err, w₁, .of_forall ?_, .inl hsame, ?_⟩
    · intro fuel
      have hdb : w.exec (runDB (.upsert .workflow record)) = (.error err, w₁) := hupsert
      rw [sweepRecord, World.exec, execute_bind_error _ hdb]
    · intro hcommits _ hrow _
      obtain ⟨row, hrow⟩ := hrow
      have hok := transact_upsert (hcommits 0) hrow
      rw [hupsert] at hok
      cases hok
  rw [hupsert] at hsame hfates
  have hdb : w.exec (runDB (.upsert .workflow record)) = (.ok (), w₁) := hupsert
  have heligible : Eligible w.bucket now maxAge run.val ↔ expired now maxAge record = .ok true :=
    eligible_iff hreply
  simp only [sweepRecord, execute_bind, hdb, execute_liftExcept]
  rcases hexpired : expired now maxAge record with err | _ | _
  · refine ⟨.error err, w₁, .of_forall fun _ => rfl, .inl hsame, ?_⟩
    intro _ h
    rw [heligible, hexpired] at h
    cases h
  · refine ⟨.ok deleted, w₁, .of_forall fun _ => rfl, .inl hsame, ?_⟩
    intro _ h
    rw [heligible, hexpired] at h
    cases h
  · obtain ⟨r, w₂, hdelete, hbucket, hclaims, hlater, hcases⟩ := exec_deleteRun config run w₁
    rw [hsame.bucket] at hbucket
    rw [hsame.claims] at hclaims
    rcases hcases with ⟨-, ⟨total, rfl⟩, hrun, hgone⟩ | ⟨hbad, err, rfl⟩
    · refine ⟨.ok (deleted + 1), w₂, ?_, .inr ⟨heligible.2 hexpired, hbucket, hclaims⟩, ?_⟩
      · filter_upwards [hdelete] with fuel hexec
        exact execute_bind_ok _ hexec
      · intro hcommits _ _ _
        exact ⟨rfl, hrun, hgone, hlater fun n => (hfates n).trans (hcommits (n + 1))⟩
    · refine ⟨.error err, w₂, ?_, .inr ⟨heligible.2 hexpired, hbucket, hclaims⟩, ?_⟩
      · filter_upwards [hdelete] with fuel hexec
        exact execute_bind_error _ hexec
      · intro _ _ _ h
        exact absurd (hsame.deletable h) hbad

variable (config now maxAge) in
theorem exec_sweepRow (w : World wire.Bytes) (deleted : Nat) (row : WorkflowKey × RecordRow) : ∃ r w',
    (∀ᶠ fuel in Filter.atTop, w.exec (sweepRow wire config fuel now maxAge deleted row) = (r, w')) ∧
    (w.SameBuckets w' ∨ ∃ run : RunKey, run.val = row.1 ∧ Eligible w.bucket now maxAge run.val ∧
      Outside run w.bucket.objects w'.bucket.objects ∧ Outside run w.claims.objects w'.claims.objects) := by
  have hread : w.exec (inner (getWorkflow wire.toWire row.1)) = (workflowReply w.bucket row.1, w) := by
    rw [exec_inner, exec_getWorkflow_reply]
  simp only [sweepRow, execute_bind, hread]
  rcases hreply : workflowReply w.bucket row.1 with err | _ | record
  · exact ⟨.error err, w, .of_forall fun _ => rfl, .inl ⟨rfl, rfl⟩⟩
  · have hsame := sameBuckets_transact w (.deleteRow .workflow row.1 false)
    rcases hdelete : w.transact (.deleteRow .workflow row.1 false) with ⟨err | _, w₁⟩
    · rw [hdelete] at hsame
      have hdb : w.exec (runDB (.deleteRow .workflow row.1 false)) = (.error err, w₁) := hdelete
      exact ⟨.error err, w₁, .of_forall fun _ => execute_bind_error _ hdb, .inl hsame⟩
    · rw [hdelete] at hsame
      have hdb : w.exec (runDB (.deleteRow .workflow row.1 false)) = (.ok (), w₁) := hdelete
      exact ⟨.ok deleted, w₁, .of_forall fun _ => execute_bind_ok _ hdb, .inl hsame⟩
  · obtain ⟨r, w', hexec, hcases, -⟩ := exec_sweepRecord config now maxAge
      ⟨row.1, stored_of_workflowReply hreply⟩ deleted hreply
    refine ⟨r, w', hexec, ?_⟩
    rcases hcases with hsame | ⟨heligible, hbucket, hclaims⟩
    · exact .inl hsame
    · exact .inr ⟨_, rfl, heligible, hbucket, hclaims⟩

end Row

section Rows

variable {wire : RecordWire} (config : Config) (now : DateTime) (maxAge : Int)

theorem exec_sweepRows_changed {runs : WorkflowKey → Prop} (start : World wire.Bytes)
    (rows : List (WorkflowKey × RecordRow)) (hrows : ∀ row ∈ rows, runs row.1) (w : World wire.Bytes)
    (hbucket : ChangedOnly (fun key => Eligible start.bucket now maxAge key ∧ runs key)
      start.bucket.objects w.bucket.objects)
    (hclaims : ChangedOnly (fun key => Eligible start.bucket now maxAge key ∧ runs key)
      start.claims.objects w.claims.objects) (deleted : Nat) : ∃ r w',
      (∀ᶠ fuel in Filter.atTop,
        w.exec (forRows (sweepRow wire config fuel now maxAge) rows deleted) = (r, w')) ∧
      ChangedOnly (fun key => Eligible start.bucket now maxAge key ∧ runs key)
        start.bucket.objects w'.bucket.objects ∧
      ChangedOnly (fun key => Eligible start.bucket now maxAge key ∧ runs key)
        start.claims.objects w'.claims.objects := by
  induction rows generalizing w deleted with
  | nil => exact ⟨.ok deleted, w, .of_forall fun _ => rfl, hbucket, hclaims⟩
  | cons row rows ih =>
    obtain ⟨r, w₁, hexec, hcases⟩ := exec_sweepRow config now maxAge w deleted row
    obtain ⟨hbucket₁, hclaims₁⟩ : ChangedOnly (fun key => Eligible start.bucket now maxAge key ∧ runs key)
          start.bucket.objects w₁.bucket.objects ∧
        ChangedOnly (fun key => Eligible start.bucket now maxAge key ∧ runs key)
          start.claims.objects w₁.claims.objects := by
      rcases hcases with hsame | ⟨run, hrun, heligible, houtside, houtside'⟩
      · rw [hsame.bucket, hsame.claims]
        exact ⟨hbucket, hclaims⟩
      · have hold := Eligible.of_changed hbucket heligible
        have hin : runs run.val := hrun ▸ hrows row (by simp)
        exact ⟨hbucket.outside ⟨hold, hin⟩ houtside, hclaims.outside ⟨hold, hin⟩ houtside'⟩
    rcases r with err | deleted₁
    · refine ⟨.error err, w₁, ?_, hbucket₁, hclaims₁⟩
      filter_upwards [hexec] with fuel hexec
      exact execute_bind_error _ hexec
    · obtain ⟨r, w₂, hrest, hbucket₂, hclaims₂⟩ := ih (fun row hrow => hrows row (by simp [hrow])) w₁
        hbucket₁ hclaims₁ deleted₁
      refine ⟨r, w₂, ?_, hbucket₂, hclaims₂⟩
      filter_upwards [hexec, hrest] with fuel hexec hrest
      exact (execute_bind_ok _ hexec).trans hrest

/-- The objects of the run are the same in both worlds. -/
structure SameRun (run : RunKey) (w w' : World wire.Bytes) : Prop where
  bucket : SameObjects run w.bucket.objects w'.bucket.objects
  claims : SameObjects run w.claims.objects w'.claims.objects

variable {config now maxAge} {run : RunKey} {w w' w'' : World wire.Bytes}

section

variable (h : SameRun run w w')

include h

theorem SameRun.trans (h' : SameRun run w' w'') : SameRun run w w'' :=
  ⟨h.bucket.trans h'.bucket, h.claims.trans h'.claims⟩

theorem SameRun.claimBucket :
    SameObjects run (w.claimBucket config).objects (w'.claimBucket config).objects := by
  unfold World.claimBucket
  split
  · exact h.claims
  · exact h.bucket

theorem SameRun.deletable (hrun : Deletable config run w) :
    Deletable config run w' where
  claims := ⟨hrun.claims.supported, fun hcreate => h.claimBucket.filed (hrun.claims.filed hcreate)⟩
  supported := hrun.supported
  records := h.bucket.deletes hrun.records

theorem SameRun.gone (hrun : RunGone run w.bucket.objects)
    (hclaims : ClaimsGone config run w) : RunGone run w'.bucket.objects ∧ ClaimsGone config run w' := by
  refine ⟨h.bucket.runGone hrun, ?_⟩
  intro hcreate key hkey
  rw [h.claimBucket _ (ofRun_item hkey)]
  exact hclaims hcreate key hkey

theorem SameRun.workflowReply :
    workflowReply w'.bucket run.val = workflowReply w.bucket run.val :=
  workflowReply_of_lookup run (h.bucket _ (ofRun_workflow run))

end

def Sweepable (config : Config) (now : DateTime) (maxAge : Int) (w : World wire.Bytes) (run : RunKey) : Prop :=
  Deletable config run w ∧ ∃ record row, workflowReply w.bucket run.val = .ok (some record) ∧
    IndexKind.workflow.project record = .ok row ∧ expired now maxAge record = .ok true

theorem SameRun.sweepable (h : SameRun run w w') (hrun : Sweepable config now maxAge w run) :
    Sweepable config now maxAge w' run := by
  obtain ⟨hdeletable, record, row, hreply, hrest⟩ := hrun
  exact ⟨h.deletable hdeletable, record, row, h.workflowReply.trans hreply, hrest⟩

theorem exec_sweepRows (rows : List (RunKey × RecordRow)) (hnodup : (rows.map Prod.fst).Nodup)
    (hcommits : ∀ n, w.fates n = .commits) (hrows : ∀ row ∈ rows, Sweepable config now maxAge w row.1)
    (deleted : Nat) : ∃ w',
      (∀ᶠ fuel in Filter.atTop, w.exec (forRows (sweepRow wire config fuel now maxAge)
        (rows.map fun row => (row.1.val, row.2)) deleted) = (.ok (deleted + rows.length), w')) ∧
      (∀ row ∈ rows, RunGone row.1 w'.bucket.objects ∧ ClaimsGone config row.1 w') ∧
      ∀ run, run ∉ rows.map Prod.fst → SameRun run w w' := by
  induction rows generalizing w deleted with
  | nil => exact ⟨w, .of_forall fun _ => rfl, by simp, fun _ _ => ⟨fun _ _ => rfl, fun _ _ => rfl⟩⟩
  | cons row rows ih =>
    obtain ⟨run, columns⟩ := row
    obtain ⟨hfresh, hnodup⟩ := List.nodup_cons.1 hnodup
    obtain ⟨hdeletable, record, projected, hreply, hproject, hexpired⟩ := hrows (run, columns) (by simp)
    obtain ⟨r, w₁, hexec, hcases, hdone⟩ := exec_sweepRecord config now maxAge run deleted hreply
    obtain ⟨rfl, hgone, hclaims, hcommits₁⟩ :=
      hdone hcommits ((eligible_iff hreply).2 hexpired) ⟨projected, hproject⟩ hdeletable
    have houtside : Outside run w.bucket.objects w₁.bucket.objects ∧
        Outside run w.claims.objects w₁.claims.objects := by
      rcases hcases with hsame | ⟨-, hbucket, hclaims⟩
      · exact hsame.outside run
      · exact ⟨hbucket, hclaims⟩
    have hothers : ∀ other : RunKey, other ≠ run → SameRun other w w₁ :=
      fun other hne => ⟨houtside.1.sameObjects hne, houtside.2.sameObjects hne⟩
    obtain ⟨w₂, hrest, hall, hsame⟩ := ih hnodup hcommits₁ (by
      intro row hrow
      apply (hothers row.1 _).sweepable (hrows row (by simp [hrow]))
      rintro rfl
      exact hfresh (List.mem_map.2 ⟨row, hrow, rfl⟩)) (deleted + 1)
    refine ⟨w₂, ?_, ?_, ?_⟩
    · filter_upwards [hexec, hrest] with fuel hexec hrest
      have hread : w.exec (inner (getWorkflow wire.toWire run.val)) = (.ok (some record), w) := by
        rw [exec_inner, exec_getWorkflow_reply, hreply]
      have hrow : w.exec (sweepRow wire config fuel now maxAge deleted (run.val, columns)) =
          (.ok (deleted + 1), w₁) := (execute_bind_ok _ hread).trans hexec
      rw [show deleted + ((run, columns) :: rows).length = deleted + 1 + rows.length by simp; omega]
      exact (execute_bind_ok _ hrow).trans hrest
    · intro row hrow
      rcases List.mem_cons.1 hrow with rfl | hrow
      · exact (hsame run hfresh).gone hgone hclaims
      · exact hall row hrow
    · intro other hother
      rw [List.map_cons, List.mem_cons, not_or] at hother
      exact (hothers other hother.1).trans (hsame other hother.2)

end Rows

section Selection

variable {ix : Index} {ns cutoff : String} {now : DateTime} {maxAge : Int}

/-- The namespace filter: an empty one lets every run pass. -/
def InFilter (ns : String) (key : WorkflowKey) : Prop := ns = "" ∨ key.ns = ns

theorem mem_selectSweep {key : WorkflowKey} {row : RecordRow} : (key, row) ∈ ix.selectSweep ns cutoff ↔
    ix.live.lookup .workflow key = some row ∧ InFilter ns key ∧
      row.status = workflowStatusNumber .completed ∧ row.completedAt ≠ "" ∧ row.completedAt ≤ cutoff := by
  have hentry : (key, row) ∈ (ix.live.rows .workflow).entries.map (fun row => (row.1, row.2)) ↔
      ix.live.lookup .workflow key = some row := by
    rw [Tables.lookup, ← Table.mem_entries, List.mem_map]
    constructor
    · intro h
      obtain ⟨⟨key', row'⟩, hmem, heq⟩ := h
      obtain ⟨rfl, rfl⟩ := Prod.mk.inj heq
      exact hmem
    · intro h
      exact ⟨⟨key, row⟩, h, rfl⟩
  rw [Index.selectSweep, List.mem_filter, hentry]
  simp only [Bool.and_eq_true, Bool.or_eq_true, beq_iff_eq, bne_iff_ne, decide_eq_true_eq, InFilter,
    and_assoc]

theorem nodup_selectSweep : ((ix.selectSweep ns cutoff).map Prod.fst).Nodup := by
  have hkeys : ((ix.live.rows .workflow).entries.map fun row => (row.1, row.2)).map Prod.fst =
      (ix.live.rows .workflow).keys := by
    rw [List.map_map]
    rfl
  apply List.Nodup.sublist (List.filter_sublist.map Prod.fst)
  rw [hkeys]
  exact (ix.live.rows .workflow).keys_nodup

theorem selected_iff_expired {row : RecordRow}
    (hrow : IndexKind.workflow.project record = .ok row)
    (hcutoff : sweepCutoff now maxAge = .ok cutoff) :
    (row.status = workflowStatusNumber .completed ∧ row.completedAt ≠ "" ∧ row.completedAt ≤ cutoff) ↔
      expired now maxAge record = .ok true := by
  obtain ⟨limit, hlimit, htext⟩ := bind_eq_ok.1 hcutoff
  obtain ⟨created, -, hrow⟩ := bind_eq_ok.1 hrow
  obtain ⟨completed, hcompleted, hrow⟩ := bind_eq_ok.1 hrow
  obtain rfl : RecordRow.mk (workflowStatusNumber record.status) created completed = row :=
    Except.ok.inj hrow
  have hstatus : workflowStatusNumber record.status = workflowStatusNumber .completed ↔
      record.status = .completed := by
    cases record.status <;> decide
  rw [hstatus, expired_eq_true]
  rcases hfield : record.completedAt with _ | t
  · rw [hfield] at hcompleted
    obtain rfl : "" = completed := Except.ok.inj hcompleted
    simp
  · rw [hfield] at hcompleted
    obtain ⟨micros, hmicros, hdt⟩ := bind_eq_ok.1 hcompleted
    have horder : completed ≤ cutoff ↔ micros ≤ limit.instant := dt_le_iff hdt htext
    simp [hmicros, hlimit, horder, dt_ne_empty hdt]

end Selection

section Sweep

variable {wire : RecordWire} {config : Config} {w : World wire.Bytes} {now : DateTime} {maxAge : Int}
variable {ns cutoff : String}

theorem transact_selectSweep {rows : List (WorkflowKey × RecordRow)} {w' : World wire.Bytes}
    (h : w.transact (.selectSweep ns cutoff) = (.ok rows, w')) :
    rows = w.index.selectSweep ns cutoff := by
  unfold World.transact at h
  split at h
  · exact (Except.ok.inj (Prod.mk.inj h).1).symm
  · cases h
  · cases h

theorem transact_selectSweep_commits (ns cutoff : String) (h : w.fates 0 = .commits) :
    (w.transact (.selectSweep ns cutoff)).1 = .ok (w.index.selectSweep ns cutoff) := by
  simp only [World.transact, h, Index.commit]

theorem exec_sweep_changed (w : World wire.Bytes) (config : Config) (ns : String) (now : DateTime)
    (maxAge : Int) : ∃ r w',
      (∀ᶠ fuel in Filter.atTop, w.exec (sweep wire config fuel ns now maxAge) = (r, w')) ∧
      ChangedOnly (fun key => Eligible w.bucket now maxAge key ∧ InFilter ns key)
        w.bucket.objects w'.bucket.objects ∧
      ChangedOnly (fun key => Eligible w.bucket now maxAge key ∧ InFilter ns key)
        w.claims.objects w'.claims.objects := by
  unfold sweep
  split
  · exact ⟨_, w, .of_forall fun _ => rfl, .refl _ _, .refl _ _⟩
  rcases hcutoff : sweepCutoff now maxAge with err | cutoff
  · exact ⟨.error err, w, .of_forall fun _ => rfl, .refl _ _, .refl _ _⟩
  simp only [liftOk_bind]
  have hsame := sameBuckets_transact w (.selectSweep ns cutoff)
  rcases hselect : w.transact (.selectSweep ns cutoff) with ⟨err | rows, w₁⟩
  · rw [hselect] at hsame
    have hdb : w.exec (runDB (.selectSweep ns cutoff)) = (.error err, w₁) := hselect
    refine ⟨.error err, w₁, .of_forall fun _ => execute_bind_error _ hdb, ?_, ?_⟩
    · rw [hsame.bucket]
      exact .refl _ _
    · rw [hsame.claims]
      exact .refl _ _
  · rw [hselect] at hsame
    have hdb : w.exec (runDB (.selectSweep ns cutoff)) = (.ok rows, w₁) := hselect
    have hrows : ∀ row ∈ rows, InFilter ns row.1 := by
      intro row hrow
      rw [transact_selectSweep hselect] at hrow
      exact (mem_selectSweep.1 hrow).2.1
    obtain ⟨r, w', hexec, hbucket, hclaims⟩ := exec_sweepRows_changed config now maxAge w rows hrows w₁
      (by rw [hsame.bucket]; exact .refl _ _) (by rw [hsame.claims]; exact .refl _ _) 0
    refine ⟨r, w', ?_, hbucket, hclaims⟩
    filter_upwards [hexec] with fuel hexec
    exact (execute_bind_ok _ hdb).trans hexec

/-- The workflow rows are the images of the records, and every record has its row. -/
structure Faithful (ix : Index) (b : Bucket wire.Bytes) : Prop where
  image : ∀ key row, ix.live.lookup .workflow key = some row → ∃ record,
    workflowReply b key = .ok (some record) ∧ IndexKind.workflow.project record = .ok row
  complete : ∀ key record, workflowReply b key = .ok (some record) →
    ∃ row, ix.live.lookup .workflow key = some row

theorem Faithful.mem_selectSweep_iff (h : Faithful w.index w.bucket)
    (hcutoff : sweepCutoff now maxAge = .ok cutoff)
    (key : WorkflowKey) : (∃ row, (key, row) ∈ w.index.selectSweep ns cutoff) ↔
      Eligible w.bucket now maxAge key ∧ InFilter ns key := by
  constructor
  · intro hrow
    obtain ⟨row, hrow⟩ := hrow
    obtain ⟨hlookup, hfilter, hselected⟩ := mem_selectSweep.1 hrow
    obtain ⟨record, hreply, hproject⟩ := h.image key row hlookup
    exact ⟨(eligible_iff hreply).2 ((selected_iff_expired hproject hcutoff).1 hselected), hfilter⟩
  · intro hkey
    obtain ⟨record, -, -, hreply, -⟩ := hkey.1.record
    obtain ⟨row, hlookup⟩ := h.complete key record hreply
    obtain ⟨record', hreply', hproject⟩ := h.image key row hlookup
    have hselected := (selected_iff_expired hproject hcutoff).2 ((eligible_iff hreply').1 hkey.1)
    exact ⟨row, mem_selectSweep.2 ⟨hlookup, hkey.2, hselected⟩⟩

/-- The deletion of the run through the index succeeds. -/
def DeleteSucceeds (config : Config) (w : World wire.Bytes) (run : RunKey) : Prop :=
  ∃ total w', ∀ᶠ fuel in Filter.atTop, w.exec (deleteRun wire config fuel run.val) = (.ok total, w')

theorem DeleteSucceeds.deletable {run : RunKey} (h : DeleteSucceeds config w run) :
    Deletable config run w := by
  obtain ⟨total, w', hok⟩ := h
  obtain ⟨r, w'', hexec, -, -, -, ⟨hdeletable, -⟩ | ⟨-, err, rfl⟩⟩ := exec_deleteRun config run w
  · exact hdeletable
  · obtain ⟨fuel, hok, herror⟩ := (hok.and hexec).exists
    rw [hok] at herror
    cases herror

/-- Where the index is a true image and no call fails, all eligible runs of the filter are deleted
and counted. -/
theorem exec_sweep_exact (hage : 0 < maxAge) (hcommits : ∀ n, w.fates n = .commits)
    (hfaithful : Faithful w.index w.bucket) (hcutoff : sweepCutoff now maxAge = .ok cutoff)
    (hcalls : ∀ run : RunKey, Eligible w.bucket now maxAge run.val → InFilter ns run.val →
      DeleteSucceeds config w run) : ∃ (runs : List RunKey) (w' : World wire.Bytes),
      (∀ᶠ fuel in Filter.atTop, w.exec (sweep wire config fuel ns now maxAge) = (.ok runs.length, w')) ∧
      runs.Nodup ∧ (∀ run, run ∈ runs ↔ Eligible w.bucket now maxAge run.val ∧ InFilter ns run.val) ∧
      ∀ run ∈ runs, RunGone run w'.bucket.objects ∧ ClaimsGone config run w' := by
  have hstored : ∀ row ∈ w.index.selectSweep ns cutoff, row.1.Valid ∧ row.1.ns ≠ "" := by
    intro row hrow
    obtain ⟨record, hreply, -⟩ := hfaithful.image _ _ (mem_selectSweep.1 hrow).1
    exact stored_of_workflowReply hreply
  obtain ⟨rows, hrows⟩ : ∃ rows : List (RunKey × RecordRow),
      rows.map (fun row => (row.1.val, row.2)) = w.index.selectSweep ns cutoff := by
    refine ⟨(w.index.selectSweep ns cutoff).pmap (fun row h => (⟨row.1, h⟩, row.2)) hstored, ?_⟩
    rw [List.map_pmap]
    exact List.pmap_eq_self.2 fun _ _ => rfl
  have hmem : ∀ run : RunKey, run ∈ rows.map Prod.fst ↔
      Eligible w.bucket now maxAge run.val ∧ InFilter ns run.val := by
    intro run
    rw [← hfaithful.mem_selectSweep_iff hcutoff, ← hrows]
    simp only [List.mem_map, Prod.mk.injEq, Subtype.val_inj]
    constructor
    · intro h
      obtain ⟨row, hrow, heq⟩ := h
      exact ⟨row.2, row, hrow, heq, rfl⟩
    · intro h
      obtain ⟨columns, row, hrow, heq, -⟩ := h
      exact ⟨row, hrow, heq⟩
  have hnodup : (rows.map Prod.fst).Nodup := by
    have hkeys : ((w.index.selectSweep ns cutoff).map Prod.fst).Nodup := nodup_selectSweep
    rw [← hrows, List.map_map] at hkeys
    apply List.Nodup.of_map Subtype.val
    rwa [List.map_map]
  have hselect := transact_selectSweep_commits ns cutoff (hcommits 0)
  have hsame := sameBuckets_transact w (.selectSweep ns cutoff)
  have hcommits₁ : ∀ n, (w.transact (.selectSweep ns cutoff)).2.fates n = .commits := by
    intro n
    rw [fates_transact]
    exact hcommits (n + 1)
  have hsweepable : ∀ row ∈ rows, Sweepable config now maxAge (w.transact (.selectSweep ns cutoff)).2 row.1 := by
    intro row hrow
    obtain ⟨heligible, hfilter⟩ := (hmem row.1).1 (List.mem_map.2 ⟨row, hrow, rfl⟩)
    obtain ⟨record, hreply, hproject⟩ := hfaithful.image row.1.val row.2
      (mem_selectSweep.1 (hrows ▸ List.mem_map.2 ⟨row, hrow, rfl⟩)).1
    refine ⟨hsame.deletable (hcalls row.1 heligible hfilter).deletable, record, row.2, ?_, hproject,
      (eligible_iff hreply).1 heligible⟩
    rw [hsame.bucket]
    exact hreply
  obtain ⟨w', hexec, hgone, -⟩ := exec_sweepRows rows hnodup hcommits₁ hsweepable 0
  refine ⟨rows.map Prod.fst, w', ?_, hnodup, hmem, ?_⟩
  · filter_upwards [hexec] with fuel hexec
    rw [sweep, if_neg (not_le.2 hage), hcutoff, liftOk_bind]
    rw [hrows, Nat.zero_add] at hexec
    rw [List.length_map]
    have hdb : w.exec (runDB (.selectSweep ns cutoff)) =
        (.ok (w.index.selectSweep ns cutoff), (w.transact (.selectSweep ns cutoff)).2) :=
      Prod.ext hselect rfl
    exact (execute_bind_ok _ hdb).trans hexec
  · intro run hrun
    obtain ⟨row, hrow, rfl⟩ := List.mem_map.1 hrun
    exact hgone row hrow

/-- Whatever the index holds, a sweep changes the objects of eligible runs only, apart from copies of
rejected ledger entries. Where the index is a true image of the bucket and no call fails, it deletes
exactly the eligible runs of the filter and returns their number. A cutoff that is not an instant of
the calendar stops it before it reads anything. -/
theorem sweep_trusts_bucket (w : World wire.Bytes) (config : Config) (ns : String) (now : DateTime)
    (maxAge : Int) : ∃ r w',
      (∀ᶠ fuel in Filter.atTop, w.exec (sweep wire config fuel ns now maxAge) = (r, w')) ∧
      ChangedOnly (fun key => Eligible w.bucket now maxAge key ∧ InFilter ns key)
        w.bucket.objects w'.bucket.objects ∧
      ChangedOnly (fun key => Eligible w.bucket now maxAge key ∧ InFilter ns key)
        w.claims.objects w'.claims.objects ∧
      (0 < maxAge →
        (∀ cutoff, sweepCutoff now maxAge = .ok cutoff → (∀ n, w.fates n = .commits) →
          Faithful w.index w.bucket →
          (∀ run : RunKey, Eligible w.bucket now maxAge run.val → InFilter ns run.val →
            DeleteSucceeds config w run) →
          ∃ runs : List RunKey, runs.Nodup ∧
            (∀ run, run ∈ runs ↔ Eligible w.bucket now maxAge run.val ∧ InFilter ns run.val) ∧
            r = .ok runs.length ∧ ∀ run ∈ runs, RunGone run w'.bucket.objects ∧ ClaimsGone config run w') ∧
        ∀ err, sweepCutoff now maxAge = .error err → r = .error err ∧ w' = w) := by
  obtain ⟨r, w', hexec, hbucket, hclaims⟩ := exec_sweep_changed w config ns now maxAge
  refine ⟨r, w', hexec, hbucket, hclaims, fun hage => ⟨?_, ?_⟩⟩
  · intro cutoff hcutoff hcommits hfaithful hcalls
    obtain ⟨runs, w'', hexact, hnodup, hmem, hgone⟩ :=
      exec_sweep_exact hage hcommits hfaithful hcutoff hcalls
    -- both describe the run with enough fuel
    obtain ⟨fuel, hfuel, hfuel'⟩ := (hexec.and hexact).exists
    obtain ⟨rfl, rfl⟩ := Prod.mk.inj (hfuel.symm.trans hfuel')
    exact ⟨runs, hnodup, hmem, rfl, hgone⟩
  · intro err herror
    obtain ⟨fuel, hfuel⟩ := hexec.exists
    rw [sweep, if_neg (not_le.2 hage), herror, liftError_bind] at hfuel
    obtain ⟨rfl, rfl⟩ := Prod.mk.inj hfuel
    exact ⟨rfl, rfl⟩

end Sweep

section Tower

def utc : Zone := ⟨fun _ _ => 0, by simp⟩

def secondDay : DateTime := ⟨172800000000, false, utc, by decide⟩

def towerRun : RunKey := ⟨⟨"default", "tower", "run"⟩, by decide, by decide⟩

def youngRun : RunKey := ⟨⟨"default", "tower", "young"⟩, by decide, by decide⟩

def archivedRun : RunKey := ⟨⟨"archive", "tower", "run"⟩, by decide, by decide⟩

/-- The second at which a run of the tower was completed: only the young run is not yet a day old. -/
def towerTime (run : RunKey) : Int := if run = youngRun then 100000 else 1

def towerRecord (run : RunKey) : WorkflowRecord where
  schemaVersion := .workflow
  key := some run.val
  workflowType := "tower"
  input := none
  status := .completed
  result := none
  failure := none
  createdAt := some ⟨0, 0⟩
  completedAt := some ⟨towerTime run, 0⟩
  annotations := []
  runOrderTime := none

def towerRow (run : RunKey) : RecordRow :=
  ⟨1, "1970-01-01T00:00:00+00:00",
    if run = youngRun then "1970-01-02T03:46:40+00:00" else "1970-01-01T00:00:01+00:00"⟩

def towerBucket : Bucket taggedRecordWire.Bytes where
  objects :=
    let objects : OpenDALStore.Objects taggedRecordWire.toWire := ∅
    ((objects.insert towerRun.val.location (.inl (.workflow (towerRecord towerRun)))).insert
      youngRun.val.location (.inl (.workflow (towerRecord youngRun)))).insert
        archivedRun.val.location (.inl (.workflow (towerRecord archivedRun)))
  directories := []
  time := 0

def towerWorld : World taggedRecordWire.Bytes where
  bucket := towerBucket
  claims := ⟨∅, [], 0⟩
  index := ⟨((Tables.empty.upsert .workflow towerRun.val (towerRow towerRun)).upsert .workflow
    youngRun.val (towerRow youngRun)).upsert .workflow archivedRun.val (towerRow archivedRun), none, false⟩
  fates := fun _ => .commits

def towerConfig : Config := ⟨.noClaims, none⟩

def IsTower (run : RunKey) : Prop := run = towerRun ∨ run = youngRun ∨ run = archivedRun

theorem IsTower.reply {run : RunKey} (h : IsTower run) :
    workflowReply towerBucket run.val = .ok (some (towerRecord run)) ∧
      IndexKind.workflow.project (towerRecord run) = .ok (towerRow run) := by
  obtain rfl | rfl | rfl := h <;> exact ⟨rfl, rfl⟩

theorem sweepCutoff_tower : sweepCutoff secondDay 86400000000 = .ok "1970-01-02T00:00:00+00:00" := by
  rfl

theorem lookup_tower {a : Address} (h : ∀ run, IsTower run → a ≠ .workflow run) :
    towerBucket.objects.lookup a.path = none := by
  have hne : ∀ run, IsTower run → a.path ≠ run.val.location := fun run hrun =>
    Address.path_ne (h run hrun)
  exact (AList.lookup_insert_ne (hne _ (.inr (.inr rfl)))).trans
    ((AList.lookup_insert_ne (hne _ (.inr (.inl rfl)))).trans (AList.lookup_insert_ne (hne _ (.inl rfl))))

theorem workflowReply_none {wire : RecordWire} {b : Bucket wire.Bytes} (run : RunKey)
    (h : b.objects.lookup run.val.location = none) : workflowReply b run.val = .ok none := by
  have hread : decodeMessage wire.workflow (replyAt b.objects run.val.location) = .ok none := by
    rw [replyAt, h]
    rfl
  simp only [workflowReply, getWorkflow, workflowPath_of_stored, liftOk_bind, exec_bind,
    exec_readMessage_at, hread]
  rfl

theorem isTower_of_reply {run : RunKey}
    (h : workflowReply towerBucket run.val = .ok (some record)) : IsTower run := by
  by_contra hrun
  have hnone := workflowReply_none run (lookup_tower (a := .workflow run) fun run' hrun' heq =>
    hrun (Address.workflow.inj heq ▸ hrun'))
  rw [hnone] at h
  cases h

theorem lookup_towerRow (key : WorkflowKey) : towerWorld.index.live.lookup .workflow key =
    if key = archivedRun.val then some (towerRow archivedRun)
    else if key = youngRun.val then some (towerRow youngRun)
    else if key = towerRun.val then some (towerRow towerRun) else none := by
  have hrow := fun (t : AList fun _ : WorkflowKey => RecordRow) key' row =>
    Table.lookup_insert_if t key key' row
  exact (hrow _ _ _).trans (if_congr Iff.rfl rfl
    ((hrow _ _ _).trans (if_congr Iff.rfl rfl (hrow ∅ _ _))))

theorem faithful_tower : Faithful towerWorld.index towerWorld.bucket := by
  constructor
  · intro key row hrow
    rw [lookup_towerRow] at hrow
    have himage : ∀ run, IsTower run → key = run.val → some (towerRow run) = some row →
        ∃ record, workflowReply towerBucket key = .ok (some record) ∧
          IndexKind.workflow.project record = .ok row := by
      rintro run hrun rfl hsome
      rw [← Option.some.inj hsome]
      exact ⟨_, hrun.reply⟩
    split at hrow
    next heq => exact himage archivedRun (.inr (.inr rfl)) heq hrow
    split at hrow
    next heq => exact himage youngRun (.inr (.inl rfl)) heq hrow
    split at hrow
    next heq => exact himage towerRun (.inl rfl) heq hrow
    cases hrow
  · intro key record hreply
    rw [lookup_towerRow]
    have htower : IsTower ⟨key, stored_of_workflowReply hreply⟩ := isTower_of_reply hreply
    obtain heq | heq | heq := htower
    all_goals
      obtain rfl := congrArg Subtype.val heq
      exact ⟨_, rfl⟩

theorem eligible_tower {run : RunKey} (h : Eligible towerWorld.bucket secondDay 86400000000 run.val) :
    run = towerRun ∨ run = archivedRun := by
  obtain ⟨record, -, -, hreply, -⟩ := h.record
  obtain rfl | rfl | rfl := isTower_of_reply hreply
  · exact .inl rfl
  · cases (eligible_iff (IsTower.reply (.inr (.inl rfl))).1).1 h
  · exact .inr rfl

theorem records_tower (kind : RecordKind) (path : Path) :
    path ∉ towerBucket.records.filter (·.dropLast = itemDir kind towerRun) := by
  have hempty : towerBucket.records.filter (·.dropLast = itemDir kind towerRun) = [] := by
    cases kind <;> rfl
  rw [hempty]
  exact List.not_mem_nil

theorem deletes_tower : Deletes taggedRecordWire towerRun towerBucket where
  plannable := {
    claims := fun path hpath => absurd hpath (records_tower .claim path)
    activities := fun path hpath => absurd hpath (records_tower .activity path)
    timers := fun path hpath => absurd hpath (records_tower .timer path)
    events := fun path hpath => absurd hpath (records_tower .event path) }
  ledgers key _ _ := ⟨none, ledgerAt_none (lookup_tower (a := .due key) (by simp))⟩

theorem deleteSucceeds_tower : DeleteSucceeds towerConfig towerWorld towerRun := by
  have hdeletable : Deletable towerConfig towerRun towerWorld := by
    refine ⟨⟨⟨.noClaims, rfl⟩, ?_⟩, ?_, deletes_tower⟩
    · intro h
      cases h
    · intro h
      cases h
  obtain ⟨r, w', hexec, -, -, -, ⟨-, ⟨total, rfl⟩, -⟩ | ⟨hbad, -⟩⟩ :=
    exec_deleteRun towerConfig towerRun towerWorld
  · exact ⟨total, w', hexec⟩
  · exact absurd hdeletable hbad

/-- The young run is not eligible, and the archived one is outside the filter. -/
theorem sweep_trusts_bucket_tower : Eligible towerBucket secondDay 86400000000 archivedRun.val ∧
    ∃ w', (∀ᶠ fuel in Filter.atTop, towerWorld.exec
      (sweep taggedRecordWire towerConfig fuel "default" secondDay 86400000000) = (.ok 1, w')) ∧
        RunGone towerRun w'.bucket.objects := by
  refine ⟨(eligible_iff (IsTower.reply (.inr (.inr rfl))).1).2 rfl, ?_⟩
  have hswept : ∀ run : RunKey, Eligible towerBucket secondDay 86400000000 run.val ∧
      InFilter "default" run.val ↔ run = towerRun := by
    intro run
    constructor
    · rintro ⟨heligible, hfilter⟩
      obtain rfl | rfl := eligible_tower heligible
      · rfl
      · exact absurd hfilter (by simp [InFilter, archivedRun])
    · rintro rfl
      exact ⟨(eligible_iff (IsTower.reply (.inl rfl)).1).2 rfl, .inr rfl⟩
  obtain ⟨r, w', hexec, -, -, h⟩ :=
    sweep_trusts_bucket towerWorld towerConfig "default" secondDay 86400000000
  obtain ⟨runs, hnodup, hmem, rfl, hgone⟩ := (h (by decide)).1 _ sweepCutoff_tower (fun _ => rfl) faithful_tower
    (by
      intro run heligible hfilter
      rw [(hswept run).1 ⟨heligible, hfilter⟩]
      exact deleteSucceeds_tower)
  have hruns : ∀ run, run ∈ runs ↔ run = towerRun := fun run => (hmem run).trans (hswept run)
  have hone : runs = [towerRun] := List.perm_singleton.1
    ((List.perm_ext_iff_of_nodup hnodup (List.nodup_singleton _)).2 (by simpa using hruns))
  rw [hone] at hexec
  exact ⟨w', hexec, (hgone towerRun ((hruns _).2 rfl)).1⟩

/-- A cutoff before the first year is no instant of the calendar: the sweep raises, although no run
was completed before it. -/
theorem sweep_raises_before_calendar : Faithful towerWorld.index towerWorld.bucket ∧
    (∀ run : RunKey, ¬ Eligible towerWorld.bucket secondDay 94608000000000000 run.val) ∧
    ∀ fuel, towerWorld.exec (sweep taggedRecordWire towerConfig fuel "" secondDay 94608000000000000) =
      (.error (exception .overflowError "date value out of range"), towerWorld) := by
  refine ⟨faithful_tower, ?_, fun fuel => rfl⟩
  intro run h
  obtain ⟨record, completedAt, t, -, -, -, -, cutoff, hcutoff, -⟩ := h.record
  cases hcutoff

end Tower

end Temporaless.IndexStore
