import Temporaless.Storage.RefinementWrites
import Temporaless.Workflow.Coherence

/-!
# Is the cache transparent?

A process that reads and writes an OpenDAL bucket through its run-scoped cache gets the replies that
the store itself would give, as long as it spells the run in one way and puts no canceled timer.
-/

namespace Temporaless

open Effects OpenDALStore

variable {run : WorkflowKey}

namespace CachedStore

/-- The method of the cache that answers a call of the store. -/
def call : (op : StoreOp) → FlowM op.Answer
  | .getWorkflow key => getWorkflow key
  | .putWorkflow record => putWorkflow record
  | .deleteWorkflow key => deleteWorkflow key
  | .get k key => getItem k key
  | .put k record => putItem k record
  | .list k run filter => listItems k run filter
  | .delete k key => deleteItem k key

end CachedStore

def StoreOp.Valid : StoreOp → Prop
  | .getWorkflow key => key.Valid
  | .deleteWorkflow key => key.Valid
  | .get _ key => key.Valid
  | .list _ run _ => run.Valid
  | .delete _ key => key.Valid
  | .putWorkflow _ => True
  | .put _ _ => True

/-- The run is spelled as the cache spells it, and no CANCELED timer of it is put. -/
def StoreOp.Tracked (scope : WorkflowKey) : StoreOp → Prop
  | .putWorkflow record => SpelledAs scope (workflowKeyFromProto record.key)
  | .deleteWorkflow key => SpelledAs scope key
  | .put k record =>
    SpelledAs scope (k.key record).run ∧ ((k.key record).run = scope → k.cancels record = false)
  | .delete _ key => SpelledAs scope key.run
  | .getWorkflow _ | .get _ _ | .list _ _ _ => True

structure CachedBucket (wire : Wire) where
  memory : Memory
  bucket : Bucket wire.Bytes

namespace CachedBucket

variable {wire : Wire}

def direct (st : CachedBucket wire) (op : StoreOp) : op.Reply × Bucket wire.Bytes :=
  st.bucket.exec (callCode wire st.bucket.walkFuel op)

def step (st : CachedBucket wire) : (op : FlowOp) → op.Reply × CachedBucket wire
  | .store op => ((st.direct op).1, { st with bucket := (st.direct op).2 })
  | .recollect => (st.memory, st)
  | .remember change => ((), { st with memory := change st.memory })
  | .now => (st.bucket.time, st)

def exec {α : Type} (code : FlowM α) (st : CachedBucket wire) : Except Err α × CachedBucket wire :=
  code.run.exec step st

/-- The states of a process that uses the cache of one run: it starts with a new cache over any
intact bucket, makes the calls that `allowed` admits, and other processes leave the records of the
run alone. -/
inductive Reached (wire : Wire) (scope : WorkflowKey) (allowed : StoreOp → Prop) :
    CachedBucket wire → Prop where
  | start (memory : Memory) (b : Bucket wire.Bytes) (hcache : memory.cache = newRunScopedCache scope)
      (hb : Intact wire b) : Reached wire scope allowed ⟨memory, b⟩
  | call (op : StoreOp) {st : CachedBucket wire} (h : Reached wire scope allowed st)
      (hop : allowed op) : Reached wire scope allowed (st.exec (CachedStore.call op)).2
  | prefetch {st : CachedBucket wire} (h : Reached wire scope allowed st) :
      Reached wire scope allowed (st.exec CachedStore.prefetch).2
  | refresh (k : StoreKind) (key : ItemKey k.kind) {st : CachedBucket wire}
      (h : Reached wire scope allowed st) :
      Reached wire scope allowed (st.exec (CachedStore.refreshItem k key)).2
  | elsewhere {st : CachedBucket wire} (b : Bucket wire.Bytes) (h : Reached wire scope allowed st)
      (hb : Intact wire b)
      (hworkflow : ∀ key : RunKey, key.val = scope.withDefaults →
        workflowRecord wire b.objects key = workflowRecord wire st.bucket.objects key)
      (hitem : ∀ (k : StoreKind) (key : RecordKey k.kind), key.val.run = scope.withDefaults →
        itemRecord wire b.objects k key = itemRecord wire st.bucket.objects k key) :
      Reached wire scope allowed { st with bucket := b }

/-- Calls are answered by `step`. -/
def spec (wire : Wire) : CallSpec flowSignature (CachedBucket wire) :=
  .steps (fun st op r st' => st.step op = (r, st')) fun _ _ _ _ => True

variable {st : CachedBucket wire} {α : Type}

theorem pre_iff {op : FlowOp} {Q : op.Reply → CachedBucket wire → Prop} :
    (spec wire).pre op Q st ↔ Q (st.step op).1 (st.step op).2 := by
  constructor
  · intro h
    exact (h _ _ rfl).2
  · intro h r st' hstep
    rw [hstep] at h
    exact ⟨trivial, h⟩

theorem exec_of_ends {code : FlowM α} {Q : Except Err α → CachedBucket wire → Prop}
    (h : ends (spec wire) code Q st) : Q (st.exec code).1 (st.exec code).2 :=
  Program.wp.exec (ends_iff_wp.1 h)

variable {s : Records}

/-- The bucket holds the records, and the cache of the run agrees with them. -/
structure Good (scope : WorkflowKey) (st : CachedBucket wire) (s : Records) : Prop where
  holds : Holds wire st.bucket s
  coherent : Coherent st.memory.cache s
  scope : st.memory.cache.scope = scope

variable {scope : WorkflowKey} {k : StoreKind}

theorem ends_loadItem (h : Holds wire st.bucket s) (key : ItemKey k.kind)
    {Q : Except Err (Option k.Record) → CachedBucket wire → Prop}
    (hQ : Q (key.validate.map fun _ => s.item k key) st) :
    ends (spec wire) (CachedStore.loadItem k key) Q st := by
  have hget : st.direct (.get k key) = (key.validate.map fun _ => s.item k key, st.bucket) :=
    exec_get h _ k key
  rw [CachedStore.loadItem, ends_bind, ends_callStore, pre_iff, step, hget]
  rcases hvalid : key.validate with err | u
  · rw [hvalid] at hQ
    exact hQ
  · rw [hvalid] at hQ
    rcases hitem : s.item k key with _ | record
    · rw [hitem] at hQ
      exact ends_pure.2 hQ
    · rw [hitem] at hQ
      change ends _ (do
        let _ ← (liftM (k.validate record key) : FlowM Unit)
        pure (some record)) Q st
      rw [Records.item_valid hitem, ends_bind, ends_liftExcept]
      exact ends_pure.2 hQ

theorem ends_loadWorkflow (h : Holds wire st.bucket s) (key : WorkflowKey)
    {Q : Except Err (Option WorkflowRecord) → CachedBucket wire → Prop}
    (hQ : Q (key.validate.map fun _ => s.workflow key) st) :
    ends (spec wire) (CachedStore.loadWorkflow key) Q st := by
  have hget : st.direct (.getWorkflow key) = (key.validate.map fun _ => s.workflow key, st.bucket) :=
    exec_getWorkflow_key h key
  rw [CachedStore.loadWorkflow, ends_bind, ends_callStore, pre_iff, step, hget]
  rcases hvalid : key.validate with err | u
  · rw [hvalid] at hQ
    exact hQ
  · rw [hvalid] at hQ
    rcases hworkflow : s.workflow key with _ | record
    · rw [hworkflow] at hQ
      exact ends_pure.2 hQ
    · rw [hworkflow] at hQ
      change ends _ (do
        let _ ← (liftM (validateWorkflowRecord record key) : FlowM Unit)
        pure (some record)) Q st
      rw [Records.workflow_valid hworkflow, ends_bind, ends_liftExcept]
      exact ends_pure.2 hQ

variable {records : List k.Record} {change : RunScopedCache → RunScopedCache}

theorem validateList_of_stored {filter : k.Filter}
    (h : ∀ record ∈ records, (∃ id, s.item k (run.item k.kind id) = some record) ∧
      k.admits filter record = true) : validateList k run filter records = .ok () := by
  induction records with
  | nil => rfl
  | cons record records ih =>
    obtain ⟨⟨id, hitem⟩, hadmits⟩ := h record (by simp)
    have hvalid := Records.item_valid hitem
    obtain ⟨-, hkey⟩ := StoreKind.validate_eq_ok hvalid
    have hself : k.validate record (k.key record) = .ok () := by
      rwa [StoreKind.validate_congr record hkey]
    have hrun : sameCachedWorkflowRun run (k.key record).run = true := by
      rw [sameCachedWorkflowRun, beq_iff_eq, ← ItemKey.run_withDefaults, hkey,
        ItemKey.run_withDefaults]
      rfl
    rw [validateList, hself, hrun, hadmits, ih fun record' hmem => h record' (by simp [hmem])]
    rfl

theorem ends_loadList (h : Holds wire st.bucket s) (run : WorkflowKey) (filter : k.Filter)
    {Q : Except Err (List k.Record) → CachedBucket wire → Prop}
    (hok : ∀ records, (st.direct (.list k run filter)).1 = .ok records →
      records.Perm (s.listed k run filter) → Q (.ok records) st)
    (herror : ∀ err, (st.direct (.list k run filter)).1 = .error err → Q (.error err) st) :
    ends (spec wire) (CachedStore.loadList k run filter) Q st := by
  obtain ⟨r, hexec, hagree⟩ := exec_list h le_rfl k run filter
  have hdirect : st.direct (.list k run filter) = (r, st.bucket) := hexec
  rw [hdirect] at hok herror
  rw [CachedStore.loadList, ends_bind, ends_callStore, pre_iff, step, hdirect]
  rcases r with err | records
  · exact herror err rfl
  · rcases hcheck : k.checkRun run with err | u
    · rw [hcheck] at hagree
      cases hagree
    · rw [hcheck] at hagree
      have hperm : records.Perm (s.listed k run filter) := hagree
      have hvalid : validateList k run filter records = .ok () := by
        apply validateList_of_stored
        intro record hmem
        exact Records.mem_listed.1 (hperm.mem_iff.1 hmem)
      change ends _ (do
        let _ ← (liftM (validateList k run filter records) : FlowM Unit)
        pure records) Q st
      rw [hvalid, ends_bind, ends_liftExcept]
      exact ends_pure.2 (hok records rfl hperm)

/-- The cached call answers as the store alone would, and the cache stays coherent. -/
def Served (scope : WorkflowKey) (st : CachedBucket wire) (op : StoreOp) (r : op.Reply)
    (st' : CachedBucket wire) : Prop :=
  op.Agree r (st.direct op).1 ∧ ∃ s', Good scope st' s'

theorem good_remember (hholds : Holds wire st.bucket s)
    (hc : Coherent (change st.memory.cache) s) (hscope : (change st.memory.cache).scope = scope) :
    Good scope (st.step (.remember (Memory.changeCache change))).2 s := ⟨hholds, hc, hscope⟩

theorem ends_getItem (h : Good scope st s) (key : ItemKey k.kind) (hkey : key.Valid) :
    ends (spec wire) (CachedStore.getItem k key) (Served scope st (.get k key)) st := by
  have hdirect : (st.direct (.get k key)).1 = .ok (s.item k key) := by
    have hget : st.direct (.get k key) = (key.validate.map fun _ => s.item k key, st.bucket) :=
      exec_get h.holds _ k key
    rw [hget, show key.validate = .ok () from hkey]
    rfl
  have hserved : ∀ st' s', Good scope st' s' →
      Served scope st (.get k key) (.ok (s.item k key)) st' := by
    intro st' s' hgood
    refine ⟨?_, s', hgood⟩
    rw [hdirect]
    exact rfl
  have hloaded : (key.validate.map fun _ => s.item k key) = .ok (s.item k key) := by
    rw [show key.validate = .ok () from hkey]
    rfl
  rw [CachedStore.getItem, ends_bind, ends_recollect, pre_iff]
  dsimp only [step]
  rcases hscope : st.memory.cache.inScope key.run with _ | _
  · rw [if_pos (by decide)]
    apply ends_loadItem h.holds
    rw [hloaded]
    exact hserved st s h
  · rw [if_neg (by decide)]
    have hitem := RunScopedCache.item_of_inScope hscope
    rcases hentry : (st.memory.cache.shelf k).entries.lookup key.id with _ | entry
    · rcases hlisted : (st.memory.cache.shelf k).listed with _ | _
      · dsimp only
        rw [if_neg (by decide), CachedStore.reloadItem, ends_bind]
        apply ends_loadItem h.holds
        rw [hloaded]
        dsimp only
        rw [ends_bind, ends_remember, pre_iff]
        apply ends_pure.2
        apply hserved _ s
        apply good_remember h.holds _ h.scope
        rw [hitem]
        exact h.coherent.read
      · dsimp only
        rw [if_pos rfl, ends_pure]
        have hnone : s.item k key = none := by
          rcases hrecord : s.item k key with _ | record
          · rfl
          · rw [hitem] at hrecord
            rw [h.coherent.listed k hlisted key.id record hrecord] at hentry
            cases hentry
        rw [← hnone]
        exact hserved st s h
    · dsimp only
      rw [ends_pure]
      have heq := h.coherent.entry k key.id entry hentry
      rw [← hitem] at heq
      rw [← heq]
      exact hserved st s h

theorem ends_getWorkflow (h : Good scope st s) (key : WorkflowKey) (hkey : key.Valid) :
    ends (spec wire) (CachedStore.getWorkflow key) (Served scope st (.getWorkflow key)) st := by
  have hloaded : (key.validate.map fun _ => s.workflow key) = .ok (s.workflow key) := by
    rw [show key.validate = .ok () from hkey]
    rfl
  have hdirect : (st.direct (.getWorkflow key)).1 = .ok (s.workflow key) := by
    have hget : st.direct (.getWorkflow key) = (key.validate.map fun _ => s.workflow key, st.bucket) :=
      exec_getWorkflow_key h.holds key
    rw [hget, hloaded]
  have hserved : ∀ st' s', Good scope st' s' →
      Served scope st (.getWorkflow key) (.ok (s.workflow key)) st' := by
    intro st' s' hgood
    refine ⟨?_, s', hgood⟩
    rw [hdirect]
    exact rfl
  rw [CachedStore.getWorkflow, ends_bind, ends_recollect, pre_iff]
  dsimp only [step]
  rcases hscope : st.memory.cache.inScope key with _ | _
  · rw [if_pos (by decide)]
    apply ends_loadWorkflow h.holds
    rw [hloaded]
    exact hserved st s h
  · rw [if_neg (by decide)]
    have hrun := RunScopedCache.inScope_iff.1 hscope
    rcases hknown : st.memory.cache.workflowKnown with _ | _
    · rw [if_neg (by decide), ends_bind]
      apply ends_loadWorkflow h.holds
      rw [hloaded]
      dsimp only
      rw [ends_bind, ends_remember, pre_iff]
      apply ends_pure.2
      apply hserved _ s
      refine good_remember h.holds ?_ h.scope
      rw [h.coherent.unknown hknown, Option.or_none, hrun]
      exact h.coherent.setWorkflow fun _ _ => rfl
    · rw [if_pos rfl, ends_pure, h.coherent.workflow hknown, ← hrun]
      exact hserved st s h

theorem checkRun_of_valid (h : run.Valid) : k.checkRun run = .ok () := by
  cases k with
  | timer => exact h
  | activity => exact valid_placeholder h _
  | event => exact valid_placeholder h _

theorem ends_listItems (h : Good scope st s) (run : WorkflowKey) (filter : k.Filter)
    (hrun : run.Valid) : ends (spec wire) (CachedStore.listItems k run filter)
      (Served scope st (.list k run filter)) st := by
  have hserved : ∀ r, r = (st.direct (.list k run filter)).1 → ∀ st' s', Good scope st' s' →
      Served scope st (.list k run filter) r st' := by
    intro r hr st' s' hgood
    refine ⟨?_, s', hgood⟩
    rw [hr]
    exact StoreOp.Agree.refl _ _
  rw [CachedStore.listItems, ends_bind, ends_recollect, pre_iff]
  dsimp only [step]
  rcases hscope : st.memory.cache.inScope run with _ | _
  · rw [if_pos (by decide)]
    apply ends_loadList h.holds
    · intro records hr _
      exact hserved _ hr.symm st s h
    · intro err hr
      exact hserved _ hr.symm st s h
  · rw [if_neg (by decide)]
    have hkey := RunScopedCache.inScope_iff.1 hscope
    rcases hlisted : (st.memory.cache.shelf k).listed with _ | _
    · rw [if_neg (by decide), ends_bind]
      apply ends_loadList h.holds
      · intro records hr hperm
        dsimp only
        rcases heverything : k.isEverything filter with _ | _
        · rw [if_neg (by decide)]
          exact ends_pure.2 (hserved _ hr.symm st s h)
        · rw [if_pos rfl, ends_bind, ends_remember, pre_iff]
          apply ends_pure.2
          apply hserved _ hr.symm _ s
          refine good_remember h.holds (h.coherent.setListed ?_) ?_
          · intro record
            rw [hperm.mem_iff, Records.mem_listed, hkey,
              and_iff_left (StoreKind.admits_of_isEverything heverything record)]
          · rw [RunScopedCache.setListed_scope]
            exact h.scope
      · intro err hr
        exact hserved _ hr.symm st s h
    · rw [if_pos rfl, ends_pure]
      refine ⟨?_, s, h⟩
      obtain ⟨r, hexec, hagree⟩ := exec_list h.holds le_rfl k run filter
      have hdirect : st.direct (.list k run filter) = (r, st.bucket) := hexec
      rw [hdirect]
      rw [checkRun_of_valid hrun] at hagree
      rcases r with err | records
      · exact hagree.elim
      · have hperm : records.Perm (s.listed k run filter) := hagree
        rw [hkey] at hperm
        exact (h.coherent.cachedRecords_perm hlisted filter).trans hperm.symm

theorem Served.of_unchanged (h : Good scope st s) {op : StoreOp} {b : Bucket wire.Bytes}
    (hb : Holds wire b s) : Served scope st op (st.direct op).1 { st with bucket := b } :=
  ⟨StoreOp.Agree.refl _ _, s, hb, h.coherent, h.scope⟩

theorem Served.of_error (h : Good scope st s) {op : StoreOp} {b : Bucket wire.Bytes} {err : Err}
    (hagree : op.Agree (st.direct op).1 (.error err)) (hb : Holds wire b s) :
    Served scope st op (.error err) { st with bucket := b } := by
  rw [← hagree.error]
  exact Served.of_unchanged h hb

theorem ends_follow {Q : Except Err Unit → CachedBucket wire → Prop}
    (hQ : Q (.ok ()) { st with memory := { st.memory with
      cache := if st.memory.cache.inScope run then change st.memory.cache else st.memory.cache } }) :
    ends (spec wire) (CachedStore.follow run change) Q st := by
  rw [CachedStore.follow, ends_bind, ends_recollect, pre_iff]
  dsimp only [step]
  split at hQ
  · next hscope =>
      rw [if_pos hscope, ends_remember, pre_iff]
      exact hQ
  · next hscope =>
      rw [if_neg hscope]
      exact ends_pure.2 hQ

theorem scope_followed {c : RunScopedCache} (hchange : ∀ c, (change c).scope = c.scope) :
    (if c.inScope run then change c else c).scope = c.scope := by
  split
  · exact hchange c
  · rfl

section

variable (h : Good scope st s)

include h

theorem Served.of_followed {op : StoreOp} {s' : Records}
    (change : RunScopedCache → RunScopedCache) (hchange : ∀ c, (change c).scope = c.scope)
    (hholds : Holds wire (st.direct op).2 s') (hc : Coherent
      (if st.memory.cache.inScope run then change st.memory.cache else st.memory.cache) s') :
    Served scope st op (st.direct op).1
      ⟨{ st.memory with
        cache := if st.memory.cache.inScope run then change st.memory.cache else st.memory.cache },
      (st.direct op).2⟩ :=
  ⟨StoreOp.Agree.refl _ _, s', hholds, hc, (scope_followed hchange).trans h.scope⟩

theorem Good.direct (op : StoreOp) :
    op.Agree (st.direct op).1 (s.step op).1 ∧ Holds wire (st.direct op).2 (s.step op).2 :=
  refines h.holds op _ le_rfl

theorem ends_putItem (record : k.Record)
    (hop : StoreOp.Tracked scope (.put k record)) :
    ends (spec wire) (CachedStore.putItem k record) (Served scope st (.put k record)) st := by
  obtain ⟨hspelled, hlive⟩ := hop
  obtain ⟨hagree, hholds⟩ := h.direct (.put k record)
  rw [← h.scope] at hspelled hlive
  rw [CachedStore.putItem, ends_bind, ends_callStore, pre_iff]
  dsimp only [step]
  rcases haccept : k.accept record with err | u
  · rw [Records.step_put_error haccept] at hagree hholds
    rw [hagree.error]
    exact Served.of_error h hagree hholds
  · have hcoherent : Coherent (if st.memory.cache.inScope (k.key record).run then
        st.memory.cache.setEntry k (k.key record).id (some record) else st.memory.cache)
        (s.step (.put k record)).2 := by
      rcases hcancels : k.cancels record with _ | _
      · rw [Records.step_put_live haccept hcancels]
        exact h.coherent.put (StoreKind.stored_of_accept haccept hcancels) hspelled
      · -- a canceled timer is erased: the cache must not have followed the put
        have hscope : st.memory.cache.inScope (k.key record).run ≠ true := by
          intro hin
          rw [hlive (RunScopedCache.inScope_iff.1 hin)] at hcancels
          cases hcancels
        have herased : Coherent _ (s.eraseItem k (k.key record).withDefaults true) :=
          h.coherent.erase hspelled
        rw [if_neg hscope] at herased ⊢
        rw [Records.step_put_canceled haccept hcancels]
        exact herased
    have hok : (st.direct (.put k record)).1 = .ok () := by
      rcases hcancels : k.cancels record with _ | _
      · rw [Records.step_put_live haccept hcancels] at hagree
        exact hagree.ok.choose_spec
      · rw [Records.step_put_canceled haccept hcancels] at hagree
        exact hagree.ok.choose_spec
    rw [hok]
    apply ends_follow
    rw [← hok]
    exact Served.of_followed h (·.setEntry k (k.key record).id (some record)) (fun _ => rfl) hholds
      hcoherent

theorem ends_deleteItem (key : ItemKey k.kind)
    (hop : StoreOp.Tracked scope (.delete k key)) :
    ends (spec wire) (CachedStore.deleteItem k key) (Served scope st (.delete k key)) st := by
  have hspelled : SpelledAs scope key.run := hop
  obtain ⟨hagree, hholds⟩ := h.direct (.delete k key)
  rw [← h.scope] at hspelled
  rw [CachedStore.deleteItem, ends_bind, ends_callStore, pre_iff]
  dsimp only [step]
  rcases hvalid : key.validate with err | u
  · rw [Records.step_delete_error hvalid] at hagree hholds
    rw [hagree.error]
    exact Served.of_error h hagree hholds
  · rw [Records.step_delete hvalid] at hagree hholds
    obtain ⟨deleted, hok⟩ := hagree.ok
    rw [hok]
    dsimp only
    rw [ends_bind]
    apply ends_follow
    apply ends_pure.2
    rw [← hok]
    exact Served.of_followed h (·.setEntry k key.id none) (fun _ => rfl) hholds
      (h.coherent.erase hspelled)

theorem ends_putWorkflow (record : WorkflowRecord)
    (hop : StoreOp.Tracked scope (.putWorkflow record)) :
    ends (spec wire) (CachedStore.putWorkflow record)
      (Served scope st (.putWorkflow record)) st := by
  have hspelled : SpelledAs scope (workflowKeyFromProto record.key) := hop
  obtain ⟨hagree, hholds⟩ := h.direct (.putWorkflow record)
  rw [← h.scope] at hspelled
  rw [CachedStore.putWorkflow, ends_bind, ends_callStore, pre_iff]
  dsimp only [step]
  rcases haccept : acceptWorkflow record with err | u
  · rw [Records.step_putWorkflow_error haccept] at hagree hholds
    rw [hagree.error]
    exact Served.of_error h hagree hholds
  · rw [Records.step_putWorkflow_ok haccept] at hagree hholds
    have hok : (st.direct (.putWorkflow record)).1 = .ok () := hagree.ok.choose_spec
    rw [hok]
    apply ends_follow
    rw [← hok]
    refine Served.of_followed h (·.setWorkflow (some record)) (fun _ => rfl) hholds
      (h.coherent.writeWorkflow hspelled ?_ ?_ ?_)
    · exact fun _ _ => rfl
    · rw [Records.workflow_setWorkflow, if_pos rfl]
    · intro key' hne
      rw [Records.workflow_setWorkflow, if_neg hne]

theorem ends_deleteWorkflow (key : WorkflowKey)
    (hop : StoreOp.Tracked scope (.deleteWorkflow key)) :
    ends (spec wire) (CachedStore.deleteWorkflow key)
      (Served scope st (.deleteWorkflow key)) st := by
  have hspelled : SpelledAs scope key := hop
  obtain ⟨hagree, hholds⟩ := h.direct (.deleteWorkflow key)
  rw [← h.scope] at hspelled
  rw [CachedStore.deleteWorkflow, ends_bind, ends_callStore, pre_iff]
  dsimp only [step]
  rcases hvalid : key.validate with err | u
  · rw [Records.step_deleteWorkflow_error hvalid] at hagree hholds
    rw [hagree.error]
    exact Served.of_error h hagree hholds
  · rw [Records.step_deleteWorkflow hvalid] at hagree hholds
    obtain ⟨deleted, hok⟩ := hagree.ok
    rw [hok]
    dsimp only
    rw [ends_bind]
    apply ends_follow
    apply ends_pure.2
    rw [← hok]
    refine Served.of_followed h (·.setWorkflow none) (fun _ => rfl) hholds
      (h.coherent.writeWorkflow hspelled ?_ ?_ ?_)
    · exact fun _ _ => rfl
    · rw [Records.workflow_eraseWorkflow, if_pos rfl]
    · intro key' hne
      rw [Records.workflow_eraseWorkflow, if_neg hne]

theorem ends_call (op : StoreOp) (hvalid : op.Valid) (hop : op.Tracked scope) :
    ends (spec wire) (CachedStore.call op) (Served scope st op) st := by
  cases op with
  | getWorkflow key => exact ends_getWorkflow h key hvalid
  | putWorkflow record => exact ends_putWorkflow h record hop
  | deleteWorkflow key => exact ends_deleteWorkflow h key hop
  | get k key => exact ends_getItem h key hvalid
  | put k record => exact ends_putItem h record hop
  | list k run filter => exact ends_listItems h run filter hvalid
  | delete k key => exact ends_deleteItem h key hop

theorem ends_refreshItem (key : ItemKey k.kind) :
    ends (spec wire) (CachedStore.refreshItem k key) (fun _ st' => ∃ s', Good scope st' s')
      st := by
  rw [CachedStore.refreshItem, ends_bind, ends_recollect, pre_iff]
  dsimp only [step]
  rcases hscope : st.memory.cache.inScope key.run with _ | _
  · rw [if_pos (by decide)]
    exact ends_loadItem h.holds key ⟨s, h⟩
  · rw [if_neg (by decide), CachedStore.reloadItem, ends_bind]
    apply ends_loadItem h.holds
    cases key.validate with
    | error err => exact ⟨s, h⟩
    | ok u =>
      dsimp only [Except.map]
      rw [ends_bind, ends_remember, pre_iff]
      apply ends_pure.2
      refine ⟨s, good_remember h.holds ?_ h.scope⟩
      rw [RunScopedCache.item_of_inScope hscope]
      exact h.coherent.read

theorem ends_attempt_list (k : StoreKind)
    {Q : Except Err (Except Err (List k.Record)) → CachedBucket wire → Prop}
    (hQ : ∀ r, (∀ records, r = .ok records →
      records.Perm (s.listed k st.memory.cache.scope k.everything)) → Q (.ok r) st) :
    ends (spec wire)
      (attempt (callStore (.list k st.memory.cache.scope k.everything))) Q st := by
  obtain ⟨r, hexec, hagree⟩ := exec_list h.holds le_rfl k st.memory.cache.scope k.everything
  have hdirect : st.direct (.list k st.memory.cache.scope k.everything) = (r, st.bucket) := hexec
  rw [ends_attempt, ends_callStore, pre_iff, step, hdirect]
  apply hQ
  intro records hr
  subst hr
  rcases hcheck : k.checkRun st.memory.cache.scope with err | u
  · rw [hcheck] at hagree
    exact hagree.elim
  · rw [hcheck] at hagree
    exact hagree

end

theorem coherent_setListed_of_perm {c : RunScopedCache} (h : Coherent c s)
    (hperm : records.Perm (s.listed k c.scope k.everything)) :
    Coherent (c.setListed k records) s := by
  apply h.setListed
  intro record
  rw [hperm.mem_iff, Records.mem_listed, and_iff_left
    (StoreKind.admits_of_isEverything (StoreKind.isEverything_everything k) record)]

theorem validateList_of_perm {filter : k.Filter}
    (hperm : records.Perm (s.listed k run filter)) : validateList k run filter records = .ok () := by
  apply validateList_of_stored
  intro record hmem
  exact Records.mem_listed.1 (hperm.mem_iff.1 hmem)

theorem ends_prefetch (h : Good scope st s) :
    ends (spec wire) CachedStore.prefetch (fun _ st' => ∃ s', Good scope st' s') st := by
  rw [CachedStore.prefetch, ends_bind, ends_recollect, pre_iff]
  dsimp only [step]
  rw [ends_bind]
  apply ends_attempt_list h .activity
  intro activities hactivities
  dsimp only
  rw [ends_bind]
  apply ends_attempt_list h .timer
  intro timers htimers
  dsimp only
  rw [ends_bind]
  apply ends_attempt_list h .event
  intro events hevents
  dsimp only
  rw [ends_bind, ends_liftExcept]
  rcases activities with err | activities
  · exact ⟨s, h⟩
  dsimp only
  rw [ends_bind, ends_liftExcept]
  rcases timers with err | timers
  · exact ⟨s, h⟩
  dsimp only
  rw [ends_bind, ends_liftExcept]
  rcases events with err | events
  · exact ⟨s, h⟩
  have hactivities := hactivities activities rfl
  have htimers := htimers timers rfl
  have hevents := hevents events rfl
  have hactivityList : validateList .activity st.memory.cache.scope () activities = .ok () :=
    validateList_of_perm hactivities
  have htimerList : validateList .timer st.memory.cache.scope .unspecified timers = .ok () :=
    validateList_of_perm htimers
  have heventList : validateList .event st.memory.cache.scope () events = .ok () :=
    validateList_of_perm hevents
  dsimp only
  rw [hactivityList, htimerList, heventList]
  simp only [ends_bind, ends_liftExcept, ends_remember, pre_iff]
  have hfirst := coherent_setListed_of_perm h.coherent hactivities
  have hsecond : Coherent ((st.memory.cache.setListed .activity activities).setListed .timer timers)
      s := by
    apply coherent_setListed_of_perm hfirst
    rw [RunScopedCache.setListed_scope]
    exact htimers
  have hthird : Coherent (((st.memory.cache.setListed .activity activities).setListed .timer
      timers).setListed .event events) s := by
    apply coherent_setListed_of_perm hsecond
    rw [RunScopedCache.setListed_scope, RunScopedCache.setListed_scope]
    exact hevents
  refine ⟨s, good_remember h.holds hthird ?_⟩
  simp only [RunScopedCache.setListed_scope]
  exact h.scope

theorem good_elsewhere (h : Good scope st s) {b : Bucket wire.Bytes} (hb : Intact wire b)
    (hworkflow : ∀ key : RunKey, key.val = scope.withDefaults →
      workflowRecord wire b.objects key = workflowRecord wire st.bucket.objects key)
    (hitem : ∀ (k : StoreKind) (key : RecordKey k.kind), key.val.run = scope.withDefaults →
      itemRecord wire b.objects k key = itemRecord wire st.bucket.objects k key) :
    ∃ s', Good scope { st with bucket := b } s' := by
  obtain ⟨s', hs'⟩ := exists_holds hb
  refine ⟨s', hs', h.coherent.congr ?_ ?_, h.scope⟩
  · rw [h.scope]
    by_cases hvalid : scope.Valid
    · rw [hs'.workflow_stored hvalid, h.holds.workflow_stored hvalid]
      exact hworkflow (scope.stored hvalid) rfl
    · have hnone : ∀ s : Records, s.workflow scope = none := by
        intro s
        rcases hrecord : s.workflow scope with _ | record
        · rfl
        · obtain ⟨-, hkey, heq, -⟩ := validateWorkflowRecord_eq_ok.1 (Records.workflow_valid hrecord)
          apply absurd _ hvalid
          rwa [WorkflowKey.Valid, ← WorkflowKey.validate_withDefaults, ← heq,
            WorkflowKey.validate_withDefaults]
      rw [hnone s', hnone s]
  · intro k id
    rw [h.scope]
    by_cases hvalid : (scope.item k.kind id).Valid
    · rw [hs'.item_stored k hvalid, h.holds.item_stored k hvalid]
      exact hitem k _ (ItemKey.run_withDefaults (scope.item k.kind id))
    · have hnone : ∀ s : Records, s.item k (scope.item k.kind id) = none := by
        intro s
        rcases hrecord : s.item k (scope.item k.kind id) with _ | record
        · rfl
        · exact absurd (Records.valid_of_item hrecord) hvalid
      rw [hnone s', hnone s]

theorem Reached.good (h : Reached wire scope (fun op => op.Valid ∧ op.Tracked scope) st) :
    ∃ s, Good scope st s := by
  induction h with
  | start memory b hcache hb =>
    obtain ⟨s, hs⟩ := exists_holds hb
    refine ⟨s, hs, ?_, ?_⟩
    · rw [hcache]
      exact coherent_new scope s
    · rw [hcache]
      rfl
  | call op _ hop ih =>
    obtain ⟨s, hs⟩ := ih
    exact (exec_of_ends (ends_call hs op hop.1 hop.2)).2
  | prefetch _ ih =>
    obtain ⟨s, hs⟩ := ih
    exact exec_of_ends (ends_prefetch hs)
  | refresh k key _ ih =>
    obtain ⟨s, hs⟩ := ih
    exact exec_of_ends (ends_refreshItem hs key)
  | elsewhere b _ hb hworkflow hitem ih =>
    obtain ⟨s, hs⟩ := ih
    exact good_elsewhere hs hb hworkflow hitem

/-- In every state reached by calls that the cache can follow, the next one is answered as the
store itself would answer it. -/
theorem call_agrees_with_direct
    (h : Reached wire scope (fun op => op.Valid ∧ op.Tracked scope) st) (op : StoreOp)
    (hvalid : op.Valid) (hop : op.Tracked scope) :
    op.Agree (st.exec (CachedStore.call op)).1 (st.direct op).1 := by
  obtain ⟨s, hs⟩ := h.good
  exact (exec_of_ends (ends_call hs op hvalid hop)).1

def freshCachedBucket (scope : WorkflowKey) : CachedBucket taggedWire :=
  ⟨⟨newRunScopedCache scope, ∅⟩, ⟨∅, [], 0⟩⟩

theorem reached_freshCachedBucket (scope : WorkflowKey) (allowed : StoreOp → Prop) :
    Reached taggedWire scope allowed (freshCachedBucket scope) := by
  apply Reached.start _ _ rfl
  refine ⟨tidy_empty taggedWire, ?_, by decide, by decide⟩
  intro ns workflowID data hdata
  simp at hdata

def napRun : WorkflowKey := ⟨"default", "wf", "run"⟩

theorem call_agrees_with_direct_nap :
    Reached taggedWire napRun (fun op => op.Valid ∧ op.Tracked napRun)
        ((freshCachedBucket napRun).exec (CachedStore.call (.put .timer napTimer))).2 ∧
      (StoreOp.get .timer (napRun.item .timer "nap")).Agree
        (((freshCachedBucket napRun).exec (CachedStore.call (.put .timer napTimer))).2.exec
          (CachedStore.call (.get .timer (napRun.item .timer "nap")))).1
        (((freshCachedBucket napRun).exec (CachedStore.call (.put .timer napTimer))).2.direct
          (.get .timer (napRun.item .timer "nap"))).1 := by
  have hreached : Reached taggedWire napRun (fun op => op.Valid ∧ op.Tracked napRun)
      ((freshCachedBucket napRun).exec (CachedStore.call (.put .timer napTimer))).2 :=
    .call _ (reached_freshCachedBucket napRun _) ⟨trivial, fun _ => rfl, fun _ => rfl⟩
  exact ⟨hreached, call_agrees_with_direct hreached _ rfl trivial⟩

/-- A canceled timer that is put through the cache is read back from it, and is absent from the
store. -/
theorem canceled_put_stays_cached : ¬∀ st, Reached taggedWire napRun StoreOp.Valid st →
    ∀ op : StoreOp, op.Valid → op.Agree (st.exec (CachedStore.call op)).1 (st.direct op).1 := by
  intro hall
  have hagree := hall
    ((freshCachedBucket napRun).exec (CachedStore.call (.put .timer (tombstone napTimer)))).2
    (.call _ (reached_freshCachedBucket napRun _) trivial) (.get .timer (napRun.item .timer "nap"))
    rfl
  cases hagree

end CachedBucket

end Temporaless
