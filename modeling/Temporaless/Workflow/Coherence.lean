import Temporaless.Workflow.Cache

/-!
# What the cache says about the store

A cache is coherent with the records of a store when every entry it holds in its scope is what the
store holds, and when a listed family has no record that the cache does not know.
-/

namespace Temporaless

open Function

/-- A key of the same run is written the same way. -/
def SpelledAs (scope run : WorkflowKey) : Prop := run.withDefaults = scope.withDefaults → run = scope

namespace RunScopedCache

variable {c : RunScopedCache} {k k' : StoreKind} {id id' : String}

theorem inScope_iff {run : WorkflowKey} : c.inScope run = true ↔ run = c.scope := by
  rcases run with ⟨ns, workflowID, runID⟩
  rcases hscope : c.scope with ⟨scopeNs, scopeWorkflowID, scopeRunID⟩
  simp [inScope, hscope, and_assoc]

theorem item_of_inScope {key : ItemKey k.kind} (h : c.inScope key.run = true) :
    key = c.scope.item k.kind key.id := by
  rw [← inScope_iff.1 h]
  rfl

@[simp] theorem setEntry_scope (entry : Option k.Record) :
    (c.setEntry k id entry).scope = c.scope := rfl

theorem lookup_setEntry (entry : Option k.Record) :
    (((c.setEntry k id entry).shelf k).entries.lookup id') =
      if id' = id then some entry else (c.shelf k).entries.lookup id' := by
  simp only [setEntry, update_self]
  split
  · next heq => rw [heq, AList.lookup_insert]
  · next hne => rw [AList.lookup_insert_ne hne]

@[simp] theorem shelf_setEntry_ne (entry : Option k.Record) (hk : k' ≠ k) :
    (c.setEntry k id entry).shelf k' = c.shelf k' := by
  simp only [setEntry, update_of_ne hk]

@[simp] theorem listed_setEntry (entry : Option k.Record) :
    ((c.setEntry k id entry).shelf k').listed = (c.shelf k').listed := by
  by_cases hk : k' = k
  · subst hk
    simp only [setEntry, update_self]
  · rw [shelf_setEntry_ne entry hk]

end RunScopedCache

/-- All the cache knows is what the store holds. -/
structure Coherent (c : RunScopedCache) (s : Records) : Prop where
  workflow : c.workflowKnown = true → c.workflow = s.workflow c.scope
  unknown : c.workflowKnown = false → c.workflow = none
  entry : ∀ k id entry, (c.shelf k).entries.lookup id = some entry →
    s.item k (c.scope.item k.kind id) = entry
  listed : ∀ k, (c.shelf k).listed = true → ∀ id record,
    s.item k (c.scope.item k.kind id) = some record →
      (c.shelf k).entries.lookup id = some (some record)

theorem coherent_new (scope : WorkflowKey) (s : Records) : Coherent (newRunScopedCache scope) s where
  workflow h := by cases h
  unknown _ := rfl
  entry k id entry h := by simp [newRunScopedCache] at h
  listed k h := by cases h

namespace Coherent

variable {c : RunScopedCache} {s s' : Records} {k : StoreKind} {id : String}

theorem congr (h : Coherent c s) (hworkflow : s'.workflow c.scope = s.workflow c.scope)
    (hitem : ∀ k id, s'.item k (c.scope.item k.kind id) = s.item k (c.scope.item k.kind id)) :
    Coherent c s' where
  workflow hknown := by rw [hworkflow]; exact h.workflow hknown
  unknown := h.unknown
  entry k id entry hentry := by rw [hitem]; exact h.entry k id entry hentry
  listed k hlisted id record hrecord := by
    rw [hitem] at hrecord
    exact h.listed k hlisted id record hrecord

theorem setEntry (h : Coherent c s) {entry : Option k.Record}
    (hworkflow : s'.workflow c.scope = s.workflow c.scope)
    (hentry : s'.item k (c.scope.item k.kind id) = entry) (hother : ∀ id', id' ≠ id →
      s'.item k (c.scope.item k.kind id') = s.item k (c.scope.item k.kind id'))
    (hkind : ∀ k' id', k' ≠ k →
      s'.item k' (c.scope.item k'.kind id') = s.item k' (c.scope.item k'.kind id')) :
    Coherent (c.setEntry k id entry) s' where
  workflow hknown := by
    rw [RunScopedCache.setEntry_scope, hworkflow]
    exact h.workflow hknown
  unknown := h.unknown
  entry k' id' entry' hlookup := by
    rw [RunScopedCache.setEntry_scope]
    by_cases hk : k' = k
    · subst hk
      rw [RunScopedCache.lookup_setEntry] at hlookup
      split at hlookup
      · next heq =>
          rw [heq, hentry]
          exact Option.some.inj hlookup
      · next hne =>
          rw [hother id' hne]
          exact h.entry k' id' entry' hlookup
    · rw [RunScopedCache.shelf_setEntry_ne entry hk] at hlookup
      rw [hkind k' id' hk]
      exact h.entry k' id' entry' hlookup
  listed k' hlisted id' record hrecord := by
    rw [RunScopedCache.listed_setEntry] at hlisted
    rw [RunScopedCache.setEntry_scope] at hrecord
    by_cases hk : k' = k
    · subst hk
      rw [RunScopedCache.lookup_setEntry]
      split
      · next heq =>
          rw [heq, hentry] at hrecord
          rw [hrecord]
      · next hne =>
          rw [hother id' hne] at hrecord
          exact h.listed k' hlisted id' record hrecord
    · rw [RunScopedCache.shelf_setEntry_ne entry hk]
      rw [hkind k' id' hk] at hrecord
      exact h.listed k' hlisted id' record hrecord

theorem read (h : Coherent c s) :
    Coherent (c.setEntry k id (s.item k (c.scope.item k.kind id))) s :=
  h.setEntry rfl rfl (fun _ _ => rfl) fun _ _ _ => rfl

theorem setWorkflow (h : Coherent c s)
    (hitem : ∀ k id, s'.item k (c.scope.item k.kind id) = s.item k (c.scope.item k.kind id)) :
    Coherent (c.setWorkflow (s'.workflow c.scope)) s' where
  workflow _ := rfl
  unknown hknown := by cases hknown
  entry k id entry hentry := by
    change s'.item k (c.scope.item k.kind id) = entry
    rw [hitem]
    exact h.entry k id entry hentry
  listed k hlisted id record hrecord := by
    change s'.item k (c.scope.item k.kind id) = some record at hrecord
    rw [hitem] at hrecord
    exact h.listed k hlisted id record hrecord

theorem setEntries (h : Coherent c s) {records : List k.Record}
    (hrecords : ∀ record ∈ records, ∃ id, s.item k (c.scope.item k.kind id) = some record) :
    Coherent (c.setEntries k records) s := by
  induction records generalizing c with
  | nil => exact h
  | cons record records ih =>
    obtain ⟨id, hitem⟩ := hrecords record (by simp)
    have hid : (k.key record).id = id := Records.key_id_of_item hitem
    have hread : Coherent (c.setEntry k (k.key record).id (some record)) s := by
      rw [hid, ← hitem]
      exact h.read
    exact ih hread fun record' hmem => hrecords record' (by simp [hmem])

end Coherent

namespace RunScopedCache

variable {c : RunScopedCache} {s : Records} {k k' : StoreKind}

@[simp] theorem setEntries_scope (records : List k.Record) :
    (c.setEntries k records).scope = c.scope := by
  induction records generalizing c with
  | nil => rfl
  | cons record records ih => exact ih

@[simp] theorem setListed_scope (records : List k.Record) :
    (c.setListed k records).scope = c.scope := setEntries_scope records

@[simp] theorem shelf_setEntries_ne (records : List k.Record) (hk : k' ≠ k) :
    (c.setEntries k records).shelf k' = c.shelf k' := by
  induction records generalizing c with
  | nil => rfl
  | cons record records ih =>
    rw [setEntries, ih]
    exact shelf_setEntry_ne _ hk

@[simp] theorem entries_setListed (records : List k.Record) :
    ((c.setListed k records).shelf k').entries = ((c.setEntries k records).shelf k').entries := by
  by_cases hk : k' = k
  · subst hk
    simp only [setListed, update_self]
  · simp only [setListed, update_of_ne hk]

theorem lookup_setEntries_cases {records : List k.Record} {id : String} {entry : Option k.Record}
    (h : ((c.setEntries k records).shelf k).entries.lookup id = some entry) :
    (∃ record ∈ records, (k.key record).id = id ∧ entry = some record) ∨
      (c.shelf k).entries.lookup id = some entry := by
  induction records generalizing c with
  | nil => exact Or.inr h
  | cons first rest ih =>
    obtain ⟨record, hmem, hrest⟩ | hlookup := ih h
    · exact Or.inl ⟨record, List.mem_cons_of_mem _ hmem, hrest⟩
    · rw [lookup_setEntry] at hlookup
      split at hlookup
      · next hid =>
          exact Or.inl ⟨first, List.mem_cons_self, hid.symm, (Option.some.inj hlookup).symm⟩
      · exact Or.inr hlookup

theorem lookup_setEntries_kept {id : String} {entry : Option k.Record} (records : List k.Record)
    (h : (c.shelf k).entries.lookup id = some entry) :
    ∃ entry', ((c.setEntries k records).shelf k).entries.lookup id = some entry' := by
  induction records generalizing c entry with
  | nil => exact ⟨entry, h⟩
  | cons first rest ih =>
    by_cases hid : id = (k.key first).id
    · refine ih (?_ : _ = some (some first))
      rw [lookup_setEntry, if_pos hid]
    · refine ih (?_ : _ = some entry)
      rw [lookup_setEntry, if_neg hid]
      exact h

theorem lookup_setEntries {records : List k.Record} {id : String} {record : k.Record}
    (hrecords : ∀ record' ∈ records, (k.key record').id = id → record' = record)
    (h : record ∈ records ∧ (k.key record).id = id ∨
      (c.shelf k).entries.lookup id = some (some record)) :
    ((c.setEntries k records).shelf k).entries.lookup id = some (some record) := by
  induction records generalizing c with
  | nil =>
    obtain ⟨hmem, -⟩ | hlookup := h
    · cases hmem
    · exact hlookup
  | cons first rest ih =>
    apply ih (fun record' hmem => hrecords record' (by simp [hmem]))
    rw [lookup_setEntry]
    by_cases hfirst : id = (k.key first).id
    · right
      rw [if_pos hfirst, hrecords first (by simp) hfirst.symm]
    · rw [if_neg hfirst]
      obtain ⟨hmem, hid⟩ | hlookup := h
      · left
        refine ⟨?_, hid⟩
        obtain heq | hrest := List.mem_cons.1 hmem
        · rw [← heq] at hfirst
          exact absurd hid.symm hfirst
        · exact hrest
      · exact Or.inr hlookup

end RunScopedCache

namespace Coherent

variable {c : RunScopedCache} {s : Records} {k : StoreKind}

section

variable (h : Coherent c s)

include h

theorem setListed {records : List k.Record}
    (hrecords : ∀ record, record ∈ records ↔ ∃ id, s.item k (c.scope.item k.kind id) = some record) :
    Coherent (c.setListed k records) s := by
  have hfilled := h.setEntries fun record hmem => (hrecords record).1 hmem
  refine ⟨hfilled.workflow, hfilled.unknown, ?_, ?_⟩
  · intro k' id entry hentry
    apply hfilled.entry
    by_cases hk : k' = k
    · subst hk
      simpa [RunScopedCache.setListed] using hentry
    · simpa [RunScopedCache.setListed, update_of_ne hk] using hentry
  · intro k' hlisted id record hrecord
    rw [RunScopedCache.setListed_scope] at hrecord
    by_cases hk : k' = k
    · subst hk
      simp only [RunScopedCache.setListed, update_self]
      apply RunScopedCache.lookup_setEntries
      · intro record' hmem hid
        obtain ⟨id', hitem⟩ := (hrecords record').1 hmem
        have hsame : id' = id := (Records.key_id_of_item hitem).symm.trans hid
        rw [hsame, hrecord] at hitem
        exact (Option.some.inj hitem).symm
      · left
        exact ⟨(hrecords record).2 ⟨id, hrecord⟩, Records.key_id_of_item hrecord⟩
    · simp only [RunScopedCache.setListed, update_of_ne hk] at hlisted ⊢
      apply hfilled.listed k' hlisted
      rw [RunScopedCache.setEntries_scope]
      exact hrecord

theorem cachedRecords_perm (hlisted : (c.shelf k).listed = true)
    (filter : k.Filter) : (c.cachedRecords k filter).Perm (s.listed k c.scope filter) := by
  have hentry : ∀ e ∈ (c.shelf k).entries.entries, ∀ record, e.2 = some record →
      s.item k (c.scope.item k.kind e.1) = some record := by
    intro e he record hrecord
    rw [← hrecord]
    exact h.entry k e.1 e.2 (AList.mem_lookup_iff.2 he)
  refine (List.perm_ext_iff_of_nodup ?_ (s.nodup_listed k c.scope filter)).2 ?_
  · apply List.Nodup.filter
    rw [List.Nodup, List.pairwise_filterMap]
    refine (List.NodupKeys.nodup (c.shelf k).entries.nodupKeys).imp_of_mem ?_
    intro e e' he he' hne record hrecord record' hrecord' hsame
    subst hsame
    apply hne
    have hid : e.1 = e'.1 := (Records.key_id_of_item (hentry e he record hrecord)).symm.trans
      (Records.key_id_of_item (hentry e' he' record hrecord'))
    obtain ⟨id, entry⟩ := e
    obtain ⟨id', entry'⟩ := e'
    simp only at hid hrecord hrecord'
    rw [hid, hrecord, hrecord']
  · intro record
    rw [RunScopedCache.cachedRecords, List.mem_filter, List.mem_filterMap, Records.mem_listed]
    refine and_congr ?_ Iff.rfl
    constructor
    · intro hmem
      obtain ⟨e, he, hrecord⟩ := hmem
      exact ⟨e.1, hentry e he record hrecord⟩
    · intro hmem
      obtain ⟨id, hitem⟩ := hmem
      exact ⟨⟨id, some record⟩, AList.mem_lookup_iff.1 (h.listed k hlisted id record hitem), rfl⟩

theorem write {s' : Records} {key : ItemKey k.kind} {entry : Option k.Record}
    (hspelled : SpelledAs c.scope key.run) (hworkflow : ∀ run, s'.workflow run = s.workflow run)
    (hself : s'.item k key = entry)
    (hother : ∀ key' : ItemKey k.kind, key'.withDefaults ≠ key.withDefaults →
      s'.item k key' = s.item k key')
    (hkind : ∀ k' (key' : ItemKey k'.kind), k' ≠ k → s'.item k' key' = s.item k' key') :
    Coherent (if c.inScope key.run then c.setEntry k key.id entry else c) s' := by
  split
  · next hscope =>
      have hitem := RunScopedCache.item_of_inScope hscope
      apply h.setEntry (hworkflow _)
      · rw [← hitem, hself]
      · intro id' hid
        apply hother
        intro heq
        apply hid
        simpa [WorkflowKey.item] using congrArg ItemKey.id heq
      · intro k' id' hk
        exact hkind k' _ hk
  · next hscope =>
      apply h.congr (hworkflow _)
      intro k' id
      by_cases hk : k' = k
      · subst hk
        apply hother
        intro heq
        apply hscope
        apply RunScopedCache.inScope_iff.2
        apply hspelled
        have hrun := congrArg ItemKey.run heq
        rw [ItemKey.run_withDefaults, ItemKey.run_withDefaults] at hrun
        exact hrun.symm
      · exact hkind k' _ hk

theorem put {record : k.Record}
    (hstored : k.Stored (k.key record).withDefaults record)
    (hspelled : SpelledAs c.scope (k.key record).run) :
    Coherent (if c.inScope (k.key record).run then c.setEntry k (k.key record).id (some record) else c)
      (s.setItem k (k.key record).withDefaults record hstored) := by
  refine h.write hspelled (fun _ => rfl) ?_ ?_ ?_
  · rw [Records.item_setItem, if_pos rfl]
  · intro key' hne
    rw [Records.item_setItem, if_neg hne]
  · intro k' key' hk
    exact Records.item_setItem_ne hstored hk key'

theorem erase {key : ItemKey k.kind} {left : Bool}
    (hspelled : SpelledAs c.scope key.run) :
    Coherent (if c.inScope key.run then c.setEntry k key.id none else c)
      (s.eraseItem k key.withDefaults left) := by
  refine h.write hspelled (fun _ => rfl) ?_ ?_ ?_
  · rw [Records.item_eraseItem, if_pos rfl]
  · intro key' hne
    rw [Records.item_eraseItem, if_neg hne]
  · intro k' key' hk
    exact Records.item_eraseItem_ne hk key'

theorem writeWorkflow {s' : Records} {key : WorkflowKey}
    {entry : Option WorkflowRecord} (hspelled : SpelledAs c.scope key)
    (hitem : ∀ k (key' : ItemKey k.kind), s'.item k key' = s.item k key')
    (hself : s'.workflow key = entry)
    (hother : ∀ key' : WorkflowKey, key'.withDefaults ≠ key.withDefaults →
      s'.workflow key' = s.workflow key') :
    Coherent (if c.inScope key then c.setWorkflow entry else c) s' := by
  split
  · next hscope =>
      rw [← hself, RunScopedCache.inScope_iff.1 hscope]
      exact h.setWorkflow fun k id => hitem k _
  · next hscope =>
      apply h.congr _ fun k id => hitem k _
      apply hother
      intro heq
      exact hscope (RunScopedCache.inScope_iff.2 (hspelled heq.symm))

end

end Coherent

end Temporaless
