import Temporaless.Framework.System
import Temporaless.Workflow.CacheTransparency

/-!
# The cache under concurrent calls

Goroutines of one invocation get, put and list records through one cache. A call drops the lock
around its call of the inner store, so what it enters into the cache may be overtaken by a put. A
read is fresh when no put of its key that had returned before it started is newer in the log of the
store than what it answers.
-/

namespace Temporaless

open Effects Function

namespace CacheRace

structure Applied where
  k : StoreKind
  key : ItemKey k.kind
  record : k.Record

abbrev AnyKey := (k : StoreKind) × ItemKey k.kind

/-- The cache, the store and the ghosts: the puts in the order in which the store applied them, for
each goroutine the put of its call, for each key how far in the log the puts go that have
returned, and for each goroutine what had returned when its call started. -/
structure Shared (ι : Type) where
  records : Records
  memory : Memory
  log : List Applied
  applied : ι → Option Nat
  returned : AnyKey → Nat
  seen : ι → AnyKey → Nat

abbrev Outcome := (op : StoreOp) × op.Reply

def Concurrent : StoreOp → Prop
  | .get _ _ | .put _ _ | .list _ _ _ => True
  | .getWorkflow _ | .putWorkflow _ | .deleteWorkflow _ | .delete _ _ => False

def cacheCode (op : StoreOp) : Program flowSignature Outcome :=
  (CachedStore.call op).run.bind fun r => .done ⟨op, r⟩

variable {ι : Type} [DecidableEq ι]

namespace Shared

variable (s : Shared ι)

/-- The store applies a call of goroutine `i`. -/
def apply (i : ι) : StoreOp → Shared ι
  | .put k record =>
    let after := { s with records := (s.records.step (.put k record)).2 }
    match (s.records.step (.put k record)).1 with
    | .ok _ =>
      { after with
        log := s.log ++ [⟨k, k.key record, record⟩]
        applied := update s.applied i (some s.log.length) }
    | .error _ => after
  | op => { s with records := (s.records.step op).2 }

/-- One call of goroutine `i`: a call of the inner store, or a section under the lock. -/
def act (i : ι) : (op : FlowOp) → op.Reply → Shared ι → Prop
  | .store op, r, s' => op.Agree r (s.records.step op).1 ∧ s' = s.apply i op
  | .recollect, m, s' => m = s.memory ∧ s' = s
  | .remember change, _, s' => s' = { s with memory := change s.memory }
  | .now, _, _ => False

def onBegin (i : ι) : Shared ι :=
  { s with
    applied := update s.applied i none
    seen := update s.seen i s.returned }

def onReturn (i : ι) (outcome : Outcome) : Shared ι :=
  match outcome, s.applied i with
  | ⟨.put k record, .ok _⟩, some n =>
    { s with
      returned := update s.returned ⟨k, k.key record⟩
        (max (s.returned ⟨k, k.key record⟩) (n + 1)) }
  | _, _ => s

end Shared

/-- The goroutines of one invocation over one cache. -/
def cacheRace (ι : Type) [DecidableEq ι] (allowed : Shared ι → FlowOp → Prop) :
    System flowSignature ι (Shared ι) Outcome where
  begins i s p s' := ∃ op, Concurrent op ∧ p = cacheCode op ∧ s' = s.onBegin i
  acts i s op r s' := allowed s op ∧ s.act i op r s'
  returns i s outcome s' := s' = s.onReturn i outcome
  crashes _ _ _ := False

/-- Any store with a cache that agrees with it, and no put so far. -/
structure Start (s : Shared ι) : Prop where
  coherent : Coherent s.memory.cache s.records
  log : s.log = []
  returned : ∀ key, s.returned key = 0

/-- The entry is the record of a put of the key, at position `m - 1` of the log or later. -/
def NotOlder (log : List Applied) (k : StoreKind) (key : ItemKey k.kind) (m : Nat)
    (entry : Option k.Record) : Prop :=
  ∃ (j : Nat) (key' : ItemKey k.kind) (record : k.Record), m ≤ j + 1 ∧
    log[j]? = some ⟨k, key', record⟩ ∧ key'.withDefaults = key.withDefaults ∧ entry = some record

/-- The answer is not older than the puts of its keys that had returned when the call started. A
filtered listing leaves out the records that do not match. -/
def Fresh (log : List Applied) (seen : AnyKey → Nat) : Outcome → Prop
  | ⟨.get k key, .ok entry⟩ => 0 < seen ⟨k, key⟩ → NotOlder log k key (seen ⟨k, key⟩) entry
  | ⟨.list k run filter, .ok records⟩ =>
    ∀ key : ItemKey k.kind, key.run = run → 0 < seen ⟨k, key⟩ →
      ∃ record, NotOlder log k key (seen ⟨k, key⟩) (some record) ∧
        (∀ record' ∈ records, (k.key record').withDefaults = key.withDefaults → record' = record) ∧
        (k.admits filter record = true → record ∈ records)
  | _ => True

/-- What a goroutine enters into the cache is what the store holds at that moment, and no timer is
put as canceled. -/
def Settled (s : Shared ι) : FlowOp → Prop
  | .store (.put k record) => k.cancels record = false
  | .remember change => ∀ k id entry,
    ((change s.memory).cache.shelf k).entries.lookup id = some entry →
      (s.memory.cache.shelf k).entries.lookup id = some entry ∨
        s.records.item k (s.memory.cache.scope.item k.kind id) = entry
  | _ => True

section Order

variable {log : List Applied} {k : StoreKind} {key : ItemKey k.kind} {m : Nat}
  {entry : Option k.Record}

theorem NotOlder.append (h : NotOlder log k key m entry) (rest : List Applied) :
    NotOlder (log ++ rest) k key m entry := by
  obtain ⟨j, key', record, hm, hlog, hkey, hentry⟩ := h
  refine ⟨j, key', record, hm, ?_, hkey, hentry⟩
  have hj : j < log.length := (List.getElem?_eq_some_iff.1 hlog).1
  rw [List.getElem?_append_left hj]
  exact hlog

theorem NotOlder.weaken (h : NotOlder log k key m entry) {m' : Nat} (hm' : m' ≤ m) :
    NotOlder log k key m' entry := by
  obtain ⟨j, key', record, hm, hrest⟩ := h
  exact ⟨j, key', record, by omega, hrest⟩

theorem NotOlder.congr (h : NotOlder log k key m entry) {key' : ItemKey k.kind}
    (hkey : key.withDefaults = key'.withDefaults) : NotOlder log k key' m entry := by
  obtain ⟨j, key'', record, hm, hlog, hsame, hentry⟩ := h
  exact ⟨j, key'', record, hm, hlog, hsame.trans hkey, hentry⟩

theorem notOlder_last (record : k.Record) (hm : m ≤ log.length + 1) :
    NotOlder (log ++ [⟨k, key, record⟩]) k key m (some record) := by
  refine ⟨log.length, key, record, hm, ?_, rfl, rfl⟩
  rw [List.getElem?_append_right (le_refl _), Nat.sub_self]
  rfl

theorem NotOlder.bound (h : NotOlder log k key m entry) : m ≤ log.length := by
  obtain ⟨j, key', record, hm, hlog, -, -⟩ := h
  have hj : j < log.length := (List.getElem?_eq_some_iff.1 hlog).1
  omega

theorem NotOlder.of_append_singleton {a : Applied} (h : NotOlder (log ++ [a]) k key m entry) :
    NotOlder log k key m entry ∨
      ∃ key' record, a = ⟨k, key', record⟩ ∧ key'.withDefaults = key.withDefaults := by
  obtain ⟨j, key', record, hm, hlog, hkey, hentry⟩ := h
  by_cases hj : j < log.length
  · rw [List.getElem?_append_left hj] at hlog
    exact Or.inl ⟨j, key', record, hm, hlog, hkey, hentry⟩
  · right
    rw [List.getElem?_append_right (by omega)] at hlog
    have hmem := List.mem_of_getElem? hlog
    rw [List.mem_singleton] at hmem
    exact ⟨key', record, hmem.symm, hkey⟩

end Order

def Shared.entry (s : Shared ι) (k : StoreKind) (id : String) : Option (Option k.Record) :=
  (s.memory.cache.shelf k).entries.lookup id

def Shared.own (s : Shared ι) (k : StoreKind) (id : String) : ItemKey k.kind :=
  s.memory.cache.scope.item k.kind id

/-- The store holds the newest put of each key, and the cache nothing older than the puts that have
returned. -/
structure Sane (s : Shared ι) : Prop where
  newest : ∀ k key m entry, NotOlder s.log k key m entry →
    NotOlder s.log k key m (s.records.item k key)
  logged : ∀ k key, 0 < s.returned ⟨k, key⟩ →
    ∃ entry, NotOlder s.log k key (s.returned ⟨k, key⟩) entry
  cached : ∀ k id, 0 < s.returned ⟨k, s.own k id⟩ →
    ∃ entry, s.entry k id = some entry ∧ NotOlder s.log k (s.own k id) (s.returned ⟨k, s.own k id⟩) entry
  filed : ∀ k id record, s.entry k id = some (some record) → (k.key record).id = id

/-- What the steps of the other goroutines leave to goroutine `i`. -/
structure Rely (i : ι) (s s' : Shared ι) : Prop where
  scope : s'.memory.cache.scope = s.memory.cache.scope
  log : ∀ k key m entry, NotOlder s.log k key m entry → NotOlder s'.log k key m entry
  returned : ∀ key, s.returned key ≤ s'.returned key
  seen : s'.seen i = s.seen i
  applied : s'.applied i = s.applied i
  cached : ∀ k id m entry, s.entry k id = some entry → NotOlder s.log k (s.own k id) m entry →
    ∃ entry', s'.entry k id = some entry' ∧ NotOlder s'.log k (s.own k id) m entry'

omit [DecidableEq ι] in
theorem Rely.refl (i : ι) (s : Shared ι) : Rely i s s :=
  ⟨rfl, fun _ _ _ _ h => h, fun _ => le_refl _, rfl, rfl, fun _ _ _ entry h h' => ⟨entry, h, h'⟩⟩

omit [DecidableEq ι] in
theorem Rely.own {i : ι} {s s' : Shared ι} (h : Rely i s s') (k : StoreKind) (id : String) :
    s'.own k id = s.own k id := by
  rw [Shared.own, Shared.own, h.scope]

omit [DecidableEq ι] in
theorem Rely.trans {i : ι} {s s' s'' : Shared ι} (h : Rely i s s') (h' : Rely i s' s'') :
    Rely i s s'' := by
  refine ⟨h'.scope.trans h.scope, ?_, ?_, h'.seen.trans h.seen, h'.applied.trans h.applied, ?_⟩
  · intro k key m entry hentry
    exact h'.log k key m entry (h.log k key m entry hentry)
  · intro key
    exact (h.returned key).trans (h'.returned key)
  · intro k id m entry hlookup hentry
    obtain ⟨entry', hlookup', hentry'⟩ := h.cached k id m entry hlookup hentry
    rw [← h.own k id] at hentry' ⊢
    exact h'.cached k id m entry' hlookup' hentry'

/-- A step of goroutine `i` that the others can live with. -/
def Keeps (i : ι) (s s' : Shared ι) : Prop := Sane s' ∧ ∀ j, j ≠ i → Rely j s s'

omit [DecidableEq ι] in
theorem keeps_refl {i : ι} {s : Shared ι} (h : Sane s) : Keeps i s s := ⟨h, fun j _ => Rely.refl j s⟩

section Steps

variable {i : ι} {s s' : Shared ι} {k : StoreKind}

omit [DecidableEq ι] in
theorem cached_remember (h : Sane s) {change : Memory → Memory}
    (hkept : ∀ k id entry, s.entry k id = some entry →
      ∃ entry', ((change s.memory).cache.shelf k).entries.lookup id = some entry')
    (hsettled : Settled s (.remember change)) (k : StoreKind) (id : String) (m : Nat)
    (entry : Option k.Record) (hlookup : s.entry k id = some entry)
    (hentry : NotOlder s.log k (s.own k id) m entry) :
    ∃ entry', ((change s.memory).cache.shelf k).entries.lookup id = some entry' ∧
      NotOlder s.log k (s.own k id) m entry' := by
  obtain ⟨entry', hlookup'⟩ := hkept k id entry hlookup
  refine ⟨entry', hlookup', ?_⟩
  obtain hsame | hitem := hsettled k id entry' hlookup'
  · rw [Shared.entry, hsame] at hlookup
    rw [Option.some.inj hlookup]
    exact hentry
  · rw [← hitem]
    exact h.newest k (s.own k id) m entry hentry

omit [DecidableEq ι] in
theorem keeps_remember (h : Sane s) {change : Memory → Memory}
    (hscope : (change s.memory).cache.scope = s.memory.cache.scope)
    (hkept : ∀ k id entry, s.entry k id = some entry →
      ∃ entry', ((change s.memory).cache.shelf k).entries.lookup id = some entry')
    (hfiled : ∀ k id record,
      ((change s.memory).cache.shelf k).entries.lookup id = some (some record) → (k.key record).id = id)
    (hsettled : Settled s (.remember change)) : Keeps i s { s with memory := change s.memory } := by
  have hcached := cached_remember h hkept hsettled
  constructor
  · refine ⟨h.newest, h.logged, ?_, hfiled⟩
    intro k id hreturned
    have hown : Shared.own { s with memory := change s.memory } k id = s.own k id := by
      rw [Shared.own, Shared.own, hscope]
    rw [hown] at hreturned ⊢
    obtain ⟨entry, hlookup, hentry⟩ := h.cached k id hreturned
    exact hcached k id _ entry hlookup hentry
  · intro j _
    exact ⟨hscope, fun _ _ _ _ hentry => hentry, fun _ => le_refl _, rfl, rfl, hcached⟩

theorem apply_list (run : WorkflowKey) (filter : k.Filter) : s.apply i (.list k run filter) = s := rfl

theorem apply_put_error {record : k.Record} {err : Err} (h : k.accept record = .error err) :
    s.apply i (.put k record) = s := by
  simp only [Shared.apply, Records.step_put_error h]

theorem apply_put {record : k.Record} (h : k.accept record = .ok ())
    (hlive : k.cancels record = false) : s.apply i (.put k record) =
      { s with
        records := s.records.setItem k (k.key record).withDefaults record
          (StoreKind.stored_of_accept h hlive)
        log := s.log ++ [⟨k, k.key record, record⟩]
        applied := update s.applied i (some s.log.length) } := by
  simp only [Shared.apply, Records.step_put_live h hlive]

theorem keeps_put (h : Sane s) {record : k.Record} (haccept : k.accept record = .ok ())
    (hlive : k.cancels record = false) : Keeps i s (s.apply i (.put k record)) := by
  rw [apply_put haccept hlive]
  constructor
  · refine ⟨?_, ?_, ?_, h.filed⟩
    · intro k' key m entry hentry
      have hbound := hentry.bound
      rw [List.length_append, List.length_singleton] at hbound
      have hold := hentry.of_append_singleton
      by_cases hk : k' = k
      · subst hk
        by_cases hkey : key.withDefaults = (k'.key record).withDefaults
        · rw [Records.item_setItem, if_pos hkey]
          exact (notOlder_last record hbound).congr hkey.symm
        · rw [Records.item_setItem, if_neg hkey]
          apply NotOlder.append
          apply h.newest k' key m entry
          apply hold.resolve_right
          intro hlast
          obtain ⟨key', record', heq, hsame⟩ := hlast
          cases heq
          exact hkey hsame.symm
      · rw [Records.item_setItem_ne _ hk]
        apply NotOlder.append
        apply h.newest k' key m entry
        apply hold.resolve_right
        intro hlast
        obtain ⟨key', record', heq, -⟩ := hlast
        cases heq
        exact hk rfl
    · intro k' key hreturned
      obtain ⟨entry, hentry⟩ := h.logged k' key hreturned
      exact ⟨entry, hentry.append _⟩
    · intro k' id hreturned
      obtain ⟨entry, hlookup, hentry⟩ := h.cached k' id hreturned
      exact ⟨entry, hlookup, hentry.append _⟩
  · intro j hj
    refine ⟨rfl, fun _ _ _ _ hentry => hentry.append _, fun _ => le_refl _, rfl, ?_, ?_⟩
    · exact update_of_ne hj _ _
    · intro k' id m entry hlookup hentry
      exact ⟨entry, hlookup, hentry.append _⟩

omit [DecidableEq ι] in
theorem keeps_setEntry (h : Sane s) {id : String} {entry : Option k.Record}
    (hid : ∀ record, entry = some record → (k.key record).id = id)
    (hsettled : Settled s (.remember (Memory.changeCache (·.setEntry k id entry)))) :
    Keeps i s { s with memory := s.memory.changeCache (·.setEntry k id entry) } := by
  refine keeps_remember h rfl ?_ ?_ hsettled
  · intro k' id' entry' hlookup
    by_cases hk : k' = k
    · subst hk
      change ∃ entry', ((s.memory.cache.setEntry k' id entry).shelf k').entries.lookup id' = _
      rw [RunScopedCache.lookup_setEntry]
      split
      · exact ⟨entry, rfl⟩
      · exact ⟨entry', hlookup⟩
    · change ∃ entry', ((s.memory.cache.setEntry k id entry).shelf k').entries.lookup id' = _
      rw [RunScopedCache.shelf_setEntry_ne entry hk]
      exact ⟨entry', hlookup⟩
  · intro k' id' record hlookup
    change ((s.memory.cache.setEntry k id entry).shelf k').entries.lookup id' = _ at hlookup
    by_cases hk : k' = k
    · subst hk
      rw [RunScopedCache.lookup_setEntry] at hlookup
      split at hlookup
      · next heq =>
          rw [heq]
          exact hid record (Option.some.inj hlookup)
      · exact h.filed k' id' record hlookup
    · rw [RunScopedCache.shelf_setEntry_ne entry hk] at hlookup
      exact h.filed k' id' record hlookup

omit [DecidableEq ι] in
theorem keeps_setListed (h : Sane s) {records : List k.Record}
    (hsettled : Settled s (.remember (Memory.changeCache (·.setListed k records)))) :
    Keeps i s { s with memory := s.memory.changeCache (·.setListed k records) } := by
  refine keeps_remember h (RunScopedCache.setListed_scope records) ?_ ?_ hsettled
  · intro k' id entry hlookup
    change ∃ entry', ((s.memory.cache.setListed k records).shelf k').entries.lookup id = _
    rw [RunScopedCache.entries_setListed]
    by_cases hk : k' = k
    · subst hk
      exact RunScopedCache.lookup_setEntries_kept records hlookup
    · rw [RunScopedCache.shelf_setEntries_ne records hk]
      exact ⟨entry, hlookup⟩
  · intro k' id record hlookup
    change ((s.memory.cache.setListed k records).shelf k').entries.lookup id = _ at hlookup
    rw [RunScopedCache.entries_setListed] at hlookup
    by_cases hk : k' = k
    · subst hk
      obtain ⟨record', -, hid, heq⟩ | hold := RunScopedCache.lookup_setEntries_cases hlookup
      · rw [Option.some.inj heq]
        exact hid
      · exact h.filed k' id record hold
    · rw [RunScopedCache.shelf_setEntries_ne records hk] at hlookup
      exact h.filed k' id record hlookup

end Steps

/-- What goroutine `i` knows when its call ends. -/
structure Ended (i : ι) (outcome : Outcome) (s : Shared ι) : Prop where
  fresh : Fresh s.log (s.seen i) outcome
  put : ∀ k record a, outcome = ⟨.put k record, .ok a⟩ → ∃ n, s.applied i = some n ∧
    (∃ entry, NotOlder s.log k (k.key record) (n + 1) entry) ∧
    (s.memory.cache.inScope (k.key record).run = true → ∃ entry,
      s.entry k (k.key record).id = some entry ∧ NotOlder s.log k (k.key record) (n + 1) entry)

/-- What process `i` has seen is not ahead of what was returned. -/
def Behind (i : ι) (s : Shared ι) : Prop := ∀ key, s.seen i key ≤ s.returned key

section Calls

variable {i : ι} {s s' : Shared ι} {k : StoreKind}

omit [DecidableEq ι] in
theorem Behind.rely (h : Behind i s) (hR : Rely i s s') : Behind i s' := by
  intro key
  rw [hR.seen]
  exact (h key).trans (hR.returned key)

omit [DecidableEq ι] in
theorem Fresh.rely {outcome : Outcome} (h : Fresh s.log (s.seen i) outcome) (hR : Rely i s s') :
    Fresh s'.log (s'.seen i) outcome := by
  rw [hR.seen]
  obtain ⟨op, r⟩ := outcome
  cases r with
  | error err => cases op <;> trivial
  | ok a =>
    cases op with
    | get k key =>
      intro hseen
      exact hR.log _ _ _ _ (h hseen)
    | list k run filter =>
      intro key hrun hseen
      obtain ⟨record, hrecord, hrest⟩ := h key hrun hseen
      exact ⟨record, hR.log _ _ _ _ hrecord, hrest⟩
    | getWorkflow | putWorkflow | deleteWorkflow | put | delete => trivial

omit [DecidableEq ι] in
theorem Ended.rely {outcome : Outcome} (h : Ended i outcome s) (hR : Rely i s s') :
    Ended i outcome s' := by
  refine ⟨h.fresh.rely hR, ?_⟩
  intro k record a hput
  obtain ⟨n, hn, ⟨entry, hentry⟩, hcached⟩ := h.put k record a hput
  refine ⟨n, hR.applied.trans hn, ⟨entry, hR.log _ _ _ _ hentry⟩, ?_⟩
  intro hscope
  have hin : s.memory.cache.inScope (k.key record).run = true := by
    rw [RunScopedCache.inScope_iff] at hscope ⊢
    rw [hscope, hR.scope]
  obtain ⟨entry, hlookup, hentry⟩ := hcached hin
  have hown : s.own k (k.key record).id = k.key record := (RunScopedCache.item_of_inScope hin).symm
  rw [← hown] at hentry
  obtain ⟨entry', hlookup', hentry'⟩ := hR.cached k _ _ entry hlookup hentry
  rw [hown] at hentry'
  exact ⟨entry', hlookup', hentry'⟩

omit [DecidableEq ι] in
theorem fresh_item (h : Sane s) (hb : Behind i s) (key : ItemKey k.kind)
    (hseen : 0 < s.seen i ⟨k, key⟩) :
    NotOlder s.log k key (s.seen i ⟨k, key⟩) (s.records.item k key) := by
  have hle := hb ⟨k, key⟩
  obtain ⟨entry, hentry⟩ := h.logged k key (by omega)
  exact (h.newest k key _ entry hentry).weaken hle

omit [DecidableEq ι] in
theorem fresh_listed (h : Sane s) (hb : Behind i s) {run : WorkflowKey} {filter : k.Filter}
    {records : List k.Record} (hperm : records.Perm (s.records.listed k run filter)) :
    Fresh s.log (s.seen i) ⟨.list k run filter, .ok records⟩ := by
  intro key hrun hseen
  have hitem : key = run.item k.kind key.id := by
    rw [← hrun]
    rfl
  have hnot := fresh_item h hb key hseen
  obtain ⟨j, key', record, hj, hlog, hkey', hrecord⟩ := hnot
  refine ⟨record, ⟨j, key', record, hj, hlog, hkey', rfl⟩, ?_, ?_⟩
  · intro record' hmem hkey
    obtain ⟨⟨id, hid⟩, -⟩ := Records.mem_listed.1 (hperm.mem_iff.1 hmem)
    have hsame := (Records.stored_of_item hid).key.symm.trans hkey
    rw [← Records.item_withDefaults, hsame, Records.item_withDefaults, hrecord] at hid
    exact (Option.some.inj hid).symm
  · intro hadmits
    apply hperm.mem_iff.2
    apply Records.mem_listed.2
    refine ⟨⟨key.id, ?_⟩, hadmits⟩
    rw [← hitem, hrecord]

/-- Calls of goroutine `i` beside the others. -/
abbrev spec (i : ι) : CallSpec flowSignature (Shared ι) :=
  .amid Sane (fun s s' => s = s' ∨ Rely i s s') ((cacheRace ι Settled).acts i)
    fun s _ _ s' => Keeps i s s'

omit [DecidableEq ι] in
theorem rely_of_or (h : s = s' ∨ Rely i s s') : Rely i s s' := by
  rcases h with rfl | h
  · exact Rely.refl i s
  · exact h

theorem ends_recollect_amid {Q : Except Err Memory → Shared ι → Prop}
    (hQ : ∀ s', Rely i s s' → Sane s' → Q (.ok s'.memory) s') : ends (spec i) recollect Q s := by
  rw [ends_recollect]
  intro s₁ hR hI r s₂ hact
  obtain ⟨-, rfl, rfl⟩ := hact
  exact ⟨keeps_refl hI, hQ s₂ (rely_of_or hR) hI⟩

theorem ends_get_amid (key : ItemKey k.kind) {Q : StoreOp.Reply (.get k key) → Shared ι → Prop}
    (hQ : ∀ s', Rely i s s' → Sane s' → Q (key.validate.map fun _ => s'.records.item k key) s') :
    ends (spec i) (callStore (.get k key)) Q s := by
  rw [ends_callStore]
  intro s₁ hR hI r s₂ hact
  obtain ⟨-, hagree, rfl⟩ := hact
  have hr : r = key.validate.map fun _ => s₁.records.item k key := hagree.eq (by simp)
  rw [hr]
  exact ⟨keeps_refl hI, hQ s₁ (rely_of_or hR) hI⟩

theorem ends_loadItem_amid (hb : Behind i s) (key : ItemKey k.kind)
    {Q : Except Err (Option k.Record) → Shared ι → Prop}
    (hQ : ∀ s' r, Rely i s s' → Sane s' → Behind i s' → Fresh s'.log (s'.seen i) ⟨.get k key, r⟩ →
      (∀ record, r = .ok (some record) → (k.key record).id = key.id) → Q r s') :
    ends (spec i) (CachedStore.loadItem k key) Q s := by
  rw [CachedStore.loadItem, ends_bind]
  apply ends_get_amid
  intro s₁ hR hI
  have hb₁ := hb.rely hR
  rcases hvalid : key.validate with err | u
  · exact hQ s₁ _ hR hI hb₁ trivial fun record h => by cases h
  · have hfresh : Fresh s₁.log (s₁.seen i) ⟨.get k key, .ok (s₁.records.item k key)⟩ :=
      fun hseen => fresh_item hI hb₁ key hseen
    rcases hitem : s₁.records.item k key with _ | record
    · rw [hitem] at hfresh
      apply ends_pure.2
      exact hQ s₁ _ hR hI hb₁ hfresh fun record h => by cases h
    · rw [hitem] at hfresh
      change ends _ (do
        let _ ← (liftM (k.validate record key) : FlowM Unit)
        pure (some record)) Q s₁
      rw [Records.item_valid hitem, ends_bind, ends_liftExcept]
      apply ends_pure.2
      refine hQ s₁ _ hR hI hb₁ hfresh ?_
      intro record' h
      cases h
      exact Records.key_id_of_item hitem

theorem ends_setEntry_amid {id : String} {entry : Option k.Record}
    (hid : ∀ record, entry = some record → (k.key record).id = id)
    {Q : Except Err Unit → Shared ι → Prop}
    (hQ : ∀ s₁ s', Rely i s s₁ → Settled s₁ (.remember (Memory.changeCache (·.setEntry k id entry))) →
      Sane s₁ → s' = { s₁ with memory := s₁.memory.changeCache (·.setEntry k id entry) } →
      Q (.ok ()) s') :
    ends (spec i) (remember (Memory.changeCache (·.setEntry k id entry))) Q s := by
  rw [ends_remember]
  intro s₁ hR hI r s₂ hact
  obtain ⟨hsettled, rfl⟩ := hact
  exact ⟨keeps_setEntry hI hid hsettled, hQ s₁ _ (rely_of_or hR) hsettled hI rfl⟩

omit [DecidableEq ι] in
theorem ended_of_fresh {op : StoreOp} {r : op.Reply} (h : Fresh s.log (s.seen i) ⟨op, r⟩)
    (hop : ∀ k record, op ≠ .put k record) : Ended i ⟨op, r⟩ s := by
  refine ⟨h, ?_⟩
  intro k record a heq
  cases heq
  exact absurd rfl (hop k record)

theorem ends_getItem_amid (hb : Behind i s) (key : ItemKey k.kind) :
    ends (spec i) (CachedStore.getItem k key) (fun r => Ended i ⟨.get k key, r⟩) s := by
  rw [CachedStore.getItem, ends_bind]
  apply ends_recollect_amid
  intro s₁ hR₁ hI₁
  have hb₁ := hb.rely hR₁
  dsimp only
  rcases hscope : s₁.memory.cache.inScope key.run with _ | _
  · rw [if_pos (by decide)]
    apply ends_loadItem_amid hb₁
    intro s₂ r _ _ _ hfresh _
    exact ended_of_fresh hfresh (by simp)
  · rw [if_neg (by decide)]
    have hown : s₁.own k key.id = key := (RunScopedCache.item_of_inScope hscope).symm
    have hcached : 0 < s₁.seen i ⟨k, key⟩ → ∃ entry, s₁.entry k key.id = some entry ∧
        NotOlder s₁.log k key (s₁.seen i ⟨k, key⟩) entry := by
      intro hseen
      have hle := hb₁ ⟨k, key⟩
      obtain ⟨entry, hlookup, hentry⟩ := hI₁.cached k key.id (by rw [hown]; omega)
      rw [hown] at hentry
      exact ⟨entry, hlookup, hentry.weaken hle⟩
    rcases hentry : (s₁.memory.cache.shelf k).entries.lookup key.id with _ | entry
    · rcases (s₁.memory.cache.shelf k).listed with _ | _
      · dsimp only
        rw [if_neg (by decide), CachedStore.reloadItem, ends_bind]
        apply ends_loadItem_amid hb₁
        intro s₂ r hR₂ hI₂ hb₂ hfresh hid
        rcases r with err | record
        · exact ended_of_fresh hfresh (by simp)
        · dsimp only
          rw [ends_bind]
          apply ends_setEntry_amid (fun record' h => hid record' (congrArg Except.ok h))
          intro s₃ s₄ hR₃ _ _ hs₄
          apply ends_pure.2
          apply ended_of_fresh _ (by simp)
          have hfresh₃ := hfresh.rely hR₃
          rw [hs₄]
          exact hfresh₃
      · dsimp only
        rw [if_pos rfl]
        apply ends_pure.2
        apply ended_of_fresh _ (by simp)
        intro hseen
        obtain ⟨entry, hlookup, -⟩ := hcached hseen
        rw [Shared.entry, hentry] at hlookup
        cases hlookup
    · dsimp only
      apply ends_pure.2
      apply ended_of_fresh _ (by simp)
      intro hseen
      obtain ⟨entry', hlookup, hnot⟩ := hcached hseen
      rw [Shared.entry, hentry] at hlookup
      rw [Option.some.inj hlookup]
      exact hnot

/-- A put of goroutine `i` that the store has applied. -/
def Wrote (i : ι) (record : k.Record) (s : Shared ι) : Prop :=
  ∃ n, s.applied i = some n ∧ NotOlder s.log k (k.key record) (n + 1) (some record)

omit [DecidableEq ι] in
theorem Wrote.rely {record : k.Record} (h : Wrote i record s) (hR : Rely i s s') :
    Wrote i record s' := by
  obtain ⟨n, hn, hentry⟩ := h
  exact ⟨n, hR.applied.trans hn, hR.log _ _ _ _ hentry⟩

omit [DecidableEq ι] in
theorem Wrote.ended {record : k.Record} (h : Wrote i record s)
    (hscope : s.memory.cache.inScope (k.key record).run = true →
      s.entry k (k.key record).id = some (some record)) : Ended i ⟨.put k record, .ok ()⟩ s := by
  refine ⟨trivial, ?_⟩
  intro k' record' a heq
  cases heq
  obtain ⟨n, hn, hentry⟩ := h
  exact ⟨n, hn, ⟨_, hentry⟩, fun hin => ⟨_, hscope hin, hentry⟩⟩

theorem ends_putItem_amid (record : k.Record) :
    ends (spec i) (CachedStore.putItem k record) (fun r => Ended i ⟨.put k record, r⟩) s := by
  rw [CachedStore.putItem, ends_bind, ends_callStore]
  intro s₁ _ hI₁ r s₂ hact
  obtain ⟨hlive, hagree, rfl⟩ := hact
  have hr := hagree.eq (by simp)
  rcases haccept : k.accept record with err | u
  · rw [Records.step_put_error haccept] at hr
    rw [hr, apply_put_error haccept]
    refine ⟨keeps_refl hI₁, trivial, ?_⟩
    intro k' record' a heq
    cases heq
  · rw [Records.step_put_live haccept hlive] at hr
    rw [hr]
    refine ⟨keeps_put hI₁ haccept hlive, ?_⟩
    have hwrote : Wrote i record (s₁.apply i (.put k record)) := by
      rw [apply_put haccept hlive]
      exact ⟨s₁.log.length, update_self _ _ _, notOlder_last record (le_refl _)⟩
    dsimp only
    rw [CachedStore.follow, ends_bind]
    apply ends_recollect_amid
    intro s₃ hR₃ _
    have hwrote₃ := hwrote.rely hR₃
    dsimp only
    rcases hscope : s₃.memory.cache.inScope (k.key record).run with _ | _
    · rw [if_neg (by decide)]
      apply ends_pure.2
      apply hwrote₃.ended
      intro hin
      rw [hscope] at hin
      cases hin
    · rw [if_pos rfl]
      apply ends_setEntry_amid
      · intro record' heq
        rw [← Option.some.inj heq]
      · intro s₄ s₅ hR₄ _ _ hs₅
        have hwrote₄ := hwrote₃.rely hR₄
        have hwrote₅ : Wrote i record s₅ := by
          rw [hs₅]
          exact hwrote₄
        apply hwrote₅.ended
        intro _
        rw [hs₅]
        change ((s₄.memory.cache.setEntry k _ (some record)).shelf k).entries.lookup _ = _
        rw [RunScopedCache.lookup_setEntry, if_pos rfl]

theorem ends_loadList_amid (hb : Behind i s) (run : WorkflowKey) (filter : k.Filter)
    {Q : Except Err (List k.Record) → Shared ι → Prop}
    (hQ : ∀ s' r, Rely i s s' → Sane s' → Behind i s' →
      Fresh s'.log (s'.seen i) ⟨.list k run filter, r⟩ →
      (∀ records, r = .ok records → records.Perm (s'.records.listed k run filter)) → Q r s') :
    ends (spec i) (CachedStore.loadList k run filter) Q s := by
  rw [CachedStore.loadList, ends_bind, ends_callStore]
  intro s₁ hR₁ hI₁ r s₂ hact
  obtain ⟨-, hagree, rfl⟩ := hact
  rw [apply_list]
  refine ⟨keeps_refl hI₁, ?_⟩
  have hR := rely_of_or hR₁
  have hb₁ := hb.rely hR
  change StoreOp.Agree _ r ((k.checkRun run).map fun _ => s₁.records.listed k run filter) at hagree
  rcases r with err | records
  · exact hQ s₁ _ hR hI₁ hb₁ trivial fun records h => by cases h
  · rcases hcheck : k.checkRun run with err | u
    · rw [hcheck] at hagree
      exact hagree.elim
    · rw [hcheck] at hagree
      have hperm : records.Perm (s₁.records.listed k run filter) := hagree
      change ends _ (do
        let _ ← (liftM (validateList k run filter records) : FlowM Unit)
        pure records) Q s₁
      rw [CachedBucket.validateList_of_perm hperm, ends_bind, ends_liftExcept]
      apply ends_pure.2
      refine hQ s₁ _ hR hI₁ hb₁ (fresh_listed hI₁ hb₁ hperm) ?_
      intro records' heq
      cases heq
      exact hperm

omit [DecidableEq ι] in
theorem fresh_cachedRecords (h : Sane s) (hb : Behind i s) (filter : k.Filter) :
    Fresh s.log (s.seen i)
      ⟨.list k s.memory.cache.scope filter, .ok (s.memory.cache.cachedRecords k filter)⟩ := by
  intro key hrun hseen
  have hown : s.own k key.id = key := by
    rw [Shared.own, ← hrun]
    rfl
  have hle := hb ⟨k, key⟩
  obtain ⟨entry, hlookup, hnot⟩ := h.cached k key.id (by rw [hown]; omega)
  rw [hown] at hnot
  obtain ⟨j, key', record, hj, hlog, hkey', rfl⟩ := hnot.weaken hle
  refine ⟨record, ⟨j, key', record, hj, hlog, hkey', rfl⟩, ?_, ?_⟩
  · intro record' hmem hkey
    obtain ⟨⟨id, entry⟩, hin, heq⟩ := List.mem_filterMap.1 (List.mem_of_mem_filter hmem)
    have hentry : s.entry k id = some (some record') := by
      rw [← heq]
      exact AList.mem_lookup_iff.2 hin
    have hid : id = key.id := by
      rw [← h.filed k id record' hentry]
      simpa using congrArg ItemKey.id hkey
    rw [hid, hlookup] at hentry
    exact (Option.some.inj (Option.some.inj hentry)).symm
  · intro hadmits
    apply List.mem_filter.2
    refine ⟨List.mem_filterMap.2 ⟨⟨key.id, some record⟩, ?_, rfl⟩, hadmits⟩
    exact AList.mem_lookup_iff.1 hlookup

theorem ends_listItems_amid (hb : Behind i s) (run : WorkflowKey) (filter : k.Filter) :
    ends (spec i) (CachedStore.listItems k run filter)
      (fun r => Ended i ⟨.list k run filter, r⟩) s := by
  rw [CachedStore.listItems, ends_bind]
  apply ends_recollect_amid
  intro s₁ hR₁ hI₁
  have hb₁ := hb.rely hR₁
  dsimp only
  rcases hscope : s₁.memory.cache.inScope run with _ | _
  · rw [if_pos (by decide)]
    apply ends_loadList_amid hb₁
    intro s₂ r _ _ _ hfresh _
    exact ended_of_fresh hfresh (by simp)
  · rw [if_neg (by decide)]
    rcases (s₁.memory.cache.shelf k).listed with _ | _
    · rw [if_neg (by decide), ends_bind]
      apply ends_loadList_amid hb₁
      intro s₂ r hR₂ hI₂ hb₂ hfresh hperm
      rcases r with err | records
      · exact ended_of_fresh hfresh (by simp)
      · dsimp only
        rcases k.isEverything filter with _ | _
        · rw [if_neg (by decide)]
          exact ends_pure.2 (ended_of_fresh hfresh (by simp))
        · rw [if_pos rfl, ends_bind, ends_remember]
          intro s₃ hR₃ hI₃ r s₄ hact
          obtain ⟨hsettled, rfl⟩ := hact
          refine ⟨keeps_setListed hI₃ hsettled, ends_pure.2 ?_⟩
          apply ended_of_fresh _ (by simp)
          have hfresh₃ := hfresh.rely (rely_of_or hR₃)
          exact hfresh₃
    · rw [if_pos rfl]
      apply ends_pure.2
      apply ended_of_fresh _ (by simp)
      rw [RunScopedCache.inScope_iff.1 hscope]
      exact fresh_cachedRecords hI₁ hb₁ filter

end Calls

section Runs

variable {i : ι} {s s' : Shared ι}

theorem behind_onBegin : Behind i (s.onBegin i) := by
  intro key
  change update s.seen i s.returned i key ≤ s.returned key
  rw [update_self]

omit [DecidableEq ι] in
theorem sane_of_start (h : Start s) : Sane s := by
  refine ⟨?_, ?_, ?_, ?_⟩
  · intro k key m entry hentry
    obtain ⟨j, key', record, -, hlog, -⟩ := hentry
    rw [h.log] at hlog
    cases hlog
  · intro k key hreturned
    rw [h.returned] at hreturned
    omega
  · intro k id hreturned
    rw [h.returned] at hreturned
    omega
  · intro k id record hentry
    exact Records.key_id_of_item (h.coherent.entry k id _ hentry)

theorem marked {P : Nat → Prop} {r n : Nat} (hold : 0 < r → P r) (hnew : P (n + 1)) :
    P (max r (n + 1)) := by
  rcases le_total r (n + 1) with hle | hle
  · rw [max_eq_right hle]
    exact hnew
  · rw [max_eq_left hle]
    exact hold (by omega)

omit [DecidableEq ι] in
theorem keeps_onReturn (h : Sane s) {outcome : Outcome} (hended : Ended i outcome s) :
    Keeps i s (s.onReturn i outcome) := by
  unfold Shared.onReturn
  split
  · next k record a n hn =>
      obtain ⟨n', hn', hlogged, hcached⟩ := hended.put k record a rfl
      rw [hn] at hn'
      cases hn'
      constructor
      · refine ⟨h.newest, ?_, ?_, h.filed⟩
        · intro k' key hreturned
          by_cases hkey : (⟨k', key⟩ : AnyKey) = ⟨k, k.key record⟩
          · cases hkey
            dsimp only
            rw [update_self]
            exact marked (P := fun m => ∃ entry, NotOlder s.log k (k.key record) m entry)
              (h.logged k (k.key record)) hlogged
          · dsimp only at hreturned ⊢
            rw [update_of_ne hkey] at hreturned ⊢
            exact h.logged k' key hreturned
        · intro k' id hreturned
          change 0 < update s.returned _ _ ⟨k', s.own k' id⟩ at hreturned
          change ∃ entry, s.entry k' id = some entry ∧ NotOlder s.log k' (s.own k' id)
            (update s.returned _ _ ⟨k', s.own k' id⟩) entry
          by_cases hkey : (⟨k', s.own k' id⟩ : AnyKey) = ⟨k, k.key record⟩
          · obtain ⟨rfl, hown⟩ := Sigma.mk.inj hkey
            have hown := eq_of_heq hown
            have hid : (k'.key record).id = id := by
              rw [← hown]
              rfl
            have hin : s.memory.cache.inScope (k'.key record).run = true := by
              rw [RunScopedCache.inScope_iff, ← hown]
              rfl
            obtain ⟨entry, hlookup, hentry⟩ := hcached hin
            rw [hid] at hlookup
            rw [hkey, update_self]
            have hold := h.cached k' id
            rw [hown] at hold ⊢
            exact marked (P := fun m => ∃ entry, s.entry k' id = some entry ∧
              NotOlder s.log k' (k'.key record) m entry) hold ⟨entry, hlookup, hentry⟩
          · rw [update_of_ne hkey] at hreturned ⊢
            exact h.cached k' id hreturned
      · intro j _
        refine ⟨rfl, fun _ _ _ _ hentry => hentry, ?_, rfl, rfl,
          fun _ _ _ entry hlookup hentry => ⟨entry, hlookup, hentry⟩⟩
        intro key
        by_cases hkey : key = ⟨k, k.key record⟩
        · rw [hkey]
          dsimp only
          rw [update_self]
          exact le_max_left _ _
        · dsimp only
          rw [update_of_ne hkey]
  · exact keeps_refl h

theorem wp_cacheCode (hb : Behind i s) {op : StoreOp} (hop : Concurrent op) :
    (cacheCode op).wp (spec i) (Ended i) s := by
  rw [cacheCode, Program.wp_bind]
  apply ends_iff_wp.1
  cases op with
  | get k key => exact ends_getItem_amid hb key
  | put k record => exact ends_putItem_amid record
  | list k run filter => exact ends_listItems_amid hb run filter
  | getWorkflow | putWorkflow | deleteWorkflow | delete => exact hop.elim

theorem keeps_onBegin (h : Sane s) : Keeps i s (s.onBegin i) := by
  refine ⟨⟨h.newest, h.logged, h.cached, h.filed⟩, ?_⟩
  intro j hj
  refine ⟨rfl, fun _ _ _ _ hentry => hentry, fun _ => le_refl _, ?_, ?_,
    fun _ _ _ entry hlookup hentry => ⟨entry, hlookup, hentry⟩⟩
  · exact update_of_ne hj _ _
  · exact update_of_ne hj _ _

def outline (ι : Type) [DecidableEq ι] : (cacheRace ι Settled).Outline Start where
  Inv := Sane
  Rely := Rely
  Guar i s _ _ s' := Keeps i s s'
  Post := Ended
  init _ h := sane_of_start h
  trans _ _ _ _ h h' := h.trans h'
  stable _ _ _ _ h hR := h.rely hR
  begins := by
    intro i s p s' hs hbegins
    obtain ⟨op, hop, rfl, rfl⟩ := hbegins
    obtain ⟨hsane, hrely⟩ := keeps_onBegin (i := i) hs
    exact ⟨hsane, hrely, wp_cacheCode behind_onBegin hop⟩
  acts _ _ _ _ _ _ _ h := h
  returns := by
    intro i s outcome s' hs hended hreturns
    subst hreturns
    exact keeps_onReturn hs hended
  crashes _ _ _ _ h := h.elim

end Runs

abbrev GoConfig := Config flowSignature Bool (Shared Bool) Outcome

def move (i : Bool) (s : Shared Bool) : (op : FlowOp) → Option (op.Reply × Shared Bool)
  | .store op => some ((s.records.step op).1, s.apply i op)
  | .recollect => some (s.memory, s)
  | .remember change => some ((), { s with memory := change s.memory })
  | .now => none

def begun (c : GoConfig) (i : Bool) (op : StoreOp) : GoConfig :=
  ⟨update c.procs i (some (cacheCode op)), c.state.onBegin i⟩

def turns (c : GoConfig) (schedule : List Bool) : GoConfig := schedule.foldl (System.turn move) c

def ended (c : GoConfig) (i : Bool) (outcome : Outcome) : GoConfig :=
  ⟨update c.procs i none, c.state.onReturn i outcome⟩

section Schedules

variable {allowed : Shared Bool → FlowOp → Prop} {c : GoConfig}

end Schedules

end CacheRace

end Temporaless
