import Temporaless.Python.Decoding
import Temporaless.Python.Walks
import Temporaless.Storage.TimerList

/-!
# What a listing of timers finds

`list_timers` of the Python store on any bucket. It walks the ledger directory of the run, copies
entries that it cannot use and passes over them, reads the point records of the run and lays the
ledger records over them.
-/

namespace Temporaless.Python

open PathTree Effects OpenDALStore

section Dictionary

variable {records : Records} {key k : TimerKey} {record r : TimerRecord}

def Records.Distinct (records : Records) : Prop := (records.map Prod.fst).Nodup

theorem mem_keys (h : (k, r) ∈ records) : k ∈ records.map Prod.fst := List.mem_map.2 ⟨_, h, rfl⟩

theorem mem_pop : (k, r) ∈ records.pop key ↔ k ≠ key ∧ (k, r) ∈ records := by
  simp [Records.pop, and_comm]

theorem mem_set : (k, r) ∈ records.set key record ↔
    (k ≠ key ∧ (k, r) ∈ records) ∨ (k = key ∧ r = record) := by
  simp [Records.set, mem_pop]

theorem Records.Distinct.pop (h : records.Distinct) (key : TimerKey) :
    (records.pop key).Distinct := h.sublist (List.filter_sublist.map _)

theorem Records.Distinct.set (h : records.Distinct) (key : TimerKey) (record : TimerRecord) :
    (records.set key record).Distinct := by
  rw [Records.Distinct, Records.set, List.map_append, List.nodup_append]
  refine ⟨h.pop key, List.nodup_singleton _, ?_⟩
  intro k hk k' hk' heq
  obtain ⟨entry, hentry, rfl⟩ := List.mem_map.1 hk
  rw [List.map_singleton, List.mem_singleton] at hk'
  exact (mem_pop.1 hentry).1 (heq.trans hk')

theorem set_of_fresh (h : key ∉ records.map Prod.fst) :
    records.set key record = records ++ [(key, record)] := by
  rw [Records.set, Records.pop, List.filter_eq_self.2]
  intro entry hentry
  have hne : entry.1 ≠ key := fun heq => h (heq ▸ List.mem_map_of_mem hentry)
  simpa using hne

section

variable (h : records.Distinct)

include h

theorem get_eq_some :
    records.get key = some record ↔ (key, record) ∈ records := by
  induction records with
  | nil => simp [Records.get]
  | cons entry records ih =>
    obtain ⟨hfresh, hrest⟩ := List.nodup_cons.1 h
    rw [Records.get, List.lookup_cons, List.mem_cons]
    by_cases hkey : key = entry.1
    · subst hkey
      have habsent : (entry.1, record) ∉ records := fun hmem => hfresh (mem_keys hmem)
      simp [habsent, Prod.ext_iff, eq_comm]
    · have hfalse : (key == entry.1) = false := by simpa using hkey
      rw [hfalse]
      simp only [Prod.ext_iff, hkey, false_and, false_or]
      exact ih hrest

theorem mem_overlay : (k, r) ∈ overlay records (key, record) ↔
    if k = key then r = record ∧ (record.status ≠ .canceled ∨ (key, record) ∈ records)
    else (k, r) ∈ records := by
  unfold overlay
  by_cases hsame : records.get key = some record
  · have hmem := (get_eq_some h).1 hsame
    simp only [hsame, if_true]
    split
    · next hk =>
        subst hk
        rw [← get_eq_some h, hsame]
        simp [hmem, eq_comm]
    · rfl
  · have hmem : (key, record) ∉ records := fun hmem => hsame ((get_eq_some h).2 hmem)
    simp only [hsame, if_false]
    by_cases hcanceled : record.status = .canceled
    · simp only [hcanceled, if_true, mem_pop]
      split
      · next hk => simp [hk, hmem]
      · next hk => simp [hk]
    · simp only [hcanceled, if_false, mem_set]
      split
      · next hk => simp [hk, hcanceled]
      · next hk => simp [hk]

theorem distinct_overlay (shadow : TimerKey × TimerRecord) :
    (overlay records shadow).Distinct := by
  unfold overlay
  split
  · exact h
  · split
    · exact h.pop _
    · exact h.set _ _

/-- All shadows on a dictionary: a shadow replaces what its key had, and a CANCELED one stays only
where the dictionary has the same record. -/
theorem mem_overlays {shadows : Records} (hshadows : shadows.Distinct) :
    (k, r) ∈ shadows.foldl overlay records ↔
      ((k, r) ∈ shadows ∧ (r.status ≠ .canceled ∨ (k, r) ∈ records)) ∨
        (k ∉ shadows.map Prod.fst ∧ (k, r) ∈ records) := by
  induction shadows generalizing records with
  | nil => simp
  | cons shadow shadows ih =>
    obtain ⟨key, record⟩ := shadow
    obtain ⟨hfresh, hrest⟩ := List.nodup_cons.1 hshadows
    rw [List.foldl_cons, ih (distinct_overlay h _) hrest, mem_overlay h]
    by_cases hk : k = key
    · subst hk
      have habsent : (k, r) ∉ shadows := fun hmem => hfresh (mem_keys hmem)
      have hnot : k ∉ shadows.map Prod.fst := hfresh
      simp only [habsent, false_and, hnot, not_false_eq_true, true_and, false_or, if_true,
        List.mem_cons, Prod.mk.injEq, or_false, List.map_cons, not_true_eq_false]
      constructor
      · intro hr
        obtain ⟨rfl, hr⟩ := hr
        exact ⟨rfl, hr⟩
      · intro hr
        obtain ⟨rfl, hr⟩ := hr
        exact ⟨rfl, hr⟩
    · simp only [hk, if_false, List.mem_cons, Prod.mk.injEq, false_and, false_or, List.map_cons]

theorem distinct_overlays {shadows : Records} :
    (shadows.foldl overlay records).Distinct := by
  induction shadows generalizing records with
  | nil => exact h
  | cons shadow shadows ih => exact ih (distinct_overlay h shadow)

end

end Dictionary

section Beside

variable {Bytes : Type} {b b' : Bucket Bytes} {dir : Path}

theorem filterMap_erase {α β : Type} [BEq α] [LawfulBEq α] {f : α → Option β} {a : α}
    (h : f a = none) (l : List α) : (l.erase a).filterMap f = l.filterMap f := by
  induction l with
  | nil => rfl
  | cons x l ih =>
    by_cases hx : x = a
    · subst hx
      simp [h]
    · rw [List.erase_cons_tail (by simpa using hx), List.filterMap_cons, List.filterMap_cons, ih]

theorem filterMap_keys_insert {β : Type} {f : Path → Option β} {key : Path} (h : f key = none)
    (objects : AList fun _ : Path => Bytes) (data : Bytes) :
    (objects.insert key data).keys.filterMap f = objects.keys.filterMap f := by
  rw [AList.keys_insert, List.filterMap_cons, h]
  exact @filterMap_erase _ _ instBEqOfDecidableEq inferInstance f key h _

theorem filterMap_keys_erase {β : Type} {f : Path → Option β} {key : Path} (h : f key = none)
    (objects : AList fun _ : Path => Bytes) :
    (objects.erase key).keys.filterMap f = objects.keys.filterMap f := by
  rw [AList.keys_erase]
  exact @filterMap_erase _ _ instBEqOfDecidableEq inferInstance f key h _

structure ListsAlike (dir : Path) (b b' : Bucket Bytes) : Prop where
  entries : b'.entries dir = b.entries dir
  present : b'.locations.any (dir <+: ·) = b.locations.any (dir <+: ·)

theorem ListsAlike.refl (dir : Path) (b : Bucket Bytes) : ListsAlike dir b b := ⟨rfl, rfl⟩

theorem ListsAlike.trans {b'' : Bucket Bytes} (h : ListsAlike dir b b') (h' : ListsAlike dir b' b'') :
    ListsAlike dir b b'' := ⟨h'.entries.trans h.entries, h'.present.trans h.present⟩

theorem listsAlike_createDir {other : Path} (h : ¬ dir <+: other) (b : Bucket Bytes) :
    ListsAlike dir b { b with directories := other :: b.directories } where
  entries := by simp [Bucket.entries, Bucket.locations, childNames, h]
  present := by simp [Bucket.locations, h]

theorem listsAlike_of_keys {objects : AList fun _ : Path => Bytes}
    (h : ∀ {β : Type} (f : Path → Option β), (∀ path, ¬ dir <+: path.dropLast → f path = none) →
      objects.keys.filterMap f = b.objects.keys.filterMap f) :
    ListsAlike dir b { b with objects := objects } where
  entries := by
    have hfiles : ∀ path : Path, ¬ dir <+: path.dropLast →
        Option.guard (fun p : Path => decide (p ≠ [] ∧ p.dropLast = dir)) path = none := by
      intro path hpath
      have hne : path.dropLast ≠ dir := fun heq => hpath (by rw [heq])
      simp [Option.guard, hne]
    simp only [Bucket.entries, Bucket.locations, childNames, List.filterMap_append,
      List.filterMap_map, ← List.filterMap_eq_filter]
    rw [h _ hfiles, h _ (by intro path hpath; simp [hpath])]
  present := by
    have hany : ∀ keys : List Path, (keys.map List.dropLast).any (dir <+: ·) =
        (keys.filterMap fun p => if dir <+: p.dropLast then some p else none).isEmpty.not := by
      intro keys
      induction keys with
      | nil => rfl
      | cons key keys ih =>
        by_cases hkey : dir <+: key.dropLast
        · simp [hkey]
        · simpa [hkey] using ih
    rw [Bucket.locations, Bucket.locations, List.any_append, List.any_append, hany, hany,
      h _ (by intro path hpath; simp [hpath])]

theorem listsAlike_insert {path : Path} (h : ¬ dir <+: path.dropLast) (b : Bucket Bytes)
    (data : Bytes) :
    ListsAlike dir b { b with objects := b.objects.insert path data } :=
  listsAlike_of_keys fun _ hf => filterMap_keys_insert (hf path h) _ _

theorem listsAlike_erase {path : Path} (h : ¬ dir <+: path.dropLast) (b : Bucket Bytes) :
    ListsAlike dir b { b with objects := b.objects.erase path } :=
  listsAlike_of_keys fun _ hf => filterMap_keys_erase (hf path h) _

theorem ListsAlike.exec_listEntries (h : ListsAlike dir b b') :
    b'.exec (listEntries dir) = ((b.exec (listEntries dir)).1, b') := by
  have hlist : ∀ b : Bucket Bytes, b.exec (listDir dir) = b.step (.list dir) := fun _ => rfl
  by_cases hpresent : b.locations.any (dir <+: ·) = true
  · have hstep : b'.step (.list dir) = (.ok ⟨b.entries dir, none⟩, b') := by
      simp only [Bucket.step, h.present, hpresent, if_true, h.entries]
    have hstep' : b.step (.list dir) = (.ok ⟨b.entries dir, none⟩, b) := by
      simp only [Bucket.step, hpresent, if_true]
    simp [listEntries, exec_bind, hlist, hstep, hstep']
  · have hstep : b'.step (.list dir) = (.error (notFoundError dir), b') := by
      simp only [Bucket.step, h.present, hpresent, Bool.false_eq_true, if_false]
    have hstep' : b.step (.list dir) = (.error (notFoundError dir), b) := by
      simp only [Bucket.step, hpresent, Bool.false_eq_true, if_false]
    simp [listEntries, exec_bind, hlist, hstep, hstep']

end Beside

section Copies

variable {Bytes : Type} {b b' : Bucket Bytes}

def AwayFromCopies (dir : Path) : Prop := ∀ ns, ¬ dir <+: dueInvalidRoot ns

structure Copies (b b' : Bucket Bytes) : Prop where
  lookup : ∀ path, (∀ ns, path.dropLast ≠ dueInvalidRoot ns) →
    b'.objects.lookup path = b.objects.lookup path
  lists : ∀ dir, AwayFromCopies dir → ListsAlike dir b b'

theorem Copies.refl (b : Bucket Bytes) : Copies b b :=
  ⟨fun _ _ => rfl, fun dir _ => .refl dir b⟩

theorem Copies.trans {b'' : Bucket Bytes} (h : Copies b b') (h' : Copies b' b'') : Copies b b'' where
  lookup path hpath := (h'.lookup path hpath).trans (h.lookup path hpath)
  lists dir hdir := (h.lists dir hdir).trans (h'.lists dir hdir)

theorem copies_createDir (b : Bucket Bytes) (ns : String) :
    Copies b { b with directories := dueInvalidRoot ns :: b.directories } where
  lookup _ _ := rfl
  lists _ hdir := listsAlike_createDir (hdir ns) b

theorem copies_write (b : Bucket Bytes) (ns name : String) (data : Bytes) :
    Copies b { b with objects := b.objects.insert (dueInvalidRoot ns ++ [name]) data } where
  lookup path hpath := by
    apply AList.lookup_insert_ne
    intro heq
    apply hpath ns
    rw [heq, List.dropLast_concat]
  lists dir hdir := by
    apply listsAlike_insert
    rw [List.dropLast_concat]
    exact hdir ns

theorem Copies.exec_listEntries (h : Copies b b') {dir : Path} (hdir : AwayFromCopies dir) :
    b'.exec (listEntries dir) = ((b.exec (listEntries dir)).1, b') := (h.lists dir hdir).exec_listEntries

end Copies

section Quarantine

variable {wire : Wire} {b b' : Bucket wire.Bytes}

theorem Copies.replyAt (h : Copies b b') {path : Path}
    (hpath : ∀ ns, path.dropLast ≠ dueInvalidRoot ns) :
    replyAt b'.objects path = replyAt b.objects path := by
  rw [Python.replyAt, Python.replyAt, h.lookup path hpath]

theorem exec_quarantineDueEntry (b : Bucket wire.Bytes) (ns : String) (path : Path) :
    ∃ b', b.exec (quarantineDueEntry wire ns path) = (.ok (), b') ∧ Copies b b' := by
  cases hlookup : b.objects.lookup path with
  | none =>
    have hread : b.exec (readObject path) = (.error (notFoundError path), b) := by
      change b.step (.read path) = _
      simp [Bucket.step, hlookup]
    exact ⟨b, by simp [quarantineDueEntry, exec_bind, hread], .refl b⟩
  | some data =>
    have hdir := copies_createDir b ns
    have hwrite := copies_write { b with directories := dueInvalidRoot ns :: b.directories } ns
      (binpb (wire.digest (render path))) data
    refine ⟨_, ?_, hdir.trans hwrite⟩
    simp only [quarantineDueEntry, exec_bind, exec_attempt, exec_readObject b hlookup,
      List.dropLast_concat]
    rfl

end Quarantine

section Found

variable {wire : Wire} {b b' : Bucket wire.Bytes} (run : RunKey)

def Records.add (records : Records) (found : Except Err (Option (TimerKey × TimerRecord))) : Records :=
  match found with
  | .ok (some entry) => records.set entry.1 entry.2
  | _ => records

def shadowAt (objects : Objects wire) (path : Path) : Except Err (Option (TimerKey × TimerRecord)) :=
  (decodeMessage wire.due (replyAt objects path)).bind fun
    | none => .ok none
    | some entry => (validateDueEntry entry none (some run.val) none (some path)).map fun key =>
      some (key, entryRecord entry)

def recordAt (objects : Objects wire) (path : Path) : Except Err (Option (TimerKey × TimerRecord)) :=
  (decodeMessage wire.timer (replyAt objects path)).bind fun
    | none => .ok none
    | some record => (validateTimerRecord record ⟨none, some run.val, some path⟩).map fun key =>
      some (key, record)

theorem exec_listShadow (shadows : Records) (path : Path) :
    ∃ b', b.exec (listShadow wire run.val shadows path) =
      (.ok (shadows.add (shadowAt run b.objects path)), b') ∧ Copies b b' := by
  obtain ⟨b', hcopy, hcopies⟩ := exec_quarantineDueEntry b run.val.ns path
  simp only [listShadow, exec_bind, exec_attempt, exec_readMessage_at]
  rw [shadowAt]
  rcases hdecode : decodeMessage wire.due (replyAt b.objects path) with err | _ | entry
  · have hrecoverable : recoverable err := recovers_decodeMessage _ _ _ err hdecode
    refine ⟨b', ?_, hcopies⟩
    simp [hrecoverable, hcopy, Records.add, Except.bind, Except.map]
  · exact ⟨b, by simp [Records.add, Except.bind], .refl b⟩
  · rcases hvalid : validateDueEntry entry none (some run.val) none (some path) with err | key
    · have hrecoverable : recoverable err := recovers_validateDueEntry _ _ _ _ _ err hvalid
      refine ⟨b', ?_, hcopies⟩
      simp [hvalid, hrecoverable, hcopy, Records.add, Except.bind, Except.map]
    · exact ⟨b, by simp [hvalid, Records.add, Except.bind, Except.map], .refl b⟩

/-- The dictionary of the points after one more, or the error that ends the listing: a point that
cannot be used is passed over only if a ledger entry covers it. -/
def Records.addPoint (canonicalPaths : List Path) (path : Path) (points : Records)
    (found : Except Err (Option (TimerKey × TimerRecord))) : Except Err Records :=
  match found with
  | .error err => if canonicalPaths.contains path then .ok points else .error err
  | .ok found => .ok (points.add (.ok found))

theorem exec_listPoint (canonicalPaths : List Path) (points : Records) (path : Path) :
    b.exec (listPoint wire run.val canonicalPaths points path) =
      (points.addPoint canonicalPaths path (recordAt run b.objects path), b) := by
  simp only [listPoint, exec_bind, exec_attempt, exec_readMessage_at]
  rw [recordAt]
  have hfail : ∀ err, recoverable err = true →
      b.exec (if recoverable err && canonicalPaths.contains path then pure points else throw err :
        BucketM wire.Bytes Records) =
      ((if canonicalPaths.contains path then .ok points else .error err), b) := by
    intro err hrecoverable
    cases hcovered : canonicalPaths.contains path <;> simp [hrecoverable]
  rcases hdecode : decodeMessage wire.timer (replyAt b.objects path) with err | _ | record
  · exact hfail err (recovers_decodeMessage _ _ _ err hdecode)
  · rfl
  · rcases hvalid : validateTimerRecord record ⟨none, some run.val, some path⟩ with err | key
    · simp only [exec_bind, exec_liftExcept, hvalid, Except.bind, Except.map]
      exact hfail err (recovers_validateTimerRecord _ _ err hvalid)
    · simp [hvalid, Records.addPoint, Records.add, Except.bind, Except.map]

def taken (found : Except Err (Option (TimerKey × TimerRecord))) : Option (TimerKey × TimerRecord) :=
  found.toOption.bind id

theorem taken_eq_some {found : Except Err (Option (TimerKey × TimerRecord))}
    {entry : TimerKey × TimerRecord} : taken found = some entry ↔ found = .ok (some entry) := by
  rcases found with err | _ | entry' <;> simp [taken, Except.toOption]

section Gather

variable {look : Path → Except Err (Option (TimerKey × TimerRecord))} {location : TimerKey → Path}

/-- Objects at different paths have different keys, so that no entry of the dictionary is replaced. -/
theorem foldl_add (hlook : ∀ path entry, look path = .ok (some entry) → path = location entry.1)
    {paths : List Path} (hnodup : paths.Nodup) (records : Records)
    (hfresh : ∀ key ∈ records.map Prod.fst, location key ∉ paths) :
    paths.foldl (fun records path => records.add (look path)) records =
      records ++ paths.filterMap fun path => taken (look path) := by
  induction paths generalizing records with
  | nil => simp
  | cons path paths ih =>
    obtain ⟨hpath, hrest⟩ := List.nodup_cons.1 hnodup
    have hskip : ∀ key ∈ records.map Prod.fst, location key ∉ paths :=
      fun key hkey hmem => hfresh key hkey (List.mem_cons_of_mem _ hmem)
    rw [List.foldl_cons, List.filterMap_cons]
    rcases hfound : look path with err | _ | entry
    · exact ih hrest records hskip
    · exact ih hrest records hskip
    · have hentry := hlook path entry hfound
      have hnew : entry.1 ∉ records.map Prod.fst :=
        fun hmem => hfresh entry.1 hmem (by rw [← hentry]; exact List.mem_cons_self)
      have hadd : records.add (.ok (some entry)) = records ++ [entry] := set_of_fresh hnew
      rw [hadd, ih hrest]
      · simp [taken, Except.toOption]
      · intro key hkey hmem
        rw [List.map_append, List.mem_append, List.map_singleton, List.mem_singleton] at hkey
        rcases hkey with hkey | rfl
        · exact hskip key hkey hmem
        · rw [← hentry] at hmem
          exact hpath hmem

theorem distinct_taken (hlook : ∀ path entry, look path = .ok (some entry) → path = location entry.1)
    {paths : List Path} (hnodup : paths.Nodup) :
    Records.Distinct (paths.filterMap fun path => taken (look path)) := by
  rw [Records.Distinct, List.map_filterMap]
  apply hnodup.filterMap
  intro path path' key hkey hkey'
  obtain ⟨entry, hentry, rfl⟩ := Option.map_eq_some_iff.1 hkey
  obtain ⟨entry', hentry', heq⟩ := Option.map_eq_some_iff.1 hkey'
  rw [hlook path entry (taken_eq_some.1 hentry), hlook path' entry' (taken_eq_some.1 hentry'), heq]

end Gather

theorem shadowAt_eq_some {objects : Objects wire} {path : Path} {k : TimerKey} {record : TimerRecord} :
    shadowAt run objects path = .ok (some (k, record)) ↔ ∃ key : RecordKey .timer,
      key.val = k ∧ key.val.run = run.val ∧ key.val.dueLocation = path ∧
        ∃ entry, ledgerAt objects key = .ok (some entry) ∧ entryRecord entry = record := by
  constructor
  · intro h
    rw [shadowAt] at h
    rcases hdecode : decodeMessage wire.due (replyAt objects path) with err | _ | entry
    · rw [hdecode] at h
      cases h
    · rw [hdecode] at h
      cases h
    · rw [hdecode] at h
      rcases hvalid : validateDueEntry entry none (some run.val) none (some path) with err | key
      · simp [Except.bind, Except.map, hvalid] at h
      · obtain ⟨rfl, rfl⟩ : key = k ∧ entryRecord entry = record := by
          simpa [Except.bind, Except.map, hvalid] using h
        obtain ⟨hbase, -, hrun, -, hpath⟩ := validateDueEntry_eq_ok.1 hvalid
        obtain ⟨key, rfl, -⟩ := carries_of_validateDueEntry hbase
        have hlocation := hpath path rfl
        rw [hlocation] at hdecode
        exact ⟨key, rfl, (hrun _ rfl).symm, hlocation.symm, entry,
          ledgerAt_eq_some.2 ⟨hdecode, hbase⟩, rfl⟩
  · intro h
    obtain ⟨key, rfl, hrun, rfl, entry, hledger, rfl⟩ := h
    obtain ⟨hdecode, hbase⟩ := ledgerAt_eq_some.1 hledger
    have hvalid : validateDueEntry entry none (some run.val) none (some key.val.dueLocation) =
        .ok key.val := validateDueEntry_eq_ok.2 ⟨hbase, by simp, by simp [hrun], by simp, by simp⟩
    simp [shadowAt, hdecode, Except.bind, Except.map, hvalid]

theorem recordAt_eq_some {objects : Objects wire} {path : Path} {k : TimerKey} {record : TimerRecord} :
    recordAt run objects path = .ok (some (k, record)) ↔ ∃ key : RecordKey .timer,
      key.val = k ∧ key.val.run = run.val ∧ key.val.location = path ∧
        pointAt objects key = .ok (some record) := by
  constructor
  · intro h
    rw [recordAt] at h
    rcases hdecode : decodeMessage wire.timer (replyAt objects path) with err | _ | found
    · rw [hdecode] at h
      cases h
    · rw [hdecode] at h
      cases h
    · rw [hdecode] at h
      rcases hvalid : validateTimerRecord found ⟨none, some run.val, some path⟩ with err | key
      · simp [Except.bind, Except.map, hvalid] at h
      · obtain ⟨rfl, rfl⟩ : key = k ∧ found = record := by
          simpa [Except.bind, Except.map, hvalid] using h
        obtain ⟨hbase, -, hrun, hpath⟩ := validateTimerRecord_eq_ok.1 hvalid
        obtain ⟨key, rfl, -⟩ := carries_of_validateTimerRecord hbase
        have hlocation := hpath path rfl
        rw [hlocation] at hdecode
        exact ⟨key, rfl, (hrun _ rfl).symm, hlocation.symm, pointAt_eq_some.2 ⟨hdecode, hbase⟩⟩
  · intro h
    obtain ⟨key, rfl, hrun, rfl, hpoint⟩ := h
    obtain ⟨hdecode, hbase⟩ := pointAt_eq_some.1 hpoint
    have hvalid : validateTimerRecord record ⟨none, some run.val, some key.val.location⟩ =
        .ok key.val := validateTimerRecord_eq_ok.2 ⟨hbase, by simp, by simp [hrun], by simp⟩
    simp [recordAt, hdecode, Except.bind, Except.map, hvalid]

theorem location_of_shadowAt {objects : Objects wire} (path : Path) (entry : TimerKey × TimerRecord)
    (h : shadowAt run objects path = .ok (some entry)) : path = entry.1.dueLocation := by
  obtain ⟨key, hkey, -, hpath, -⟩ := (shadowAt_eq_some run).1 h
  rw [← hkey, hpath]

theorem location_of_recordAt {objects : Objects wire} (path : Path) (entry : TimerKey × TimerRecord)
    (h : recordAt run objects path = .ok (some entry)) : path = entry.1.location := by
  obtain ⟨key, hkey, -, hpath, -⟩ := (recordAt_eq_some run).1 h
  rw [← hkey, hpath]

end Found

section Listing

variable {wire : Wire} {b : Bucket wire.Bytes} (run : RunKey)

def runLedger : Path := dueRoot run.val.ns ++ [run.val.workflowID, run.val.runID]

def itemDir (kind : RecordKind) (run : RunKey) : Path :=
  runDir run.val.ns run.val.workflowID run.val.runID ++ [kind.name]

def timerDir : Path := itemDir .timer run

theorem awayFromCopies_of_length {dir : Path} (h : 4 < dir.length) : AwayFromCopies dir := by
  intro ns hbelow
  have hlength := hbelow.length_le
  simp [dueInvalidRoot, storageRoot] at hlength
  omega

theorem dropLast_ne_of_length {path : Path} (h : 4 < path.dropLast.length) (ns : String) :
    path.dropLast ≠ dueInvalidRoot ns := by
  intro heq
  rw [heq] at h
  simp [dueInvalidRoot, storageRoot] at h

theorem length_runLedger : (runLedger run).length = 6 := rfl

theorem length_timerDir : (timerDir run).length = 6 := rfl

theorem Copies.shadowAt {b' : Bucket wire.Bytes} (h : Copies b b') {path : Path}
    (hpath : runLedger run <+: path.dropLast) :
    shadowAt run b'.objects path = shadowAt run b.objects path := by
  have hlength := hpath.length_le
  rw [length_runLedger] at hlength
  rw [Python.shadowAt, Python.shadowAt, h.replyAt (dropLast_ne_of_length (by omega))]

theorem exec_listLedger {b' : Bucket wire.Bytes} (hcopies : Copies b b') :
    ∀ root ∈ [runLedger run], ∀ dir, root <+: dir →
      b'.exec (listEntries dir) = ((b.exec (listEntries dir)).1, b') := by
  intro root hroot dir hdir
  obtain rfl := List.mem_singleton.1 hroot
  have hlength := hdir.length_le
  rw [length_runLedger] at hlength
  exact hcopies.exec_listEntries (awayFromCopies_of_length (by omega))

theorem exec_listShadow_copied {b' : Bucket wire.Bytes} (hcopies : Copies b b') (records : Records)
    {path : Path} (hpath : path ∈ [runLedger run].flatMap b.recordsBelow) :
    ∃ b'', b'.exec (listShadow wire run.val records path) =
      (.ok (records.add (shadowAt run b.objects path)), b'') ∧ Copies b b'' := by
  rw [List.flatMap_singleton] at hpath
  have hbelow : runLedger run <+: path.dropLast := by simpa using (List.mem_filter.1 hpath).2
  obtain ⟨b'', hexec, hcopied⟩ := exec_listShadow (b := b') run records path
  rw [hcopies.shadowAt run hbelow] at hexec
  exact ⟨b'', hexec, hcopies.trans hcopied⟩

theorem exec_shadows {fuel : Nat} (hfuel : b.walkFuel ≤ fuel) :
    ∃ (paths : List Path) (b' : Bucket wire.Bytes), paths.Perm (b.recordsBelow (runLedger run)) ∧
      b.exec (walkBinpb (listShadow wire run.val) fuel [runLedger run] []) =
        (.ok (paths.filterMap fun path => taken (shadowAt run b.objects path)), b') ∧
      Copies b b' := by
  have hwalk := exec_walkBinpb fuel [runLedger run] [] (fun _ => exec_listLedger run)
    (fun _ hcopies records _ hpath => exec_listShadow_copied run hcopies records hpath)
    (by simpa using (b.walkSize_le _).trans hfuel) (.refl b)
  obtain ⟨paths, b', hperm, hexec, hcopies⟩ := hwalk
  rw [List.flatMap_singleton] at hperm
  refine ⟨paths, b', hperm, ?_, hcopies⟩
  have hnodup : paths.Nodup := hperm.nodup_iff.2 ((b.objects.keys_nodup.filter _).filter _)
  rw [hexec, foldl_add (location_of_shadowAt run) hnodup [] (by simp)]
  rfl

theorem exec_walkShadows_fuel {fuel : Nat} (hfuel : b.walkFuel ≤ fuel) :
    b.exec (walkBinpb (listShadow wire run.val) fuel [runLedger run] []) =
      b.exec (walkBinpb (listShadow wire run.val) b.walkFuel [runLedger run] []) := by
  obtain ⟨found, -, hwalk⟩ := exec_walkBinpb_eq (b := b) (R := Copies b) (listShadow wire run.val)
    [runLedger run] (fun _ => exec_listLedger run)
    (by
      intro b' hcopies records path hpath
      obtain ⟨b'', hexec, hcopied⟩ := exec_listShadow_copied run hcopies records hpath
      rw [hexec]
      exact hcopied)
  have hsize : ([runLedger run].map b.walkSize).sum ≤ b.walkFuel := by simpa using b.walkSize_le _
  rw [hwalk fuel (hsize.trans hfuel) b (.refl b), hwalk b.walkFuel hsize b (.refl b)]

theorem exec_points (canonicalPaths : List Path) (files : List Path) (points : Records) :
    (∃ err, b.exec (forEach (listPoint wire run.val canonicalPaths) files points) = (.error err, b) ∧
        ∃ path ∈ files, path ∉ canonicalPaths ∧ (recordAt run b.objects path).isOk = false) ∨
      (b.exec (forEach (listPoint wire run.val canonicalPaths) files points) =
        (.ok (files.foldl (fun records path => records.add (recordAt run b.objects path)) points), b) ∧
        ∀ path ∈ files, path ∈ canonicalPaths ∨ (recordAt run b.objects path).isOk = true) := by
  induction files generalizing points with
  | nil => exact .inr ⟨rfl, by simp⟩
  | cons path files ih =>
    have hhere := exec_listPoint (b := b) run canonicalPaths points path
    have hgoes : ∀ next, b.exec (listPoint wire run.val canonicalPaths points path) = (.ok next, b) →
        b.exec (forEach (listPoint wire run.val canonicalPaths) (path :: files) points) =
          b.exec (forEach (listPoint wire run.val canonicalPaths) files next) := by
      intro next hnext
      rw [forEach, exec_bind_ok b _ hnext]
    cases hfound : recordAt run b.objects path with
    | error err =>
      rw [hfound] at hhere
      by_cases hcovered : path ∈ canonicalPaths
      · rw [hgoes points (by simpa [Records.addPoint, hcovered] using hhere), List.foldl_cons,
          hfound]
        rcases ih points with ⟨err, hexec, path', hmem, hbad⟩ | ⟨hexec, hgood⟩
        · exact .inl ⟨err, hexec, path', List.mem_cons_of_mem _ hmem, hbad⟩
        · refine .inr ⟨hexec, ?_⟩
          simp only [List.mem_cons, forall_eq_or_imp]
          exact ⟨.inl hcovered, hgood⟩
      · have hfails : b.exec (listPoint wire run.val canonicalPaths points path) = (.error err, b) := by
          simpa [Records.addPoint, hcovered] using hhere
        refine .inl ⟨err, ?_, path, List.mem_cons_self, hcovered, by rw [hfound]; rfl⟩
        rw [forEach, exec_bind_error b _ hfails]
    | ok found =>
      rw [hfound] at hhere
      rw [hgoes _ hhere, List.foldl_cons, hfound]
      rcases ih (points.add (.ok found)) with ⟨err, hexec, path', hmem, hbad⟩ | ⟨hexec, hgood⟩
      · exact .inl ⟨err, hexec, path', List.mem_cons_of_mem _ hmem, hbad⟩
      · refine .inr ⟨hexec, ?_⟩
        simp only [List.mem_cons, forall_eq_or_imp]
        exact ⟨.inr (by rw [hfound]; rfl), hgood⟩

section Copy

variable {objects : Objects wire} {key : RecordKey .timer} {record : TimerRecord}

def ledgerOf (objects : Objects wire) (key : RecordKey .timer) : Option TimerRecord :=
  ((ledgerAt objects key).toOption.bind id).map entryRecord

def pointOf (objects : Objects wire) (key : RecordKey .timer) : Option TimerRecord :=
  (pointAt objects key).toOption.bind id

/-- The timer that the two copies stand for: a CANCELED ledger record is a tombstone unless the
point holds the same record. -/
def resolve (ledger point : Option TimerRecord) : Option TimerRecord :=
  match ledger with
  | none => point
  | some record => if record.status = .canceled ∧ point ≠ some record then none else some record

theorem ledgerOf_eq_some : ledgerOf objects key = some record ↔
    ∃ entry, ledgerAt objects key = .ok (some entry) ∧ entryRecord entry = record := by
  rw [ledgerOf]
  rcases ledgerAt objects key with err | _ | entry <;> simp [Except.toOption]

theorem pointOf_eq_some : pointOf objects key = some record ↔
    pointAt objects key = .ok (some record) := by
  rw [pointOf]
  rcases pointAt objects key with err | _ | found <;> simp [Except.toOption]

theorem resolve_eq_some {ledger point : Option TimerRecord} : resolve ledger point = some record ↔
    (ledger = some record ∧ (record.status ≠ .canceled ∨ point = some record)) ∨
      (ledger = none ∧ point = some record) := by
  cases ledger with
  | none => simp [resolve]
  | some found =>
    by_cases hsame : found = record
    · subst hsame
      simp [resolve, imp_iff_not_or]
    · simp [resolve, hsame]

theorem resolve_none (entry : Option DueTimerEntry) :
    resolve (entry.map entryRecord) none = entry.bind liveRecord := by
  cases entry with
  | none => rfl
  | some entry => simp [resolve, liveRecord]

theorem resolve_tombstone {point : Option TimerRecord} (h : point ≠ some (tombstone record)) :
    resolve (some (tombstone record)) point = none := by
  have hcanceled : (tombstone record).status = .canceled := rfl
  simp [resolve, hcanceled, h]

def timerAt (objects : Objects wire) (key : RecordKey .timer) : Option TimerRecord :=
  resolve (ledgerOf objects key) (pointOf objects key)

theorem exec_usableCanonical_at (key : RecordKey .timer) :
    b.exec (usableCanonical wire key.val (b.objects.lookup key.val.location).isSome) =
      (.ok (pointOf b.objects key), b) := by
  cases hlookup : b.objects.lookup key.val.location with
  | none =>
    rw [pointOf, pointAt_none hlookup]
    rfl
  | some data =>
    simp only [usableCanonical, Option.isSome_some, Bool.not_true, Bool.false_eq_true, if_false,
      exec_bind, exec_attempt, exec_getCanonicalTimer_at, pointOf]
    rcases hpoint : pointAt b.objects key with err | record
    · simp [pointAt_recoverable hpoint, Except.toOption]
    · rfl

end Copy

variable {run}

theorem lookup_of_ledgerOf {objects : Objects wire} {key : RecordKey .timer} {record : TimerRecord}
    (h : ledgerOf objects key = some record) : (objects.lookup key.val.dueLocation).isSome := by
  obtain ⟨entry, hledger, -⟩ := ledgerOf_eq_some.1 h
  obtain ⟨data, hdata, -⟩ := lookup_of_decodeMessage (ledgerAt_eq_some.1 hledger).1
  rw [hdata]
  rfl

theorem lookup_of_pointOf {objects : Objects wire} {key : RecordKey .timer} {record : TimerRecord}
    (h : pointOf objects key = some record) : (objects.lookup key.val.location).isSome := by
  obtain ⟨data, hdata, -⟩ := lookup_of_decodeMessage (pointAt_eq_some.1 (pointOf_eq_some.1 h)).1
  rw [hdata]
  rfl

theorem mem_records_of_lookup {path : Path} (hne : path ≠ []) (hsuffix : hasBinpbSuffix path = true)
    (h : (b.objects.lookup path).isSome) : path ∈ b.records := by
  have hkeys := AList.mem_keys.1 (AList.lookup_isSome.1 h)
  exact List.mem_filter.2 ⟨hkeys, by simp [hsuffix, hne]⟩

theorem mem_runLedger {key : RecordKey .timer} (hrun : key.val.run = run.val)
    (h : (b.objects.lookup key.val.dueLocation).isSome) :
    key.val.dueLocation ∈ b.recordsBelow (runLedger run) := by
  have hsuffix : hasBinpbSuffix key.val.dueLocation = true :=
    hasBinpbSuffix_binpb (dueRoot key.val.ns ++ [key.val.workflowID, key.val.runID]) key.val.id
  refine List.mem_filter.2 ⟨mem_records_of_lookup (by simp [ItemKey.dueLocation]) hsuffix h, ?_⟩
  rw [runLedger, ← hrun]
  simp [ItemKey.dueLocation, dueRoot, storageRoot, ItemKey.run]

section Location

variable {kind : RecordKind} {key : RecordKey kind}

theorem dropLast_location (hrun : key.val.run = run.val) :
    key.val.location.dropLast = itemDir kind run := by
  rw [itemDir, ← hrun]
  simp [ItemKey.location, ItemKey.directory, ItemKey.run]

theorem mem_itemDir (hrun : key.val.run = run.val) (h : (b.objects.lookup key.val.location).isSome) :
    key.val.location ∈ b.records.filter (·.dropLast = itemDir kind run) := by
  have hsuffix : hasBinpbSuffix key.val.location = true :=
    hasBinpbSuffix_binpb key.val.directory key.val.id
  refine List.mem_filter.2 ⟨mem_records_of_lookup (by simp [ItemKey.location]) hsuffix h, ?_⟩
  simpa using dropLast_location hrun

end Location

theorem mem_shadows {paths : List Path} (hperm : paths.Perm (b.recordsBelow (runLedger run)))
    {k : TimerKey} {record : TimerRecord} :
    (k, record) ∈ (paths.filterMap fun path => taken (shadowAt run b.objects path)) ↔
      ∃ key : RecordKey .timer, key.val = k ∧ key.val.run = run.val ∧
        ledgerOf b.objects key = some record := by
  simp only [List.mem_filterMap, taken_eq_some, shadowAt_eq_some, ← ledgerOf_eq_some]
  constructor
  · intro h
    obtain ⟨path, -, key, hkey, hrun, -, hledger⟩ := h
    exact ⟨key, hkey, hrun, hledger⟩
  · intro h
    obtain ⟨key, hkey, hrun, hledger⟩ := h
    exact ⟨_, hperm.mem_iff.2 (mem_runLedger hrun (lookup_of_ledgerOf hledger)), key, hkey, hrun, rfl,
      hledger⟩

theorem mem_points {files : List Path}
    (hperm : files.Perm (b.records.filter (·.dropLast = timerDir run))) {k : TimerKey}
    {record : TimerRecord} :
    (k, record) ∈ (files.filterMap fun path => taken (recordAt run b.objects path)) ↔
      ∃ key : RecordKey .timer, key.val = k ∧ key.val.run = run.val ∧
        pointOf b.objects key = some record := by
  simp only [List.mem_filterMap, taken_eq_some, recordAt_eq_some, ← pointOf_eq_some]
  constructor
  · intro h
    obtain ⟨path, -, key, hkey, hrun, -, hpoint⟩ := h
    exact ⟨key, hkey, hrun, hpoint⟩
  · intro h
    obtain ⟨key, hkey, hrun, hpoint⟩ := h
    exact ⟨_, hperm.mem_iff.2 (mem_itemDir hrun (lookup_of_pointOf hpoint)), key, hkey, hrun, rfl,
      hpoint⟩

theorem mem_overlaid {paths files : List Path} (hpaths : paths.Perm (b.recordsBelow (runLedger run)))
    (hfiles : files.Perm (b.records.filter (·.dropLast = timerDir run))) {k : TimerKey}
    {record : TimerRecord} :
    (k, record) ∈ (paths.filterMap fun path => taken (shadowAt run b.objects path)).foldl overlay
        (files.filterMap fun path => taken (recordAt run b.objects path)) ↔
      ∃ key : RecordKey .timer, key.val = k ∧ key.val.run = run.val ∧
        resolve (ledgerOf b.objects key) (pointOf b.objects key) = some record := by
  have hpathsNodup : paths.Nodup := hpaths.nodup_iff.2 ((b.objects.keys_nodup.filter _).filter _)
  have hfilesNodup : files.Nodup := hfiles.nodup_iff.2 ((b.objects.keys_nodup.filter _).filter _)
  rw [mem_overlays (distinct_taken (location_of_recordAt run) hfilesNodup)
    (distinct_taken (location_of_shadowAt run) hpathsNodup), mem_shadows hpaths, mem_points hfiles]
  constructor
  · intro h
    rcases h with ⟨⟨key, rfl, hrun, hledger⟩, hlive⟩ | ⟨habsent, key, rfl, hrun, hpoint⟩
    · refine ⟨key, rfl, hrun, resolve_eq_some.2 (.inl ⟨hledger, hlive.imp_right ?_⟩)⟩
      intro hpoint
      obtain ⟨key', hkey, -, hpoint⟩ := hpoint
      obtain rfl : key' = key := Subtype.ext hkey
      exact hpoint
    · refine ⟨key, rfl, hrun, resolve_eq_some.2 (.inr ⟨?_, hpoint⟩)⟩
      cases hledger : ledgerOf b.objects key with
      | none => rfl
      | some found => exact absurd (mem_keys ((mem_shadows hpaths).2 ⟨key, rfl, hrun, hledger⟩)) habsent
  · intro h
    obtain ⟨key, rfl, hrun, hresolve⟩ := h
    rcases resolve_eq_some.1 hresolve with ⟨hledger, hlive⟩ | ⟨hledger, hpoint⟩
    · exact .inl ⟨⟨key, rfl, hrun, hledger⟩, hlive.imp_right fun hpoint => ⟨key, rfl, hrun, hpoint⟩⟩
    · refine .inr ⟨?_, key, rfl, hrun, hpoint⟩
      intro hmem
      obtain ⟨⟨k, found⟩, hfound, heq⟩ := List.mem_map.1 hmem
      obtain ⟨key', hkey, -, hfound⟩ := (mem_shadows hpaths).1 hfound
      obtain rfl : key' = key := Subtype.ext (hkey.trans heq)
      rw [hledger] at hfound
      cases hfound

/-- A point object that the listing gets past: its record can be used, or a ledger entry covers it. -/
def Covered (run : RunKey) (objects : Objects wire) (path : Path) : Prop :=
  (recordAt run objects path).isOk = true ∨ ∃ key : RecordKey .timer, key.val.run = run.val ∧
    key.val.location = path ∧ (ledgerOf objects key).isSome

theorem keyOrder_injective {k l : TimerKey} (h : keyOrder k = keyOrder l) : k = l := by
  have hfields := toLex.injective h
  obtain ⟨hns, hrest⟩ := Prod.mk.inj hfields
  obtain ⟨hworkflow, hrest⟩ := Prod.mk.inj (toLex.injective hrest)
  obtain ⟨hrun, hid⟩ := Prod.mk.inj (toLex.injective hrest)
  cases k
  cases l
  simp_all

theorem id_lt_of_keyOrder {k l : TimerKey} (hrun : k.run = l.run) (h : keyOrder k < keyOrder l) :
    k.id < l.id := by
  obtain ⟨hns, hworkflow, hrunID⟩ := WorkflowKey.mk.inj hrun
  simpa [keyOrder, Prod.Lex.toLex_lt_toLex, hns, hworkflow, hrunID] using h

theorem pairwise_sorted {records : Records} (h : records.Distinct) :
    (records.insertionSort fun left right => keyOrder left.1 ≤ keyOrder right.1).Pairwise
      fun left right => keyOrder left.1 < keyOrder right.1 := by
  have hsorted := List.pairwise_insertionSort
    (fun left right : TimerKey × TimerRecord => keyOrder left.1 ≤ keyOrder right.1) records
  have hdistinct : (records.insertionSort fun left right =>
      keyOrder left.1 ≤ keyOrder right.1).Pairwise fun left right => left.1 ≠ right.1 := by
    have hnodup := ((List.perm_insertionSort (fun left right : TimerKey × TimerRecord =>
      keyOrder left.1 ≤ keyOrder right.1) records).map Prod.fst).nodup_iff.2 h
    exact List.pairwise_map.1 hnodup
  apply (hsorted.and hdistinct).imp
  intro left right hboth
  exact lt_of_le_of_ne hboth.1 fun heq => hboth.2 (keyOrder_injective heq)

theorem exec_canonicalPaths {shadows : Records}
    (h : ∀ entry ∈ shadows, ∃ key : RecordKey .timer, key.val = entry.1) :
    b.exec (shadows.mapM fun shadow => (liftM (timerPath shadow.1) : BucketM wire.Bytes Path)) =
      (.ok (shadows.map (·.1.location)), b) := by
  induction shadows with
  | nil => rfl
  | cons shadow shadows ih =>
    obtain ⟨key, hkey⟩ := h shadow (by simp)
    have hpath : timerPath shadow.1 = .ok shadow.1.location := by
      rw [← hkey]
      exact timerPath_of_stored key
    simp only [List.mapM_cons, exec_bind, exec_liftExcept, hpath,
      ih fun entry hentry => h entry (by simp [hentry]), exec_pure, List.map_cons]

theorem timerDirPath_run (run : RunKey) :
    timerDirPath (run.val.item .timer "placeholder") = .ok (timerDir run) := by
  have hvalid := valid_placeholder run.property.1 .timer
  exact timerDirPath_of_stored ⟨_, hvalid, run.property.2⟩

theorem Copies.recordAt {b' : Bucket wire.Bytes} (h : Copies b b') {path : Path}
    (hpath : path.dropLast = timerDir run) :
    recordAt run b'.objects path = recordAt run b.objects path := by
  have hlength : 4 < path.dropLast.length := by
    rw [hpath, length_timerDir]
    decide
  rw [Python.recordAt, Python.recordAt, h.replyAt (dropLast_ne_of_length hlength)]

theorem exec_recordFiles (dir : Path) :
    ∃ entries, b.exec (listEntries dir) = (.ok entries, b) ∧
      (recordFiles (entries.getD [])).Perm (b.records.filter (·.dropLast = dir)) := by
  rcases exec_listEntries (b := b) dir with ⟨hlist, -⟩ | ⟨hlist, hnone⟩
  · exact ⟨_, hlist, recordFiles_sorted _⟩
  · refine ⟨none, hlist, ?_⟩
    have hfiles : b.records.filter (·.dropLast = dir) = [] := by
      apply List.filter_eq_nil_iff.2
      intro path hpath hdir
      have hbelow : path ∈ b.recordsBelow dir := by
        refine List.mem_filter.2 ⟨hpath, ?_⟩
        have heq : path.dropLast = dir := by simpa using hdir
        simp [heq]
      rw [hnone] at hbelow
      cases hbelow
    rw [hfiles]
    exact .nil

/-- The listing of a run on any bucket: an error where a point is not covered, else the timers of
the run in the order of their keys. -/
theorem exec_listTimers (run : RunKey) {fuel : Nat} (hfuel : b.walkFuel ≤ fuel) :
    ∃ b', Copies b b' ∧
      ((∃ err, b.exec (listTimers wire fuel run.val .unspecified) = (.error err, b') ∧
          ∃ path ∈ b.records.filter (·.dropLast = timerDir run), ¬ Covered run b.objects path) ∨
        ∃ timers : Records, b.exec (listTimers wire fuel run.val .unspecified) =
            (.ok (timers.map Prod.snd), b') ∧
          timers.Pairwise (fun left right => keyOrder left.1 < keyOrder right.1) ∧
          (∀ k record, (k, record) ∈ timers ↔ ∃ key : RecordKey .timer, key.val = k ∧
            key.val.run = run.val ∧
            resolve (ledgerOf b.objects key) (pointOf b.objects key) = some record) ∧
          ∀ path ∈ b.records.filter (·.dropLast = timerDir run), Covered run b.objects path) := by
  obtain ⟨paths, b', hpaths, hwalk, hcopies⟩ := exec_shadows (b := b) run hfuel
  obtain ⟨entries, hlist, hfiles⟩ := exec_recordFiles (b := b) (timerDir run)
  refine ⟨b', hcopies, ?_⟩
  have hshadows : ∀ entry ∈ paths.filterMap fun path => taken (shadowAt run b.objects path),
      ∃ key : RecordKey .timer, key.val = entry.1 := by
    intro entry hentry
    obtain ⟨key, hkey, -⟩ := (mem_shadows hpaths).1 hentry
    exact ⟨key, hkey⟩
  have hlist' := hcopies.exec_listEntries (awayFromCopies_of_length
    (show 4 < (timerDir run).length by rw [length_timerDir]; decide))
  rw [hlist] at hlist'
  have hdir : ∀ path ∈ recordFiles (entries.getD []), path.dropLast = timerDir run := by
    intro path hpath
    simpa using (List.mem_filter.1 (hfiles.mem_iff.1 hpath)).2
  have hcanonical : ∀ path, path ∈ (paths.filterMap fun path =>
      taken (shadowAt run b.objects path)).map (·.1.location) ↔ ∃ key : RecordKey .timer,
        key.val.run = run.val ∧ key.val.location = path ∧ (ledgerOf b.objects key).isSome := by
    intro path
    rw [List.mem_map]
    constructor
    · intro h
      obtain ⟨⟨k, record⟩, hentry, rfl⟩ := h
      obtain ⟨key, rfl, hrun, hledger⟩ := (mem_shadows hpaths).1 hentry
      exact ⟨key, hrun, rfl, by simp [hledger]⟩
    · intro h
      obtain ⟨key, hrun, rfl, hsome⟩ := h
      obtain ⟨record, hledger⟩ := Option.isSome_iff_exists.1 hsome
      exact ⟨(key.val, record), (mem_shadows hpaths).2 ⟨key, rfl, hrun, hledger⟩, rfl⟩
  have hexec : b.exec (listTimers wire fuel run.val .unspecified) =
      b'.exec (forEach (listPoint wire run.val ((paths.filterMap fun path =>
        taken (shadowAt run b.objects path)).map (·.1.location))) (recordFiles (entries.getD [])) [] >>=
          fun records => pure ((((paths.filterMap fun path =>
            taken (shadowAt run b.objects path)).foldl overlay records).insertionSort
              fun left right => keyOrder left.1 ≤ keyOrder right.1).map Prod.snd)) := by
    rw [runLedger] at hwalk
    simp only [listTimers, exec_bind, exec_liftExcept, validateWorkflowKey_of_stored run, hwalk,
      exec_canonicalPaths hshadows, timerDirPath_run, hlist', if_true]
  rw [hexec, exec_bind]
  rcases exec_points (b := b') run ((paths.filterMap fun path =>
    taken (shadowAt run b.objects path)).map (·.1.location)) (recordFiles (entries.getD [])) [] with
      ⟨err, hpoints, path, hmem, habsent, hbad⟩ | ⟨hpoints, hgood⟩
  · left
    refine ⟨err, by rw [hpoints], path, hfiles.mem_iff.1 hmem, ?_⟩
    intro hcovered
    rcases hcovered with hok | hkey
    · rw [hcopies.recordAt (hdir path hmem), hok] at hbad
      cases hbad
    · exact habsent ((hcanonical path).2 hkey)
  · right
    have hfilesNodup : (recordFiles (entries.getD [])).Nodup :=
      hfiles.nodup_iff.2 ((b.objects.keys_nodup.filter _).filter _)
    have hgather : (recordFiles (entries.getD [])).filterMap
        (fun path => taken (recordAt run b'.objects path)) =
        (recordFiles (entries.getD [])).filterMap fun path => taken (recordAt run b.objects path) := by
      apply List.filterMap_congr
      intro path hpath
      rw [hcopies.recordAt (hdir path hpath)]
    rw [foldl_add (location_of_recordAt run) hfilesNodup [] (by simp), List.nil_append,
      hgather] at hpoints
    refine ⟨_, by rw [hpoints]; rfl, pairwise_sorted (distinct_overlays
      (distinct_taken (location_of_recordAt run) hfilesNodup)), ?_, ?_⟩
    · intro k record
      rw [List.mem_insertionSort, mem_overlaid hpaths hfiles]
    · intro path hpath
      have hmem := hfiles.mem_iff.2 hpath
      rcases hgood path hmem with hcovered | hok
      · exact .inr ((hcanonical path).1 hcovered)
      · rw [hcopies.recordAt (hdir path hmem)] at hok
        exact .inl hok

end Listing

section Readable

variable {wire : Wire} {b : Bucket wire.Bytes} {objects : Objects wire} {key : RecordKey .timer}

/-- Every object has an address, and the copies of every timer can be read. -/
structure Readable (objects : Objects wire) : Prop where
  laidOut : ∀ path data, objects.lookup path = some data → ∃ a : Address, path = a.path
  ledger : ∀ key, ∃ entry, ledgerAt objects key = .ok entry
  point : ∀ key, ∃ record, pointAt objects key = .ok record

theorem Readable.exec_getTimer (h : Readable b.objects) (key : RecordKey .timer) :
    b.exec (getTimer wire key.val) =
      (.ok (resolve (ledgerOf b.objects key) (pointOf b.objects key)), b) := by
  obtain ⟨entry, hledger⟩ := h.ledger key
  obtain ⟨record, hpoint⟩ := h.point key
  have hpointOf : pointOf b.objects key = record := by simp [pointOf, hpoint, Except.toOption]
  have hledgerOf : ledgerOf b.objects key = entry.map entryRecord := by
    simp [ledgerOf, hledger, Except.toOption]
  rw [hpointOf, hledgerOf]
  cases entry with
  | none => rw [exec_getTimer_bare hledger, hpoint]; rfl
  | some entry =>
    by_cases hsame : record = some (entryRecord entry)
    · rw [exec_getTimer_same hledger (by rw [hpoint, hsame])]
      simp [resolve, hsame]
    · have hne : pointAt b.objects key ≠ .ok (some (entryRecord entry)) := by
        rw [hpoint]
        exact fun heq => hsame (Except.ok.inj heq)
      rw [exec_getTimer_entry hledger hne]
      simp [resolve, hsame, liveRecord]

theorem Readable.covered (h : Readable b.objects) (run : RunKey) :
    ∀ path ∈ b.records.filter (·.dropLast = timerDir run), Covered run b.objects path := by
  intro path hpath
  obtain ⟨hrecord, hdir⟩ := List.mem_filter.1 hpath
  have hsome := AList.lookup_isSome.2 (AList.mem_keys.2 (List.mem_of_mem_filter hrecord))
  obtain ⟨data, hdata⟩ := Option.isSome_iff_exists.1 hsome
  obtain ⟨a, rfl⟩ := h.laidOut path data hdata
  have hbelow : timerDir run <+: a.path.dropLast := by
    have heq : a.path.dropLast = timerDir run := by simpa using hdir
    rw [heq]
  obtain ⟨key, rfl, hrun⟩ := address_below_items run .timer hbelow
  obtain ⟨record, hpoint⟩ := h.point key
  left
  cases record with
  | none =>
    have hnone : b.objects.lookup (Address.item .timer key).path = none :=
      lookup_of_pointAt_none hpoint
    rw [hnone] at hsome
    cases hsome
  | some record =>
    have hfound : recordAt run b.objects (Address.item .timer key).path = .ok (some (key.val, record)) :=
      (recordAt_eq_some run).2 ⟨key, rfl, hrun, rfl, hpoint⟩
    rw [hfound]
    rfl

theorem carries_of_resolve {record : TimerRecord}
    (h : resolve (ledgerOf objects key) (pointOf objects key) = some record) : Carries record key := by
  rcases resolve_eq_some.1 h with ⟨hledger, -⟩ | ⟨-, hpoint⟩
  · obtain ⟨entry, hentry, rfl⟩ := ledgerOf_eq_some.1 hledger
    exact (carries_of_ledgerAt hentry).1
  · exact carries_of_pointAt (pointOf_eq_some.1 hpoint)

theorem Readable.exec_listTimers (h : Readable b.objects) (run : RunKey) {fuel : Nat}
    (hfuel : b.walkFuel ≤ fuel) :
    ∃ records b', b.exec (listTimers wire fuel run.val .unspecified) = (.ok records, b') ∧
      Copies b b' ∧ records.Pairwise (timerID · < timerID ·) ∧
      ∀ record, record ∈ records ↔ ∃ key : RecordKey .timer, key.val.run = run.val ∧
        resolve (ledgerOf b.objects key) (pointOf b.objects key) = some record := by
  obtain ⟨b', hcopies, ⟨err, -, path, hpath, hbad⟩ | ⟨timers, hexec, hsorted, hmem, -⟩⟩ :=
    Python.exec_listTimers (b := b) run hfuel
  · exact absurd (h.covered run path hpath) hbad
  · refine ⟨timers.map Prod.snd, b', hexec, hcopies, ?_, ?_⟩
    · rw [List.pairwise_map]
      apply hsorted.imp_of_mem
      intro left right hleft hright hlt
      obtain ⟨key, hkey, hrun, hresolve⟩ := (hmem left.1 left.2).1 hleft
      obtain ⟨key', hkey', hrun', hresolve'⟩ := (hmem right.1 right.2).1 hright
      rw [timerID, timerID, (carries_of_resolve hresolve).key, (carries_of_resolve hresolve').key]
      rw [← hkey, ← hkey'] at hlt
      exact id_lt_of_keyOrder (hrun.trans hrun'.symm) hlt
    · intro record
      rw [List.mem_map]
      constructor
      · intro hrecord
        obtain ⟨⟨k, found⟩, hentry, rfl⟩ := hrecord
        obtain ⟨key, -, hrun, hresolve⟩ := (hmem k found).1 hentry
        exact ⟨key, hrun, hresolve⟩
      · intro hrecord
        obtain ⟨key, hrun, hresolve⟩ := hrecord
        exact ⟨(key.val, record), (hmem key.val record).2 ⟨key, rfl, hrun, hresolve⟩, rfl⟩

end Readable

end Temporaless.Python
