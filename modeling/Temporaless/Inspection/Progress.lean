import Temporaless.Inspection.Listings
import Temporaless.Inspection.Wakes

/-!
# Progress of the listings

A listing makes progress when it returns and, as long as candidates remain, with a token for the next
page. `NewService` accepts limits for which a listing does not: only the zero value of all the limits
together is replaced by the defaults.
-/

namespace Temporaless.Inspection

open PathTree Effects KeySort

section Settles

variable {Bytes α β : Type} {w : World Bytes} {service : Service}

/-- The read does not panic, and its answer satisfies `Q`. -/
def Settles (w : World Bytes) (code : ReadM Bytes Failure α) (Q : α → Prop) : Prop :=
  match w.run code with
  | .error failure => failure ≠ .panic
  | .ok a => Q a

variable {Q : α → Prop} {R : β → Prop}
  {code : ReadM Bytes Failure α}

theorem settles_of_run {a : α} (hcode : w.run code = .ok a) :
    Settles w code Q ↔ Q a := by rw [Settles, hcode]

theorem settles_of_error {failure : Failure}
    (hcode : w.run code = .error failure) (hpanic : failure ≠ .panic) : Settles w code Q := by
  rw [Settles, hcode]
  exact hpanic

theorem settles_bind {next : α → ReadM Bytes Failure β} :
    Settles w (code >>= next) R ↔ Settles w code fun a => Settles w (next a) R := by
  rw [Settles, Settles, World.run_bind]
  cases w.run code <;> rfl

theorem Settles.mono {Q' : α → Prop} (h : Settles w code Q)
    (hQ : ∀ a, w.run code = .ok a → Q a → Q' a) : Settles w code Q' := by
  rw [Settles] at h ⊢
  cases hcode : w.run code with
  | error failure => simpa [hcode] using h
  | ok a => exact hQ a hcode (by simpa [hcode] using h)

theorem settles_map {f : α → β} : Settles w (f <$> code) R ↔ Settles w code fun a => R (f a) := by
  rw [Settles, Settles, World.run_map]
  cases w.run code <;> rfl

theorem settles_pure {a : α} : Settles w (pure a : ReadM Bytes Failure α) Q ↔ Q a := Iff.rfl

theorem settles_lift {r : Except Failure α} (hpanic : r ≠ .error .panic) :
    Settles w (liftM r : ReadM Bytes Failure α) Q ↔ ∀ a, r = .ok a → Q a := by
  rw [Settles, World.run_liftExcept]
  cases r with
  | error failure => simpa using hpanic
  | ok a => simp

theorem storeError_ne_panic (err : Err) : service.storeError err ≠ .panic := by
  rw [Service.storeError]
  split_ifs <;> simp

theorem settles_reading {code : ReadM Bytes Err α} :
    Settles w (service.reading code) Q ↔ ∀ a, w.run code = .ok a → Q a := by
  rw [Settles, World.run_reading]
  cases w.run code with
  | error err => simpa [Except.mapError] using storeError_ne_panic err
  | ok a => simp [Except.mapError]

theorem settles_unless {p : Prop} [Decidable p] {failure : Failure}
    {next : Unit → ReadM Bytes Failure α}
    (hpanic : failure ≠ .panic) (h : ¬ p → Settles w (next ()) Q) :
    Settles w (if p then throw failure >>= next else next ()) Q := by
  split_ifs with hp
  · exact settles_bind.2 hpanic
  · exact h hp

/-- `Access` does not panic. -/
def Service.Quiet (service : Service) : Prop := ∀ store, service.access store ≠ .error .panic

theorem Service.Quiet.storeScope (hquiet : service.Quiet) (storeID : String) :
    service.storeScope storeID ≠ .error .panic := by
  rw [Service.storeScope]
  cases service.stores.find? (·.id = storeID) with
  | none => simp [Service.notAvailable]
  | some store =>
    rcases h : service.access store with failure | ⟨grant, visible⟩
    · have hfailure : failure ≠ .panic := fun heq => hquiet store (heq ▸ h)
      simpa [h, Bind.bind, Except.bind] using hfailure
    · cases visible <;> simp [h, Bind.bind, Except.bind, Pure.pure, Except.pure, Service.notAvailable, throw,
        throwThe, MonadExceptOf.throw]

theorem Service.Quiet.namespaceScope (hquiet : service.Quiet) (storeID ns : String) :
    service.namespaceScope storeID ns ≠ .error .panic := by
  have hstore := hquiet.storeScope storeID
  rw [Service.namespaceScope]
  rcases h : service.storeScope storeID with failure | ⟨store, grant⟩
  · simpa [h, Bind.bind, Except.bind] using hstore
  · simp only [Bind.bind, Except.bind]
    split_ifs <;> simp [Pure.pure, Except.pure, throw, throwThe, MonadExceptOf.throw]

theorem openCursor_ne_panic (binding token : String) :
    service.openCursor binding token ≠ .error .panic := by
  rw [Service.openCursor]
  split_ifs
  · simp
  · cases service.tokens.openToken binding token <;> simp [Except.mapError]

theorem sealCursor_ne_panic (binding cursor : String) :
    service.sealCursor binding cursor ≠ .error .panic := by
  rw [Service.sealCursor]
  split_ifs
  · simp
  · cases service.tokens.sealToken binding cursor <;> simp [Except.mapError]

end Settles

namespace Limits

variable (limits : Limits)

def listedObjects : Nat := min limits.maxListedObjects (2 ^ 59)

def listedRuns : Nat := min limits.maxListedRuns (2 ^ 59)

/-- No end of a batch overflows: of batches of `concurrency` candidates when the budget is large, and of
batches of `readBudget` candidates when the concurrency is. -/
structure FitsBatches : Prop where
  budget : ∀ m, m * limits.concurrency < limits.listedObjects →
    limits.readBudget + 2 ^ 32 * (m * limits.concurrency / 2 ^ 32) < 2 ^ 63
  concurrency : 2 ^ 32 ≤ limits.readBudget → ∀ j,
    limits.readBudget + 2 ^ 32 * (limits.readBudget / 2 ^ 32 * j) < limits.listedObjects →
      limits.readBudget + 2 ^ 32 * (limits.readBudget / 2 ^ 32 * j) + limits.concurrency < 2 ^ 63

structure HasPages : Prop where
  defaultPageSize : 0 < limits.defaultPageSize
  maxPageSize : 0 < limits.maxPageSize

/-- Listings that find anything have pages, and scans have batches. -/
structure Sufficient : Prop where
  objects : 0 < limits.maxListedObjects → limits.HasPages ∧ 0 < limits.readBudget ∧
    0 < limits.concurrency ∧ limits.FitsBatches
  runs : 0 < limits.maxListedRuns → limits.HasPages ∧
    min limits.defaultPageSize limits.maxPageSize + limits.listedRuns < 2 ^ 63

def Head (k : Nat) : Prop :=
  (2 ^ 62 ≤ limits.readBudget → limits.concurrency ∣ k) ∧
  (2 ^ 62 ≤ limits.concurrency → k = 0 ∨ 2 ^ 32 ≤ limits.readBudget ∧
    ∃ j, k = limits.readBudget + 2 ^ 32 * (limits.readBudget / 2 ^ 32 * j))

variable {limits}

theorem FitsBatches.safe (hfit : limits.FitsBatches) (hint : limits.Representable) {length : Nat}
    (hlength : length ≤ limits.listedObjects) : limits.Safe length limits.Head := by
  intro k hhead hk hbudget
  have hheld : limits.listedObjects ≤ 2 ^ 59 := Nat.min_le_right _ _
  have hc := hint.concurrency
  have hb := hint.readBudget
  refine ⟨?_, ?_⟩
  · rintro (hover | hover)
    · have hlarge : 2 ^ 62 ≤ limits.concurrency := by omega
      rcases hhead.2 hlarge with rfl | ⟨hbudget32, j, rfl⟩
      · omega
      · have := hfit.concurrency hbudget32 j (by omega)
        omega
    · have hlarge : 2 ^ 62 ≤ limits.readBudget := by omega
      obtain ⟨m, hm⟩ := hhead.1 hlarge
      rw [Nat.mul_comm] at hm
      have := hfit.budget m (by omega)
      rw [← hm] at this
      omega
  · intro hnext hnextBudget
    refine ⟨?_, ?_⟩
    · intro hlarge
      have heq : limits.nextHead length k = k + limits.concurrency := by
        rw [nextHead] at hnext ⊢
        omega
      rw [heq]
      exact (Nat.dvd_add_self_right).2 (hhead.1 hlarge)
    · intro hlarge
      have heq : limits.nextHead length k = k + limits.readBudget - k % 2 ^ 32 := by
        rw [nextHead] at hnext ⊢
        omega
      rw [heq] at hnextBudget ⊢
      right
      rcases hhead.2 hlarge with rfl | ⟨hbudget32, j, hj⟩
      · exact ⟨by omega, 0, by omega⟩
      · refine ⟨hbudget32, j + 1, ?_⟩
        rw [Nat.mul_succ]
        omega

end Limits

def Advanced {Response : Type} (nextPageToken : Response → String) : Option (Listed Response) → Prop
  | none => False
  | some listed => listed.unscanned ≠ [] → nextPageToken listed.response ≠ ""

def PageTokens.Proper (tokens : PageTokens) : Prop :=
  ∀ binding cursor token, cursor ≠ "" → tokens.sealToken binding cursor = .ok token → token ≠ ""

variable {path : Path} {token : String}

theorem render_ne_empty (hlegible : Legible path) (hsuffix : hasBinpbSuffix path = true) :
    render path ≠ "" := by
  intro hempty
  have hsplit := splitOn_render hlegible
  rw [hempty] at hsplit
  obtain ⟨segment, rfl⟩ : ∃ segment, path = [segment] := List.length_eq_one_iff.1 (by
    rw [← List.length_map (f := String.toList), ← hsplit]
    rfl)
  obtain rfl : segment = "" := by
    have : [] = segment.toList := by simpa using hsplit
    exact String.toList_inj.1 this.symm
  exact absurd hsuffix (by decide)

section Pages

variable {formats : RecordWire} {service : Service} {w : World formats.Bytes} {β Response : Type}
  {storeID ns pageToken binding : String} {pageSize fuel : Nat} {candidates : List Path}
  {read : Path → ReadM formats.Bytes Err (Verdict β)}

theorem sealed_ne_empty (hproper : service.tokens.Proper) {cursor : String} (hcursor : cursor ≠ "")
    (h : service.sealCursor binding cursor = .ok token) : token ≠ "" := by
  rw [Service.sealCursor, if_neg hcursor] at h
  cases hseal : service.tokens.sealToken binding cursor with
  | error err => simp [hseal, Except.mapError] at h
  | ok token' =>
    rw [hseal] at h
    exact Except.ok.inj h ▸ hproper binding cursor token' hcursor hseal

theorem pageSize_pos (hpages : service.limits.HasPages) (requested : Nat) :
    0 < service.pageSize requested := by
  have hdefault := hpages.defaultPageSize
  have hmax := hpages.maxPageSize
  rw [Service.pageSize]
  split_ifs <;> omega

theorem settles_scanLoop (hint : service.limits.Representable) (hsufficient : service.limits.Sufficient)
    (hlength : candidates.length ≤ service.limits.listedObjects) (hfuel : 2 ^ 59 < fuel)
    (htexts : ∀ path ∈ candidates, render path ≠ "") (requested : Nat) :
    Settles w (scanLoop service (service.pageSize requested) candidates read fuel {}) fun
      | none => False
      | some scan => scan.next < candidates.length → scan.lastProcessed ≠ "" := by
  have hheld : service.limits.listedObjects ≤ 2 ^ 59 := Nat.min_le_right _ _
  rcases Nat.eq_zero_or_pos candidates.length with hnil | hpos
  · obtain rfl := List.length_eq_zero_iff.1 hnil
    have hopen : ¬ (afterIn w read [] 0).Open service.limits (service.pageSize requested) [] := fun h => by
      simpa using h.1
    have hrun : w.run (scanLoop service (service.pageSize requested) [] read fuel {}) = .ok (some {}) :=
      run_scanLoop_closed hopen
    exact (settles_of_run hrun).2 fun h => absurd h (by simp)
  · have hlisted : 0 < service.limits.maxListedObjects :=
      Nat.lt_of_lt_of_le hpos (hlength.trans (Nat.min_le_left _ _))
    obtain ⟨hpages, hbudget, hconcurrency, hfit⟩ := hsufficient.objects hlisted
    have hopen : (afterIn w read candidates 0).Open service.limits (service.pageSize requested) candidates :=
      (open_iff (Nat.zero_le _)).2 ⟨hpos, pageSize_pos hpages requested, hbudget⟩
    have hhead : service.limits.Head 0 := ⟨fun _ => dvd_zero _, fun _ => .inl rfl⟩
    rcases run_scanLoop (w := w) read fuel hconcurrency (hlength.trans hheld)
        (hfit.safe hint hlength) (fun _ => hhead) (Nat.zero_le _) (by omega)
        (Nat.zero_le (service.pageSize requested)) with ⟨path, -, err, -, hrun⟩ | ⟨k, hended, hrun⟩
    · exact settles_of_error hrun (storeError_ne_panic err)
    · refine (settles_of_run hrun).2 fun _ => ?_
      obtain ⟨k, rfl⟩ : ∃ j, k = j + 1 := Nat.exists_eq_add_of_lt (hended.grows hopen) |>.imp (by omega)
      rw [after_lastProcessed (by have := hended.within; omega)]
      exact htexts _ (List.getElem_mem _)

theorem scanToken_ne_panic (scan : Scan β) :
    service.scanToken binding candidates scan ≠ .error .panic := by
  rw [Service.scanToken]
  split_ifs
  · exact sealCursor_ne_panic binding scan.lastProcessed
  · simp

theorem advanced_scanToken (hproper : service.tokens.Proper) {scan : Scan β}
    (hscan : scan.next < candidates.length → scan.lastProcessed ≠ "")
    (h : service.scanToken binding candidates scan = .ok token)
    (hleft : candidates.drop scan.next ≠ []) :
    token ≠ "" := by
  have hlt : scan.next < candidates.length := by simpa using hleft
  rw [Service.scanToken, if_pos hlt] at h
  exact sealed_ne_empty hproper (hscan hlt) h

theorem mem_keys_of_mem_recordFiles {view : View formats.Bytes} {dir : Path}
    (h : path ∈ recordFiles (children view.bucket dir)) :
    path ∈ view.bucket.objects.keys ∧ hasBinpbSuffix path = true := by
  have hmem := List.mem_of_mem_filter (recordFiles_children.mem_iff.1 h)
  simp only [Bucket.records, List.mem_filter, decide_eq_true_eq] at hmem
  exact ⟨hmem.1, hmem.2.2⟩

theorem mem_keys_of_mem_recordsBelow {view : View formats.Bytes} {dir : Path}
    (h : path ∈ view.bucket.recordsBelow dir) :
    path ∈ view.bucket.objects.keys ∧ hasBinpbSuffix path = true := by
  have hmem := List.mem_of_mem_filter h
  simp only [Bucket.records, List.mem_filter, decide_eq_true_eq] at hmem
  exact ⟨hmem.1, hmem.2.2⟩

theorem length_recordsBelow_le (view : View formats.Bytes) (dir : Path) :
    (view.bucket.recordsBelow dir).length ≤ 2 ^ 59 := by
  have hkeys : (view.bucket.recordsBelow dir).length ≤ view.bucket.objects.keys.length :=
    (List.length_filter_le _ _).trans (List.length_filter_le _ _)
  have hheld := view.held
  rw [List.length_append] at hheld
  omega

theorem render_ne_empty_of_mem {view : View formats.Bytes}
    (h : path ∈ view.bucket.objects.keys) (hsuffix : hasBinpbSuffix path = true) : render path ≠ "" :=
  render_ne_empty (view.legible path (List.mem_append_left _ h)) hsuffix

theorem run_listDir_eq_ok {store : Store} {dir : Path} {names : List ListEntry}
    (h : w.run (listDir store dir) = .ok names) : names = children (w.view store.id).bucket dir := by
  rw [World.run_listDir, World.answer] at h
  cases hfailure : (w.view store.id).listFailure dir with
  | some err => simp [hfailure] at h
  | none =>
    rw [hfailure] at h
    exact (Except.ok.inj h).symm

theorem length_recordFiles_le (names : List ListEntry) : (recordFiles names).length ≤ names.length :=
  List.length_filterMap_le _ _

theorem settles_now {Q : Int → Prop} : Settles w (now : ReadM formats.Bytes Failure Int) Q ↔ Q w.time :=
  Iff.rfl

theorem runsToken_ne_panic (page unscanned : List Path) :
    service.runsToken binding page unscanned ≠ .error .panic := by
  rw [Service.runsToken]
  split
  · split_ifs
    · simp
    · exact sealCursor_ne_panic binding _
  · simp

theorem advanced_runsToken (hproper : service.tokens.Proper) {page unscanned : List Path}
    (h : service.runsToken binding page unscanned = .ok token) (hpage : page ≠ [])
    (hleft : unscanned ≠ []) :
    token ≠ "" := by
  rw [Service.runsToken, List.getLast?_eq_getLast_of_ne_nil hpage] at h
  simp only [List.isEmpty_iff, hleft, if_false] at h
  refine sealed_ne_empty hproper ?_ h
  simp [entryText]

theorem runsEnd_eq (hint : service.limits.Representable) (hsufficient : service.limits.Sufficient)
    {requested start length : Nat} (hrequested : requested < 2 ^ 32) (hstart : start ≤ length)
    (hlength : length ≤ service.limits.listedRuns) :
    runsEnd start (service.pageSize requested) length = (min (start + service.pageSize requested) length : Nat) := by
  have hheld : service.limits.listedRuns ≤ 2 ^ 59 := Nat.min_le_right _ _
  have hfits : start + service.pageSize requested < 2 ^ 63 := by
    rcases Nat.eq_zero_or_pos length with hzero | hpos
    · have hmax := hint.maxPageSize
      have : service.pageSize requested ≤ service.limits.maxPageSize := Nat.min_le_right _ _
      omega
    · have hruns := (hsufficient.runs (by
        have := Nat.min_le_left service.limits.maxListedRuns (2 ^ 59)
        rw [← Limits.listedRuns] at this
        omega)).2
      rw [Service.pageSize]
      split_ifs <;> omega
  rw [runsEnd, ← Nat.cast_add, int64_of_lt hfits]
  omega

variable (hquiet : service.Quiet) (hproper : service.tokens.Proper) (hint : service.limits.Representable)
  (hsufficient : service.limits.Sufficient) (hfuel : 2 ^ 59 < fuel)
include hquiet hproper hint hsufficient hfuel

theorem settles_listWorkflowDirectory (workflowIDPrefix : String) (status : Int) :
    Settles w (listWorkflowDirectory formats service fuel storeID ns workflowIDPrefix status pageSize
      pageToken) (Advanced (·.nextPageToken)) := by
  rw [listWorkflowDirectory, settles_bind, settles_lift (hquiet.namespaceScope storeID ns)]
  rintro ⟨store, grant⟩ -
  refine settles_unless (by simp) fun _ => ?_
  rw [settles_bind, settles_lift (openCursor_ne_panic _ _)]
  intro cursor _
  rw [settles_bind, settles_reading]
  intro names hnames
  obtain rfl := run_listDir_eq_ok hnames
  refine settles_unless (storeError_ne_panic _) fun hbound => ?_
  have hlength : (directoryCandidates ns workflowIDPrefix cursor
      (children (w.view store.id).bucket (latestDir ns))).length ≤ service.limits.listedObjects := by
    refine (List.length_filter_le _ _).trans (Nat.le_min.2 ⟨?_, length_recordFiles_children _ _⟩)
    exact (length_recordFiles_le _).trans (Nat.not_lt.1 hbound)
  rw [settles_bind]
  refine (settles_scanLoop hint hsufficient hlength hfuel ?_ pageSize).mono ?_
  · intro path hpath
    obtain ⟨hkey, hsuffix⟩ := mem_keys_of_mem_recordFiles (List.mem_of_mem_filter hpath)
    exact render_ne_empty_of_mem hkey hsuffix
  · rintro (_ | scan) - hscan
    · exact hscan.elim
    · rw [settles_bind, settles_lift (scanToken_ne_panic scan)]
      intro token htoken
      exact settles_pure.2 (advanced_scanToken hproper hscan htoken)

theorem settles_listScheduledWakes (hwalk : (w.view storeID).bucket.walkFuel ≤ fuel)
    (overdueOnly : Bool) :
    Settles w (listScheduledWakes formats service fuel storeID ns overdueOnly pageSize pageToken)
      (Advanced (·.nextPageToken)) := by
  rw [listScheduledWakes, settles_bind, settles_lift (hquiet.namespaceScope storeID ns)]
  rintro ⟨store, grant⟩ hscope
  obtain rfl := id_of_namespaceScope hscope
  rw [settles_bind, settles_lift (openCursor_ne_panic _ _)]
  intro cursor _
  rw [settles_bind, settles_reading]
  intro files hfiles
  rcases run_walkFiles (dueRoot ns) service.limits.maxListedObjects hwalk with
    ⟨err, herr, -⟩ | ⟨found, hfound, hlimit, hperm⟩
  · simp [herr] at hfiles
  · obtain rfl : some (sortedBy render found) = files := Except.ok.inj (hfound.symm.trans hfiles)
    rw [settles_bind, settles_reading]
    intro quarantined _
    refine settles_unless (storeError_ne_panic _) fun _ => ?_
    rw [settles_bind, settles_now, settles_bind]
    have hmem : ∀ path ∈ wakeCandidates cursor (sortedBy render found),
        path ∈ (w.view store.id).bucket.recordsBelow (dueRoot ns) := by
      intro path hpath
      rw [wakeCandidates] at hpath
      split_ifs at hpath
      · exact hperm.mem_iff.1 (mem_sortedBy.1 hpath)
      · exact hperm.mem_iff.1 (mem_sortedBy.1 (List.mem_of_mem_filter hpath))
    have hlength : (wakeCandidates cursor (sortedBy render found)).length ≤ service.limits.listedObjects := by
      have hcandidates : (wakeCandidates cursor (sortedBy render found)).length ≤ found.length := by
        rw [wakeCandidates]
        split_ifs
        · exact sortedBy_perm.length_eq.le
        · exact (List.length_filter_le _ _).trans sortedBy_perm.length_eq.le
      refine hcandidates.trans (Nat.le_min.2 ⟨hlimit, ?_⟩)
      rw [hperm.length_eq]
      exact length_recordsBelow_le _ _
    refine (settles_scanLoop hint hsufficient hlength hfuel ?_ pageSize).mono ?_
    · intro path hpath
      obtain ⟨hkey, hsuffix⟩ := mem_keys_of_mem_recordsBelow (hmem path hpath)
      exact render_ne_empty_of_mem hkey hsuffix
    · rintro (_ | scan) - hscan
      · exact hscan.elim
      · rw [settles_bind, settles_lift (scanToken_ne_panic scan)]
        intro token htoken
        exact settles_pure.2 (advanced_scanToken hproper hscan htoken)

omit hfuel in
theorem settles_listWorkflowRuns (hrequested : pageSize < 2 ^ 32) (workflowID : String)
    (ascending : Bool) :
    Settles w (some <$> listWorkflowRuns formats service storeID ns workflowID ascending pageSize pageToken)
      (Advanced (·.nextPageToken)) := by
  rw [settles_map, listWorkflowRuns, settles_bind, settles_lift (hquiet.namespaceScope storeID ns)]
  rintro ⟨store, grant⟩ -
  rw [settles_bind, settles_lift (by cases validateScopeSegments ns workflowID <;> simp [Except.mapError])]
  rintro _ -
  rw [settles_bind, settles_lift (openCursor_ne_panic _ _)]
  intro cursor _
  rw [settles_bind, settles_reading]
  intro names hnames
  obtain rfl := run_listDir_eq_ok hnames
  refine settles_unless (by simp [Service.tooManyRuns]) fun hbound => ?_
  have hheld : (orderedRuns ascending (children (w.view store.id).bucket (workflowDir ns workflowID))).length ≤
      2 ^ 59 := by
    rw [orderedRuns]
    split_ifs
    · exact length_runDirectories_children _ _
    · rw [List.length_reverse]
      exact length_runDirectories_children _ _
  generalize orderedRuns ascending (children (w.view store.id).bucket (workflowDir ns workflowID)) = runDirs at *
  have hlength : runDirs.length ≤ service.limits.listedRuns := Nat.le_min.2 ⟨Nat.not_lt.1 hbound, hheld⟩
  have hstart := runsStart_le ascending cursor runDirs
  generalize runsStart ascending cursor runDirs = start at *
  have hend := runsEnd_eq hint hsufficient hrequested hstart hlength
  simp only [hend, Int.toNat_natCast]
  rw [if_neg (by omega), settles_bind, settles_reading]
  intro summaries _
  rw [settles_bind, settles_lift (runsToken_ne_panic _ _)]
  intro token htoken
  refine settles_pure.2 fun hleft => advanced_runsToken hproper htoken ?_ hleft
  have hlt : start < runDirs.length := by
    have := List.length_pos_of_ne_nil hleft
    rw [List.length_drop] at this
    omega
  have hpos := pageSize_pos (hsufficient.runs (by omega)).1 pageSize
  apply List.ne_nil_of_length_pos
  rw [List.length_take, List.length_drop]
  omega

end Pages

/-- For services with these limits, any stores and any request, the listings return and leave no
candidates without a token. -/
def ListingsProgress (limits : Limits) : Prop :=
  ∀ (formats : RecordWire) (stores : List Store) (options : Options) (hasStatus : Err → Bool)
    (service : Service), options.limits = limits → newService stores options hasStatus = .ok service →
    (∀ store, options.access store ≠ .error .panic) → (∀ tokens ∈ options.tokens, tokens.Proper) →
    ∀ (w : World formats.Bytes) (storeID ns pageToken : String) (pageSize : Nat), pageSize < 2 ^ 32 →
      (∀ workflowIDPrefix status, ∃ fuel, Settles w (listWorkflowDirectory formats service fuel storeID ns
        workflowIDPrefix status pageSize pageToken) (Advanced (·.nextPageToken))) ∧
      (∀ workflowID ascending, Settles w (some <$> listWorkflowRuns formats service storeID ns workflowID
        ascending pageSize pageToken) (Advanced (·.nextPageToken))) ∧
      ∀ overdueOnly, ∃ fuel, Settles w (listScheduledWakes formats service fuel storeID ns overdueOnly
        pageSize pageToken) (Advanced (·.nextPageToken))

theorem encode_ne_nil {bytes : ByteCode.Bytes} (h : bytes ≠ []) : ByteCode.encode bytes ≠ [] := by
  match bytes with
  | [] => exact absurd rfl h
  | [_] => simp [ByteCode.encode, ByteCode.toDigits]
  | [_, _] => simp [ByteCode.encode, ByteCode.toDigits]
  | _ :: _ :: _ :: _ => simp [ByteCode.encode, ByteCode.toDigits]

theorem plainPageTokens_proper : plainPageTokens.Proper := by
  intro binding cursor token _ h hempty
  obtain rfl := Except.ok.inj h
  have hbytes : ByteCode.textBytes (binding ++ "\x00" ++ cursor) ≠ [] := by
    have hnul : ByteCode.textBytes "\x00" = [0] := by decide
    simp [ByteCode.textBytes_append, hnul]
  have := encode_ne_nil hbytes
  simp_all

theorem newService_eq_ok {stores : List Store} {options : Options} {hasStatus : Err → Bool}
    {service : Service}
    (h : newService stores options hasStatus = .ok service) :
    service.access = options.access ∧ service.tokens = options.tokens.getD plainPageTokens ∧
      service.limits = if options.limits = zeroLimits then defaultLimits else options.limits := by
  rw [newService] at h
  by_cases hstores : stores.isEmpty = true
  · rw [if_pos hstores] at h
    exact absurd h nofun
  · rw [if_neg hstores] at h
    obtain ⟨_, _, h⟩ := Loop.bind_eq_ok.1 h
    obtain rfl := Except.ok.inj h
    exact ⟨rfl, rfl, rfl⟩

theorem listingsProgress_of_sufficient {limits : Limits} (hint : limits.Representable)
    (hkept : limits ≠ zeroLimits) (hsufficient : limits.Sufficient) : ListingsProgress limits := by
  intro formats stores options hasStatus service hlimits hnew hquiet hproper w storeID ns pageToken
    pageSize hrequested
  obtain ⟨haccess, htokens, hservice⟩ := newService_eq_ok hnew
  rw [if_neg (by rwa [hlimits]), hlimits] at hservice
  have hquiet' : service.Quiet := by
    rw [Service.Quiet, haccess]
    exact hquiet
  have hproper' : service.tokens.Proper := by
    rw [htokens]
    cases hoption : options.tokens with
    | none => exact plainPageTokens_proper
    | some tokens => exact hproper tokens hoption
  rw [← hservice] at hint hsufficient
  obtain ⟨fuel, hfuel, hwalk⟩ : ∃ fuel, 2 ^ 59 < fuel ∧ (w.view storeID).bucket.walkFuel ≤ fuel :=
    ⟨max (2 ^ 59 + 1) (w.view storeID).bucket.walkFuel, by omega, by omega⟩
  refine ⟨fun workflowIDPrefix status => ⟨fuel, ?_⟩, fun workflowID ascending => ?_, fun overdueOnly => ⟨fuel, ?_⟩⟩
  · exact settles_listWorkflowDirectory hquiet' hproper' hint hsufficient hfuel workflowIDPrefix status
  · exact settles_listWorkflowRuns hquiet' hproper' hint hsufficient hrequested workflowID ascending
  · exact settles_listScheduledWakes hquiet' hproper' hint hsufficient hfuel hwalk overdueOnly

section Stuck

def filled {Bytes : Type} (paths : List Path) (hnodup : paths.Nodup) (data : Bytes) :
    AList fun _ : Path => Bytes where
  entries := paths.map fun path => ⟨path, data⟩
  nodupKeys := by simpa [List.NodupKeys, List.keys, List.map_map, Function.comp_def] using hnodup

variable {Bytes : Type} {paths : List Path} {hnodup : paths.Nodup} {data : Bytes}

@[simp] theorem keys_filled : (filled paths hnodup data).keys = paths := by
  simp [filled, AList.keys, List.keys, List.map_map, Function.comp_def]

theorem eq_of_lookup_filled (hnodup : paths.Nodup) {found : Bytes}
    (h : (filled paths hnodup data).lookup path = some found) : found = data := by
  have hmem := AList.mem_lookup_iff.1 h
  simp [filled] at hmem
  exact hmem.2.symm

/-- The name of the `i`-th object or directory of a store. -/
def mark (i : Nat) : String := String.ofList (List.replicate i 'b')

theorem mark_injective : Function.Injective mark := by
  intro i j h
  have := congrArg (fun s : String => s.toList.length) h
  simpa [mark] using this

/-- The `i`-th pointer of the default namespace. -/
def pointerPath (i : Nat) : Path := latestPath "default" (mark i)

theorem pointerPath_injective : Function.Injective pointerPath := by
  intro i j h
  apply mark_injective
  simpa [pointerPath, latestPath, binpb] using h

def pointerPaths (n : Nat) : List Path := (List.range n).map pointerPath

theorem nodup_pointerPaths (n : Nat) : (pointerPaths n).Nodup :=
  List.nodup_range.map pointerPath_injective

/-- A bucket with `n` pointers that do not decode. -/
def pointerBucket (n : Nat) : Bucket taggedRecordWire.Bytes :=
  ⟨filled (pointerPaths n) (nodup_pointerPaths n) (bellData (bellEntry "default" .scheduled)), [], 0⟩

theorem legible_pointerPath (i : Nat) : Legible (pointerPath i) := by
  simp [Legible, pointerPath, latestPath, latestDir, storageRoot, slashFree, binpb, mark]

def pointerWorld (n : Nat) (hn : n ≤ 2 ^ 59) : World taggedRecordWire.Bytes where
  view _ := plainView (pointerBucket n)
    (by
      intro path hmem
      obtain ⟨i, -, rfl⟩ : ∃ i, i < n ∧ pointerPath i = path := by
        simpa [pointerBucket, pointerPaths] using hmem
      exact legible_pointerPath i)
    (by simpa [pointerBucket, pointerPaths] using hn)
  time := 0

theorem dropLast_pointerPath (i : Nat) : (pointerPath i).dropLast = latestDir "default" :=
  List.dropLast_concat

theorem hasBinpbSuffix_pointerPath (i : Nat) : hasBinpbSuffix (pointerPath i) = true := by
  rw [hasBinpbSuffix, pointerPath, latestPath, List.getLastD_concat, binpb, String.toList_append,
    List.isSuffixOf_iff_suffix]
  exact List.suffix_append _ _

theorem keys_pointerBucket (n : Nat) : (pointerBucket n).objects.keys = pointerPaths n := by
  simp [pointerBucket]

theorem records_pointerBucket (n : Nat) :
    (pointerBucket n).records.filter (·.dropLast = latestDir "default") = pointerPaths n := by
  rw [Bucket.records, keys_pointerBucket, List.filter_filter]
  apply List.filter_eq_self.2
  intro path hpath
  obtain ⟨i, -, rfl⟩ := List.mem_map.1 hpath
  simp [dropLast_pointerPath, hasBinpbSuffix_pointerPath, (legible_pointerPath i).1]

theorem length_children_pointerBucket (n : Nat) :
    (children (pointerBucket n) (latestDir "default")).length = n := by
  have hnames : childNames (latestDir "default") (pointerBucket n).locations = [] := by
    rw [List.eq_nil_iff_forall_not_mem]
    intro name hname
    obtain ⟨path, hpath, hchild⟩ := mem_childNames.1 hname
    have hpath : path = latestDir "default" := by
      rw [Bucket.locations, keys_pointerBucket] at hpath
      obtain ⟨i, -, rfl⟩ : ∃ i, i < n ∧ (pointerPath i).dropLast = path := by
        simpa [pointerBucket, pointerPaths] using hpath
      exact dropLast_pointerPath i
    have := hchild.length_le
    simp [hpath] at this
  have hobjects : ((pointerBucket n).objects.keys.filter fun p => p ≠ [] ∧ p.dropLast = latestDir "default") =
      pointerPaths n := by
    rw [keys_pointerBucket]
    apply List.filter_eq_self.2
    intro path hpath
    obtain ⟨i, -, rfl⟩ := List.mem_map.1 hpath
    simp [dropLast_pointerPath, (legible_pointerPath i).1]
  rw [children_perm.length_eq, Bucket.entries, hnames, hobjects]
  simp [List.filter_map, Function.comp_def, pointerPaths]

def pointerCandidates (n : Nat) : List Path :=
  directoryCandidates "default" "" [] (children (pointerBucket n) (latestDir "default"))

theorem length_pointerCandidates (n : Nat) : (pointerCandidates n).length = n := by
  have hall : pointerCandidates n = recordFiles (children (pointerBucket n) (latestDir "default")) := by
    apply List.filter_eq_self.2
    intro path hpath
    have hpath : path ∈ pointerPaths n := by
      rw [← records_pointerBucket]
      exact recordFiles_children.mem_iff.1 hpath
    obtain ⟨i, -, rfl⟩ := List.mem_map.1 hpath
    have htext : (render (pointerPath i)).toList =
        (render (latestDir "default")).toList ++ '/' :: (render [binpb (mark i)]).toList :=
      toList_render_append (by simp [latestDir]) (by simp)
    have hlt : [] < ByteCode.textBytes (render (pointerPath i)) := by
      cases hbytes : ByteCode.textBytes (render (pointerPath i)) with
      | nil =>
        rw [ByteCode.textBytes_inj (hbytes.trans (by decide : [] = ByteCode.textBytes ""))] at htext
        simp at htext
      | cons byte rest => exact List.nil_lt_cons _ _
    simp [htext, hlt]
  rw [hall, recordFiles_children.length_eq, records_pointerBucket]
  simp [pointerPaths]

def openService (limits : Limits) : Service where
  stores := [mainStore]
  access _ := .ok (⟨[], true⟩, true)
  tokens := ⟨fun _ cursor => .ok cursor, fun _ token => .ok (ByteCode.textBytes token)⟩
  limits := limits
  hasStatus _ := false

theorem newService_openService {limits : Limits} (hkept : limits ≠ zeroLimits) :
    newService [mainStore] ⟨(openService limits).access, some (openService limits).tokens, limits⟩
      (fun _ => false) = .ok (openService limits) := by
  have hchecks : checkRegistrations [] [mainStore] = .ok () := rfl
  simp [newService, hchecks, hkept, openService]

theorem proper_openService (limits : Limits) : (openService limits).tokens.Proper := by
  intro binding cursor token hcursor hseal
  obtain rfl : cursor = token := Except.ok.inj hseal
  exact hcursor

theorem scope_openService (limits : Limits) :
    (openService limits).namespaceScope "main" "default" = .ok (mainStore, ⟨[], true⟩) := by
  rfl

theorem run_pointerRead (limits : Limits) {n : Nat} (hn : n ≤ 2 ^ 59) (path : Path) :
    (pointerWorld n hn).run (directoryRead taggedRecordWire (openService limits) mainStore "default" 0 path) =
      .ok .skipped := by
  rw [World.run_map, directoryEntry, World.run_bind, World.run_readPath]
  simp only [World.answer, pointerWorld, plainView]
  cases hlookup : (pointerBucket n).objects.lookup path with
  | none => rfl
  | some found =>
    obtain rfl := eq_of_lookup_filled (nodup_pointerPaths n) hlookup
    rfl

variable {limits : Limits} {n fuel : Nat}

/-- The first page of a directory with `n` pointers, with the default page size. -/
def firstPage (limits : Limits) (fuel : Nat) :
    ReadM taggedRecordWire.Bytes Failure (Option (Listed WorkflowDirectoryResponse)) :=
  listWorkflowDirectory taggedRecordWire (openService limits) fuel "main" "default" "" 0 0 ""

abbrev pointerScan (limits : Limits) (n fuel : Nat) :
    ReadM taggedRecordWire.Bytes Failure (Option (Scan WorkflowDirectoryEntry)) :=
  scanLoop (openService limits) ((openService limits).pageSize 0) (pointerCandidates n)
    (directoryRead taggedRecordWire (openService limits) mainStore "default" 0) fuel {}

theorem run_firstPage (hn : n ≤ 2 ^ 59) (hlisted : n ≤ limits.maxListedObjects) :
    (pointerWorld n hn).run (firstPage limits fuel) =
      ((pointerWorld n hn).run (pointerScan limits n fuel)).bind
        ((openService limits).finishPage (PageRequest.directory "main" "default" "" 0).binding
          (pointerCandidates n) directoryResponse) := by
  refine run_listWorkflowDirectory (scope_openService limits) (by decide) rfl rfl ?_
  exact (length_children_pointerBucket n).trans_le hlisted

theorem not_settles_of_closed (hn : 1 ≤ 2 ^ 59) (hlisted : 1 ≤ limits.maxListedObjects)
    (hzero : (openService limits).pageSize 0 = 0 ∨ limits.readBudget = 0) :
    ¬ ∃ fuel, Settles (pointerWorld 1 hn) (firstPage limits fuel) (Advanced (·.nextPageToken)) := by
  rw [not_exists]
  intro fuel
  have hlength := length_pointerCandidates 1
  have hopen : ¬ (afterIn (pointerWorld 1 hn)
      (directoryRead taggedRecordWire (openService limits) mainStore "default" 0) (pointerCandidates 1) 0).Open
      (openService limits).limits ((openService limits).pageSize 0) (pointerCandidates 1) := by
    rw [open_iff (Nat.zero_le _)]
    rintro ⟨-, hpage, hbudget⟩
    rcases hzero with hzero | hzero
    · exact absurd hpage (by simp [hzero])
    · exact absurd hbudget (by simp [openService, hzero])
  have hscan : (pointerWorld 1 hn).run (pointerScan limits 1 fuel) = .ok (some {}) :=
    run_scanLoop_closed hopen
  have hrun : (pointerWorld 1 hn).run (firstPage limits fuel) =
      .ok (some ⟨⟨[], "", 0⟩, pointerCandidates 1⟩) := by
    rw [run_firstPage hn hlisted, hscan]
    simp [Except.bind, Service.finishPage, Service.scanToken, hlength, Service.sealCursor,
      directoryResponse, Except.map]
  have hne : pointerCandidates 1 ≠ [] := List.ne_nil_of_length_pos (by omega)
  rw [settles_of_run hrun]
  exact fun hadvanced => hadvanced hne rfl

theorem not_settles_of_stuck (Head : Nat → Prop) (hint : limits.Representable) (hn : n ≤ 2 ^ 59)
    (hlisted : n ≤ limits.maxListedObjects) (hpage : 0 < (openService limits).pageSize 0)
    (hsafe : ∀ k, Head k → k < n ∧ k % 2 ^ 32 < limits.readBudget ∧
      (limits.Overflows k ∨ Head (limits.nextHead n k))) (hhead : Head 0) :
    ¬ ∃ fuel, Settles (pointerWorld n hn) (firstPage limits fuel) (Advanced (·.nextPageToken)) := by
  rw [not_exists]
  intro fuel
  have hlength := length_pointerCandidates n
  have hstuck : (pointerWorld n hn).run (pointerScan limits n fuel) = .ok none ∨
      (pointerWorld n hn).run (pointerScan limits n fuel) = .error .panic :=
    run_scanLoop_stuck hint (by omega) hpage (run_pointerRead limits hn) (hlength.symm ▸ hsafe) hhead
  rw [Settles, run_firstPage hn hlisted]
  rcases hstuck with hscan | hscan
  · rw [hscan]
    exact id
  · rw [hscan]
    exact fun h => h rfl

/-- The `i`-th run directory of a workflow. -/
def runPath (i : Nat) : Path := workflowDir "default" "orders" ++ [mark (i + 1)]

/-- A bucket with `n` run directories without records. -/
def runsBucket (n : Nat) : Bucket taggedRecordWire.Bytes := ⟨∅, (List.range n).map runPath, 0⟩

def runsWorld (n : Nat) (hn : n ≤ 2 ^ 59) : World taggedRecordWire.Bytes where
  view _ := plainView (runsBucket n)
    (by
      intro path hmem
      obtain ⟨i, -, rfl⟩ : ∃ i, i < n ∧ runPath i = path := by simpa [runsBucket] using hmem
      simp [Legible, runPath, workflowDir, storageRoot, slashFree, mark])
    (by simpa [runsBucket] using hn)
  time := 0

theorem childNames_runsBucket (n : Nat) :
    childNames (workflowDir "default" "orders") (runsBucket n).locations =
    (List.range n).map fun i => mark (i + 1) := by
  have hnames : ((runsBucket n).locations.filterMap fun p =>
      if workflowDir "default" "orders" <+: p then (p.drop (workflowDir "default" "orders").length).head?
      else none) = (List.range n).map fun i => mark (i + 1) := by
    simp [runsBucket, Bucket.locations, List.filterMap_map, runPath]
  rw [childNames, hnames]
  apply List.Nodup.dedup
  exact List.nodup_range.map fun i j h => by simpa using mark_injective h

def runsCall (limits : Limits) (token : String) :
    ReadM taggedRecordWire.Bytes Failure (Listed WorkflowRunsResponse) :=
  listWorkflowRuns taggedRecordWire (openService limits) "main" "default" "orders" true 0 token

abbrev runDirs (n : Nat) : List Path :=
  orderedRuns true (children (runsBucket n) (workflowDir "default" "orders"))

theorem length_runDirs (n : Nat) : (runDirs n).length = n := by
  rw [runDirs, orderedRuns, if_pos rfl, runDirectories_children.length_eq, childNames_runsBucket]
  simp

theorem not_settles_runs_of_closed (hn : 1 ≤ 2 ^ 59) (hlisted : 1 ≤ limits.maxListedRuns)
    (hzero : (openService limits).pageSize 0 = 0) :
    ¬ ∀ token, Settles (runsWorld 1 hn) (some <$> runsCall limits token) (Advanced (·.nextPageToken)) := by
  have hrun : (runsWorld 1 hn).run (runsCall limits "") = .ok ⟨runsResponse (runDirs 1) [] "", runDirs 1⟩ := by
    rw [runsCall, run_listWorkflowRuns (scope_openService limits) rfl rfl rfl
      ((length_runDirs 1).trans_le hlisted) 0 rfl (by rw [hzero]; decide), hzero]
    rfl
  have hne : runDirs 1 ≠ [] := List.ne_nil_of_length_pos (by rw [length_runDirs]; decide)
  refine not_forall.2 ⟨"", ?_⟩
  rw [settles_map, settles_of_run hrun]
  exact fun hadvanced => hadvanced hne rfl

theorem not_tilde_lt (name : String) : ¬ ByteCode.textBytes "~" <
    ByteCode.textBytes (entryText (.directory (workflowDir "default" "orders" ++ [name]))) := by
  have htext : entryText (.directory (workflowDir "default" "orders" ++ [name])) =
      "temporaless" ++ ("/" ++ render ["v2", "default", "orders", name] ++ "/") := by
    have hpath : (render (workflowDir "default" "orders" ++ [name])).toList =
        "temporaless".toList ++ "/".toList ++ (render ["v2", "default", "orders", name]).toList :=
      toList_render_append (p := ["temporaless"]) (q := ["v2", "default", "orders", name]) (by simp) (by simp)
    apply String.toList_injective
    simp only [entryText, String.toList_append, hpath, List.append_assoc]
  have htilde : ByteCode.textBytes "~" = [126] := by decide
  have hroot : ByteCode.textBytes "temporaless" = 116 :: ByteCode.textBytes "emporaless" := by decide
  rw [htext, ByteCode.textBytes_append, htilde, hroot, List.cons_append, List.cons_lt_cons_iff]
  rintro (h | ⟨h, -⟩) <;> exact absurd h (by decide)

theorem runsStart_last (n : Nat) : runsStart true (ByteCode.textBytes "~") (runDirs n) = n := by
  rw [runsStart, if_neg (by decide)]
  refine (List.findIdx_eq_length.2 ?_).trans (length_runDirs n)
  intro dir hdir
  rw [runDirs, orderedRuns, if_pos rfl, runDirectories_children.mem_iff] at hdir
  obtain ⟨name, -, rfl⟩ := List.mem_map.1 hdir
  simpa using not_tilde_lt name

theorem not_settles_runs_of_overflow (hint : limits.Representable) (hn : n ≤ 2 ^ 59)
    (hlisted : n ≤ limits.maxListedRuns) (hover : 2 ^ 63 ≤ n + (openService limits).pageSize 0) :
    ¬ ∀ token, Settles (runsWorld n hn) (some <$> runsCall limits token) (Advanced (·.nextPageToken)) := by
  have hmax := hint.maxPageSize
  have hpage : (openService limits).pageSize 0 ≤ limits.maxPageSize := Nat.min_le_right _ _
  have hrun : (runsWorld n hn).run (runsCall limits "~") = .error .panic :=
    run_listWorkflowRuns_overflows (scope_openService limits) rfl rfl rfl
      ((length_runDirs n).trans_le hlisted) n (runsStart_last n) hover (by omega)
  refine not_forall.2 ⟨"~", ?_⟩
  rw [settles_map, Settles, hrun]
  exact fun h => h rfl

end Stuck

section Needed

variable {limits : Limits}

theorem settles_firstPage (hprogress : ListingsProgress limits) (hkept : limits ≠ zeroLimits) {n : Nat}
    (hn : n ≤ 2 ^ 59) :
    ∃ fuel, Settles (pointerWorld n hn) (firstPage limits fuel) (Advanced (·.nextPageToken)) := by
  refine (hprogress taggedRecordWire [mainStore] _ _ _ rfl (newService_openService hkept) nofun ?_
    (pointerWorld n hn) "main" "default" "" 0 (by decide)).1 "" 0
  intro tokens htokens
  obtain rfl : (openService limits).tokens = tokens := Option.some_inj.1 htokens
  exact proper_openService limits

theorem settles_runsCall (hprogress : ListingsProgress limits) (hkept : limits ≠ zeroLimits) {n : Nat}
    (hn : n ≤ 2 ^ 59) (token : String) :
    Settles (runsWorld n hn) (some <$> runsCall limits token) (Advanced (·.nextPageToken)) := by
  refine (hprogress taggedRecordWire [mainStore] _ _ _ rfl (newService_openService hkept) nofun ?_
    (runsWorld n hn) "main" "default" token 0 (by decide)).2.1 "orders" true
  intro tokens htokens
  obtain rfl : (openService limits).tokens = tokens := Option.some_inj.1 htokens
  exact proper_openService limits

theorem hasPages_of_pageSize (h : (openService limits).pageSize 0 ≠ 0) : limits.HasPages := by
  simp only [Service.pageSize, openService, if_true] at h
  exact ⟨by omega, by omega⟩

section Pages

variable (hint : limits.Representable) (hprogress : ListingsProgress limits)
  (hkept : limits ≠ zeroLimits) (hpage : 0 < (openService limits).pageSize 0)

include hint hprogress hkept hpage

theorem concurrency_pos (hlisted : 0 < limits.maxListedObjects) (hbudget : 0 < limits.readBudget) :
    0 < limits.concurrency := by
  by_contra hzero
  refine not_settles_of_stuck (· = 0) hint _ hlisted hpage ?_ rfl
    (settles_firstPage hprogress hkept (show 1 ≤ 2 ^ 59 by decide))
  rintro k rfl
  refine ⟨by decide, by omega, .inr ?_⟩
  rw [Limits.nextHead]
  omega

theorem fitsBudget {m : Nat} (hm : m * limits.concurrency < limits.listedObjects) :
    limits.readBudget + 2 ^ 32 * (m * limits.concurrency / 2 ^ 32) < 2 ^ 63 := by
  by_contra hover
  have hheld : limits.listedObjects ≤ 2 ^ 59 := Nat.min_le_right _ _
  have hlisted : limits.listedObjects ≤ limits.maxListedObjects := Nat.min_le_left _ _
  have hn : m * limits.concurrency + 1 ≤ 2 ^ 59 := by omega
  refine not_settles_of_stuck (fun k => ∃ m' ≤ m, k = m' * limits.concurrency) hint hn (by omega) hpage ?_
    ⟨0, Nat.zero_le _, (Nat.zero_mul _).symm⟩ (settles_firstPage hprogress hkept hn)
  rintro k ⟨m', hm', rfl⟩
  have hle : m' * limits.concurrency ≤ m * limits.concurrency := Nat.mul_le_mul_right _ hm'
  refine ⟨by omega, by omega, ?_⟩
  rcases Nat.eq_or_lt_of_le hm' with rfl | hlt
  · left
    right
    omega
  · right
    refine ⟨m' + 1, hlt, ?_⟩
    have hstep : (m' + 1) * limits.concurrency ≤ m * limits.concurrency := Nat.mul_le_mul_right _ hlt
    rw [Nat.succ_mul] at hstep ⊢
    rw [Limits.nextHead]
    omega

theorem fitsConcurrency (hbudget : 2 ^ 32 ≤ limits.readBudget) {j : Nat}
    (hj : limits.readBudget + 2 ^ 32 * (limits.readBudget / 2 ^ 32 * j) < limits.listedObjects) :
    limits.readBudget + 2 ^ 32 * (limits.readBudget / 2 ^ 32 * j) + limits.concurrency < 2 ^ 63 := by
  by_contra hover
  have hheld : limits.listedObjects ≤ 2 ^ 59 := Nat.min_le_right _ _
  have hlisted : limits.listedObjects ≤ limits.maxListedObjects := Nat.min_le_left _ _
  have hn : limits.readBudget + 2 ^ 32 * (limits.readBudget / 2 ^ 32 * j) + 1 ≤ 2 ^ 59 := by omega
  refine not_settles_of_stuck (fun k => k = 0 ∨ ∃ j' ≤ j,
      k = limits.readBudget + 2 ^ 32 * (limits.readBudget / 2 ^ 32 * j')) hint hn (by omega) hpage ?_
    (.inl rfl) (settles_firstPage hprogress hkept hn)
  rintro k (rfl | ⟨j', hj', rfl⟩)
  · refine ⟨by omega, by omega, .inr (.inr ⟨0, Nat.zero_le _, ?_⟩)⟩
    rw [Limits.nextHead]
    omega
  · have hle : limits.readBudget / 2 ^ 32 * j' ≤ limits.readBudget / 2 ^ 32 * j := Nat.mul_le_mul_left _ hj'
    refine ⟨by omega, by omega, ?_⟩
    rcases Nat.eq_or_lt_of_le hj' with rfl | hlt
    · left
      left
      omega
    · right
      right
      refine ⟨j' + 1, hlt, ?_⟩
      have hstep : limits.readBudget / 2 ^ 32 * (j' + 1) ≤ limits.readBudget / 2 ^ 32 * j :=
        Nat.mul_le_mul_left _ hlt
      rw [Nat.mul_succ] at hstep ⊢
      rw [Limits.nextHead]
      omega

end Pages

theorem sufficient_of_listingsProgress (hint : limits.Representable) (hkept : limits ≠ zeroLimits)
    (hprogress : ListingsProgress limits) : limits.Sufficient where
  objects hlisted := by
    have hfirst : ¬ ((openService limits).pageSize 0 = 0 ∨ limits.readBudget = 0) := by
      intro hzero
      exact not_settles_of_closed _ hlisted hzero
        (settles_firstPage hprogress hkept (show 1 ≤ 2 ^ 59 by decide))
    rw [not_or] at hfirst
    have hpage := Nat.pos_of_ne_zero hfirst.1
    have hbudget := Nat.pos_of_ne_zero hfirst.2
    refine ⟨hasPages_of_pageSize hfirst.1, hbudget,
      concurrency_pos hint hprogress hkept hpage hlisted hbudget, ⟨?_, ?_⟩⟩
    · intro m hm
      exact fitsBudget hint hprogress hkept hpage hm
    · intro hbudget32 j hj
      exact fitsConcurrency hint hprogress hkept hpage hbudget32 hj
  runs hlisted := by
    have hfirst : (openService limits).pageSize 0 ≠ 0 := by
      intro hzero
      exact not_settles_runs_of_closed _ hlisted hzero
        (settles_runsCall hprogress hkept (show 1 ≤ 2 ^ 59 by decide))
    refine ⟨hasPages_of_pageSize hfirst, ?_⟩
    by_contra hover
    have hheld : limits.listedRuns ≤ 2 ^ 59 := Nat.min_le_right _ _
    have hbound : limits.listedRuns ≤ limits.maxListedRuns := Nat.min_le_left _ _
    refine not_settles_runs_of_overflow hint hheld hbound ?_ (settles_runsCall hprogress hkept hheld)
    simp only [Service.pageSize, openService, if_true]
    omega

end Needed

/-- Every accepted configuration with these limits makes progress exactly if the limits are sufficient. -/
theorem listingsProgress_iff {limits : Limits} (hint : limits.Representable)
    (hkept : limits ≠ zeroLimits) :
    ListingsProgress limits ↔ limits.Sufficient :=
  ⟨sufficient_of_listingsProgress hint hkept, listingsProgress_of_sufficient hint hkept⟩

theorem representable_defaultLimits : defaultLimits.Representable := by constructor <;> decide

theorem sufficient_defaultLimits : defaultLimits.Sufficient where
  objects _ := by
    refine ⟨⟨by decide, by decide⟩, by decide, by decide, ⟨?_, ?_⟩⟩
    · intro m hm
      have : defaultLimits.listedObjects = 50000 := by decide
      have hb : defaultLimits.readBudget = 500 := rfl
      omega
    · intro h
      exact absurd h (by decide)
  runs _ := ⟨⟨by decide, by decide⟩, by decide⟩

theorem listingsProgress_defaultLimits : ListingsProgress defaultLimits :=
  (listingsProgress_iff representable_defaultLimits (by decide)).2 sufficient_defaultLimits

/-- The defaults with a concurrency of zero: the directory is scanned in empty batches. -/
theorem not_listingsProgress_idle : ¬ ListingsProgress { defaultLimits with concurrency := 0 } := by
  intro hprogress
  have hint : Limits.Representable { defaultLimits with concurrency := 0 } := by constructor <;> decide
  have hsufficient := sufficient_of_listingsProgress hint (by decide) hprogress
  exact absurd (hsufficient.objects (by decide)).2.2.1 (by decide)

end Temporaless.Inspection
