import Temporaless.Inspection.World

/-!
# The scan loop

`ListWorkflowDirectory` and `ListScheduledWakes` read their candidates in batches until the page is full
or the budget is spent. The loop is followed by the number of candidates it has gone through, which
determines all its variables.
-/

namespace Temporaless.Inspection

open PathTree Effects

variable {Bytes ε α β : Type}

section ForEach

variable {w : World Bytes} {fn : α → ReadM Bytes ε β}

theorem run_forEach_cons (item : α) (items : List α) : w.run (forEach (item :: items) fn) =
    match w.run (fn item) with
    | .error err => .error err
    | .ok result => (w.run (forEach items fn)).map (result :: ·) := by
  rw [forEach, World.run_bind]
  cases w.run (fn item) with
  | error err => rfl
  | ok result =>
    simp only [World.run_bind]
    cases w.run (forEach items fn) <;> rfl

theorem run_forEach_of_ok {result : α → β} {items : List α}
    (h : ∀ item ∈ items, w.run (fn item) = .ok (result item)) :
    w.run (forEach items fn) = .ok (items.map result) := by
  induction items with
  | nil => rfl
  | cons item items ih =>
    rw [List.forall_mem_cons] at h
    rw [run_forEach_cons, h.1, ih h.2]
    rfl

theorem run_forEach_cases (items : List α) :
    (∀ item ∈ items, ∃ result, w.run (fn item) = .ok result) ∨
      ∃ item ∈ items, ∃ err, w.run (fn item) = .error err ∧ w.run (forEach items fn) = .error err := by
  induction items with
  | nil => simp
  | cons head items ih =>
    cases hhead : w.run (fn head) with
    | error err => exact .inr ⟨head, by simp, err, hhead, by rw [run_forEach_cons, hhead]⟩
    | ok result =>
      rcases ih with hok | ⟨item, hmem, err, hitem, hrest⟩
      · exact .inl (List.forall_mem_cons.2 ⟨⟨result, hhead⟩, hok⟩)
      · refine .inr ⟨item, List.mem_cons_of_mem _ hmem, err, hitem, ?_⟩
        rw [run_forEach_cons, hhead, hrest]
        rfl

end ForEach

def Verdict.kept? : Verdict β → Option β
  | .kept entry => some entry
  | _ => none

section After

variable (verdict : Path → Verdict β) (candidates : List Path)

/-- The variables after the first `k` candidates. -/
def after (k : Nat) : Scan β := (candidates.take k).foldl (fun scan path => scan.note path (verdict path)) {}

variable {verdict candidates} {k : Nat}

theorem after_succ (hk : k < candidates.length) : after verdict candidates (k + 1) =
    (after verdict candidates k).note candidates[k] (verdict candidates[k]) := by
  rw [after, after, List.take_succ_eq_append_getElem hk, List.foldl_append]
  rfl

@[simp] theorem note_next (scan : Scan β) (path : Path) (v : Verdict β) :
    (scan.note path v).next = scan.next + 1 := by cases v <;> rfl

@[simp] theorem note_scanned (scan : Scan β) (path : Path) (v : Verdict β) :
    (scan.note path v).scanned = (scan.scanned + 1) % 2 ^ 32 := by cases v <;> rfl

@[simp] theorem note_lastProcessed (scan : Scan β) (path : Path) (v : Verdict β) :
    (scan.note path v).lastProcessed = render path := by cases v <;> rfl

@[simp] theorem note_entries (scan : Scan β) (path : Path) (v : Verdict β) :
    (scan.note path v).entries = scan.entries ++ v.kept?.toList := by
  cases v <;> simp [Scan.note, Verdict.kept?]

theorem after_next (hk : k ≤ candidates.length) : (after verdict candidates k).next = k := by
  induction k with
  | zero => rfl
  | succ k ih => rw [after_succ hk, note_next, ih (by omega)]

theorem after_scanned (hk : k ≤ candidates.length) :
    (after verdict candidates k).scanned = k % 2 ^ 32 := by
  induction k with
  | zero => rfl
  | succ k ih =>
    rw [after_succ hk, note_scanned, ih (by omega)]
    omega

theorem after_entries (hk : k ≤ candidates.length) : (after verdict candidates k).entries =
    (candidates.take k).filterMap fun path => (verdict path).kept? := by
  induction k with
  | zero => rfl
  | succ k ih =>
    rw [after_succ hk, note_entries, ih (by omega), List.take_succ_eq_append_getElem hk,
      List.filterMap_append]
    cases hentry : (verdict candidates[k]).kept? <;> simp [hentry]

theorem after_lastProcessed (hk : k < candidates.length) :
    (after verdict candidates (k + 1)).lastProcessed = render candidates[k] := by
  rw [after_succ hk, note_lastProcessed]

theorem consume_cons (pageSize : Nat) (path : Path) (v : Verdict β) (results : List (Path × Verdict β))
    (scan : Scan β) : consume pageSize ((path, v) :: results) scan =
      if v.kept?.isSome ∧ (scan.note path v).entries.length = pageSize then scan.note path v
      else consume pageSize results (scan.note path v) := by
  cases v <;> simp [consume, Verdict.kept?]

/-- What consuming `n` candidates from the `k`-th on comes to: it goes through some of them, and stops
early only at a full page. -/
structure Consumed (verdict : Path → Verdict β) (candidates : List Path) (pageSize k stop k' : Nat) :
    Prop where
  start : k ≤ k'
  grows : k < stop → k < k'
  within : k' ≤ stop
  full : k' = stop ∨ (after verdict candidates k').entries.length = pageSize
  fits : (after verdict candidates k).entries.length < pageSize →
    (after verdict candidates k').entries.length ≤ pageSize

variable (verdict) in
theorem consume_after (pageSize n : Nat) (hk : k ≤ candidates.length) :
    ∃ k', Consumed verdict candidates pageSize k (min (k + n) candidates.length) k' ∧
      consume pageSize (((candidates.drop k).take n).map fun path => (path, verdict path))
        (after verdict candidates k) = after verdict candidates k' := by
  induction n generalizing k with
  | zero => exact ⟨k, ⟨le_rfl, by omega, by omega, by omega, by omega⟩, by simp [consume]⟩
  | succ n ih =>
    by_cases hend : k = candidates.length
    · exact ⟨k, ⟨le_rfl, by omega, by omega, by omega, by omega⟩, by simp [consume, hend]⟩
    · have hlt : k < candidates.length := by omega
      rw [List.drop_eq_getElem_cons hlt, List.take_succ_cons, List.map_cons, consume_cons, ← after_succ hlt]
      have hlength : (after verdict candidates (k + 1)).entries.length =
          (after verdict candidates k).entries.length +
            (verdict candidates[k]).kept?.toList.length := by
        rw [after_succ hlt, note_entries, List.length_append]
      split_ifs with hfull
      · exact ⟨k + 1, ⟨by omega, by omega, by omega, .inr hfull.2, fun _ => by omega⟩, rfl⟩
      · obtain ⟨k', hconsumed, heq⟩ := ih (k := k + 1) (by omega)
        have hopen : (after verdict candidates k).entries.length < pageSize →
            (after verdict candidates (k + 1)).entries.length < pageSize := by
          intro h
          cases hentry : (verdict candidates[k]).kept? with
          | none => simpa [hlength, hentry] using h
          | some entry =>
            simp only [hentry, Option.toList_some, List.length_singleton] at hlength
            simp only [hentry, Option.isSome_some, true_and] at hfull
            omega
        have hstop : min (k + 1 + n) candidates.length = min (k + (n + 1)) candidates.length := by omega
        rw [hstop] at hconsumed
        have hgrows : k < k' := hconsumed.start
        exact ⟨k', ⟨by omega, fun _ => hgrows, hconsumed.within, hconsumed.full,
          fun h => hconsumed.fits (hopen h)⟩, heq⟩

end After

def World.verdict (w : World Bytes) (read : Path → ReadM Bytes Err (Verdict β)) (path : Path) : Verdict β :=
  match w.run (read path) with
  | .ok v => v
  | .error _ => .skipped

theorem run_forEach_verdict (w : World Bytes) (read : Path → ReadM Bytes Err (Verdict β))
    (batch : List Path) :
    w.run (forEach batch read) = .ok (batch.map (w.verdict read)) ∨
      ∃ path ∈ batch, ∃ err, w.run (read path) = .error err ∧ w.run (forEach batch read) = .error err := by
  apply (run_forEach_cases batch).imp_left
  intro hok
  apply run_forEach_of_ok
  intro path hmem
  obtain ⟨result, hresult⟩ := hok path hmem
  simp [World.verdict, hresult]

namespace Limits

variable (limits : Limits)

/-- Where the batch that begins at `k` ends, without overflow. -/
def nextHead (length k : Nat) : Nat :=
  min (min (k + limits.concurrency) length) (k + limits.readBudget - k % 2 ^ 32)

/-- An `int` expression of the batch that begins at `k` overflows. -/
def Overflows (k : Nat) : Prop :=
  2 ^ 63 ≤ k + limits.concurrency ∨ 2 ^ 63 ≤ k + limits.readBudget - k % 2 ^ 32

/-- The fields are values of `int`. -/
structure Representable : Prop where
  defaultPageSize : limits.defaultPageSize < 2 ^ 63
  maxPageSize : limits.maxPageSize < 2 ^ 63
  readBudget : limits.readBudget < 2 ^ 63
  maxListedRuns : limits.maxListedRuns < 2 ^ 63
  maxListedObjects : limits.maxListedObjects < 2 ^ 63
  maxRunRecords : limits.maxRunRecords < 2 ^ 63
  concurrency : limits.concurrency < 2 ^ 63

end Limits

theorem int64_of_lt {n : Nat} (h : n < 2 ^ 63) : int64 n = n := by
  rw [int64, Int.bmod_def]
  omega

theorem int64_of_ge {n : Nat} (h : 2 ^ 63 ≤ n) (h' : n < 2 ^ 64) : int64 n = n - 2 ^ 64 := by
  rw [int64, Int.bmod_def]
  omega

section Loop

variable {w : World Bytes} {service : Service} {pageSize fuel : Nat} {candidates : List Path}
  {read : Path → ReadM Bytes Err (Verdict β)} {k : Nat}

/-- The variables after `k` candidates in a world. -/
abbrev afterIn (w : World Bytes) (read : Path → ReadM Bytes Err (Verdict β)) (candidates : List Path)
    (k : Nat) : Scan β := after (w.verdict read) candidates k

theorem open_iff (hk : k ≤ candidates.length) :
    (afterIn w read candidates k).Open service.limits pageSize candidates ↔
      k < candidates.length ∧ (afterIn w read candidates k).entries.length < pageSize ∧
        k % 2 ^ 32 < service.limits.readBudget := by
  rw [Scan.Open, after_next hk, after_scanned hk]

theorem batchEnd_after (hheld : candidates.length ≤ 2 ^ 59)
    (hk : k ≤ candidates.length) (hover : ¬ service.limits.Overflows k) :
    batchEnd service.limits candidates (afterIn w read candidates k) =
      service.limits.nextHead candidates.length k := by
  simp only [Limits.Overflows, not_or, not_le] at hover
  have hint1 : int64 ((k : Int) + service.limits.concurrency) = (k + service.limits.concurrency : Nat) := by
    rw [← int64_of_lt hover.1, Nat.cast_add]
  have hint2 : int64 ((k : Int) + service.limits.readBudget - (k % 2 ^ 32 : Nat)) =
      (k + service.limits.readBudget - k % 2 ^ 32 : Nat) := by
    rw [← int64_of_lt hover.2, Nat.cast_sub (by omega), Nat.cast_add]
  rw [batchEnd, after_next hk, after_scanned hk, hint1, hint2, Limits.nextHead]
  omega

theorem batchEnd_after_lt (hint : service.limits.Representable) (hheld : candidates.length ≤ 2 ^ 59)
    (hk : k ≤ candidates.length) (hover : service.limits.Overflows k) :
    batchEnd service.limits candidates (afterIn w read candidates k) < k := by
  have hc := hint.concurrency
  have hb := hint.readBudget
  rw [batchEnd, after_next hk, after_scanned hk]
  rcases hover with hover | hover
  · have : int64 ((k : Int) + service.limits.concurrency) < 0 := by
      rw [← Nat.cast_add, int64_of_ge hover (by omega)]
      omega
    omega
  · have : int64 ((k : Int) + service.limits.readBudget - (k % 2 ^ 32 : Nat)) < 0 := by
      have hcast : (k : Int) + service.limits.readBudget - (k % 2 ^ 32 : Nat) =
          (k + service.limits.readBudget - k % 2 ^ 32 : Nat) := by omega
      rw [hcast, int64_of_ge hover (by omega)]
      omega
    omega

theorem run_scanLoop_closed
    (h : ¬ (afterIn w read candidates k).Open service.limits pageSize candidates) :
    w.run (scanLoop service pageSize candidates read fuel (afterIn w read candidates k)) =
      .ok (some (afterIn w read candidates k)) := by
  cases fuel <;> rw [scanLoop, if_neg h] <;> rfl

theorem run_scanLoop_zero
    (h : (afterIn w read candidates k).Open service.limits pageSize candidates) :
    w.run (scanLoop service pageSize candidates read 0 (afterIn w read candidates k)) = .ok none := by
  rw [scanLoop, if_pos h]
  rfl

theorem run_scanLoop_overflows (hint : service.limits.Representable)
    (hheld : candidates.length ≤ 2 ^ 59) (hk : k ≤ candidates.length)
    (h : (afterIn w read candidates k).Open service.limits pageSize candidates)
    (hover : service.limits.Overflows k) :
    w.run (scanLoop service pageSize candidates read (fuel + 1) (afterIn w read candidates k)) =
      .error .panic := by
  have hlt : batchEnd service.limits candidates (afterIn w read candidates k) < k :=
    batchEnd_after_lt hint hheld hk hover
  rw [scanLoop, if_pos h]
  simp only [after_next hk, if_pos hlt]
  rfl

theorem run_scanLoop_step (fuel : Nat) (hheld : candidates.length ≤ 2 ^ 59)
    (hk : k ≤ candidates.length)
    (h : (afterIn w read candidates k).Open service.limits pageSize candidates)
    (hover : ¬ service.limits.Overflows k) :
    (∃ path ∈ candidates, ∃ err, w.run (read path) = .error err ∧
      w.run (scanLoop service pageSize candidates read (fuel + 1) (afterIn w read candidates k)) =
        .error (service.storeError err)) ∨
    ∃ k', Consumed (w.verdict read) candidates pageSize k
        (service.limits.nextHead candidates.length k) k' ∧
      w.run (scanLoop service pageSize candidates read (fuel + 1) (afterIn w read candidates k)) =
        w.run (scanLoop service pageSize candidates read fuel (afterIn w read candidates k')) := by
  have hbudget := ((open_iff hk).1 h).2.2
  have hend : batchEnd service.limits candidates (afterIn w read candidates k) =
      service.limits.nextHead candidates.length k := batchEnd_after hheld hk hover
  have hle : k ≤ service.limits.nextHead candidates.length k := by
    rw [Limits.nextHead]
    omega
  have hnext : service.limits.nextHead candidates.length k ≤ candidates.length := by
    rw [Limits.nextHead]
    omega
  generalize service.limits.nextHead candidates.length k = stop at *
  rw [scanLoop, if_pos h]
  simp only [after_next hk, hend, Int.toNat_natCast, if_neg (show ¬ (stop : Int) < k by omega)]
  have hstop : min (k + (stop - k)) candidates.length = stop := by omega
  rcases run_forEach_verdict w read ((candidates.drop k).take (stop - k)) with
    hok | ⟨path, hmem, err, hpath, herr⟩
  · right
    obtain ⟨k', hconsumed, heq⟩ := consume_after (w.verdict read) pageSize (stop - k) hk
    rw [hstop] at hconsumed
    refine ⟨k', hconsumed, ?_⟩
    have hread : w.run (service.reading (forEach ((candidates.drop k).take (stop - k)) read)) =
        .ok (((candidates.drop k).take (stop - k)).map (w.verdict read)) := by
      rw [World.run_reading, hok]
      rfl
    rw [World.run_bind_ok _ _ hread, ← List.map_prod_left_eq_zip, heq]
  · left
    refine ⟨path, List.mem_of_mem_drop (List.mem_of_mem_take hmem), err, hpath, ?_⟩
    apply World.run_bind_error
    rw [World.run_reading, herr]
    rfl

/-- The batches of a scan begin where `Head` says, which no overflow spoils. -/
def Limits.Safe (limits : Limits) (length : Nat) (Head : Nat → Prop) : Prop :=
  ∀ k, Head k → k < length → k % 2 ^ 32 < limits.readBudget → ¬ limits.Overflows k ∧
    (limits.nextHead length k < length → limits.nextHead length k % 2 ^ 32 < limits.readBudget →
      Head (limits.nextHead length k))

/-- A scan that has begun after `k` candidates ends after `k'`. -/
structure Ended (w : World Bytes) (service : Service) (pageSize : Nat) (candidates : List Path)
    (read : Path → ReadM Bytes Err (Verdict β)) (Head : Nat → Prop) (k k' : Nat) : Prop where
  start : k ≤ k'
  within : k' ≤ candidates.length
  closed : ¬ (afterIn w read candidates k').Open service.limits pageSize candidates
  fits : (afterIn w read candidates k').entries.length ≤ pageSize
  grows : (afterIn w read candidates k).Open service.limits pageSize candidates → k < k'
  last : k' = k ∨ ∃ j, Head j ∧ j < candidates.length ∧ j % 2 ^ 32 < service.limits.readBudget ∧
    k' ≤ service.limits.nextHead candidates.length j

/-- With batches that are not empty, a scan comes to its end within as many batches as there are
candidates. -/
theorem run_scanLoop (read : Path → ReadM Bytes Err (Verdict β)) (fuel : Nat) {Head : Nat → Prop}
    (hconcurrency : 0 < service.limits.concurrency)
    (hheld : candidates.length ≤ 2 ^ 59) (hsafe : service.limits.Safe candidates.length Head)
    (hhead : (afterIn w read candidates k).Open service.limits pageSize candidates → Head k)
    (hk : k ≤ candidates.length) (hfuel : candidates.length - k < fuel)
    (hfits : (afterIn w read candidates k).entries.length ≤ pageSize) :
    (∃ path ∈ candidates, ∃ err, w.run (read path) = .error err ∧
      w.run (scanLoop service pageSize candidates read fuel (afterIn w read candidates k)) =
        .error (service.storeError err)) ∨
    ∃ k', Ended w service pageSize candidates read Head k k' ∧
      w.run (scanLoop service pageSize candidates read fuel (afterIn w read candidates k)) =
        .ok (some (afterIn w read candidates k')) := by
  induction fuel generalizing k with
  | zero => omega
  | succ fuel ih =>
    by_cases hopen : (afterIn w read candidates k).Open service.limits pageSize candidates
    · obtain ⟨hlt, hroom, hbudget⟩ := (open_iff hk).1 hopen
      obtain ⟨hover, hnext⟩ := hsafe k (hhead hopen) hlt hbudget
      have hbatch : k < service.limits.nextHead candidates.length k := by
        rw [Limits.nextHead]
        omega
      have hbound : service.limits.nextHead candidates.length k ≤ candidates.length := by
        rw [Limits.nextHead]
        omega
      rcases run_scanLoop_step fuel hheld hk hopen hover with hfail | ⟨k', hconsumed, hstep⟩
      · exact .inl hfail
      · have hgrows := hconsumed.grows hbatch
        have hwithin := hconsumed.within
        have hhead' : (afterIn w read candidates k').Open service.limits pageSize candidates → Head k' := by
          intro hopen'
          obtain ⟨hlt', hroom', hbudget'⟩ := (open_iff (by omega)).1 hopen'
          rcases hconsumed.full with rfl | hfull
          · exact hnext hlt' hbudget'
          · exact absurd hfull hroom'.ne
        rw [hstep]
        refine (ih hhead' (by omega) (by omega) (hconsumed.fits hroom)).imp_right ?_
        rintro ⟨k'', hended, hrun⟩
        have hstart := hended.start
        refine ⟨k'', { hended with start := by omega, grows := fun _ => by omega, last := ?_ }, hrun⟩
        rcases hended.last with rfl | hlast
        · exact .inr ⟨k, hhead hopen, hlt, hbudget, hwithin⟩
        · exact .inr hlast
    · exact .inr ⟨k, ⟨le_rfl, hk, hopen, hfits, fun h => absurd h hopen, .inl rfl⟩,
        run_scanLoop_closed hopen⟩

theorem run_scanLoop_stuck {Head : Nat → Prop} (hint : service.limits.Representable)
    (hheld : candidates.length ≤ 2 ^ 59) (hpage : 0 < pageSize)
    (hskip : ∀ path, w.run (read path) = .ok .skipped)
    (hsafe : ∀ k, Head k → k < candidates.length ∧ k % 2 ^ 32 < service.limits.readBudget ∧
      (service.limits.Overflows k ∨ Head (service.limits.nextHead candidates.length k)))
    (hhead : Head k) :
    w.run (scanLoop service pageSize candidates read fuel (afterIn w read candidates k)) = .ok none ∨
      w.run (scanLoop service pageSize candidates read fuel (afterIn w read candidates k)) =
        .error .panic := by
  have hempty : ∀ j ≤ candidates.length, (afterIn w read candidates j).entries = [] := by
    intro j hj
    rw [after_entries hj, List.filterMap_eq_nil_iff]
    intro path _
    simp [World.verdict, hskip, Verdict.kept?]
  induction fuel generalizing k with
  | zero =>
    obtain ⟨hlt, hbudget, -⟩ := hsafe k hhead
    refine .inl (run_scanLoop_zero ((open_iff hlt.le).2 ⟨hlt, ?_, hbudget⟩))
    simpa [hempty k hlt.le] using hpage
  | succ fuel ih =>
    obtain ⟨hlt, hbudget, hnext⟩ := hsafe k hhead
    have hopen : (afterIn w read candidates k).Open service.limits pageSize candidates := by
      refine (open_iff hlt.le).2 ⟨hlt, ?_, hbudget⟩
      simpa [hempty k hlt.le] using hpage
    by_cases hover : service.limits.Overflows k
    · exact .inr (run_scanLoop_overflows hint hheld hlt.le hopen hover)
    · rcases run_scanLoop_step fuel hheld hlt.le hopen hover with
        ⟨path, -, err, hpath, -⟩ | ⟨k', hconsumed, hstep⟩
      · simp [hskip path] at hpath
      · have hbound := hconsumed.within
        have hlength : service.limits.nextHead candidates.length k ≤ candidates.length := by
          rw [Limits.nextHead]
          omega
        rcases hconsumed.full with rfl | hfull
        · rw [hstep]
          exact ih (hnext.resolve_left hover)
        · rw [hempty k' (by omega)] at hfull
          simp at hfull
          omega

end Loop

end Temporaless.Inspection
