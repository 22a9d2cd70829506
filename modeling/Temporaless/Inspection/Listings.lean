import Temporaless.Framework.Loop
import Temporaless.Inspection.Scan

/-!
# The listings in a world that does not change

What each listing comes to after its checks: a scan of the candidates, or one page of run directories.
-/

namespace Temporaless.Inspection

open PathTree Effects KeySort

variable {formats : RecordWire} {service : Service} {w : World formats.Bytes} {β Response : Type}
  {storeID ns pageToken binding : String} {cursor : ByteCode.Bytes} {pageSize fuel : Nat}
  {store : Store} {grant : Grant}

theorem storeScope_eq_ok : service.storeScope storeID = .ok (store, grant) ↔
    service.stores.find? (·.id = storeID) = some store ∧ service.access store = .ok (grant, true) := by
  rw [Service.storeScope]
  cases service.stores.find? (·.id = storeID) with
  | none => simp
  | some store' =>
    simp only [Loop.bind_eq_ok, Option.some_inj, Prod.exists]
    constructor
    · rintro ⟨grant', visible, haccess, h⟩
      cases visible with
      | false => exact absurd h (by simp [throw, throwThe, MonadExceptOf.throw])
      | true =>
        obtain ⟨rfl, rfl⟩ : store' = store ∧ grant' = grant := by
          simpa [Pure.pure, Except.pure] using h
        exact ⟨rfl, haccess⟩
    · rintro ⟨rfl, haccess⟩
      exact ⟨grant, true, haccess, rfl⟩

theorem namespaceScope_eq_ok : service.namespaceScope storeID ns = .ok (store, grant) ↔
    service.storeScope storeID = .ok (store, grant) ∧ ns ≠ "" ∧ ns ∈ grantedNamespaces store grant := by
  simp only [Service.namespaceScope, Loop.bind_eq_ok, Prod.exists]
  constructor
  · rintro ⟨store', grant', hscope, h⟩
    by_cases hns : ns = ""
    · rw [if_pos hns] at h
      exact absurd h nofun
    · rw [if_neg hns] at h
      by_cases hmem : (grantedNamespaces store' grant').contains ns = true
      · rw [if_pos hmem] at h
        obtain ⟨rfl, rfl⟩ : store' = store ∧ grant' = grant := by simpa [Pure.pure, Except.pure] using h
        exact ⟨hscope, hns, by simpa using hmem⟩
      · rw [if_neg hmem] at h
        exact absurd h nofun
  · rintro ⟨hscope, hns, hmem⟩
    refine ⟨store, grant, hscope, ?_⟩
    rw [if_neg hns, if_pos (by simpa using hmem)]
    rfl

theorem id_of_namespaceScope (h : service.namespaceScope storeID ns = .ok (store, grant)) :
    store.id = storeID := by
  have hfind := (storeScope_eq_ok.1 (namespaceScope_eq_ok.1 h).1).1
  simpa using List.find?_some hfind

def Service.finishPage (service : Service) (binding : String) (candidates : List Path)
    (respond : Scan β → String → Response) : Option (Scan β) → Except Failure (Option (Listed Response))
  | none => .ok none
  | some scan => (service.scanToken binding candidates scan).map fun token =>
      some ⟨respond scan token, candidates.drop scan.next⟩

theorem run_listing {dir : Path} {names : List ListEntry}
    (hlist : w.run (listDir store dir) = .ok names) :
    w.run (service.reading (listDir store dir)) = .ok names := by
  rw [World.run_reading, hlist]
  rfl

section Directory

variable {workflowIDPrefix : String} {status : Int} {names : List ListEntry}

abbrev directoryRead (formats : RecordWire) (service : Service) (store : Store) (ns : String) (status : Int)
    (path : Path) : ReadM formats.Bytes Err (Verdict WorkflowDirectoryEntry) :=
  directoryVerdict status <$> directoryEntry formats service store ns path

def directoryResponse (scan : Scan WorkflowDirectoryEntry) (token : String) : WorkflowDirectoryResponse :=
  ⟨scan.entries, token, scan.scanned⟩

theorem run_listWorkflowDirectory (hscope : service.namespaceScope storeID ns = .ok (store, grant))
    (hpattern : idPrefixPattern workflowIDPrefix = true)
    (hcursor : service.openCursor (PageRequest.directory store.id ns workflowIDPrefix status).binding
      pageToken = .ok cursor) (hlist : w.run (listDir store (latestDir ns)) = .ok names)
    (hbound : names.length ≤ service.limits.maxListedObjects) :
    w.run (listWorkflowDirectory formats service fuel storeID ns workflowIDPrefix status pageSize pageToken) =
      (w.run (scanLoop service (service.pageSize pageSize)
        (directoryCandidates ns workflowIDPrefix cursor names)
        (directoryRead formats service store ns status) fuel {})).bind
      (service.finishPage (PageRequest.directory store.id ns workflowIDPrefix status).binding
        (directoryCandidates ns workflowIDPrefix cursor names) directoryResponse) := by
  rw [listWorkflowDirectory]
  simp only [World.run_bind, World.run_liftExcept, hscope, hpattern, Bool.not_true, Bool.false_eq_true,
    if_false, hcursor, run_listing hlist, if_neg (Nat.not_lt.2 hbound)]
  rcases w.run (scanLoop service (service.pageSize pageSize)
      (directoryCandidates ns workflowIDPrefix cursor names)
      (directoryRead formats service store ns status) fuel {}) with failure | _ | scan
  · rfl
  · rfl
  · simp only [World.run_bind, World.run_liftExcept, Except.bind, Service.finishPage]
    cases service.scanToken (PageRequest.directory store.id ns workflowIDPrefix status).binding
      (directoryCandidates ns workflowIDPrefix cursor names) scan <;> rfl

end Directory

def wakeCandidates (cursor : ByteCode.Bytes) (paths : List Path) : List Path :=
  if cursor = [] then paths else paths.filter fun path => cursor < ByteCode.textBytes (render path)

section Runs

variable {workflowID : String} {ascending : Bool} {names : List ListEntry}

def runsPage (size start : Nat) (runDirs : List Path) : List Path := (runDirs.drop start).take size

theorem runsStart_le (ascending : Bool) (cursor : ByteCode.Bytes) (runDirs : List Path) :
    runsStart ascending cursor runDirs ≤ runDirs.length := by
  rw [runsStart]
  split
  · exact Nat.zero_le _
  · exact List.findIdx_le_length

theorem drop_runsPage (size start : Nat) (runDirs : List Path) :
    runDirs.drop (start + (runsPage size start runDirs).length) = runDirs.drop (start + size) := by
  rw [runsPage, List.length_take, List.length_drop]
  rcases Nat.le_total size (runDirs.length - start) with h | h
  · rw [Nat.min_eq_left h]
  · rw [Nat.min_eq_right h, List.drop_eq_nil_of_le (by omega), List.drop_eq_nil_of_le (by omega)]

variable (hscope : service.namespaceScope storeID ns = .ok (store, grant))
  (hworkflow : validateScopeSegments ns workflowID = .ok ())
  (hcursor : service.openCursor (PageRequest.runs store.id ns workflowID ascending).binding pageToken =
    .ok cursor) (hlist : w.run (listDir store (workflowDir ns workflowID)) = .ok names)
  (hbound : (orderedRuns ascending names).length ≤ service.limits.maxListedRuns)
  (start : Nat) (hstart : runsStart ascending cursor (orderedRuns ascending names) = start)

include hscope hworkflow hcursor hlist hbound hstart

theorem run_listWorkflowRuns (hint : start + service.pageSize pageSize < 2 ^ 63) :
    w.run (listWorkflowRuns formats service storeID ns workflowID ascending pageSize pageToken) =
      (((w.run (forEach (runsPage (service.pageSize pageSize) start (orderedRuns ascending names))
          (runDirSummary formats store ns workflowID))).mapError service.storeError).bind fun summaries =>
        (service.runsToken (PageRequest.runs store.id ns workflowID ascending).binding
          (runsPage (service.pageSize pageSize) start (orderedRuns ascending names))
          ((orderedRuns ascending names).drop (start + service.pageSize pageSize))).map fun token =>
        ⟨runsResponse (orderedRuns ascending names) summaries token,
          (orderedRuns ascending names).drop (start + service.pageSize pageSize)⟩) := by
  generalize hdirs : orderedRuns ascending names = runDirs at *
  have hle : start ≤ runDirs.length := hstart ▸ runsStart_le ..
  have hstop : runsEnd start (service.pageSize pageSize) runDirs.length =
      (min (start + service.pageSize pageSize) runDirs.length : Nat) := by
    rw [runsEnd, ← Nat.cast_add, int64_of_lt hint]
    omega
  have hpage : (runDirs.drop start).take
      ((min (start + service.pageSize pageSize) runDirs.length) - start) =
        runsPage (service.pageSize pageSize) start runDirs := by
    rw [runsPage, List.take_eq_take_iff, List.length_drop]
    omega
  rw [listWorkflowRuns]
  simp only [World.run_bind, World.run_liftExcept, hscope, hworkflow, Except.mapError, hcursor,
    run_listing hlist, hdirs, if_neg (Nat.not_lt.2 hbound), hstart, hstop, Int.toNat_natCast, hpage,
    drop_runsPage]
  rw [if_neg (by omega)]
  simp only [World.run_bind, World.run_reading, World.run_liftExcept, World.run_pure]
  cases w.run (forEach (runsPage (service.pageSize pageSize) start runDirs)
    (runDirSummary formats store ns workflowID)) with
  | error err => rfl
  | ok summaries =>
    simp only [Except.mapError, Except.bind]
    cases service.runsToken (PageRequest.runs store.id ns workflowID ascending).binding
      (runsPage (service.pageSize pageSize) start runDirs)
      (runDirs.drop (start + service.pageSize pageSize)) <;> rfl

theorem run_listWorkflowRuns_overflows (hover : 2 ^ 63 ≤ start + service.pageSize pageSize)
    (hint : start + service.pageSize pageSize < 2 ^ 64) :
    w.run (listWorkflowRuns formats service storeID ns workflowID ascending pageSize pageToken) =
      .error .panic := by
  have hend : runsEnd start (service.pageSize pageSize) (orderedRuns ascending names).length < start := by
    rw [runsEnd, ← Nat.cast_add, int64_of_ge hover hint]
    omega
  rw [listWorkflowRuns]
  simp only [World.run_bind, World.run_liftExcept, hscope, hworkflow, Except.mapError, hcursor,
    run_listing hlist, if_neg (Nat.not_lt.2 hbound), hstart, if_pos hend, World.run_throw]

end Runs

end Temporaless.Inspection
