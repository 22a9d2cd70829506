import Temporaless.Python.Decoding
import Temporaless.Python.Walks

/-!
# What the scans of the Python store keep

A scan copies the entries that it rejects, brings the point of a valid entry in line with it, and
touches nothing else. It keeps every condition that these two actions keep.
-/

namespace Temporaless.Python

open PathTree Effects OpenDALStore

variable {wire : Wire} {I : Bucket wire.Bytes → Prop}

theorem keeps_quarantineDueEntry
    (hdir : ∀ dir, Bucket.Keeps I (createDir dir : BucketM wire.Bytes Unit))
    (hcopy : ∀ ns digest data,
      Bucket.Keeps I (writeObject (dueInvalidRoot ns ++ [binpb digest]) data : BucketM wire.Bytes Unit))
    (ns : String) (path : Path) : Bucket.Keeps I (quarantineDueEntry wire ns path) := by
  apply (readOnly_readObject path).attempt.keeps.bind
  intro outcome
  split
  · exact keeps_pure _
  · refine Bucket.Keeps.bind (Bucket.Keeps.attempt ?_) fun _ => keeps_pure _
    apply (hdir _).bind
    intro _
    exact hcopy _ _ _

theorem ledgerAt_of_scan {objects : Objects wire} {path : Path} {entry : DueTimerEntry}
    {ns : Option String} {k : TimerKey}
    (hdecode : decodeMessage wire.due (replyAt objects path) = .ok (some entry))
    (hvalid : validateDueEntry entry none none ns (some path) = .ok k) :
    ∃ key : RecordKey .timer, key.val = k ∧ ledgerAt objects key = .ok (some entry) := by
  obtain ⟨hplain, -, -, -, hpath⟩ := validateDueEntry_eq_ok.1 hvalid
  obtain ⟨key, rfl, -⟩ := carries_of_validateDueEntry hplain
  refine ⟨key, rfl, ledgerAt_eq_some.2 ⟨?_, hplain⟩⟩
  rw [← hpath path rfl]
  exact hdecode

section Scan

variable (hcopy : ∀ ns path, Bucket.Keeps I (quarantineDueEntry wire ns path))
variable (hprepared : ∀ b key entry, I b → ledgerAt b.objects key = .ok (some entry) →
  ∀ now path run, b.Runs I (scanPrepared wire now path key.val run (entryRecord entry)) fun _ => I)
include hcopy hprepared

theorem keeps_scanEntry (now : Int) (ns : String) (due : List DueTimer) (path : Path) :
    Bucket.Keeps I (scanEntry wire now ns due path) := by
  intro b hb
  have hreject : ∀ err : Err, b.Runs I
      (do
        if recoverable err then
          quarantineDueEntry wire ns path
          throw (recordError ("invalid due-timer ledger entry " ++ render path ++ ": " ++
            err.message))
        throw err : BucketM wire.Bytes (List DueTimer)) fun _ => I := by
    intro err
    split
    · exact ((hcopy ns path).bind fun _ => keeps_throw _) b hb
    · exact runs_throw.2 hb
  simp only [scanEntry, runs_bind, runs_attempt]
  refine (readOnly_readMessage wire.due path).runs hb ?_
  rw [exec_readMessage_at]
  rcases hdecode : decodeMessage wire.due (replyAt b.objects path) with err | _ | entry
  · exact hreject err
  · exact runs_pure.2 (runs_pure.2 hb)
  · simp only [runs_bind, runs_liftExcept]
    cases hvalid : validateDueEntry entry none none (some ns) (some path) with
    | error err => exact hreject err
    | ok timerKey =>
      obtain ⟨key, rfl, hledger⟩ := ledgerAt_of_scan hdecode hvalid
      apply runs_pure.2
      apply (hprepared b key entry hb hledger now path _).bind_keeps
      intro _
      exact keeps_pure _

theorem keeps_dueTimers (fuel : Nat) (ns : String) (now : Int) :
    Bucket.Keeps I (dueTimers wire fuel ns now) := by
  have hspaces : ∀ spaces, Bucket.Keeps I (scanNamespaces wire fuel now spaces) := by
    intro spaces
    induction spaces with
    | nil => exact keeps_pure _
    | cons space spaces ih =>
      apply (keeps_walkBinpb (keeps_scanEntry hcopy hprepared now space) fuel _ _).bind
      intro due
      exact ih.bind fun _ => keeps_pure _
  apply (readOnly_dueScanNamespaces ns).keeps.bind
  intro spaces
  exact (hspaces spaces).bind fun _ => keeps_pure _

end Scan

end Temporaless.Python
