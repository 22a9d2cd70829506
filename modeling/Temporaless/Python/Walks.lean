import Temporaless.Python.Store

/-!
# The walks of the Python store

A walk runs its body on the record files of a directory before it lists the next one. It keeps
what its body keeps, and with enough fuel it visits every record file below its root once.
-/

namespace Temporaless.Python

open PathTree Effects OpenDALStore

variable {Bytes σ : Type} {body : σ → Path → BucketM Bytes σ}

@[grind ←] theorem readOnly_listEntries (dir : Path) :
    ReadOnly (listEntries dir : BucketM Bytes (Option (List ListEntry))) := by
  unfold listEntries
  grind

@[grind ←] theorem readOnly_dueScanNamespaces {wire : Wire} (ns : String) :
    ReadOnly (dueScanNamespaces wire ns) := by
  unfold dueScanNamespaces
  grind

section Preserves

variable {S : Type} {F : CallSpec (bucketSignature Bytes) S} {I : S → Prop}

theorem preserves_forEach (hbody : ∀ state path, Preserves F I (body state path))
    (paths : List Path) (state : σ) : Preserves F I (forEach body paths state) := by
  induction paths generalizing state with
  | nil => exact preserves_pure _
  | cons path paths ih => exact (hbody state path).bind ih

theorem ends_forEach {J : σ → S → Prop} (hbody : ∀ state path s, J state s →
      ends F (body state path) (fun r s' => ∀ next, r = .ok next → J next s') s)
    (paths : List Path) {state : σ} {s : S} (hs : J state s) :
    ends F (forEach body paths state) (fun r s' => ∀ last, r = .ok last → J last s') s := by
  induction paths generalizing state s with
  | nil =>
    apply ends_pure.2
    intro last hlast
    cases hlast
    exact hs
  | cons path paths ih =>
    apply ends_bind.2
    apply (hbody state path s hs).mono
    intro r s' hr
    cases r with
    | error err =>
      intro last hlast
      cases hlast
    | ok next => exact ih (hr next rfl)

theorem preserves_walkBinpb (hlist : ∀ dir, Preserves F I (listEntries dir : BucketM Bytes _))
    (hbody : ∀ state path, Preserves F I (body state path)) (fuel : Nat)
    (queue : List Path) (state : σ) : Preserves F I (walkBinpb body fuel queue state) := by
  induction fuel generalizing queue state with
  | zero =>
    cases queue with
    | nil => exact preserves_pure _
    | cons dir queue => exact preserves_throw _
  | succ fuel ih =>
    cases queue with
    | nil => exact preserves_pure _
    | cons dir queue =>
      apply (hlist dir).bind
      intro entries
      split
      · exact ih _ _
      · apply (preserves_forEach hbody _ _).bind
        intro _
        exact ih _ _

end Preserves

theorem keeps_forEach {I : Bucket Bytes → Prop}
    (hbody : ∀ state path, Bucket.Keeps I (body state path)) (paths : List Path)
    (state : σ) : Bucket.Keeps I (forEach body paths state) := by
  simp only [keeps_iff_preserves] at hbody ⊢
  exact preserves_forEach hbody paths state

theorem keeps_walkBinpb {I : Bucket Bytes → Prop}
    (hbody : ∀ state path, Bucket.Keeps I (body state path)) (fuel : Nat)
    (queue : List Path) (state : σ) : Bucket.Keeps I (walkBinpb body fuel queue state) := by
  have hlist : ∀ dir, Bucket.Keeps I (listEntries dir : BucketM Bytes _) :=
    fun dir => (readOnly_listEntries dir).keeps
  simp only [keeps_iff_preserves] at hbody hlist ⊢
  exact preserves_walkBinpb hlist hbody fuel queue state

variable {b : Bucket Bytes}

variable {R : Bucket Bytes → Prop} {f : σ → Path → σ}

theorem exec_forEach {paths : List Path} (hbody : ∀ b, R b → ∀ state, ∀ path ∈ paths,
      ∃ b', b.exec (body state path) = (.ok (f state path), b') ∧ R b') (state : σ) (hb : R b) :
    ∃ b', b.exec (forEach body paths state) = (.ok (paths.foldl f state), b') ∧ R b' := by
  induction paths generalizing state b with
  | nil => exact ⟨b, rfl, hb⟩
  | cons path paths ih =>
    obtain ⟨b₁, hnext, hb₁⟩ := hbody b hb state path (by simp)
    obtain ⟨b₂, hlast, hb₂⟩ :=
      ih (fun b hb state path hpath => hbody b hb state path (by simp [hpath])) (f state path) hb₁
    refine ⟨b₂, ?_, hb₂⟩
    rw [forEach, exec_bind, hnext]
    exact hlast

theorem exec_listEntries (dir : Path) :
    (b.exec (listEntries dir) = (.ok (some (sortedEntries (b.entries dir))), b) ∧
        dir ∈ b.allDirectories) ∨
      (b.exec (listEntries dir) = (.ok none, b) ∧ b.recordsBelow dir = []) := by
  rcases exec_listDir (b := b) dir with ⟨hlist, hmem⟩ | ⟨hlist, hnone⟩
  · exact .inl ⟨by simp [listEntries, exec_bind, hlist], hmem⟩
  · exact .inr ⟨by simp [listEntries, exec_bind, hlist], hnone⟩

theorem recordFiles_sorted (dir : Path) :
    (recordFiles (sortedEntries (b.entries dir))).Perm (b.records.filter (·.dropLast = dir)) := by
  rw [← recordFiles_entries]
  exact (List.perm_insertionSort _ _).filterMap _

theorem subdirectories_sorted (dir : Path) :
    (subdirectories dir (sortedEntries (b.entries dir))).Perm
      ((childNames dir b.locations).map fun name => dir ++ [name]) := by
  rw [← subdirectories_entries]
  exact (List.perm_insertionSort _ _).filterMap _

theorem forEach_append (paths paths' : List Path) (state : σ) :
    forEach body (paths ++ paths') state = forEach body paths state >>= forEach body paths' := by
  induction paths generalizing state with
  | nil => rfl
  | cons path paths ih => simp only [List.cons_append, forEach, ih, bind_assoc]

theorem exec_forEach_state (paths : List Path) (state : σ)
    (hbody : ∀ b', R b' → ∀ state, ∀ path ∈ paths, R (b'.exec (body state path)).2) (hb : R b) :
    R (b.exec (forEach body paths state)).2 := by
  induction paths generalizing state b with
  | nil => exact hb
  | cons path paths ih =>
    have hhere := hbody b hb state path (by simp)
    rw [forEach, exec_bind]
    rcases hexec : b.exec (body state path) with ⟨err | next, b'⟩
    · rw [hexec] at hhere
      exact hhere
    · rw [hexec] at hhere
      exact ih next (fun b' hb' state path hpath => hbody b' hb' state path (by simp [hpath])) hhere

theorem recordsBelow_cons_perm (dir : Path) (queue : List Path) :
    (b.recordsBelow dir ++ queue.flatMap b.recordsBelow).Perm
      (recordFiles (sortedEntries (b.entries dir)) ++
        (queue ++ subdirectories dir (sortedEntries (b.entries dir))).flatMap b.recordsBelow) := by
  rw [List.flatMap_append]
  refine ((recordsBelow_perm dir).append_right _).trans ?_
  rw [List.append_assoc]
  refine (recordFiles_sorted dir).symm.append ?_
  exact List.perm_append_comm.trans
    (List.Perm.append_left _ ((subdirectories_sorted dir).symm.flatMap_right _))

variable (body) in
/-- A walk with enough fuel is a loop over exactly the record files below the queue, as long as the
body does not change what the walk lists. -/
theorem exec_walkBinpb_eq (queue : List Path)
    (hlist : ∀ b', R b' → ∀ root ∈ queue, ∀ dir, root <+: dir →
      b'.exec (listEntries dir) = ((b.exec (listEntries dir)).1, b'))
    (hbody : ∀ b', R b' → ∀ state, ∀ path ∈ queue.flatMap b.recordsBelow,
      R (b'.exec (body state path)).2) :
    ∃ found : List Path, found.Perm (queue.flatMap b.recordsBelow) ∧
      ∀ fuel, (queue.map b.walkSize).sum ≤ fuel → ∀ b', R b' → ∀ state,
        b'.exec (walkBinpb body fuel queue state) = b'.exec (forEach body found state) := by
  -- every directory that is listed takes one from the size of the queue
  induction hsize : (queue.map b.walkSize).sum using Nat.strong_induction_on generalizing queue with
  | _ size ih =>
  cases queue with
  | nil => exact ⟨[], by simp, fun fuel _ b' _ state => by cases fuel <;> rfl⟩
  | cons dir queue =>
    have hpos : 1 ≤ b.walkSize dir := le_max_left _ _
    simp only [List.map_cons, List.sum_cons] at hsize
    rw [List.flatMap_cons] at hbody ⊢
    rcases exec_listEntries (b := b) dir with ⟨hentries, hmem⟩ | ⟨hentries, hnone⟩
    · have hchildren := subdirectories_sorted (b := b) dir
      have hsum := walkSize_children hmem
      have hbelow := recordsBelow_cons_perm (b := b) dir queue
      have hrest : ((queue ++ subdirectories dir (sortedEntries (b.entries dir))).map
          b.walkSize).sum < size := by
        rw [List.map_append, List.sum_append, (hchildren.map b.walkSize).sum_eq]
        omega
      obtain ⟨found, hperm, hwalk⟩ := ih _ hrest
        (queue ++ subdirectories dir (sortedEntries (b.entries dir)))
        (by
          intro b' hb' root hroot below hbelow
          rcases List.mem_append.1 hroot with hroot | hroot
          · exact hlist b' hb' root (List.mem_cons_of_mem _ hroot) below hbelow
          · obtain ⟨name, -, rfl⟩ := List.mem_map.1 (hchildren.mem_iff.1 hroot)
            exact hlist b' hb' dir (by simp) below ((List.prefix_append _ _).trans hbelow))
        (fun b' hb' state path hpath =>
          hbody b' hb' state path (hbelow.mem_iff.2 (List.mem_append_right _ hpath)))
        rfl
      refine ⟨recordFiles (sortedEntries (b.entries dir)) ++ found,
        (List.Perm.append_left _ hperm).trans hbelow.symm, ?_⟩
      intro fuel hfuel b' hb' state
      obtain ⟨fuel, rfl⟩ : ∃ n, fuel = n + 1 := ⟨fuel - 1, by omega⟩
      have hhere := hlist b' hb' dir (by simp) dir List.prefix_rfl
      rw [hentries] at hhere
      have hkept := exec_forEach_state (recordFiles (sortedEntries (b.entries dir))) state
        (fun b' hb' state path hpath =>
          hbody b' hb' state path (hbelow.mem_iff.2 (List.mem_append_left _ hpath))) hb'
      rw [walkBinpb, exec_bind_ok b' _ hhere, forEach_append, exec_bind, exec_bind]
      rcases hexec : b'.exec (forEach body (recordFiles (sortedEntries (b.entries dir))) state) with
        ⟨err | next, b''⟩
      · rfl
      · rw [hexec] at hkept
        exact hwalk fuel (by omega) b'' hkept next
    · rw [hnone, List.nil_append] at hbody ⊢
      obtain ⟨found, hperm, hwalk⟩ := ih (queue.map b.walkSize).sum (by omega) queue
        (fun b' hb' root hroot => hlist b' hb' root (List.mem_cons_of_mem _ hroot)) hbody rfl
      refine ⟨found, hperm, ?_⟩
      intro fuel hfuel b' hb' state
      obtain ⟨fuel, rfl⟩ : ∃ n, fuel = n + 1 := ⟨fuel - 1, by omega⟩
      have hhere := hlist b' hb' dir (by simp) dir List.prefix_rfl
      rw [hentries] at hhere
      rw [walkBinpb, exec_bind_ok b' _ hhere]
      exact hwalk fuel (by omega) b' hb' state

theorem exec_walkBinpb (fuel : Nat) (queue : List Path) (state : σ)
    (hlist : ∀ b', R b' → ∀ root ∈ queue, ∀ dir, root <+: dir →
      b'.exec (listEntries dir) = ((b.exec (listEntries dir)).1, b'))
    (hbody : ∀ b', R b' → ∀ state, ∀ path ∈ queue.flatMap b.recordsBelow,
      ∃ b'', b'.exec (body state path) = (.ok (f state path), b'') ∧ R b'')
    (hfuel : (queue.map b.walkSize).sum ≤ fuel) {b' : Bucket Bytes} (hb' : R b') :
    ∃ (found : List Path) (b'' : Bucket Bytes), found.Perm (queue.flatMap b.recordsBelow) ∧
      b'.exec (walkBinpb body fuel queue state) = (.ok (found.foldl f state), b'') ∧ R b'' := by
  obtain ⟨found, hperm, hwalk⟩ := exec_walkBinpb_eq body queue hlist (by
    intro b' hb' state path hpath
    obtain ⟨b'', hexec, hb''⟩ := hbody b' hb' state path hpath
    rw [hexec]
    exact hb'')
  obtain ⟨b'', hexec, hb''⟩ := exec_forEach (fun b hb state path hpath =>
    hbody b hb state path (hperm.mem_iff.1 hpath)) state hb'
  exact ⟨found, b'', hperm, by rw [hwalk fuel hfuel b' hb', hexec], hb''⟩

end Temporaless.Python
