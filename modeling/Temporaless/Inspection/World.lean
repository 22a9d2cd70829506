import Temporaless.Inspection.Service

/-!
# Stores that do not change

A world in which every read of the inspection service has a fixed answer: buckets with any content, of
which any read may fail, point stores with any answers, and a clock that stands still.
-/

namespace Temporaless.Inspection

open PathTree Effects KeySort

/-- The direct children of a directory, as `Bucket.List` promises them: sorted, and none for a missing
directory. -/
def children {Bytes : Type} (b : Bucket Bytes) (dir : Path) : List ListEntry :=
  sortedBy entryText ((b.entries dir).filter (· ≠ .directory dir))

/-- One registered store. A path is the list of the parts of its text, and a listing is a slice of strings
of 16 bytes each, so that none is longer than `2 ^ 59`. -/
structure View (Bytes : Type) where
  bucket : Bucket Bytes
  legible : ∀ path ∈ bucket.objects.keys ++ bucket.directories, Legible path
  held : (bucket.objects.keys ++ bucket.directories).length ≤ 2 ^ 59
  listFailure : Path → Option Err
  readFailure : Path → Option Err
  workflows : WorkflowKey → Except Err (Option WorkflowRecord)
  timers : WorkflowKey → TimerStatus → Except Err (List TimerRecord)

/-- What a read-only request sees: each store's view and the clock. -/
structure World (Bytes : Type) where
  view : String → View Bytes
  time : Int

variable {Bytes ε α β : Type}

namespace World

def answer (w : World Bytes) : (op : ReadOp) → op.Reply Bytes
  | .list store dir =>
    match (w.view store).listFailure dir with
    | some err => .error err
    | none => .ok (children (w.view store).bucket dir)
  | .read store path =>
    match (w.view store).readFailure path with
    | some err => .error err
    | none => .ok ((w.view store).bucket.objects.lookup path)
  | .getWorkflow store key => (w.view store).workflows key
  | .listTimers store key status => (w.view store).timers key status
  | .now => w.time

/-- The outcome of code of the service in a world that does not change. -/
def run (w : World Bytes) (code : ReadM Bytes ε α) : Except ε α :=
  Program.consult (σ := readSignature Bytes) w.answer code

variable (w : World Bytes)

@[simp] theorem run_pure (a : α) : w.run (pure a : ReadM Bytes ε α) = .ok a := rfl

@[simp] theorem run_throw (err : ε) : w.run (throw err : ReadM Bytes ε α) = .error err := rfl

theorem run_bind (code : ReadM Bytes ε α) (next : α → ReadM Bytes ε β) :
    w.run (code >>= next) = match w.run code with
      | .ok a => w.run (next a)
      | .error err => .error err := by
  apply (Program.consult_bind (σ := readSignature Bytes) (h := w.answer) code next).trans
  rw [show Program.consult (σ := readSignature Bytes) w.answer code = w.run code from rfl]
  cases w.run code <;> rfl

theorem run_bind_ok {code : ReadM Bytes ε α} {a : α} (next : α → ReadM Bytes ε β)
    (hcode : w.run code = .ok a) : w.run (code >>= next) = w.run (next a) := by rw [run_bind, hcode]

theorem run_bind_error {code : ReadM Bytes ε α} {err : ε} (next : α → ReadM Bytes ε β)
    (hcode : w.run code = .error err) : w.run (code >>= next) = .error err := by rw [run_bind, hcode]

@[simp] theorem run_map (f : α → β) (code : ReadM Bytes ε α) :
    w.run (f <$> code) = (w.run code).map f := Program.consult_map (σ := readSignature Bytes) f code

@[simp] theorem run_liftExcept (r : Except ε α) : w.run (liftM r : ReadM Bytes ε α) = r :=
  Program.consult_liftExcept (σ := readSignature Bytes) r

@[simp] theorem run_reading (service : Service) (code : ReadM Bytes Err α) :
    w.run (service.reading code) = (w.run code).mapError service.storeError :=
  Program.consult_adapt (σ := readSignature Bytes) service.storeError code

theorem run_listDir (store : Store) (dir : Path) : w.run (listDir store dir) =
    w.answer (.list store.id dir) := rfl

theorem run_readPath (store : Store) (path : Path) : w.run (readPath store path) =
    w.answer (.read store.id path) := rfl

end World

section Listings

variable {b : Bucket Bytes} {dir : Path}

theorem children_perm :
    (children b dir).Perm ((b.entries dir).filter (· ≠ .directory dir)) := sortedBy_perm

theorem filterMap_filter_entries {f : ListEntry → Option α} (hself : f (.directory dir) = none) :
    ((b.entries dir).filter (· ≠ .directory dir)).filterMap f = (b.entries dir).filterMap f := by
  rw [List.filterMap_filter]
  apply List.filterMap_congr
  intro entry _
  by_cases hentry : entry = .directory dir <;> simp [hentry, hself]

theorem recordFiles_children :
    (recordFiles (children b dir)).Perm (b.records.filter (·.dropLast = dir)) := by
  rw [← recordFiles_entries]
  refine (children_perm.filterMap _).trans (List.Perm.of_eq ?_)
  exact filterMap_filter_entries rfl

theorem subdirectories_children : (subdirectories dir (children b dir)).Perm
    ((childNames dir b.locations).map fun name => dir ++ [name]) := by
  rw [← subdirectories_entries]
  refine (children_perm.filterMap _).trans (List.Perm.of_eq ?_)
  exact filterMap_filter_entries (if_pos rfl)

theorem not_mem_children : .directory dir ∉ children b dir := by
  simp [children]

theorem runDirectories_children : (runDirectories (children b dir)).Perm
    ((childNames dir b.locations).map fun name => dir ++ [name]) := by
  have hsame : runDirectories (children b dir) = subdirectories dir (children b dir) := by
    apply List.filterMap_congr
    rintro (path | path) hmem
    · have hne : path ≠ dir := by
        rintro rfl
        exact not_mem_children hmem
      simp [hne]
    · rfl
  rw [hsame]
  exact subdirectories_children

theorem length_recordFiles_children (view : View Bytes) (dir : Path) :
    (recordFiles (children view.bucket dir)).length ≤ 2 ^ 59 := by
  have hkeys : (view.bucket.records.filter (·.dropLast = dir)).length ≤ view.bucket.objects.keys.length :=
    (List.length_filter_le _ _).trans (List.length_filter_le _ _)
  have hheld := view.held
  rw [List.length_append] at hheld
  rw [recordFiles_children.length_eq]
  omega

theorem length_runDirectories_children (view : View Bytes) (dir : Path) :
    (runDirectories (children view.bucket dir)).length ≤ 2 ^ 59 := by
  have hnames : (childNames dir view.bucket.locations).length ≤ view.bucket.locations.length :=
    ((List.dedup_sublist _).length_le).trans (List.length_filterMap_le _ _)
  have hlocations : view.bucket.locations.length =
      view.bucket.directories.length + view.bucket.objects.keys.length := by
    rw [Bucket.locations, List.length_append, List.length_map]
  have hheld := view.held
  rw [List.length_append] at hheld
  rw [runDirectories_children.length_eq, List.length_map]
  omega

theorem walkSize_subdirectories :
    1 + ((subdirectories dir (children b dir)).map b.walkSize).sum ≤ b.walkSize dir := by
  rw [(subdirectories_children.map _).sum_eq]
  by_cases hdir : dir ∈ b.allDirectories
  · exact walkSize_children hdir
  · have hnone : childNames dir b.locations = [] := by
      rw [List.eq_nil_iff_forall_not_mem]
      intro name hname
      obtain ⟨path, hpath, hchild⟩ := mem_childNames.1 hname
      exact hdir (mem_allDirectories.2 ⟨path, hpath, (List.prefix_append dir [name]).trans hchild⟩)
    have hpos : 1 ≤ b.walkSize dir := le_max_left _ _
    simpa [hnone] using hpos

theorem recordsBelow_children : (recordFiles (children b dir) ++
    (subdirectories dir (children b dir)).flatMap b.recordsBelow).Perm (b.recordsBelow dir) :=
  (recordFiles_children.append (subdirectories_children.flatMap_right _)).trans (recordsBelow_perm dir).symm

end Listings

section Walk

variable {w : World Bytes} {store : Store} {root : Path} {limit : Nat}

/-- A walk finds exactly the record files below the queued directories and is not stopped when it has
enough fuel. It fails when a listing does, or when it finds more than the limit. -/
theorem run_walkFilesLoop (store : Store) (root : Path) (fuel : Nat) (queue files : List Path)
    (hfiles : files.length ≤ limit) :
    (∃ err, w.run (walkFilesLoop store root limit fuel queue files) = .error err ∧
      ((∃ dir, (w.view store.id).listFailure dir = some err) ∨
        limit < (files ++ queue.flatMap (w.view store.id).bucket.recordsBelow).length)) ∨
    (w.run (walkFilesLoop store root limit fuel queue files) = .ok none ∧
      fuel < (queue.map (w.view store.id).bucket.walkSize).sum) ∨
    ∃ found, w.run (walkFilesLoop store root limit fuel queue files) = .ok (some found) ∧
      found.length ≤ limit ∧ found.Perm (files ++ queue.flatMap (w.view store.id).bucket.recordsBelow) := by
  set b := (w.view store.id).bucket with hb
  induction fuel generalizing queue files with
  | zero =>
    cases queue with
    | nil => exact .inr (.inr ⟨files, rfl, hfiles, by simp⟩)
    | cons dir queue =>
      have hpos : 1 ≤ b.walkSize dir := le_max_left _ _
      refine .inr (.inl ⟨rfl, ?_⟩)
      simp only [List.map_cons, List.sum_cons]
      omega
  | succ fuel ih =>
    cases queue with
    | nil => exact .inr (.inr ⟨files, rfl, hfiles, by simp⟩)
    | cons dir queue =>
      have hlevel : ((files ++ recordFiles (children b dir)) ++
          (queue ++ subdirectories dir (children b dir)).flatMap b.recordsBelow).Perm
          (files ++ (dir :: queue).flatMap b.recordsBelow) := by
        rw [List.flatMap_append, List.flatMap_cons, List.append_assoc]
        apply List.Perm.append_left
        refine List.Perm.trans ?_ (recordsBelow_children.append_right _)
        rw [List.append_assoc]
        exact List.Perm.append_left _ List.perm_append_comm
      rw [walkFilesLoop]
      cases hfailure : (w.view store.id).listFailure dir with
      | some err =>
        have hlist : w.run (listDir store dir) = .error err := by
          simp [World.run_listDir, World.answer, hfailure]
        exact .inl ⟨err, w.run_bind_error _ hlist, .inl ⟨dir, hfailure⟩⟩
      | none =>
        have hlist : w.run (listDir store dir) = .ok (children b dir) := by
          simp [World.run_listDir, World.answer, hfailure, hb]
        rw [w.run_bind_ok _ hlist]
        by_cases hmany : limit < (files ++ recordFiles (children b dir)).length
        · refine .inl ⟨tooManyFiles root limit, by simp only [if_pos hmany]; rfl, .inr ?_⟩
          rw [← hlevel.length_eq, List.length_append]
          omega
        · simp only [if_neg hmany]
          have hsize : 1 + ((subdirectories dir (children b dir)).map b.walkSize).sum ≤ b.walkSize dir :=
            walkSize_subdirectories
          rcases ih (queue ++ subdirectories dir (children b dir))
            (files ++ recordFiles (children b dir)) (by omega) with
            ⟨err, herr, hcause⟩ | ⟨hnone, hfuel⟩ | ⟨found, hfound, hle, hperm⟩
          · refine .inl ⟨err, herr, hcause.imp_right ?_⟩
            rw [hlevel.length_eq]
            exact id
          · refine .inr (.inl ⟨hnone, ?_⟩)
            rw [List.map_append, List.sum_append] at hfuel
            simp only [List.map_cons, List.sum_cons]
            omega
          · exact .inr (.inr ⟨found, hfound, hle, hperm.trans hlevel⟩)

theorem run_walkFiles (root : Path) (limit : Nat) {fuel : Nat}
    (hfuel : (w.view store.id).bucket.walkFuel ≤ fuel) :
    (∃ err, w.run (walkFiles store root limit fuel) = .error err ∧
      ((∃ dir, (w.view store.id).listFailure dir = some err) ∨
        limit < ((w.view store.id).bucket.recordsBelow root).length)) ∨
    ∃ found, w.run (walkFiles store root limit fuel) = .ok (some (sortedBy render found)) ∧
      found.length ≤ limit ∧ found.Perm ((w.view store.id).bucket.recordsBelow root) := by
  rcases run_walkFilesLoop (w := w) store root fuel [root] [] (Nat.zero_le limit) with
    ⟨err, herr, hcause⟩ | ⟨-, hlt⟩ | ⟨found, hfound, hle, hperm⟩
  · exact .inl ⟨err, w.run_bind_error _ herr, by simpa using hcause⟩
  · have hsize := (w.view store.id).bucket.walkSize_le root
    simp only [List.map_singleton, List.sum_singleton] at hlt
    omega
  · exact .inr ⟨found, w.run_bind_ok _ hfound, hle, by simpa using hperm⟩

end Walk

def plainView {Bytes : Type} (b : Bucket Bytes)
    (legible : ∀ path ∈ b.objects.keys ++ b.directories, Legible path)
    (held : (b.objects.keys ++ b.directories).length ≤ 2 ^ 59) : View Bytes where
  bucket := b
  legible := legible
  held := held
  listFailure _ := none
  readFailure _ := none
  workflows _ := .ok none
  timers _ _ := .ok []

end Temporaless.Inspection
