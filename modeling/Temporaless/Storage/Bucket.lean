import Mathlib.Data.List.AList
import Mathlib.Data.List.Infix
import Mathlib.Data.List.Sort
import Temporaless.Framework.Program
import Temporaless.Storage.Keys

/-!
# The object store below the records

The operations of an OpenDAL operator and of the clock, a bucket that answers them one at a time,
and the breadth-first walk of a directory. The bucket never fails except by reporting that an object
or a directory is missing.
-/

namespace Temporaless

open PathTree Effects

/-- What a lister yields: directories carry a trailing slash in the source. -/
inductive ListEntry where
  | directory (path : Path)
  | object (path : Path)
  deriving DecidableEq, Repr

structure Listing where
  entries : List ListEntry
  failure : Option Err

inductive BucketOp (Bytes : Type) where
  | isExist (path : Path)
  | read (path : Path)
  | write (path : Path) (data : Bytes)
  | delete (path : Path)
  | createDir (dir : Path)
  | list (dir : Path)
  | now

abbrev BucketOp.Reply {Bytes : Type} : BucketOp Bytes → Type
  | .isExist _ => Except Err Bool
  | .read _ => Except Err Bytes
  | .write _ _ => Except Err Unit
  | .delete _ => Except Err Unit
  | .createDir _ => Except Err Unit
  | .list _ => Except Err Listing
  | .now => Int

abbrev bucketSignature (Bytes : Type) : Signature := ⟨BucketOp Bytes, BucketOp.Reply⟩

abbrev BucketM (Bytes : Type) (α : Type) := ExceptT Err (Program (bucketSignature Bytes)) α

section Operations

variable {Bytes : Type}

def isExist (path : Path) : BucketM Bytes Bool :=
  ExceptT.mk (.call (σ := bucketSignature Bytes) (.isExist path) .done)

def readObject (path : Path) : BucketM Bytes Bytes :=
  ExceptT.mk (.call (σ := bucketSignature Bytes) (.read path) .done)

def writeObject (path : Path) (data : Bytes) : BucketM Bytes Unit :=
  ExceptT.mk (.call (σ := bucketSignature Bytes) (.write path data) .done)

def deleteObject (path : Path) : BucketM Bytes Unit :=
  ExceptT.mk (.call (σ := bucketSignature Bytes) (.delete path) .done)

def createDir (dir : Path) : BucketM Bytes Unit :=
  ExceptT.mk (.call (σ := bucketSignature Bytes) (.createDir dir) .done)

def listDir (dir : Path) : BucketM Bytes Listing :=
  ExceptT.mk (.call (σ := bucketSignature Bytes) (.list dir) .done)

def clock : BucketM Bytes Int :=
  ExceptT.mk (.call (σ := bucketSignature Bytes) .now fun t => .done (.ok t))

end Operations

def isOpenDALNotFound (err : Err) : Bool :=
  match ErrorTree.Error.first (fun
    | ErrorNode.opendal notFound _ => some notFound
    | _ => none) err with
  | some (notFound, _) => notFound
  | none => false

def notFoundError (path : Path) : Err :=
  .node (.opendal true ("NotFound: " ++ render path)) []

variable {path dir : Path}

@[simp] theorem isOpenDALNotFound_notFoundError (path : Path) :
    isOpenDALNotFound (notFoundError path) = true := by
  simp [isOpenDALNotFound, notFoundError, ErrorTree.Error.first_node]

/-- The object store: objects by path, the directories made, and the clock. -/
structure Bucket (Bytes : Type) where
  objects : AList fun _ : Path => Bytes
  directories : List Path
  time : Int

namespace Bucket

variable {Bytes : Type}

def locations (b : Bucket Bytes) : List Path :=
  b.directories ++ b.objects.keys.map List.dropLast

def entries (b : Bucket Bytes) (dir : Path) : List ListEntry :=
  .directory dir ::
    ((childNames dir b.locations).map fun name => .directory (dir ++ [name])) ++
    ((b.objects.keys.filter fun p => p ≠ [] ∧ p.dropLast = dir).map .object)

def step (b : Bucket Bytes) : (op : BucketOp Bytes) → op.Reply × Bucket Bytes
  | .isExist path => (.ok (b.objects.lookup path).isSome, b)
  | .read path =>
    match b.objects.lookup path with
    | some data => (.ok data, b)
    | none => (.error (notFoundError path), b)
  | .write path data => (.ok (), { b with objects := b.objects.insert path data })
  | .delete path =>
    match b.objects.lookup path with
    | some _ => (.ok (), { b with objects := b.objects.erase path })
    | none => (.error (notFoundError path), b)
  | .createDir dir => (.ok (), { b with directories := dir :: b.directories })
  | .list dir =>
    if b.locations.any (dir <+: ·) then (.ok ⟨b.entries dir, none⟩, b)
    else (.error (notFoundError dir), b)
  | .now => (b.time, b)

def exec {α : Type} (code : BucketM Bytes α) (b : Bucket Bytes) : Except Err α × Bucket Bytes :=
  Program.exec step code.run b

/-- Run code of the record store and stop it after `n` operations. -/
def cut {α : Type} (n : Nat) (code : BucketM Bytes α) (b : Bucket Bytes) : Bucket Bytes :=
  Program.cut step n code.run b

end Bucket

section Exec

variable {Bytes α β : Type} (b : Bucket Bytes)

@[simp] theorem exec_pure (a : α) : b.exec (pure a : BucketM Bytes α) = (.ok a, b) := rfl

@[simp] theorem exec_throw (err : Err) :
    b.exec (throw err : BucketM Bytes α) = (.error err, b) := rfl

theorem exec_bind (code : BucketM Bytes α) (next : α → BucketM Bytes β) :
    b.exec (code >>= next) = match b.exec code with
      | (.ok a, b') => b'.exec (next a)
      | (.error err, b') => (.error err, b') := by
  apply (execute_bind (σ := bucketSignature Bytes) (h := Bucket.step) (s := b) code next).trans
  rw [show execute (σ := bucketSignature Bytes) Bucket.step code b = b.exec code from rfl]
  rcases b.exec code with ⟨err | a, b'⟩ <;> rfl

theorem exec_bind_ok {code : BucketM Bytes α} {a : α} {b' : Bucket Bytes}
    (next : α → BucketM Bytes β) (h : b.exec code = (.ok a, b')) :
    b.exec (code >>= next) = b'.exec (next a) := by
  rw [exec_bind, h]

theorem exec_bind_error {code : BucketM Bytes α} {err : Err} {b' : Bucket Bytes}
    (next : α → BucketM Bytes β) (h : b.exec code = (.error err, b')) :
    b.exec (code >>= next) = (.error err, b') := by
  rw [exec_bind, h]

theorem exec_bind_congr {code code' : BucketM Bytes α} (next : α → BucketM Bytes β)
    (h : b.exec code = b.exec code') : b.exec (code >>= next) = b.exec (code' >>= next) := by
  rw [exec_bind, exec_bind, h]

@[simp] theorem exec_map (f : α → β) (code : BucketM Bytes α) :
    b.exec (f <$> code) = ((b.exec code).1.map f, (b.exec code).2) :=
  execute_map (σ := bucketSignature Bytes) (h := Bucket.step) (s := b) f code

@[simp] theorem exec_attempt (code : BucketM Bytes α) :
    b.exec (attempt code) = (.ok (b.exec code).1, (b.exec code).2) :=
  execute_attempt (σ := bucketSignature Bytes) (h := Bucket.step) (s := b) code

@[simp] theorem exec_liftExcept (r : Except Err α) : b.exec (liftM r : BucketM Bytes α) = (r, b) :=
  execute_liftExcept (σ := bucketSignature Bytes) (h := Bucket.step) (s := b) r

@[simp] theorem exec_isExist (path : Path) :
    b.exec (isExist path) = (.ok (b.objects.lookup path).isSome, b) := rfl

@[simp] theorem exec_writeObject (path : Path) (data : Bytes) :
    b.exec (writeObject path data) =
      (.ok (), { b with objects := b.objects.insert path data }) := rfl

@[simp] theorem exec_createDir (dir : Path) :
    b.exec (createDir dir) = (.ok (), { b with directories := dir :: b.directories }) := rfl

@[simp] theorem exec_clock : b.exec clock = (.ok b.time, b) := rfl

theorem exec_readObject {data : Bytes} (h : b.objects.lookup path = some data) :
    b.exec (readObject path) = (.ok data, b) := by
  change (Bucket.step b (.read path)) = _
  simp [Bucket.step, h]

theorem exec_deleteObject {data : Bytes} (h : b.objects.lookup path = some data) :
    b.exec (deleteObject path) = (.ok (), { b with objects := b.objects.erase path }) := by
  change (Bucket.step b (.delete path)) = _
  simp [Bucket.step, h]

end Exec

section Ends

variable {Bytes S : Type} {F : CallSpec (bucketSignature Bytes) S} {s : S}

theorem ends_isExist {Q : Except Err Bool → S → Prop} :
    ends F (isExist path) Q s ↔ F.pre (.isExist path) Q s := ends_mk

theorem ends_readObject {Q : Except Err Bytes → S → Prop} :
    ends F (readObject path) Q s ↔ F.pre (.read path) Q s := ends_mk

theorem ends_writeObject {data : Bytes} {Q : Except Err Unit → S → Prop} :
    ends F (writeObject path data) Q s ↔ F.pre (.write path data) Q s := ends_mk

theorem ends_deleteObject {Q : Except Err Unit → S → Prop} :
    ends F (deleteObject path) Q s ↔ F.pre (.delete path) Q s := ends_mk

theorem ends_createDir {Q : Except Err Unit → S → Prop} :
    ends F (createDir dir) Q s ↔ F.pre (.createDir dir) Q s := ends_mk

theorem ends_listDir {Q : Except Err Listing → S → Prop} :
    ends F (listDir dir) Q s ↔ F.pre (.list dir) Q s := ends_mk

end Ends

section Runs

open Bucket

variable {Bytes α β : Type}

/-- The code keeps `I` at each of its operations and ends with `Q`. -/
def Bucket.Runs (I : Bucket Bytes → Prop) (code : BucketM Bytes α)
    (Q : Except Err α → Bucket Bytes → Prop) (b : Bucket Bytes) : Prop :=
  ends (.steps (fun s op r s' => step s op = (r, s')) fun _ _ _ s' => I s') code Q b

variable {I : Bucket Bytes → Prop} {code : BucketM Bytes α}
variable {Q Q' : Except Err α → Bucket Bytes → Prop} {b : Bucket Bytes}

theorem Bucket.Runs.exec (h : b.Runs I code Q) : Q (b.exec code).1 (b.exec code).2 :=
  Program.wp.exec (ends_iff_wp.1 h)

theorem Bucket.Runs.cut (h : b.Runs I code Q) (hb : I b) (n : Nat) : I (b.cut n code) :=
  Program.wp.cut (ends_iff_wp.1 h) hb n

theorem Bucket.Runs.imp {I' : Bucket Bytes → Prop} (h : b.Runs I code Q) (hI : ∀ b, I b → I' b)
    (hQ : ∀ r b, Q r b → Q' r b) : b.Runs I' code Q' :=
  ends_iff_wp.2
    (Program.wp_steps_mono _ (fun _ _ _ s' hs' => hI s' hs') hQ (ends_iff_wp.1 h))

theorem Bucket.Runs.mono (h : b.Runs I code Q) (hQ : ∀ r b, Q r b → Q' r b) : b.Runs I code Q' :=
  ends.mono h hQ

variable {next : α → BucketM Bytes β}

@[simp] theorem runs_pure {a : α} : b.Runs I (pure a : BucketM Bytes α) Q ↔ Q (.ok a) b :=
  ends_pure

@[simp] theorem runs_throw {err : Err} :
    b.Runs I (throw err : BucketM Bytes α) Q ↔ Q (.error err) b := ends_throw

theorem runs_bind {Q : Except Err β → Bucket Bytes → Prop} :
    b.Runs I (code >>= next) Q ↔ b.Runs I code (fun
      | .ok a, b' => b'.Runs I (next a) Q
      | .error err, b' => Q (.error err) b') := by
  refine ends_bind.trans (iff_of_eq (congrArg (ends _ code · b) ?_))
  funext r b'
  cases r <;> rfl

theorem runs_map {f : α → β} {Q : Except Err β → Bucket Bytes → Prop} :
    b.Runs I (f <$> code) Q ↔ b.Runs I code fun r b' => Q (r.map f) b' := ends_map

@[simp] theorem runs_attempt {Q : Except Err (Except Err α) → Bucket Bytes → Prop} :
    b.Runs I (attempt code) Q ↔ b.Runs I code fun r b' => Q (.ok r) b' :=
  ends_attempt

@[simp] theorem runs_liftExcept {r : Except Err α} :
    b.Runs I (liftM r : BucketM Bytes α) Q ↔ Q r b := ends_liftExcept

def Reads : BucketOp Bytes → Prop
  | .isExist _ | .read _ | .list _ | .now => True
  | .write _ _ | .delete _ | .createDir _ => False

theorem step_reads (op : BucketOp Bytes) (hop : Reads op) (b : Bucket Bytes) :
    (step b op).2 = b := by
  cases op with
  | isExist path => rfl
  | read path => simp only [step]; split <;> rfl
  | list dir => simp only [step]; split <;> rfl
  | now => rfl
  | write path data => exact hop.elim
  | delete path => exact hop.elim
  | createDir dir => exact hop.elim

def ReadOnly (code : BucketM Bytes α) : Prop := code.run.Calls Reads

theorem ReadOnly.runs (h : ReadOnly code) (hb : I b) (hQ : Q (b.exec code).1 b) :
    b.Runs I code Q := ends_iff_wp.2 (Program.Calls.wp_exec h step_reads hb hQ)

theorem ReadOnly.exec_state (h : ReadOnly code) : (b.exec code).2 = b :=
  Program.Calls.exec_state h step_reads

@[grind ←] theorem ReadOnly.bind (h : ReadOnly code)
    (hnext : ∀ a, ReadOnly (next a)) : ReadOnly (code >>= next) := Program.Calls.bindExcept h hnext

@[grind ←] theorem ReadOnly.attempt (h : ReadOnly code) : ReadOnly (attempt code) :=
  Program.Calls.bind h fun _ => trivial

@[simp, grind ←] theorem readOnly_pure (a : α) : ReadOnly (pure a : BucketM Bytes α) := trivial

@[simp, grind ←] theorem readOnly_throw (err : Err) : ReadOnly (throw err : BucketM Bytes α) := trivial

@[simp, grind ←] theorem readOnly_liftExcept (r : Except Err α) :
    ReadOnly (liftM r : BucketM Bytes α) := calls_liftExcept _ r

@[simp, grind ←] theorem readOnly_isExist (path : Path) :
    ReadOnly (isExist path : BucketM Bytes Bool) :=
  ⟨trivial, fun _ => trivial⟩

@[simp, grind ←] theorem readOnly_readObject (path : Path) :
    ReadOnly (readObject path : BucketM Bytes Bytes) := ⟨trivial, fun _ => trivial⟩

@[simp, grind ←] theorem readOnly_listDir (dir : Path) :
    ReadOnly (listDir dir : BucketM Bytes Listing) := ⟨trivial, fun _ => trivial⟩

@[simp, grind ←] theorem readOnly_clock :
    ReadOnly (clock : BucketM Bytes Int) := ⟨trivial, fun _ => trivial⟩

theorem runs_writeObject {Q : Except Err Unit → Bucket Bytes → Prop} {data : Bytes} :
    b.Runs I (writeObject path data) Q ↔
      I { b with objects := b.objects.insert path data } ∧
        Q (.ok ()) { b with objects := b.objects.insert path data } := by
  rw [Runs, ends_writeObject]
  constructor
  · intro h
    exact h _ _ rfl
  · rintro ⟨hI, hQ⟩ r b' ⟨⟩
    exact ⟨hI, hQ⟩

theorem runs_createDir {Q : Except Err Unit → Bucket Bytes → Prop} :
    b.Runs I (createDir dir) Q ↔
      I { b with directories := dir :: b.directories } ∧
        Q (.ok ()) { b with directories := dir :: b.directories } := by
  rw [Runs, ends_createDir]
  constructor
  · intro h
    exact h _ _ rfl
  · rintro ⟨hI, hQ⟩ r b' ⟨⟩
    exact ⟨hI, hQ⟩

theorem runs_isExist {Q : Except Err Bool → Bucket Bytes → Prop} :
    b.Runs I (isExist path) Q ↔ I b ∧ Q (.ok (b.objects.lookup path).isSome) b := by
  rw [Runs, ends_isExist]
  constructor
  · intro h
    exact h _ _ rfl
  · rintro ⟨hI, hQ⟩ r b' ⟨⟩
    exact ⟨hI, hQ⟩

theorem runs_deleteObject {Q : Except Err Unit → Bucket Bytes → Prop} {data : Bytes}
    (h : b.objects.lookup path = some data) (hI : I { b with objects := b.objects.erase path })
    (hQ : Q (.ok ()) { b with objects := b.objects.erase path }) :
    b.Runs I (deleteObject path) Q := by
  rw [Runs, ends_deleteObject]
  intro r b' hstep
  have hdel : step b (.delete path) = (.ok (), { b with objects := b.objects.erase path }) := by
    simp [step, h]
  rw [hdel] at hstep
  cases hstep
  exact ⟨hI, hQ⟩

/-- The code keeps `I` wherever it holds at the start. -/
def Bucket.Keeps (I : Bucket Bytes → Prop) (code : BucketM Bytes α) : Prop :=
  ∀ b : Bucket Bytes, I b → b.Runs I code fun _ b' => I b'

theorem keeps_iff_preserves : Keeps I code ↔
    Preserves (.steps (fun s op r s' => step s op = (r, s')) fun _ _ _ s' => I s') I code :=
  Iff.rfl

attribute [irreducible] Bucket.Runs

theorem Bucket.Runs.bind_keeps (h : b.Runs I code fun _ b' => I b')
    (hnext : ∀ a, Keeps I (next a)) : b.Runs I (code >>= next) fun _ b' => I b' := by
  apply runs_bind.2
  apply h.mono
  intro r b' hb'
  cases r with
  | error err => exact hb'
  | ok a => exact hnext a b' hb'

theorem Bucket.Keeps.bind (h : Keeps I code) (hnext : ∀ a, Keeps I (next a)) : Keeps I (code >>= next) :=
  fun b hb => (h b hb).bind_keeps hnext

theorem Bucket.Keeps.attempt (h : Keeps I code) : Keeps I (attempt code) :=
  fun b hb => runs_attempt.2 (h b hb)

theorem Bucket.Keeps.map (h : Keeps I code) (f : α → β) : Keeps I (f <$> code) :=
  fun b hb => runs_map.2 (h b hb)

theorem keeps_pure (a : α) : Keeps I (pure a : BucketM Bytes α) := fun _ hb => runs_pure.2 hb

theorem keeps_throw (err : Err) : Keeps I (throw err : BucketM Bytes α) :=
  fun _ hb => runs_throw.2 hb

theorem ReadOnly.keeps (h : ReadOnly code) : Keeps I code := fun _ hb => h.runs hb hb

theorem keeps_liftExcept {r : Except Err α} (h : ∀ a, r = .ok a → Keeps I (next a)) :
    Keeps I ((liftM r : BucketM Bytes α) >>= next) := by
  intro b hb
  apply runs_bind.2
  apply runs_liftExcept.2
  cases r with
  | error err => exact hb
  | ok a => exact h a rfl b hb

end Runs

def hasBinpbSuffix (path : Path) : Bool :=
  ".binpb".toList.isSuffixOf (path.getLastD "").toList

def subdirectories (current : Path) (entries : List ListEntry) : List Path :=
  entries.filterMap fun
    | .directory path => if path = current then none else some path
    | .object _ => none

def recordFiles (entries : List ListEntry) : List Path :=
  entries.filterMap fun
    | .directory _ => none
    | .object path => if hasBinpbSuffix path then some path else none

def walkUnfinished : Err := errorf "directory walk was not finished"

section Walk

variable {Bytes : Type}

/-- The queue loop of `walkOpenDAL`. At most `fuel` directories are listed. -/
def walkLoop : Nat → List Path → List Path → BucketM Bytes (List Path)
  | _, [], files => pure files
  | 0, _ :: _, _ => throw walkUnfinished
  | fuel + 1, current :: queue, files => do
    match ← attempt (listDir current) with
    | .error err => if isOpenDALNotFound err then walkLoop fuel queue files else throw err
    | .ok listing =>
      match listing.failure with
      | some err => throw err
      | none =>
        walkLoop fuel (queue ++ subdirectories current listing.entries)
          (files ++ recordFiles listing.entries)

def walkOpenDAL (fuel : Nat) (root : Path) : BucketM Bytes (List Path) := do
  let files ← walkLoop fuel [root] []
  return files.insertionSort (render · ≤ render ·)

namespace Bucket

variable (b : Bucket Bytes)

def records : List Path := b.objects.keys.filter fun p => p ≠ [] ∧ hasBinpbSuffix p

def recordsBelow (dir : Path) : List Path := b.records.filter (dir <+: ·.dropLast)

def allDirectories : List Path := (b.locations.flatMap List.inits).dedup

/-- The number of directories a walk from `dir` lists. -/
def walkSize (dir : Path) : Nat := max 1 (b.allDirectories.filter (dir <+: ·)).length

end Bucket

variable {b : Bucket Bytes}

theorem mem_allDirectories : dir ∈ b.allDirectories ↔ ∃ p ∈ b.locations, dir <+: p := by
  simp only [Bucket.allDirectories, List.mem_dedup, List.mem_flatMap, List.mem_inits]

private theorem records_nodup : b.records.Nodup := b.objects.keys_nodup.filter _

private theorem mem_locations_of_record {p : Path} (h : p ∈ b.records) :
    p.dropLast ∈ b.locations := by
  have hkey : p ∈ b.objects.keys := List.mem_of_mem_filter h
  exact List.mem_append_right _ (List.mem_map_of_mem hkey)

theorem recordFiles_entries (dir : Path) :
    recordFiles (b.entries dir) = b.records.filter (·.dropLast = dir) := by
  have hdirs : ∀ names : List String, (names.map fun name =>
      ListEntry.directory (dir ++ [name])).filterMap (fun
        | .directory _ => none
        | .object path => if hasBinpbSuffix path then some path else none) = [] := by
    intro names
    induction names with
    | nil => rfl
    | cons name names ih => simp
  have hfiles : ∀ keys : List Path, ((keys.filter fun p => p ≠ [] ∧ p.dropLast = dir).map
      ListEntry.object).filterMap (fun
        | .directory _ => none
        | .object path => if hasBinpbSuffix path then some path else none) =
      (keys.filter fun p => p ≠ [] ∧ hasBinpbSuffix p).filter (·.dropLast = dir) := by
    intro keys
    rw [List.filterMap_map, List.filter_filter]
    induction keys with
    | nil => rfl
    | cons p keys ih =>
      by_cases hne : p = [] <;> by_cases hdrop : p.dropLast = dir <;>
        by_cases hsuf : hasBinpbSuffix p = true <;>
        simp_all
  simp only [recordFiles, Bucket.entries, List.cons_append, List.filterMap_cons,
    List.filterMap_append, hdirs, List.nil_append]
  exact hfiles _

theorem subdirectories_entries (dir : Path) :
    subdirectories dir (b.entries dir) =
      (childNames dir b.locations).map fun name => dir ++ [name] := by
  have hdirs : ∀ names : List String, (names.map fun name =>
      ListEntry.directory (dir ++ [name])).filterMap (fun
        | .directory path => if path = dir then none else some path
        | .object _ => none) = names.map fun name => dir ++ [name] := by
    intro names
    induction names with
    | nil => rfl
    | cons name names ih => simp
  have hfiles : ∀ files : List Path, (files.map ListEntry.object).filterMap (fun
        | .directory path => if path = dir then none else some path
        | .object _ => none) = ([] : List Path) := by
    intro files
    induction files with
    | nil => rfl
    | cons p files ih => simp
  simp only [subdirectories, Bucket.entries, List.cons_append, List.filterMap_cons,
    List.filterMap_append, hdirs, hfiles, List.append_nil, if_true]

theorem recordsBelow_perm (dir : Path) :
    (b.recordsBelow dir).Perm (b.records.filter (·.dropLast = dir) ++
      ((childNames dir b.locations).map fun name => dir ++ [name]).flatMap b.recordsBelow) := by
  rw [List.flatMap_map]
  refine below_perm dir List.dropLast records_nodup (nodup_childNames _ _) ?_
  intro p hp name hname
  exact mem_childNames.2 ⟨_, mem_locations_of_record hp, hname⟩

theorem walkSize_children (h : dir ∈ b.allDirectories) :
    1 + (((childNames dir b.locations).map fun name => dir ++ [name]).map b.walkSize).sum ≤
      b.walkSize dir := by
  have hnodup : b.allDirectories.Nodup := List.nodup_dedup _
  have hperm : (b.allDirectories.filter (dir <+: ·)).Perm (b.allDirectories.filter (· = dir) ++
      (childNames dir b.locations).flatMap fun name =>
        b.allDirectories.filter (dir ++ [name] <+: ·)) := by
    refine below_perm dir (fun p => p) hnodup (nodup_childNames dir b.locations) ?_
    intro p hp name hname
    obtain ⟨q, hq, hpq⟩ := mem_allDirectories.1 hp
    exact mem_childNames.2 ⟨q, hq, hname.trans hpq⟩
  have hself : 1 ≤ (b.allDirectories.filter (· = dir)).length := by
    apply List.length_pos_of_mem (a := dir)
    simpa using h
  have hchild : ∀ name ∈ childNames dir b.locations,
      b.walkSize (dir ++ [name]) = (b.allDirectories.filter (dir ++ [name] <+: ·)).length := by
    intro name hname
    obtain ⟨q, hq, hpq⟩ := mem_childNames.1 hname
    have hmem : dir ++ [name] ∈ b.allDirectories := mem_allDirectories.2 ⟨q, hq, hpq⟩
    apply max_eq_right
    apply List.length_pos_of_mem (a := dir ++ [name])
    simpa using hmem
  have hsum : ((childNames dir b.locations).map fun name => b.walkSize (dir ++ [name])).sum =
      ((childNames dir b.locations).flatMap fun name =>
        b.allDirectories.filter (dir ++ [name] <+: ·)).length := by
    rw [List.length_flatMap]
    exact congrArg List.sum (List.map_congr_left hchild)
  have hlength := hperm.length_eq
  rw [List.length_append] at hlength
  rw [List.map_map]
  have hle : (b.allDirectories.filter (dir <+: ·)).length ≤ b.walkSize dir := le_max_right _ _
  change 1 + ((childNames dir b.locations).map fun name => b.walkSize (dir ++ [name])).sum ≤ _
  omega

theorem exec_listDir (dir : Path) :
    (b.exec (listDir dir) = (.ok ⟨b.entries dir, none⟩, b) ∧ dir ∈ b.allDirectories) ∨
      (b.exec (listDir dir) = (.error (notFoundError dir), b) ∧ b.recordsBelow dir = []) := by
  by_cases hdir : b.locations.any (dir <+: ·) = true
  · left
    constructor
    · change Bucket.step b (.list dir) = _
      simp only [Bucket.step, hdir, if_true]
    · obtain ⟨p, hp, hpre⟩ := List.any_eq_true.1 hdir
      exact mem_allDirectories.2 ⟨p, hp, by simpa using hpre⟩
  · right
    constructor
    · change Bucket.step b (.list dir) = _
      simp only [Bucket.step, hdir]
      rfl
    · apply List.filter_eq_nil_iff.2
      intro p hp hpre
      exact hdir (List.any_eq_true.2 ⟨_, mem_locations_of_record hp, by simpa using hpre⟩)

/-- A walk that is not stopped finds exactly the record files below the queued directories, and
enough fuel does not stop it. -/
theorem exec_walkLoop (fuel : Nat) (queue files : List Path) :
    (b.exec (walkLoop fuel queue files) = (.error walkUnfinished, b) ∧
        fuel < (queue.map b.walkSize).sum) ∨
      ∃ found, b.exec (walkLoop fuel queue files) = (.ok found, b) ∧
        found.Perm (files ++ queue.flatMap b.recordsBelow) := by
  induction fuel generalizing queue files with
  | zero =>
    cases queue with
    | nil => exact Or.inr ⟨files, by simp [walkLoop], by simp⟩
    | cons dir queue =>
      have hpos : 1 ≤ b.walkSize dir := le_max_left _ _
      refine Or.inl ⟨by simp [walkLoop], ?_⟩
      simp only [List.map_cons, List.sum_cons]
      omega
  | succ fuel ih =>
    cases queue with
    | nil => exact Or.inr ⟨files, by simp [walkLoop], by simp⟩
    | cons dir queue =>
      have hpos : 1 ≤ b.walkSize dir := le_max_left _ _
      rcases exec_listDir (b := b) dir with ⟨hlist, hmem⟩ | ⟨hlist, hnone⟩
      · have hsize := walkSize_children hmem
        have hrun : b.exec (walkLoop (fuel + 1) (dir :: queue) files) =
            b.exec (walkLoop fuel
              (queue ++ (childNames dir b.locations).map fun name => dir ++ [name])
              (files ++ b.records.filter (·.dropLast = dir))) := by
          rw [walkLoop, exec_bind, exec_attempt, hlist]
          simp only [recordFiles_entries, subdirectories_entries]
        rw [hrun]
        rcases ih (queue ++ (childNames dir b.locations).map fun name => dir ++ [name])
          (files ++ b.records.filter (·.dropLast = dir)) with ⟨hstop, hfuel⟩ | ⟨found, hfound, hperm⟩
        · refine Or.inl ⟨hstop, ?_⟩
          rw [List.map_append, List.sum_append] at hfuel
          simp only [List.map_cons, List.sum_cons]
          omega
        · refine Or.inr ⟨found, hfound, hperm.trans ?_⟩
          rw [List.flatMap_cons, List.flatMap_append, List.append_assoc]
          refine List.Perm.append_left files ?_
          refine List.Perm.trans ?_
            ((recordsBelow_perm dir).symm.append_right (queue.flatMap b.recordsBelow))
          rw [List.append_assoc]
          exact List.Perm.append_left _ List.perm_append_comm
      · have hrun : b.exec (walkLoop (fuel + 1) (dir :: queue) files) =
            b.exec (walkLoop fuel queue files) := by
          rw [walkLoop, exec_bind, exec_attempt, hlist]
          simp
        rw [hrun]
        rcases ih queue files with ⟨hstop, hfuel⟩ | ⟨found, hfound, hperm⟩
        · refine Or.inl ⟨hstop, ?_⟩
          simp only [List.map_cons, List.sum_cons]
          omega
        · exact Or.inr ⟨found, hfound, by simpa [hnone] using hperm⟩

theorem readOnly_walkLoop (fuel : Nat) (queue files : List Path) :
    ReadOnly (walkLoop fuel queue files : BucketM Bytes (List Path)) := by
  induction fuel generalizing queue files with
  | zero => cases queue <;> grind [walkLoop]
  | succ fuel ih => cases queue <;> grind [walkLoop]

theorem readOnly_walkOpenDAL (fuel : Nat) (root : Path) :
    ReadOnly (walkOpenDAL fuel root : BucketM Bytes (List Path)) :=
  (readOnly_walkLoop fuel [root] []).bind fun _ => readOnly_pure _

theorem exec_walkOpenDAL (fuel : Nat) (root : Path) :
    (b.exec (walkOpenDAL fuel root) = (.error walkUnfinished, b) ∧ fuel < b.walkSize root) ∨
      ∃ found, b.exec (walkOpenDAL fuel root) = (.ok found, b) ∧
        found.Perm (b.recordsBelow root) := by
  rcases exec_walkLoop (b := b) fuel [root] [] with ⟨hstop, hfuel⟩ | ⟨found, hrun, hperm⟩
  · refine Or.inl ⟨?_, by simpa using hfuel⟩
    rw [walkOpenDAL, exec_bind_error b _ hstop]
  · refine Or.inr ⟨found.insertionSort (render · ≤ render ·), ?_, ?_⟩
    · rw [walkOpenDAL, exec_bind_ok b _ hrun]
      rfl
    · refine (List.perm_insertionSort _ found).trans ?_
      simpa using hperm

/-- The number of directories bounds the fuel that any walk needs. -/
def Bucket.walkFuel (b : Bucket Bytes) : Nat := b.allDirectories.length + 1

theorem Bucket.walkSize_le (b : Bucket Bytes) (root : Path) : b.walkSize root ≤ b.walkFuel := by
  have := List.length_filter_le (fun x => decide (root <+: x)) b.allDirectories
  simp only [Bucket.walkSize, Bucket.walkFuel]
  omega

theorem exec_walkOpenDAL_of_fuel {fuel : Nat} (hfuel : b.walkFuel ≤ fuel) (root : Path) :
    ∃ found, b.exec (walkOpenDAL fuel root) = (.ok found, b) ∧
      found.Perm (b.recordsBelow root) := by
  rcases exec_walkOpenDAL (b := b) fuel root with ⟨-, hlt⟩ | hfound
  · have hle := b.walkSize_le root
    omega
  · exact hfound

end Walk

end Temporaless
