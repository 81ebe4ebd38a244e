import HerdrContext.Files.Jobs
import HerdrContext.Files.Model
import Mathlib.Data.List.Destutter

/-! The directories a user wants open, those that are, and the loads in between. -/
namespace HerdrContext.Files

open Library
open Worker.WorkerRuntime (saturatingAdd)

/-- `BTreeSet<PathBuf>`. -/
abbrev PathSet := Std.ExtTreeSet RelativePath compare

section
variable {paths others : PathSet} {path other : RelativePath}

theorem PathSet.mem_insert : path ∈ paths.insert other ↔ path = other ∨ path ∈ paths := by
  rw [Std.ExtTreeSet.mem_insert, Std.LawfulEqCmp.compare_eq_iff_eq, eq_comm]

theorem PathSet.mem_erase : path ∈ paths.erase other ↔ path ≠ other ∧ path ∈ paths := by
  rw [Std.ExtTreeSet.mem_erase, ne_eq, Std.LawfulEqCmp.compare_eq_iff_eq, eq_comm]

theorem PathSet.mem_filter {p : RelativePath → Bool} :
    path ∈ paths.filter p ↔ path ∈ paths ∧ p path = true := by
  rw [Std.ExtTreeSet.mem_filter]
  simp only [Std.ExtTreeSet.get_eq, exists_prop]

end

inductive FilesystemNotice where
  | queueUnavailable
  | vcsQueueUnavailable
  | cannotLoad (directory : RelativePath) (error : IoErrorKind)
  | stoppedRetrying
  | stoppedUnexpectedly
  | vcsStoppedUnexpectedly
  deriving DecidableEq

/-- What the task of a load is given. -/
structure FilesystemJob where
  expansions : PathSet
  directories : List RelativePath
  loader : IgnorePolicy

/-- A `DirectoryLoadResult` for each directory. The disk may change while the
task runs, so every load sees its own. -/
def FilesystemJob.run (job : FilesystemJob) (disk : RelativePath → FilesRoot) :
    List (RelativePath × Except IoErrorKind DirectorySnapshot) :=
  job.directories.map fun directory => (directory, job.loader.load (disk directory) directory)

/-- The `filesystem_*` fields of the runtime with the sets that go with them. -/
structure FilesystemState where
  expanded : PathSet
  desiredExpanded : PathSet
  pendingExpansions : PathSet
  generation : Nat
  appliedGeneration : Nat
  running : Option Nat
  expansionsRunning : PathSet
  reloadRunning : Bool
  reloadPending : Bool
  panicRetried : Bool
  notice : Option FilesystemNotice
  jobs : JobSlot FilesystemJob

namespace FilesystemState

def new (room : Nat → Bool) : FilesystemState where
  expanded := ∅
  desiredExpanded := ∅
  pendingExpansions := ∅
  generation := 0
  appliedGeneration := 0
  running := none
  expansionsRunning := ∅
  reloadRunning := false
  reloadPending := false
  panicRetried := false
  notice := none
  jobs := .new room

variable (fs : FilesystemState)

def invalidate : FilesystemState := { fs with generation := saturatingAdd fs.generation 1 }

/-- A directory is closed, or no longer wanted open. -/
def collapse (path : RelativePath) : FilesystemState :=
  { if fs.running.isSome then fs.invalidate else fs with
    desiredExpanded := fs.desiredExpanded.erase path
    pendingExpansions := fs.pendingExpansions.erase path
    expanded := fs.expanded.erase path }

def desire (path : RelativePath) : FilesystemState :=
  { fs.invalidate with
    desiredExpanded := fs.desiredExpanded.insert path
    pendingExpansions := fs.pendingExpansions.insert path }

def reload : FilesystemState := { fs.invalidate with reloadPending := true }

/-- Parents come before what is below them. -/
def loadsBefore (left right : RelativePath) : Prop :=
  left.length < right.length ∨ left.length = right.length ∧ (compare left right).isLE

instance : DecidableRel loadsBefore := fun _ _ => by
  unfold loadsBefore
  infer_instance

/-- The directories the next load reads. -/
def directories : List RelativePath :=
  (((if fs.reloadPending then [] :: fs.expanded.toList else []) ++
    fs.pendingExpansions.toList).insertionSort loadsBefore).destutter (· ≠ ·)

/-- `start_next_filesystem` while the background is active. A refused job's
part is put back. -/
def startNext (loader : IgnorePolicy) : FilesystemState :=
  if fs.running.isSome then fs
  else if fs.directories = [] then { fs with reloadPending := false, pendingExpansions := ∅ }
  else
    let submitted := fs.jobs.submit fs.generation ⟨fs.pendingExpansions, fs.directories, loader⟩
    if submitted.2 then
      { fs with
        reloadPending := false
        pendingExpansions := ∅
        running := some fs.generation
        reloadRunning := fs.reloadPending
        expansionsRunning := fs.pendingExpansions
        jobs := submitted.1 }
    else { fs with jobs := submitted.1, notice := some .queueUnavailable }

/-- The load under way is over without an effect, and what of it is still
wanted waits again. -/
def requeue (expansions : PathSet) : FilesystemState :=
  { fs with
    running := none
    reloadRunning := false
    expansionsRunning := ∅
    reloadPending := fs.reloadPending || fs.reloadRunning
    pendingExpansions :=
      fs.pendingExpansions ∪ expansions.filter fun path => fs.desiredExpanded.contains path }

/-- The result of a superseded generation. -/
def superseded (expansions : PathSet) : FilesystemState :=
  let requeued := fs.requeue expansions
  if !requeued.reloadPending && requeued.pendingExpansions.isEmpty then
    { requeued with appliedGeneration := requeued.generation }
  else requeued

/-- The result of the current generation is taken. -/
def accept (generation : Nat) : FilesystemState :=
  { fs with
    running := none
    reloadRunning := false
    expansionsRunning := ∅
    panicRetried := false
    appliedGeneration := generation }

/-- What becomes of one expansion whose directory was or was not loaded. -/
def settle (loaded : RelativePath → Bool) (path : RelativePath) : FilesystemState :=
  if fs.desiredExpanded.contains path && loaded path then
    { fs with expanded := fs.expanded.insert path }
  else if !loaded path then { fs with desiredExpanded := fs.desiredExpanded.erase path }
  else fs

def settleAll (loaded : RelativePath → Bool) (expansions : PathSet) : FilesystemState :=
  expansions.toList.foldl (fun fs path => fs.settle loaded path) fs

/-- What `rebuild_visible_rows` keeps of the two sets. -/
def retain (isDirectory : RelativePath → Bool) : FilesystemState :=
  { fs with
    expanded := fs.expanded.filter isDirectory
    desiredExpanded := fs.desiredExpanded.filter isDirectory }

/-- A panicked load is tried once more; the second time what it was to load is
given up. -/
def stopped : FilesystemState :=
  let requeued := (fs.requeue fs.expansionsRunning).invalidate
  if !requeued.panicRetried && (requeued.reloadPending || !requeued.pendingExpansions.isEmpty) then
    { requeued with panicRetried := true, notice := some .stoppedRetrying }
  else
    { requeued with
      reloadPending := false
      pendingExpansions := ∅
      appliedGeneration := requeued.generation
      notice := some .stoppedUnexpectedly }

end FilesystemState

end HerdrContext.Files
