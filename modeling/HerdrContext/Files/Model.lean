import HerdrContext.Files.Tree
import HerdrContext.Worker.Runtime

/-! The files view's model: the tree, the gate its status refreshes pass and the
revision a refresh that was prepared beside it is checked against. -/
namespace HerdrContext.Files

open Library
open Worker.WorkerRuntime (saturatingAdd)

/-- `u64::MAX`, where the counters stop. -/
def u64Max : Nat := 2 ^ 64 - 1

theorem le_saturatingAdd_one {count : Nat} (h : count ≤ u64Max) : count ≤ saturatingAdd count 1 := by
  unfold saturatingAdd Worker.WorkerRuntime.usizeMax
  unfold u64Max at h
  omega

theorem lt_saturatingAdd_one {count : Nat} (h : count < u64Max) : count < saturatingAdd count 1 := by
  unfold saturatingAdd Worker.WorkerRuntime.usizeMax
  unfold u64Max at h
  omega

theorem saturatingAdd_one_le {count : Nat} : saturatingAdd count 1 ≤ u64Max := Nat.min_le_right _ _

inductive VcsErrorKind where
  | unavailable | permissionDenied | invalidData | commandFailed | io
  deriving DecidableEq, Repr

structure VcsError where
  kind : VcsErrorKind
  message : String
  deriving DecidableEq

structure VcsDiffStats where
  insertions : Nat
  deletions : Nat
  deriving DecidableEq

/-! ## The refresh gate -/

/-- Duplicate requests collapse to the newest generation. -/
structure RefreshCoordinator where
  requested : Nat
  completed : Nat
  running : Option Nat
  requested_le : requested ≤ u64Max
  completed_le : completed ≤ requested
  running_bounds : ∀ generation, running = some generation →
    completed < generation ∧ generation ≤ requested

namespace RefreshCoordinator

def new : RefreshCoordinator where
  requested := 0
  completed := 0
  running := none
  requested_le := Nat.zero_le _
  completed_le := le_refl _
  running_bounds := by simp

variable (refresh : RefreshCoordinator)

def request : RefreshCoordinator where
  requested := saturatingAdd refresh.requested 1
  completed := refresh.completed
  running := refresh.running
  requested_le := saturatingAdd_one_le
  completed_le := refresh.completed_le.trans (le_saturatingAdd_one refresh.requested_le)
  running_bounds := by
    intro generation h
    have hbounds := refresh.running_bounds generation h
    exact ⟨hbounds.1, hbounds.2.trans (le_saturatingAdd_one refresh.requested_le)⟩

/-- Nothing starts beside a running command. -/
def startNext : RefreshCoordinator × Option Nat :=
  if h : refresh.running.isSome ∨ refresh.requested ≤ refresh.completed then (refresh, none)
  else
    ({ refresh with
      running := some refresh.requested
      running_bounds := by
        rintro generation ⟨rfl⟩
        exact ⟨Nat.lt_of_not_le fun hle => h (Or.inr hle), le_refl _⟩ }, some refresh.requested)

def released : RefreshCoordinator := { refresh with running := none, running_bounds := by simp }

def cancelStart (generation : Nat) : RefreshCoordinator × Bool :=
  if refresh.running ≠ some generation then (refresh, false) else (refresh.released, true)

/-- The flag says whether the result is still the newest one asked for. -/
def finish (generation : Nat) : RefreshCoordinator × Bool :=
  if h : refresh.running = some generation then
    ({ refresh.released with
      completed := generation
      completed_le := (refresh.running_bounds generation h).2
      running_bounds := by simp [released] }, decide (generation = refresh.requested))
  else (refresh, false)

end RefreshCoordinator

/-! ## The model -/

structure FilesModel where
  tree : FilesTree
  refresh : RefreshCoordinator
  workspacePrefix : RelativePath
  failureNotice : Option String
  statusIsStale : Bool
  diffStats : Option VcsDiffStats
  treeRevision : Nat
  treeRevision_le : treeRevision ≤ u64Max

/-- What a status merge beside the model works on. -/
structure StatusMergeInput where
  tree : FilesTree
  workspacePrefix : RelativePath
  treeRevision : Nat

structure PreparedRefreshResult where
  generation : Nat
  treeRevision : Nat
  tree : Except VcsError (FilesTree × Bool)
  diffStats : Option VcsDiffStats

/-- `prepare`; the merge itself cannot fail. -/
def PreparedRefreshResult.prepare (lookup : RelativePath → Except IoErrorKind VisibleEntryKind)
    (generation : Nat) (input : StatusMergeInput) (snapshot : Except VcsError VcsStatusSnapshot)
    (diffStats : Option VcsDiffStats) : PreparedRefreshResult where
  generation
  treeRevision := input.treeRevision
  tree := snapshot.map fun merged =>
    (input.tree.mergeWorkspaceStatus lookup merged input.workspacePrefix, merged.stale)
  diffStats

namespace FilesModel

/-- `build`, under the policy its arguments make. -/
def new (loader : IgnorePolicy) (workspacePrefix : RelativePath) : FilesModel where
  tree := .empty loader
  refresh := .new
  workspacePrefix
  failureNotice := none
  statusIsStale := false
  diffStats := none
  treeRevision := 0
  treeRevision_le := Nat.zero_le _

variable (files : FilesModel)

/-- The tree changes and with it the revision. -/
def replaceTree (tree : FilesTree) : FilesModel :=
  { files with
    tree
    treeRevision := saturatingAdd files.treeRevision 1
    treeRevision_le := saturatingAdd_one_le }

def applyDirectory (snapshot : DirectorySnapshot) : FilesModel :=
  files.replaceTree (files.tree.applyDirectory snapshot)

def loadDirectory (root : FilesRoot) (directory : RelativePath) : Except IoErrorKind FilesModel := do
  let tree ← files.tree.loadDirectory root directory
  return files.replaceTree tree

def select (path : RelativePath) : FilesModel × Bool :=
  ({ files with tree := (files.tree.select path).1 }, (files.tree.select path).2)

def markStatusStale : FilesModel × Bool :=
  if files.statusIsStale then (files, false) else ({ files with statusIsStale := true }, true)

def requestRefresh : FilesModel := { files with refresh := files.refresh.request }

def beginRefresh : FilesModel × Option Nat :=
  ({ files with refresh := files.refresh.startNext.1 }, files.refresh.startNext.2)

def cancelRefreshStart (generation : Nat) : FilesModel × Bool :=
  ({ files with refresh := (files.refresh.cancelStart generation).1 },
    (files.refresh.cancelStart generation).2)

def statusMergeInput : StatusMergeInput where
  tree := files.tree
  workspacePrefix := files.workspacePrefix
  treeRevision := files.treeRevision

/-- A result for another revision of the tree is asked for again. -/
def completePreparedRefresh (result : PreparedRefreshResult) : FilesModel × Bool :=
  let finished := files.refresh.finish result.generation
  if finished.2 = false then ({ files with refresh := finished.1 }, false)
  else if result.treeRevision ≠ files.treeRevision then
    ({ files with refresh := finished.1.request }, false)
  else
    match result.tree with
    | .ok (tree, stale) =>
      ({ files with
        refresh := finished.1
        tree := tree.restoreSelectionFrom files.tree.selection
        failureNotice := none
        statusIsStale := stale
        diffStats := result.diffStats }, true)
    | .error error =>
      ({ files with refresh := finished.1, failureNotice := some error.message }, false)

/-- The merge on the live tree; it carries no diff statistics. -/
def completeRefresh (lookup : RelativePath → Except IoErrorKind VisibleEntryKind) (generation : Nat)
    (snapshot : Except VcsError VcsStatusSnapshot) : FilesModel × Bool :=
  let finished := files.refresh.finish generation
  if finished.2 = false then ({ files with refresh := finished.1 }, false)
  else
    match snapshot with
    | .ok merged =>
      ({ files.replaceTree
          (files.tree.mergeWorkspaceStatus lookup merged files.workspacePrefix) with
        refresh := finished.1
        failureNotice := none
        statusIsStale := merged.stale
        diffStats := none }, true)
    | .error error =>
      ({ files with refresh := finished.1, failureNotice := some error.message }, false)

section
variable {files} {result : PreparedRefreshResult}

theorem completePreparedRefresh_superseded
    (h : (files.refresh.finish result.generation).2 = false) :
    files.completePreparedRefresh result =
      ({ files with refresh := (files.refresh.finish result.generation).1 }, false) := by
  rw [completePreparedRefresh, if_pos h]

theorem completePreparedRefresh_moved (h : (files.refresh.finish result.generation).2 = true)
    (hrevision : result.treeRevision ≠ files.treeRevision) :
    files.completePreparedRefresh result =
      ({ files with refresh := (files.refresh.finish result.generation).1.request }, false) := by
  rw [completePreparedRefresh, if_neg (by rw [h]; simp), if_pos hrevision]

theorem completePreparedRefresh_failed (h : (files.refresh.finish result.generation).2 = true)
    (hrevision : result.treeRevision = files.treeRevision) {error : VcsError}
    (htree : result.tree = .error error) :
    files.completePreparedRefresh result =
      ({ files with
        refresh := (files.refresh.finish result.generation).1
        failureNotice := some error.message }, false) := by
  rw [completePreparedRefresh, if_neg (by rw [h]; simp), if_neg (not_not.mpr hrevision), htree]

theorem completePreparedRefresh_applied (h : (files.refresh.finish result.generation).2 = true)
    (hrevision : result.treeRevision = files.treeRevision) {tree : FilesTree} {stale : Bool}
    (htree : result.tree = .ok (tree, stale)) :
    files.completePreparedRefresh result =
      ({ files with
        refresh := (files.refresh.finish result.generation).1
        tree := tree.restoreSelectionFrom files.tree.selection
        failureNotice := none
        statusIsStale := stale
        diffStats := result.diffStats }, true) := by
  rw [completePreparedRefresh, if_neg (by rw [h]; simp), if_neg (not_not.mpr hrevision), htree]

/-- What an accepted result tells of the model and of itself. -/
theorem completePreparedRefresh_accepted (h : (files.completePreparedRefresh result).2 = true) :
    (files.refresh.finish result.generation).2 = true ∧
    result.treeRevision = files.treeRevision ∧
    ∃ tree stale, result.tree = .ok (tree, stale) ∧
      files.completePreparedRefresh result =
        ({ files with
          refresh := (files.refresh.finish result.generation).1
          tree := tree.restoreSelectionFrom files.tree.selection
          failureNotice := none
          statusIsStale := stale
          diffStats := result.diffStats }, true) := by
  cases hcurrent : (files.refresh.finish result.generation).2 with
  | false =>
    rw [completePreparedRefresh_superseded hcurrent] at h
    contradiction
  | true =>
    by_cases hrevision : result.treeRevision = files.treeRevision
    · cases htree : result.tree with
      | error error =>
        rw [completePreparedRefresh_failed hcurrent hrevision htree] at h
        contradiction
      | ok merged =>
        have happlied := completePreparedRefresh_applied hcurrent hrevision htree
        exact ⟨rfl, hrevision, merged.1, merged.2, rfl, happlied⟩
    · rw [completePreparedRefresh_moved hcurrent hrevision] at h
      contradiction

theorem completePreparedRefresh_refused (h : (files.completePreparedRefresh result).2 = false) :
    (files.completePreparedRefresh result).1.tree = files.tree ∧
    (files.completePreparedRefresh result).1.treeRevision = files.treeRevision ∧
    (files.completePreparedRefresh result).1.statusIsStale = files.statusIsStale := by
  cases hcurrent : (files.refresh.finish result.generation).2 with
  | false =>
    rw [completePreparedRefresh_superseded hcurrent]
    exact ⟨rfl, rfl, rfl⟩
  | true =>
    by_cases hrevision : result.treeRevision = files.treeRevision
    · cases htree : result.tree with
      | error error =>
        rw [completePreparedRefresh_failed hcurrent hrevision htree]
        exact ⟨rfl, rfl, rfl⟩
      | ok merged =>
        rw [completePreparedRefresh_applied hcurrent hrevision htree] at h
        contradiction
    · rw [completePreparedRefresh_moved hcurrent hrevision]
      exact ⟨rfl, rfl, rfl⟩

end

end FilesModel

end HerdrContext.Files
