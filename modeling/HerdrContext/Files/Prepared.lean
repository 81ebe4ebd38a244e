import HerdrContext.Files.ChangedFiles
import HerdrContext.Files.Load
import HerdrContext.Files.Model

/-! A status merge that was prepared on an old copy of the tree does what the
merge on the live tree does. -/
namespace HerdrContext.Files

open Library FilesTree

/-- What the model may be asked between taking a merge's input and completing
the merge. -/
inductive FilesModelOp where
  | applyDirectory (snapshot : DirectorySnapshot)
  | loadDirectory (directory : RelativePath)
  | replaceTree (tree : FilesTree)
  | select (path : RelativePath)
  | markStatusStale
  | requestRefresh
  | beginRefresh
  | cancelRefreshStart (generation : Nat)
  | completePreparedRefresh (result : PreparedRefreshResult)
  | completeRefresh (generation : Nat) (snapshot : Except VcsError VcsStatusSnapshot)

def FilesModelOp.apply (root : FilesRoot) (files : FilesModel) : FilesModelOp → FilesModel
  | .applyDirectory snapshot => files.applyDirectory snapshot
  | .loadDirectory directory =>
    match files.loadDirectory root directory with
    | .ok loaded => loaded
    | .error _ => files
  | .replaceTree tree => files.replaceTree tree
  | .select path => (files.select path).1
  | .markStatusStale => files.markStatusStale.1
  | .requestRefresh => files.requestRefresh
  | .beginRefresh => files.beginRefresh.1
  | .cancelRefreshStart generation => (files.cancelRefreshStart generation).1
  | .completePreparedRefresh result => (files.completePreparedRefresh result).1
  | .completeRefresh generation snapshot =>
    (files.completeRefresh root.symlinkMetadata generation snapshot).1

def runModelOps (root : FilesRoot) (files : FilesModel) (ops : List FilesModelOp) : FilesModel :=
  ops.foldl (FilesModelOp.apply root) files

/-- What completing a prepared result owes the model it is completed on: an
accepted result gives the tree the merge on the model's own tree gives, and a
refused one leaves the tree alone and is asked for again where the tree or the
request moved on. -/
structure Refines (lookup : RelativePath → Except IoErrorKind VisibleEntryKind)
    (files : FilesModel) (result : PreparedRefreshResult)
    (snapshot : Except VcsError VcsStatusSnapshot) : Prop where
  accepted : (files.completePreparedRefresh result).2 = true → ∃ merged, snapshot = .ok merged ∧
    (files.completePreparedRefresh result).1.tree =
      files.tree.mergeWorkspaceStatus lookup merged files.workspacePrefix
  refused : (files.completePreparedRefresh result).2 = false →
    (files.completePreparedRefresh result).1.tree = files.tree ∧
    (files.completePreparedRefresh result).1.treeRevision = files.treeRevision ∧
    (files.completePreparedRefresh result).1.statusIsStale = files.statusIsStale
  retried : files.refresh.running = some result.generation →
    result.generation ≠ files.refresh.requested ∨ result.treeRevision ≠ files.treeRevision →
    (files.completePreparedRefresh result).2 = false ∧
    (files.completePreparedRefresh result).1.beginRefresh.2.isSome = true

/-! ## The gate -/

namespace RefreshCoordinator

variable {refresh : RefreshCoordinator} {generation : Nat}

theorem finish_eq_true (h : (refresh.finish generation).2 = true) :
    refresh.running = some generation ∧ refresh.requested = generation ∧
      (refresh.finish generation).1.completed = generation := by
  unfold finish at h ⊢
  split at h
  next hrunning =>
    have hcurrent := of_decide_eq_true h
    rw [dif_pos hrunning]
    exact ⟨hrunning, hcurrent.symm, rfl⟩
  next => contradiction

theorem finish_of_running (h : refresh.running = some generation) :
    (refresh.finish generation).1.running = none ∧
    (refresh.finish generation).1.completed = generation ∧
    (refresh.finish generation).1.requested = refresh.requested ∧
    (refresh.finish generation).2 = decide (generation = refresh.requested) := by
  rw [finish, dif_pos h]
  exact ⟨rfl, rfl, rfl, rfl⟩

theorem requested_finish : (refresh.finish generation).1.requested = refresh.requested := by
  unfold finish
  split <;> rfl

theorem completed_finish : refresh.completed ≤ (refresh.finish generation).1.completed := by
  unfold finish
  split
  next h => exact (refresh.running_bounds generation h).1.le
  next => exact le_refl _

theorem startNext_isSome (hrunning : refresh.running = none)
    (hpending : refresh.completed < refresh.requested) : refresh.startNext.2.isSome = true := by
  have hstarts : ¬ (refresh.running.isSome ∨ refresh.requested ≤ refresh.completed) := by
    rw [hrunning]
    simp [hpending]
  rw [startNext, dif_neg hstarts]
  rfl

@[simp] theorem requested_startNext : refresh.startNext.1.requested = refresh.requested := by
  unfold startNext
  split <;> rfl

@[simp] theorem completed_startNext : refresh.startNext.1.completed = refresh.completed := by
  unfold startNext
  split <;> rfl

@[simp] theorem requested_cancelStart :
    (refresh.cancelStart generation).1.requested = refresh.requested := by
  unfold cancelStart
  split <;> rfl

@[simp] theorem completed_cancelStart :
    (refresh.cancelStart generation).1.completed = refresh.completed := by
  unfold cancelStart
  split <;> rfl

end RefreshCoordinator

/-! ## What a run keeps -/

/-- The tree is still the one the input was taken from, but for the selection;
or the revision moved on, or the generation was answered, or a newer one asked
for. -/
structure Retains (start : FilesModel) (generation : Nat) (files : FilesModel) : Prop where
  workspacePrefix_eq : files.workspacePrefix = start.workspacePrefix
  requested_le : generation ≤ files.refresh.requested
  revision_le : start.treeRevision ≤ files.treeRevision
  tree_or : files.tree = { start.tree with selection := files.tree.selection } ∨
    start.treeRevision < files.treeRevision ∨ generation ≤ files.refresh.completed ∨
    generation < files.refresh.requested

section
variable {root : FilesRoot} {start files after : FilesModel} {generation : Nat}

theorem Retains.refl (h : generation ≤ start.refresh.requested) : Retains start generation start :=
  ⟨rfl, h, le_refl _, Or.inl rfl⟩

/-- Nothing but the selection of the tree changes. -/
theorem Retains.kept (h : Retains start generation files)
    (hworkspace : after.workspacePrefix = files.workspacePrefix)
    (hrequested : files.refresh.requested ≤ after.refresh.requested)
    (hcompleted : files.refresh.completed ≤ after.refresh.completed)
    (hrevision : after.treeRevision = files.treeRevision)
    (htree : after.tree = { files.tree with selection := after.tree.selection }) :
    Retains start generation after where
  workspacePrefix_eq := hworkspace.trans h.workspacePrefix_eq
  requested_le := h.requested_le.trans hrequested
  revision_le := hrevision ▸ h.revision_le
  tree_or := by
    rw [hrevision]
    have hcases := h.tree_or
    by_cases hsame : files.tree = { start.tree with selection := files.tree.selection }
    · left
      rw [htree, hsame]
    · right
      have hother := hcases.resolve_left hsame
      omega

/-- The revision moves on. -/
theorem Retains.replaced (h : Retains start generation files)
    (hlimit : start.treeRevision < u64Max)
    (hworkspace : after.workspacePrefix = files.workspacePrefix)
    (hrequested : files.refresh.requested ≤ after.refresh.requested)
    (hrevision : after.treeRevision = Worker.WorkerRuntime.saturatingAdd files.treeRevision 1) :
    Retains start generation after := by
  have hmoved : start.treeRevision < after.treeRevision := by
    rw [hrevision]
    by_cases hmax : files.treeRevision < u64Max
    · exact h.revision_le.trans_lt (lt_saturatingAdd_one hmax)
    · have hgrows := le_saturatingAdd_one files.treeRevision_le
      omega
  exact ⟨hworkspace.trans h.workspacePrefix_eq, h.requested_le.trans hrequested, hmoved.le,
    Or.inr (Or.inl hmoved)⟩

theorem Retains.completePreparedRefresh (h : Retains start generation files)
    (result : PreparedRefreshResult) :
    Retains start generation (files.completePreparedRefresh result).1 := by
  have hcompleted : files.refresh.completed ≤
      (files.refresh.finish result.generation).1.completed := RefreshCoordinator.completed_finish
  have hrequested : (files.refresh.finish result.generation).1.requested =
      files.refresh.requested := RefreshCoordinator.requested_finish
  have hgrows := le_saturatingAdd_one
    (files.refresh.finish result.generation).1.requested_le
  cases hcurrent : (files.refresh.finish result.generation).2 with
  | false =>
    rw [FilesModel.completePreparedRefresh_superseded hcurrent]
    exact h.kept rfl hrequested.ge hcompleted rfl rfl
  | true =>
    by_cases hrevision : result.treeRevision = files.treeRevision
    · cases htree : result.tree with
      | error error =>
        rw [FilesModel.completePreparedRefresh_failed hcurrent hrevision htree]
        exact h.kept rfl hrequested.ge hcompleted rfl rfl
      | ok merged =>
        -- this result answers the newest generation asked for
        have ⟨_, hnewest, hanswered⟩ := RefreshCoordinator.finish_eq_true hcurrent
        rw [FilesModel.completePreparedRefresh_applied hcurrent hrevision htree]
        have hdone : generation ≤ (files.refresh.finish result.generation).1.completed := by
          rw [hanswered, ← hnewest]
          exact h.requested_le
        exact ⟨h.workspacePrefix_eq, hrequested.symm ▸ h.requested_le, h.revision_le,
          Or.inr (Or.inr (Or.inl hdone))⟩
    · rw [FilesModel.completePreparedRefresh_moved hcurrent hrevision]
      exact h.kept rfl (hrequested ▸ hgrows) hcompleted rfl rfl

theorem Retains.completeRefresh (h : Retains start generation files)
    (hlimit : start.treeRevision < u64Max)
    (lookup : RelativePath → Except IoErrorKind VisibleEntryKind) (finished : Nat)
    (snapshot : Except VcsError VcsStatusSnapshot) :
    Retains start generation (files.completeRefresh lookup finished snapshot).1 := by
  have hcompleted : files.refresh.completed ≤ (files.refresh.finish finished).1.completed :=
    RefreshCoordinator.completed_finish
  have hrequested : (files.refresh.finish finished).1.requested = files.refresh.requested :=
    RefreshCoordinator.requested_finish
  unfold FilesModel.completeRefresh
  dsimp only
  split
  next => exact h.kept rfl hrequested.ge hcompleted rfl rfl
  next =>
    cases snapshot with
    | error error => exact h.kept rfl hrequested.ge hcompleted rfl rfl
    | ok merged => exact h.replaced hlimit rfl hrequested.ge rfl

theorem Retains.apply (h : Retains start generation files) (hlimit : start.treeRevision < u64Max)
    (op : FilesModelOp) : Retains start generation (op.apply root files) := by
  cases op with
  | applyDirectory snapshot => exact h.replaced hlimit rfl (le_refl _) rfl
  | loadDirectory directory =>
    cases hload : files.tree.loadDirectory root directory with
    | error kind =>
      have hsame : FilesModelOp.apply root files (.loadDirectory directory) = files := by
        simp only [FilesModelOp.apply, FilesModel.loadDirectory, hload]
        rfl
      rw [hsame]
      exact h
    | ok loaded =>
      have hreplaced : FilesModelOp.apply root files (.loadDirectory directory) =
          files.replaceTree loaded := by
        simp only [FilesModelOp.apply, FilesModel.loadDirectory, hload]
        rfl
      rw [hreplaced]
      exact h.replaced hlimit rfl (le_refl _) rfl
  | replaceTree tree => exact h.replaced hlimit rfl (le_refl _) rfl
  | select path =>
    refine h.kept rfl (le_refl _) (le_refl _) rfl ?_
    simp only [FilesModelOp.apply, FilesModel.select, FilesTree.select]
    split <;> rfl
  | markStatusStale =>
    simp only [FilesModelOp.apply, FilesModel.markStatusStale]
    split
    next => exact h
    next => exact h.kept rfl (le_refl _) (le_refl _) rfl rfl
  | requestRefresh =>
    exact h.kept rfl (le_saturatingAdd_one files.refresh.requested_le) (le_refl _) rfl rfl
  | beginRefresh =>
    exact h.kept rfl RefreshCoordinator.requested_startNext.ge
      RefreshCoordinator.completed_startNext.ge rfl rfl
  | cancelRefreshStart cancelled =>
    exact h.kept rfl RefreshCoordinator.requested_cancelStart.ge
      RefreshCoordinator.completed_cancelStart.ge rfl rfl
  | completePreparedRefresh result => exact h.completePreparedRefresh result
  | completeRefresh finished snapshot => exact h.completeRefresh hlimit _ finished snapshot

theorem Retains.run (h : Retains start generation files) (hlimit : start.treeRevision < u64Max)
    (ops : List FilesModelOp) : Retains start generation (runModelOps root files ops) := by
  induction ops generalizing files with
  | nil => exact h
  | cons op ops ih => exact ih (h.apply hlimit op)

end

/-! ## The refinement -/

theorem restoreSelectionFrom_restoreSelection (tree : FilesTree) (selected : Option RelativePath) :
    tree.restoreSelection.restoreSelectionFrom selected = tree.restoreSelectionFrom selected := by
  unfold restoreSelection
  split
  next => rfl
  next => split <;> rfl

/-- A merge takes nothing but the selection it restores from the selection. -/
theorem mergeWorkspaceStatus_select
    (lookup : RelativePath → Except IoErrorKind VisibleEntryKind) (tree : FilesTree)
    (snapshot : VcsStatusSnapshot) (filesPrefix : RelativePath) (selected : Option RelativePath) :
    (tree.mergeWorkspaceStatus lookup snapshot filesPrefix).restoreSelectionFrom selected =
      { tree with selection := selected }.mergeWorkspaceStatus lookup snapshot filesPrefix :=
  restoreSelectionFrom_restoreSelection _ selected

section
variable {root : FilesRoot} {start files : FilesModel} {generation : Nat}
  {result : PreparedRefreshResult}

/-- Where the newest generation is running and the revision is the input's, only
the selection may have changed since. -/
theorem Retains.tree_eq (h : Retains start generation files)
    (hcurrent : (files.refresh.finish generation).2 = true)
    (hrevision : start.treeRevision = files.treeRevision) :
    files.tree = { start.tree with selection := files.tree.selection } := by
  have ⟨hrunning, hnewest, _⟩ := RefreshCoordinator.finish_eq_true hcurrent
  have hpending := (files.refresh.running_bounds _ hrunning).1
  have hcases := h.tree_or
  by_cases hkept : files.tree = { start.tree with selection := files.tree.selection }
  · exact hkept
  · have hother := hcases.resolve_left hkept
    omega

/-- A result that was refused because the request or the tree moved on is asked
for again. -/
theorem beginRefresh_of_refused (hrunning : files.refresh.running = some result.generation)
    (hmoved : result.generation ≠ files.refresh.requested ∨
      result.treeRevision ≠ files.treeRevision)
    (hlimit : files.refresh.requested < u64Max) :
    (files.completePreparedRefresh result).2 = false ∧
      (files.completePreparedRefresh result).1.beginRefresh.2.isSome = true := by
  have ⟨hreleased, hcompleted, hrequested, hflag⟩ :=
    RefreshCoordinator.finish_of_running hrunning
  have hbounds := files.refresh.running_bounds _ hrunning
  cases hcurrent : (files.refresh.finish result.generation).2 with
  | false =>
    rw [FilesModel.completePreparedRefresh_superseded hcurrent]
    rw [hflag] at hcurrent
    have hnewer := of_decide_eq_false hcurrent
    refine ⟨rfl, RefreshCoordinator.startNext_isSome hreleased ?_⟩
    rw [hcompleted, hrequested]
    omega
  | true =>
    rw [hflag] at hcurrent
    have hrevision := hmoved.resolve_left (not_not.mpr (of_decide_eq_true hcurrent))
    rw [← hflag] at hcurrent
    rw [FilesModel.completePreparedRefresh_moved hcurrent hrevision]
    refine ⟨rfl, RefreshCoordinator.startNext_isSome hreleased ?_⟩
    have hgrows := lt_saturatingAdd_one hlimit
    simp only [RefreshCoordinator.request, hcompleted, hrequested]
    omega

/-- Completing a result that was prepared while its generation was running, after
whatever came in between, gives what merging the same snapshot into the tree of
now would give, or leaves the tree as it is and asks again. -/
theorem prepared_refines (root : FilesRoot) (start : FilesModel) (ops : List FilesModelOp)
    (generation : Nat) (snapshot : Except VcsError VcsStatusSnapshot)
    (diffStats : Option VcsDiffStats) (hrunning : start.refresh.running = some generation)
    (hrevision : start.treeRevision < u64Max)
    (hrequested : (runModelOps root start ops).refresh.requested < u64Max) :
    Refines root.symlinkMetadata (runModelOps root start ops)
      (.prepare root.symlinkMetadata generation start.statusMergeInput snapshot diffStats)
      snapshot := by
  have hbounds := start.refresh.running_bounds generation hrunning
  have hretains : Retains start generation (runModelOps root start ops) :=
    (Retains.refl hbounds.2).run hrevision ops
  generalize runModelOps root start ops = files at hretains hrequested
  exact
    { accepted := by
        intro h
        have ⟨hcurrent, hsame, tree, stale, htree, hdone⟩ :=
          FilesModel.completePreparedRefresh_accepted h
        cases snapshot with
        | error error => contradiction
        | ok merged =>
          cases htree
          refine ⟨merged, rfl, ?_⟩
          rw [hdone, hretains.tree_eq hcurrent hsame, hretains.workspacePrefix_eq]
          exact mergeWorkspaceStatus_select _ _ _ _ _
      refused := FilesModel.completePreparedRefresh_refused
      retried := fun hstill hmoved => beginRefresh_of_refused hstill hmoved hrequested }

end

namespace Sample

def listing (names : List FileName) : DirectorySnapshot :=
  .ofEntries [] (names.map fun name => ⟨name, .file, false⟩)

/-- The first refresh is running over a tree that still shows `a`. -/
def refreshing : FilesModel :=
  ((FilesModel.new ⟨fun _ => true, false⟩ []).applyDirectory (listing [nameA])).requestRefresh.beginRefresh.1

def clean : VcsStatusSnapshot := ⟨[], false⟩

def gone : VcsStatusSnapshot := ⟨[deletion [nameA] .deleted nameA_ne_nil deleted_unmoved], false⟩

def prepared (files : FilesModel) (generation : Nat) (snapshot : VcsStatusSnapshot) :
    PreparedRefreshResult :=
  .prepare nothing.symlinkMetadata generation files.statusMergeInput (.ok snapshot) none

def lastRevision : FilesModel :=
  { refreshing with treeRevision := u64Max, treeRevision_le := le_refl _ }

def lastRequest : FilesModel :=
  { refreshing with
    refresh :=
      { requested := u64Max
        completed := 0
        running := some u64Max
        requested_le := le_refl _
        completed_le := Nat.zero_le _
        running_bounds := by
          rintro generation ⟨rfl⟩
          exact ⟨by decide, le_refl _⟩ } }

end Sample

open Sample in
theorem prepared_refines_sample :
    refreshing.refresh.running = some 1 ∧
    Refines nothing.symlinkMetadata
      (runModelOps nothing refreshing [.select [nameA], .applyDirectory (listing [])])
      (prepared refreshing 1 gone) (.ok gone) :=
  ⟨by decide, prepared_refines nothing refreshing _ 1 (.ok gone) none (by decide) (by decide)
    (by decide)⟩

open Sample in
/-- An input from before its generation was started may miss what an earlier
result made of the tree; at the last revision an edit is lost, and at the last
request nothing can be asked for again. -/
theorem prepared_misses :
    ¬ Refines nothing.symlinkMetadata
      (runModelOps nothing refreshing
        [.completePreparedRefresh (prepared refreshing 1 gone), .requestRefresh, .beginRefresh])
      (prepared refreshing 2 clean) (.ok clean) ∧
    ¬ Refines nothing.symlinkMetadata
      (runModelOps nothing lastRevision [.applyDirectory (listing [nameA, nameB])])
      (prepared lastRevision 1 clean) (.ok clean) ∧
    ¬ Refines nothing.symlinkMetadata
      (runModelOps nothing lastRequest [.applyDirectory (listing [nameA, nameB])])
      (prepared lastRequest u64Max clean) (.ok clean) := by
  refine ⟨fun h => ?_, fun h => ?_, fun h => ?_⟩
  · have ⟨merged, hmerged, htree⟩ := h.accepted (by decide +kernel)
    cases hmerged
    have hshown := congrArg (fun tree => (tree.nodes.get? [nameA]).isSome) htree
    revert hshown
    decide +kernel
  · have ⟨merged, hmerged, htree⟩ := h.accepted (by decide +kernel)
    cases hmerged
    have hshown := congrArg (fun tree => (tree.nodes.get? [nameB]).isSome) htree
    revert hshown
    decide +kernel
  · have hretried := (h.retried rfl (Or.inr (by decide +kernel))).2
    revert hretried
    decide +kernel

end HerdrContext.Files
