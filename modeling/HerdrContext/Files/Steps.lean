import HerdrContext.Files.ExpansionLaw
import HerdrContext.Files.Runtime

/-! What a call of the files surface can do: the end of a job lands, and around
it only a few kinds of change are made. -/
namespace HerdrContext.Files

open Library
open Worker.WorkerRuntime (saturatingAdd)

namespace FilesRuntime

/-- The state in which the end of a job, or the one change of an intent that
rebuilds the tree, has landed; what follows it only moves the rest. -/
def landed (runtime : FilesRuntime) : FilesEvent → FilesRuntime
  | .intent .toggleIgnoredFiles =>
    let old := runtime.model.tree
    { runtime with
      showIgnored := !runtime.showIgnored
      model := runtime.model.replaceTree
        (((old.withShowIgnored !runtime.showIgnored).syncStatusOverlayFrom old).restoreSelectionFrom
          old.selection) }
  | .pauseBackground => runtime.pauseBackground
  | .filesystemDone disk =>
    match runtime.filesystem.jobs.newest with
    | none => runtime
    | some (generation, job) =>
      let ended := { runtime with filesystem.jobs := runtime.filesystem.jobs.ended }
      if runtime.filesystem.running ≠ some generation then
        { ended with filesystem.expansionsRunning := ∅ }
      else if generation ≠ runtime.filesystem.generation then
        { ended with filesystem := ended.filesystem.superseded job.expansions }
      else
        let progress := applyLoads runtime.model (job.run disk)
        let settled := (ended.filesystem.accept generation).settleAll
          (fun path => progress.loaded.contains path && progress.files.tree.isDirectory path)
          job.expansions
        let applied := { ended with
          model := progress.files
          filesystem := { settled with notice := progress.notice } }
        if progress.changed && runtime.filesystem.reloadRunning then applied.restartSearchScan
        else applied
  | .filesystemPanicked =>
    match runtime.filesystem.jobs.newest with
    | none => runtime
    | some _ =>
      let ended := { runtime with filesystem.jobs := runtime.filesystem.jobs.ended }
      if runtime.filesystem.running.isSome then
        { ended with filesystem := ended.filesystem.stopped }
      else ended
  | .vcsDone lookup snapshot diffStats =>
    match runtime.vcsJobs.newest with
    | none => runtime
    | some (generation, input) =>
      let completed := runtime.model.completePreparedRefresh
        (.prepare lookup generation input snapshot diffStats)
      { runtime with
        vcsJobs := runtime.vcsJobs.ended
        model := completed.1
        search :=
          if completed.2 then runtime.search.map fun search => search.syncStatusFrom completed.1.tree
          else runtime.search }
  | .pageDone disk flags =>
    match runtime.pages.newest, runtime.search with
    | some (generation, job), some search =>
      let page := pageResult runtime.pages job disk flags
      { runtime with
        pages := runtime.pages.ended
        search := some <|
          if search.running ≠ some (generation, job.epoch) then search
          else if job.epoch ≠ search.scanEpoch then search.pageEnded
          else if page.cancelled then search.requeuePage
          else search.pageEnded.applyPage page }
    | some _, none => { runtime with pages := runtime.pages.ended }
    | none, _ => runtime
  | .pagePanicked =>
    match runtime.pages.newest, runtime.search with
    | some (generation, _), some search =>
      { runtime with
        pages := runtime.pages.ended
        search := some <|
          match search.running with
          | none => search
          | some running =>
            if running.1 = generation then
              { search.pageEnded with complete := search.complete || running.2 = search.scanEpoch }
            else search }
    | some _, none => { runtime with pages := runtime.pages.ended }
    | none, _ => runtime
  | _ => runtime

/-- Changes of what is shown and selected, requests, starts of jobs and edits of
the query, in any number, and a first search where one may begin. -/
inductive Moves (begins : Prop) (runtime : FilesRuntime) : FilesRuntime → Prop where
  | refl : Moves begins runtime runtime
  | view {r : FilesRuntime} (before : Moves begins runtime r) (backgroundActive : Bool)
    (vcs : Option VcsRefresh) (visibleRows : List RelativePath) (focusedPane : FilesPane)
    (changedSelected : Option RelativePath)
    (statusSeen searchPageNotice searchProjectionNotice : Bool)
    (vcsJobs : JobSlot StatusMergeInput) (projections : JobSlot Unit) :
    Moves begins runtime { r with
      backgroundActive, vcs, visibleRows, focusedPane, changedSelected, statusSeen,
      searchPageNotice, searchProjectionNotice, vcsJobs, projections }
  | model {r : FilesRuntime} (before : Moves begins runtime r) {model : FilesModel}
    (tree_eq : model.tree = r.model.tree) : Moves begins runtime { r with model }
  | select {r : FilesRuntime} (before : Moves begins runtime r) (path : RelativePath) :
    Moves begins runtime { r with model := (r.model.select path).1 }
  | filesystem {r : FilesRuntime} (before : Moves begins runtime r) {filesystem : FilesystemState}
    (quiet : r.filesystem.Quiet filesystem) : Moves begins runtime { r with filesystem }
  | edit {r : FilesRuntime} (before : Moves begins runtime r) {search : FileSearchState}
    (exists_search : r.search = some search) (editing : Bool) (query : String)
    (matchedPaths : PathSet) (projectionCancel : Bool)
    (projectionRequested projectionSubmitted projectionApplied : Nat) :
    Moves begins runtime { r with search := some { search with
      editing, query, matchedPaths, projectionCancel, projectionRequested, projectionSubmitted,
      projectionApplied } }
  | selectIndexed {r : FilesRuntime} (before : Moves begins runtime r) {search : FileSearchState}
    (exists_search : r.search = some search) (path : RelativePath) :
    Moves begins runtime { r with search := some { search with index := (search.index.select path).1 } }
  | begin {r : FilesRuntime} (before : Moves begins runtime r) (allowed : begins)
    (no_search : r.search = none) :
    Moves begins runtime { r with search := some (.new ((r.model.tree.withShowIgnored
      (r.showIgnored || r.searchIgnored)).searchIndex maxIndexEntries)) }
  | page {r : FilesRuntime} (before : Moves begins runtime r) {search : FileSearchState}
    (exists_search : r.search = some search) :
    Moves begins runtime { r with
      search := some (search.startNextPage r.pages).1
      pages := (search.startNextPage r.pages).2.1 }

variable {begins : Prop}

theorem Moves.trans {r r' r'' : FilesRuntime} (first : Moves begins r r')
    (second : Moves begins r' r'') : Moves begins r r'' := by
  induction second with
  | refl => exact first
  | view _ _ _ _ _ _ _ _ _ _ _ ih => exact ih.view _ _ _ _ _ _ _ _ _ _
  | model _ tree_eq ih => exact ih.model tree_eq
  | select _ path ih => exact ih.select path
  | filesystem _ quiet ih => exact ih.filesystem quiet
  | edit _ exists_search _ _ _ _ _ _ _ ih => exact ih.edit exists_search _ _ _ _ _ _ _
  | selectIndexed _ exists_search path ih => exact ih.selectIndexed exists_search path
  | begin _ allowed no_search ih => exact ih.begin allowed no_search
  | page _ exists_search ih => exact ih.page exists_search

variable (runtime : FilesRuntime)

/-! ## Starts -/

theorem moves_startNextFilesystem : Moves begins runtime runtime.startNextFilesystem := by
  unfold startNextFilesystem
  split
  next => exact Moves.refl.filesystem (.startNext .refl _)
  next => exact .refl

theorem tree_startNextVcs (files : FilesModel) (generation : Nat) :
    files.beginRefresh.1.tree = files.tree ∧
      (files.beginRefresh.1.cancelRefreshStart generation).1.tree = files.tree := ⟨rfl, rfl⟩

theorem moves_startNextVcsRefresh : Moves begins runtime runtime.startNextVcsRefresh := by
  unfold startNextVcsRefresh
  split
  next =>
    split
    next => exact .refl
    next started generation hbegin =>
      have htree : started.tree = runtime.model.tree := by
        rw [← (tree_startNextVcs runtime.model generation).1, hbegin]
      split
      next =>
        apply Moves.model .refl
        exact htree
      next =>
        simp only
        split
        next =>
          have hmodel : Moves begins runtime { runtime with model := started } := Moves.model .refl htree
          exact hmodel.view _ _ _ _ _ _ _ _ _ _
        next =>
          have hmodel : Moves begins runtime
              { runtime with model := (started.cancelRefreshStart generation).1 } :=
            Moves.model .refl htree
          exact (hmodel.view _ _ _ _ _ _ _ _ _ _).filesystem (.notify .refl _)
  next => exact .refl

theorem moves_startNextSearchPage : Moves begins runtime runtime.startNextSearchPage := by
  unfold startNextSearchPage
  split
  next => exact .refl
  next search hsearch =>
    split
    next => exact (Moves.refl.page hsearch).view _ _ _ _ _ _ _ _ _ _
    next => exact .refl

theorem moves_startNextSearchProjection : Moves begins runtime runtime.startNextSearchProjection := by
  unfold startNextSearchProjection
  split
  next => exact .refl
  next search hsearch =>
    split
    next => exact .refl
    next =>
      simp only
      split
      next => exact (Moves.refl.edit hsearch _ _ _ _ _ _ _).view _ _ _ _ _ _ _ _ _ _
      next => exact Moves.refl.view _ _ _ _ _ _ _ _ _ _

theorem moves_retryPending : Moves begins runtime runtime.retryPending :=
  (moves_startNextFilesystem runtime).trans <|
    (moves_startNextVcsRefresh _).trans <|
      (moves_startNextSearchPage _).trans (moves_startNextSearchProjection _)

/-! ## Rows and selection -/

theorem moves_restoreVisibleSelection : Moves begins runtime runtime.restoreVisibleSelection := by
  unfold restoreVisibleSelection
  split
  next => exact .refl
  next selected _ =>
    split
    next => exact .refl
    next =>
      simp only
      split
      next => exact .refl
      next path _ => exact Moves.refl.select path

theorem moves_rebuildVisibleRows : Moves begins runtime runtime.rebuildVisibleRows := by
  unfold rebuildVisibleRows
  split
  next => exact .refl
  next =>
    have hpruned : Moves begins runtime { runtime with
        filesystem := runtime.filesystem.retain runtime.model.tree.isDirectory } :=
      Moves.filesystem .refl (.retain .refl _)
    exact (hpruned.view _ _ _ _ _ _ _ _ _ _).trans (moves_restoreVisibleSelection _)

theorem moves_selectPath (path : RelativePath) : Moves begins runtime (runtime.selectPath path) := by
  unfold selectPath
  split
  next search hsearch =>
    split
    next => exact Moves.refl.selectIndexed hsearch path
    next => exact Moves.refl.select path
  next => exact Moves.refl.select path

theorem moves_selectNavigableIndex (index : Nat) :
    Moves begins runtime (runtime.selectNavigableIndex index) := by
  unfold selectNavigableIndex
  split
  next => exact .refl
  next path _ => exact moves_selectPath runtime path

theorem moves_moveSelection (delta : Int) : Moves begins runtime (runtime.moveSelection delta) := by
  unfold moveSelection
  split <;> exact moves_selectNavigableIndex runtime _

theorem moves_selectChangedIndex (index : Nat) : Moves begins runtime (runtime.selectChangedIndex index) := by
  unfold selectChangedIndex
  split
  next => exact .refl
  next => exact Moves.refl.view _ _ _ _ _ _ _ _ _ _

theorem moves_moveFocusedSelection (delta : Int) :
    Moves begins runtime (runtime.moveFocusedSelection delta) := by
  unfold moveFocusedSelection moveChangedSelection
  split
  next => exact moves_moveSelection runtime delta
  next =>
    simp only
    split <;> exact moves_selectChangedIndex runtime _

theorem moves_selectFocusedIndex (index : Nat) : Moves begins runtime (runtime.selectFocusedIndex index) := by
  unfold selectFocusedIndex
  split
  next => exact moves_selectNavigableIndex runtime index
  next => exact moves_selectChangedIndex runtime index

theorem moves_selectFocusedLast : Moves begins runtime runtime.selectFocusedLast := by
  unfold selectFocusedLast
  split
  next => exact moves_selectNavigableIndex runtime _
  next => exact moves_selectChangedIndex runtime _

theorem moves_restoreChangedSelection : Moves begins runtime runtime.restoreChangedSelection :=
  Moves.refl.view _ _ _ _ _ _ _ _ _ _

/-! ## Requests -/

theorem moves_requestVcsRefresh : Moves begins runtime runtime.requestVcsRefresh := by
  unfold requestVcsRefresh
  split
  next => exact .refl
  next =>
    have hrequested : Moves begins runtime { runtime with model := runtime.model.requestRefresh } :=
      Moves.model .refl rfl
    exact hrequested.trans (moves_startNextVcsRefresh _)

theorem moves_requestReload : Moves begins runtime runtime.requestReload := by
  have hrequested : Moves begins runtime { runtime with filesystem := runtime.filesystem.reload } :=
    Moves.filesystem .refl (.reload .refl)
  exact (hrequested.trans (moves_startNextFilesystem _)).trans (moves_requestVcsRefresh _)

theorem moves_requestExpansion (path : RelativePath) :
    Moves begins runtime (runtime.requestExpansion path) := by
  unfold requestExpansion
  split
  next =>
    split
    next => exact .refl
    next hfresh =>
      have hdesired : Moves begins runtime { runtime with filesystem := runtime.filesystem.desire path } :=
        Moves.filesystem .refl (.desire .refl hfresh)
      exact hdesired.trans (moves_startNextFilesystem _)
  next => exact .refl

theorem moves_startBackground : Moves begins runtime runtime.startBackground := by
  have hactive : Moves begins runtime { runtime with backgroundActive := true } :=
    Moves.refl.view _ _ _ _ _ _ _ _ _ _
  exact (hactive.trans (moves_requestReload _)).trans (moves_retryPending _)

theorem moves_setJujutsuMode (mode : JujutsuMode) : Moves begins runtime (runtime.setJujutsuMode mode) := by
  unfold setJujutsuMode
  split
  next current hvcs =>
    split
    next => exact .refl
    next =>
      have hstale : Moves begins runtime { runtime with
          model := if mode = .passive then runtime.model.markStatusStale.1 else runtime.model } := by
        apply Moves.model .refl
        split
        next =>
          unfold FilesModel.markStatusStale
          split <;> rfl
        next => rfl
      exact (hstale.view _ _ _ _ _ _ _ _ _ _).trans (moves_requestVcsRefresh _)
  next => exact .refl

/-! ## Expansion and pointer -/

theorem moves_collapse (path : RelativePath) : Moves begins runtime (runtime.collapse path) := by
  have hcollapsed : Moves begins runtime
      { runtime with filesystem := runtime.filesystem.collapse path } :=
    Moves.filesystem .refl (.collapse .refl path)
  unfold collapse
  simp only
  split
  next => exact hcollapsed.trans (moves_rebuildVisibleRows _)
  next => exact hcollapsed

theorem moves_expandOrDescend : Moves begins runtime runtime.expandOrDescend := by
  unfold expandOrDescend
  split
  next => exact .refl
  next path _ =>
    split
    next =>
      split
      next => exact .refl
      next child _ => exact Moves.refl.select child.path
    next => exact moves_requestExpansion runtime path

theorem moves_toggleSelected : Moves begins runtime runtime.toggleSelected := by
  unfold toggleSelected
  split
  next => exact .refl
  next path _ =>
    split
    next => exact moves_collapse runtime path
    next => exact moves_requestExpansion runtime path

theorem moves_collapseOrAscend : Moves begins runtime runtime.collapseOrAscend := by
  unfold collapseOrAscend
  split
  next => exact .refl
  next path _ =>
    split
    next => exact moves_collapse runtime path
    next =>
      split
      next => exact .refl
      next parent _ => exact Moves.refl.select parent

theorem moves_selectViewportRow (target : PointerTarget) :
    Moves begins runtime (runtime.selectViewportRow target) := by
  have hfocused : ∀ pane, Moves begins runtime { runtime with focusedPane := pane } :=
    fun _ => Moves.refl.view _ _ _ _ _ _ _ _ _ _
  unfold selectViewportRow
  split
  next =>
    split
    next => exact (hfocused .changed).trans (moves_selectChangedIndex _ _)
    next => exact .refl
  next =>
    split
    next => exact .refl
    next =>
      split
      next => exact (hfocused .tree).trans (moves_selectPath _ _)
      next => exact .refl

theorem moves_toggleViewportRow (target : PointerTarget) :
    Moves begins runtime (runtime.toggleViewportRow target) := by
  unfold toggleViewportRow
  split
  next => exact .refl
  next =>
    split
    next => exact .refl
    next path _ =>
      split
      next => exact (moves_selectPath runtime path).trans (moves_toggleSelected _)
      next => exact .refl

/-! ## Search -/

theorem moves_queueSearchProjection (clearRows : Bool) :
    Moves begins runtime (runtime.queueSearchProjection clearRows) := by
  unfold queueSearchProjection
  split
  next => exact .refl
  next search hsearch =>
    split
    next =>
      exact ((Moves.refl.edit hsearch _ _ _ _ _ _ _).view _ _ _ _ _ _ _ _ _ _).trans
        (moves_startNextSearchProjection _)
    next => exact .refl

theorem moves_clearSearchProjection : Moves begins runtime runtime.clearSearchProjection := by
  unfold clearSearchProjection
  split
  next => exact .refl
  next search hsearch =>
    exact (Moves.refl.edit hsearch _ _ _ _ _ _ _).view _ _ _ _ _ _ _ _ _ _

theorem moves_clearSearchQuery (keepEditing : Bool) :
    Moves begins runtime (runtime.clearSearchQuery keepEditing) := by
  unfold clearSearchQuery
  split
  next => exact .refl
  next search hsearch =>
    have hcleared : Moves begins runtime { runtime with
        search := some { search with query := "", editing := keepEditing } } :=
      Moves.refl.edit hsearch _ _ _ _ _ _ _
    simp only
    split
    next =>
      exact (hcleared.trans (moves_clearSearchProjection _)).trans (moves_rebuildVisibleRows _)
    next => exact hcleared

theorem moves_beginSearch (allowed : begins) : Moves begins runtime runtime.beginSearch := by
  have hview : Moves begins runtime { runtime with
      focusedPane := .tree, searchPageNotice := false, searchProjectionNotice := false } :=
    Moves.refl.view _ _ _ _ _ _ _ _ _ _
  unfold beginSearch
  refine Moves.trans ?_ (moves_startNextSearchPage _)
  split
  next search hsearch => exact hview.edit hsearch _ _ _ _ _ _ _
  next hnone => exact hview.begin allowed hnone

theorem moves_appendSearchQuery (value : String) :
    Moves begins runtime (runtime.appendSearchQuery value) := by
  unfold appendSearchQuery
  split
  next => exact .refl
  next search hsearch =>
    simp only
    split
    next => exact .refl
    next =>
      exact ((Moves.refl.edit hsearch _ _ _ _ _ _ _).trans (moves_queueSearchProjection _ true)).trans
        (moves_startNextSearchPage _)

theorem moves_backspaceSearchQuery : Moves begins runtime runtime.backspaceSearchQuery := by
  unfold backspaceSearchQuery
  split
  next => exact .refl
  next search hsearch =>
    split
    next => exact .refl
    next =>
      simp only
      split
      next =>
        exact ((Moves.refl.edit hsearch _ _ _ _ _ _ _).trans (moves_clearSearchProjection _)).trans
          (moves_rebuildVisibleRows _)
      next =>
        exact (Moves.refl.edit hsearch _ _ _ _ _ _ _).trans (moves_queueSearchProjection _ true)

theorem moves_finishSearchEditing : Moves begins runtime runtime.finishSearchEditing := by
  unfold finishSearchEditing
  cases hsearch : runtime.search with
  | none =>
    have hsame : { runtime with search := (none : Option FileSearchState) } = runtime := by
      rw [← hsearch]
    exact hsame ▸ .refl
  | some search => exact Moves.refl.edit hsearch _ _ _ _ _ _ _

theorem moves_togglePaneFocus (changedShown : Bool) :
    Moves begins runtime (runtime.togglePaneFocus changedShown) := by
  unfold togglePaneFocus
  split
  next => exact .refl
  next => exact Moves.refl.view _ _ _ _ _ _ _ _ _ _

theorem moves_toggleIgnoredFiles :
    Moves begins (runtime.landed (.intent .toggleIgnoredFiles)) runtime.toggleIgnoredFiles :=
  (moves_clearSearchQuery _ false).trans (moves_requestReload _)

theorem moves_handleIntent (intent : FilesIntent) (allowed : intent = .beginFileSearch → begins) :
    Moves begins (runtime.landed (.intent intent)) (runtime.handleIntent intent) := by
  cases intent with
  | toggleIgnoredFiles => exact moves_toggleIgnoredFiles runtime
  | selectPrevious => exact moves_moveFocusedSelection runtime _
  | selectNext => exact moves_moveFocusedSelection runtime _
  | selectFirst => exact moves_selectFocusedIndex runtime _
  | selectLast => exact moves_selectFocusedLast runtime
  | expandOrDescend => exact moves_expandOrDescend runtime
  | collapseOrAscend => exact moves_collapseOrAscend runtime
  | toggleSelected => exact moves_toggleSelected runtime
  | refresh => exact moves_requestReload runtime
  | switchFilesPane changedShown => exact moves_togglePaneFocus runtime changedShown
  | beginFileSearch => exact moves_beginSearch runtime (allowed rfl)
  | fileSearchInput value => exact moves_appendSearchQuery runtime value
  | fileSearchBackspace => exact moves_backspaceSearchQuery runtime
  | fileSearchClear => exact moves_clearSearchQuery runtime true
  | fileSearchCommit => exact moves_finishSearchEditing runtime
  | fileSearchCancel => exact moves_clearSearchQuery runtime false
  | pointerSelect target => exact moves_selectViewportRow runtime target
  | pointerToggle target => exact moves_toggleViewportRow runtime target
  | scroll delta => exact moves_moveFocusedSelection runtime delta

/-! ## Ends of jobs -/

theorem restartSearchScan_of_none (h : runtime.search = none) :
    runtime.restartSearchScan = runtime := by
  rw [restartSearchScan, h]

theorem moves_filesystemDone (disk : RelativePath → FilesRoot) :
    Moves begins (runtime.landed (.filesystemDone disk)) (runtime.step (.filesystemDone disk)) := by
  unfold step landed
  cases hnewest : runtime.filesystem.jobs.newest with
  | none => exact .refl
  | some newest =>
    simp only [completeFilesystem]
    by_cases hrunning : runtime.filesystem.running ≠ some newest.1
    · rw [if_pos hrunning, if_pos hrunning]
      exact .refl
    · rw [if_neg hrunning, if_neg hrunning]
      by_cases hgeneration : newest.1 ≠ runtime.filesystem.generation
      · rw [if_pos hgeneration, if_pos hgeneration]
        exact moves_startNextFilesystem _
      · rw [if_neg hgeneration, if_neg hgeneration]
        refine Moves.trans ?_ ((moves_startNextFilesystem _).trans (moves_startNextSearchPage _))
        cases hchanged : (applyLoads runtime.model (newest.2.run disk)).changed with
        | false => exact .refl
        | true =>
          simp only [Bool.true_and, if_true]
          exact moves_rebuildVisibleRows _

theorem moves_filesystemPanicked :
    Moves begins (runtime.landed .filesystemPanicked) (runtime.step .filesystemPanicked) := by
  unfold step landed
  cases hnewest : runtime.filesystem.jobs.newest with
  | none => exact .refl
  | some newest =>
    simp only [failFilesystem]
    split <;> split
    · exact moves_retryPending _
    · exact .refl
    · exact moves_retryPending _
    · exact .refl

theorem moves_vcsDone (lookup : RelativePath → Except IoErrorKind VisibleEntryKind)
    (snapshot : Except VcsError VcsStatusSnapshot) (diffStats : Option VcsDiffStats) :
    Moves begins (runtime.landed (.vcsDone lookup snapshot diffStats))
      (runtime.step (.vcsDone lookup snapshot diffStats)) := by
  unfold step landed
  cases hnewest : runtime.vcsJobs.newest with
  | none => exact .refl
  | some newest =>
    simp only [completeVcsRefresh]
    cases hchanged : (runtime.model.completePreparedRefresh
        (.prepare lookup newest.1 newest.2 snapshot diffStats)).2 with
    | false =>
      simp only [Bool.false_eq_true, if_false]
      exact moves_startNextVcsRefresh _
    | true =>
      simp only [if_true]
      refine Moves.trans ?_ (moves_startNextVcsRefresh _)
      refine Moves.trans ?_ (moves_rebuildVisibleRows _)
      refine Moves.trans ?_ (moves_queueSearchProjection _ false)
      exact Moves.refl.view _ _ _ _ _ _ _ _ _ _

theorem moves_vcsPanicked : Moves begins (runtime.landed .vcsPanicked) (runtime.step .vcsPanicked) := by
  unfold step landed
  cases hnewest : runtime.vcsJobs.newest with
  | none => exact .refl
  | some newest =>
    have hmodel : Moves begins runtime { runtime with
        model := (runtime.model.cancelRefreshStart newest.1).1.requestRefresh } :=
      Moves.model .refl rfl
    exact ((hmodel.filesystem (.notify .refl _)).view _ _ _ _ _ _ _ _ _ _).trans
      (moves_retryPending _)

theorem moves_pageDone (disk : RelativePath → FilesRoot) (flags : RelativePath → DirectoryFlags) :
    Moves begins (runtime.landed (.pageDone disk flags)) (runtime.step (.pageDone disk flags)) := by
  unfold step landed
  cases hnewest : runtime.pages.newest with
  | none => exact .refl
  | some newest =>
    cases hsearch : runtime.search with
    | none =>
      simp only [completeSearchPage]
      exact .refl
    | some search =>
      simp only [completeSearchPage]
      by_cases hrunning : search.running ≠ some (newest.1, newest.2.epoch)
      · rw [if_pos hrunning, if_pos hrunning, ← hsearch]
        exact .refl
      · rw [if_neg hrunning, if_neg hrunning]
        by_cases hepoch : newest.2.epoch ≠ search.scanEpoch
        · rw [if_pos hepoch, if_pos hepoch]
          exact moves_startNextSearchPage _
        · rw [if_neg hepoch, if_neg hepoch]
          cases hcancelled : (pageResult runtime.pages newest.2 disk flags).cancelled with
          | true => exact .refl
          | false =>
            simp only [Bool.false_eq_true, if_false]
            refine Moves.trans ?_ (moves_startNextSearchPage _)
            refine Moves.trans ?_ (moves_queueSearchProjection _ false)
            exact Moves.refl.view _ _ _ _ _ _ _ _ _ _

theorem moves_pagePanicked : Moves begins (runtime.landed .pagePanicked) (runtime.step .pagePanicked) := by
  unfold step landed
  cases hnewest : runtime.pages.newest with
  | none => exact .refl
  | some newest =>
    cases hsearch : runtime.search with
    | none =>
      simp only [failSearchPage]
      exact moves_retryPending _
    | some search =>
      simp only [failSearchPage]
      cases hrunning : search.running with
      | none =>
        rw [← hsearch]
        exact moves_retryPending _
      | some running =>
        simp only
        by_cases hgeneration : running.1 = newest.1
        · rw [if_pos hgeneration, if_pos hgeneration]
          exact Moves.trans (Moves.refl.view _ _ _ _ _ _ _ _ _ _) (moves_retryPending _)
        · rw [if_neg hgeneration, if_neg hgeneration, ← hsearch]
          exact moves_retryPending _

theorem moves_completeSearchProjection (generation : Nat) (projection : Option SearchProjection) :
    Moves begins runtime (runtime.completeSearchProjection generation projection) := by
  unfold completeSearchProjection
  split
  next => exact .refl
  next search hsearch =>
    split
    next => exact .refl
    next =>
      split
      next => exact Moves.refl.edit hsearch _ _ _ _ _ _ _
      next shown =>
        simp only
        split
        next => exact (Moves.refl.edit hsearch _ _ _ _ _ _ _).view _ _ _ _ _ _ _ _ _ _
        next =>
          split
          next => exact (Moves.refl.edit hsearch _ _ _ _ _ _ _).view _ _ _ _ _ _ _ _ _ _
          next first _ =>
            have hselected : Moves begins runtime { runtime with
                search := some { search with index := (search.index.select first).1 } } :=
              Moves.selectIndexed .refl hsearch first
            exact (hselected.edit rfl _ _ _ _ _ _ _).view _ _ _ _ _ _ _ _ _ _

theorem moves_failSearchProjection (generation : Nat) :
    Moves begins runtime (runtime.failSearchProjection generation) := by
  unfold failSearchProjection
  split
  next => exact moves_retryPending _
  next search hsearch =>
    split
    next =>
      exact ((Moves.refl.edit hsearch _ _ _ _ _ _ _).view _ _ _ _ _ _ _ _ _ _).trans
        (moves_retryPending _)
    next => exact moves_retryPending _

theorem moves_projectionDone (projection : Option SearchProjection) :
    Moves begins runtime (runtime.step (.projectionDone projection)) := by
  have hended : Moves begins runtime { runtime with projections := runtime.projections.ended } :=
    Moves.refl.view _ _ _ _ _ _ _ _ _ _
  cases hnewest : runtime.projections.newest with
  | none =>
    simp only [step, hnewest]
    exact .refl
  | some newest =>
    simp only [step, hnewest]
    exact hended.trans (moves_completeSearchProjection _ _ _)

theorem moves_projectionPanicked : Moves begins runtime (runtime.step .projectionPanicked) := by
  have hended : Moves begins runtime { runtime with projections := runtime.projections.ended } :=
    Moves.refl.view _ _ _ _ _ _ _ _ _ _
  cases hnewest : runtime.projections.newest with
  | none =>
    simp only [step, hnewest]
    exact .refl
  | some newest =>
    simp only [step, hnewest]
    exact hended.trans (moves_failSearchProjection _ _)

/-- Every call is the landing of what it is about and moves from there. -/
theorem moves_step (event : FilesEvent) :
    Moves (event = .intent .beginFileSearch) (runtime.landed event) (runtime.step event) := by
  cases event with
  | intent intent => exact moves_handleIntent runtime intent fun h => h ▸ rfl
  | retryPending => exact moves_retryPending runtime
  | tick => exact moves_requestVcsRefresh runtime
  | startBackground => exact moves_startBackground runtime
  | pauseBackground => exact .refl
  | setJujutsuMode mode => exact moves_setJujutsuMode runtime mode
  | filesystemDone disk => exact moves_filesystemDone runtime disk
  | filesystemPanicked => exact moves_filesystemPanicked runtime
  | vcsDone lookup snapshot diffStats => exact moves_vcsDone runtime lookup snapshot diffStats
  | vcsPanicked => exact moves_vcsPanicked runtime
  | pageDone disk flags => exact moves_pageDone runtime disk flags
  | pagePanicked => exact moves_pagePanicked runtime
  | projectionDone projection => exact moves_projectionDone runtime projection
  | projectionPanicked => exact moves_projectionPanicked runtime

/-! ## Runs -/

section
variable {start : FilesRuntime} {events : List FilesEvent}

theorem run_concat (start : FilesRuntime) (events : List FilesEvent) (event : FilesEvent) :
    start.run (events ++ [event]) = (start.run events).step event := by
  rw [run, List.foldl_append]
  rfl

/-- Every step of a run meets a condition on the state before it. -/
def Throughout (allowed : FilesRuntime → FilesEvent → Prop) (start : FilesRuntime)
    (events : List FilesEvent) : Prop :=
  ∀ before event after, events = before ++ event :: after → allowed (start.run before) event

theorem Throughout.invariant {allowed : FilesRuntime → FilesEvent → Prop}
    (inv : FilesRuntime → Prop) (h : Throughout allowed start events) (initial : inv start)
    (preserved : ∀ {runtime event}, inv runtime → allowed runtime event →
      inv (runtime.step event)) : inv (start.run events) := by
  induction events using List.reverseRecOn with
  | nil => exact initial
  | append_singleton events event ih =>
    rw [run_concat]
    have hearlier : Throughout allowed start events := by
      intro before other after heq
      exact h before other (after ++ [event]) (by rw [heq, List.append_assoc, List.cons_append])
    exact preserved (ih hearlier) (h events event [] rfl)

theorem run_invariant (inv : FilesRuntime → Prop) (initial : inv start)
    (preserved : ∀ {runtime} event, inv runtime → inv (runtime.step event)) :
    inv (start.run events) :=
  Throughout.invariant inv
    (show Throughout (fun _ _ => True) start events from fun _ _ _ _ => trivial) initial
    fun h _ => preserved _ h

end

end FilesRuntime

end HerdrContext.Files
