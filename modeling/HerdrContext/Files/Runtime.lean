import HerdrContext.Files.Search

/-! The files surface: what a user asks of it and what its background jobs
report, every call a step. Drawing, the viewport and the refresh timer are left
out, and so are the redraw answers of the calls. -/
namespace HerdrContext.Files

open Library
open Worker.WorkerRuntime (saturatingAdd)

inductive JujutsuMode where
  | passive | fresh
  deriving DecidableEq

inductive VcsRefresh where
  | git | jujutsu (mode : JujutsuMode)
  deriving DecidableEq

inductive FilesPane where
  | tree | changed
  deriving DecidableEq

/-- What the pointer is on. -/
inductive PointerTarget where
  | changedRow (index : Nat)
  | treeRow (index : Nat)

inductive FilesIntent where
  | selectPrevious | selectNext | selectFirst | selectLast
  | expandOrDescend | collapseOrAscend | toggleSelected
  | refresh | toggleIgnoredFiles
  | switchFilesPane (changedShown : Bool)
  | beginFileSearch | fileSearchInput (value : String) | fileSearchBackspace
  | fileSearchClear | fileSearchCommit | fileSearchCancel
  | pointerSelect (target : PointerTarget) | pointerToggle (target : PointerTarget)
  | scroll (delta : Int)

structure FilesRuntime where
  model : FilesModel
  backgroundActive : Bool
  vcs : Option VcsRefresh
  filesystem : FilesystemState
  visibleRows : List RelativePath
  focusedPane : FilesPane
  changedSelected : Option RelativePath
  statusSeen : Bool
  /-- whether the page and projection queues were full -/
  searchPageNotice : Bool
  searchProjectionNotice : Bool
  showIgnored : Bool
  searchIgnored : Bool
  search : Option FileSearchState
  vcsJobs : JobSlot StatusMergeInput
  pages : JobSlot PageJob
  projections : JobSlot Unit

namespace FilesTree

def isDirectory (tree : FilesTree) (path : RelativePath) : Bool := isDirectoryNode tree.nodes path

def displayParentOf (tree : FilesTree) (path : RelativePath) : Option RelativePath :=
  (tree.nodes.get? path).map (displayParent tree.nodes)

/-- The directories a path is shown in, from the inside out. -/
def displayAncestors (tree : FilesTree) : Nat → RelativePath → List RelativePath
  | 0, _ => []
  | fuel + 1, path =>
    match tree.displayParentOf path with
    | none => []
    | some parent => parent :: tree.displayAncestors fuel parent

end FilesTree

namespace FilesRuntime

variable (runtime : FilesRuntime)

def hasSearchFilter : Bool := runtime.search.any (·.active)

def activeTree : FilesTree :=
  match runtime.search.filter (·.active) with
  | none => runtime.model.tree
  | some search => search.index

def selection : Option RelativePath := runtime.activeTree.selection

/-! ## Rows -/

/-- A directory is shown deeper than its parent, so the tree is no deeper than
it has nodes. -/
def appendVisibleChildren (tree : FilesTree) (expanded : PathSet) :
    Nat → RelativePath → List RelativePath
  | 0, _ => []
  | fuel + 1, directory =>
    (tree.children directory).flatMap fun node =>
      node.path :: if node.kind = .directory ∧ node.path ∈ expanded then
        appendVisibleChildren tree expanded fuel node.path else []

def restoreVisibleSelection : FilesRuntime :=
  match runtime.model.tree.selection with
  | none => runtime
  | some selected =>
    if selected ∈ runtime.visibleRows then runtime
    else
      let above := runtime.model.tree.displayAncestors (selected.length + 1) selected
      match (above.find? (· ∈ runtime.visibleRows)).or runtime.visibleRows.head? with
      | none => runtime
      | some path => { runtime with model := (runtime.model.select path).1 }

def rebuildVisibleRows : FilesRuntime :=
  if runtime.hasSearchFilter then runtime
  else
    let filesystem := runtime.filesystem.retain runtime.model.tree.isDirectory
    restoreVisibleSelection { runtime with
      filesystem
      visibleRows := appendVisibleChildren runtime.model.tree filesystem.expanded
        (runtime.model.tree.nodes.size + 1) [] }

/-! ## Background work -/

def startNextFilesystem : FilesRuntime :=
  if runtime.backgroundActive then
    { runtime with filesystem := runtime.filesystem.startNext runtime.model.tree.loader }
  else runtime

def startNextVcsRefresh : FilesRuntime :=
  if runtime.backgroundActive then
    match runtime.model.beginRefresh with
    | (_, none) => runtime
    | (started, some generation) =>
      if runtime.vcs.isNone then { runtime with model := (started.cancelRefreshStart generation).1 }
      else
        let submitted := runtime.vcsJobs.submit generation started.statusMergeInput
        if submitted.2 then { runtime with model := started, vcsJobs := submitted.1 }
        else { runtime with
          model := (started.cancelRefreshStart generation).1
          vcsJobs := submitted.1
          filesystem := { runtime.filesystem with notice := some .vcsQueueUnavailable } }
  else runtime

def requestVcsRefresh : FilesRuntime :=
  if runtime.vcs.isNone then runtime
  else startNextVcsRefresh { runtime with model := runtime.model.requestRefresh }

def startNextSearchPage : FilesRuntime :=
  match runtime.search with
  | none => runtime
  | some search =>
    if runtime.backgroundActive then
      let started := search.startNextPage runtime.pages
      { runtime with
        search := some started.1
        pages := started.2.1
        searchPageNotice := match started.2.2 with
          | none => runtime.searchPageNotice
          | some accepted => !accepted }
    else runtime

def startNextSearchProjection : FilesRuntime :=
  match runtime.search with
  | none => runtime
  | some search =>
    if !runtime.backgroundActive || !search.active ||
        decide (search.projectionRequested ≤ search.projectionSubmitted) then runtime
    else
      let submitted := runtime.projections.submit search.projectionRequested ()
      if submitted.2 then
        { runtime with
          search := some { search with
            projectionSubmitted := search.projectionRequested
            projectionCancel := true }
          projections := submitted.1
          searchProjectionNotice := false }
      else { runtime with projections := submitted.1, searchProjectionNotice := true }

def queueSearchProjection (clearRows : Bool) : FilesRuntime :=
  match runtime.search with
  | none => runtime
  | some search =>
    if search.active then
      startNextSearchProjection { runtime with
        search := some { search with
          projectionCancel := false
          projectionRequested := saturatingAdd search.projectionRequested 1
          matchedPaths := if clearRows then ∅ else search.matchedPaths }
        projections := if search.projectionCancel then runtime.projections.raise
          else runtime.projections
        visibleRows := if clearRows then [] else runtime.visibleRows }
    else runtime

def clearSearchProjection : FilesRuntime :=
  match runtime.search with
  | none => runtime
  | some search => { runtime with
      search := some search.clearProjection
      projections := if search.projectionCancel then runtime.projections.raise
        else runtime.projections }

def retryPending : FilesRuntime :=
  runtime.startNextFilesystem.startNextVcsRefresh.startNextSearchPage.startNextSearchProjection

def restartSearchScan : FilesRuntime :=
  match runtime.search with
  | none => runtime
  | some search => { runtime with
      search := some search.restartScan
      pages := if search.pageCancel then runtime.pages.raise else runtime.pages }

def requestReload : FilesRuntime :=
  startNextFilesystem { runtime with filesystem := runtime.filesystem.reload } |>.requestVcsRefresh

def requestExpansion (path : RelativePath) : FilesRuntime :=
  if runtime.model.tree.isDirectory path then
    if path ∈ runtime.filesystem.desiredExpanded then runtime
    else startNextFilesystem { runtime with filesystem := runtime.filesystem.desire path }
  else runtime

def startBackground : FilesRuntime :=
  { runtime with backgroundActive := true }.requestReload.retryPending

def pauseBackground : FilesRuntime :=
  match runtime.search with
  | none => { runtime with backgroundActive := false }
  | some search => { runtime with
      backgroundActive := false
      search := some search.pause
      pages := if search.pageCancel then runtime.pages.raise else runtime.pages
      projections := if search.projectionCancel then runtime.projections.raise
        else runtime.projections }

def setJujutsuMode (mode : JujutsuMode) : FilesRuntime :=
  match runtime.vcs with
  | some (.jujutsu current) =>
    if current = mode then runtime
    else requestVcsRefresh { runtime with
      vcs := some (.jujutsu mode)
      model := if mode = .passive then runtime.model.markStatusStale.1 else runtime.model }
  | _ => runtime

/-! ## Selection -/

def pathIsNavigable (path : RelativePath) : Bool :=
  match runtime.search.filter (·.active) with
  | none => true
  | some search => search.matchedPaths.contains path

def navigable : List RelativePath := runtime.visibleRows.filter runtime.pathIsNavigable

def selectPath (path : RelativePath) : FilesRuntime :=
  match runtime.search with
  | some search =>
    if search.active then
      { runtime with search := some { search with index := (search.index.select path).1 } }
    else { runtime with model := (runtime.model.select path).1 }
  | none => { runtime with model := (runtime.model.select path).1 }

def selectNavigableIndex (index : Nat) : FilesRuntime :=
  match runtime.navigable[index]? with
  | none => runtime
  | some path => runtime.selectPath path

/-- A place moved by a signed distance and kept within the list. -/
def movedIndex (current : Nat) (delta : Int) (last : Nat) : Nat :=
  if delta < 0 then current - delta.natAbs else min (current + delta.toNat) last

def moveSelection (delta : Int) : FilesRuntime :=
  match runtime.selection.bind fun selected => runtime.navigable.findIdx? (· = selected) with
  | none => runtime.selectNavigableIndex 0
  | some current =>
    runtime.selectNavigableIndex (movedIndex current delta (runtime.navigable.length - 1))

def selectChangedIndex (index : Nat) : FilesRuntime :=
  match runtime.model.tree.changedFiles[index]? with
  | none => runtime
  | some file => { runtime with changedSelected := some file.path }

def moveChangedSelection (delta : Int) : FilesRuntime :=
  let files := runtime.model.tree.changedFiles
  match runtime.changedSelected.bind fun selected => files.findIdx? (·.path = selected) with
  | none => runtime.selectChangedIndex 0
  | some current => runtime.selectChangedIndex (movedIndex current delta (files.length - 1))

def restoreChangedSelection : FilesRuntime :=
  let files := runtime.model.tree.changedFiles
  { runtime with
    changedSelected := (runtime.changedSelected.filter fun selected =>
      files.any (·.path = selected)).or (files.head?.map (·.path)) }

def moveFocusedSelection (delta : Int) : FilesRuntime :=
  match runtime.focusedPane with
  | .tree => runtime.moveSelection delta
  | .changed => runtime.moveChangedSelection delta

def selectFocusedIndex (index : Nat) : FilesRuntime :=
  match runtime.focusedPane with
  | .tree => runtime.selectNavigableIndex index
  | .changed => runtime.selectChangedIndex index

def selectFocusedLast : FilesRuntime :=
  match runtime.focusedPane with
  | .tree => runtime.selectNavigableIndex (runtime.navigable.length - 1)
  | .changed => runtime.selectChangedIndex (runtime.model.tree.changedFiles.length - 1)

/-! ## Expansion -/

/-- The selected path of the tree, where its keys apply. -/
def treeSelection : Option RelativePath :=
  if runtime.focusedPane = .changed ∨ runtime.hasSearchFilter then none
  else runtime.model.tree.selection

def expandOrDescend : FilesRuntime :=
  match runtime.treeSelection with
  | none => runtime
  | some path =>
    if path ∈ runtime.filesystem.expanded then
      match (runtime.model.tree.children path).head? with
      | none => runtime
      | some child => { runtime with model := (runtime.model.select child.path).1 }
    else runtime.requestExpansion path

/-- The rows change where an open directory is closed. -/
def collapse (path : RelativePath) : FilesRuntime :=
  let collapsed := { runtime with filesystem := runtime.filesystem.collapse path }
  if path ∈ runtime.filesystem.expanded then collapsed.rebuildVisibleRows else collapsed

def toggleSelected : FilesRuntime :=
  match runtime.treeSelection with
  | none => runtime
  | some path =>
    if path ∈ runtime.filesystem.desiredExpanded then runtime.collapse path
    else runtime.requestExpansion path

def collapseOrAscend : FilesRuntime :=
  match runtime.treeSelection with
  | none => runtime
  | some path =>
    if path ∈ runtime.filesystem.desiredExpanded then runtime.collapse path
    else match (runtime.model.tree.displayParentOf path).filter (· ≠ []) with
      | none => runtime
      | some parent => { runtime with model := (runtime.model.select parent).1 }

/-! ## Pointer -/

def selectViewportRow (target : PointerTarget) : FilesRuntime :=
  match target with
  | .changedRow index =>
    if index < runtime.model.tree.changedFiles.length then
      { runtime with focusedPane := .changed }.selectChangedIndex index
    else runtime
  | .treeRow index =>
    match runtime.visibleRows[index]? with
    | none => runtime
    | some path =>
      if runtime.pathIsNavigable path then { runtime with focusedPane := .tree }.selectPath path
      else runtime

def toggleViewportRow (target : PointerTarget) : FilesRuntime :=
  match target with
  | .changedRow _ => runtime
  | .treeRow index =>
    match runtime.visibleRows[index]? with
    | none => runtime
    | some path =>
      if runtime.pathIsNavigable path then (runtime.selectPath path).toggleSelected else runtime

/-! ## Search -/

def clearSearchQuery (keepEditing : Bool) : FilesRuntime :=
  match runtime.search with
  | none => runtime
  | some search =>
    let cleared := { runtime with
      search := some { search with query := "", editing := keepEditing } }
    if search.query ≠ "" ∨ search.editing ≠ keepEditing then
      cleared.clearSearchProjection.rebuildVisibleRows
    else cleared

/-- An index takes the place of none; a search that exists is taken up again. -/
def beginSearch : FilesRuntime :=
  startNextSearchPage { runtime with
    focusedPane := .tree
    searchPageNotice := false
    searchProjectionNotice := false
    search := some (match runtime.search with
      | some search => { search with editing := true }
      | none => .new ((runtime.model.tree.withShowIgnored
          (runtime.showIgnored || runtime.searchIgnored)).searchIndex maxIndexEntries)) }

/-- `char::is_control`. -/
def isControl (character : Char) : Bool :=
  character.val < 32 || (127 ≤ character.val && character.val < 160)

def appendSearchQuery (value : String) : FilesRuntime :=
  match runtime.search with
  | none => runtime
  | some search =>
    let query := FileSearchState.appendQuery search.query
      (value.toList.filter fun character => !isControl character)
    if query.utf8ByteSize = search.query.utf8ByteSize then runtime
    else
      { runtime with search := some { search with query } }.queueSearchProjection true
        |>.startNextSearchPage

def backspaceSearchQuery : FilesRuntime :=
  match runtime.search with
  | none => runtime
  | some search =>
    if search.query = "" then runtime
    else
      let shorter := { runtime with
        search := some { search with query := String.ofList search.query.toList.dropLast } }
      if search.query.toList.dropLast = [] then shorter.clearSearchProjection.rebuildVisibleRows
      else shorter.queueSearchProjection true

def finishSearchEditing : FilesRuntime :=
  { runtime with search := runtime.search.map fun search => { search with editing := false } }

/-- Flips ignored-file visibility, preserving tree state, then re-enumerates. -/
def toggleIgnoredFiles : FilesRuntime :=
  let showIgnored := !runtime.showIgnored
  let old := runtime.model.tree
  let tree := ((old.withShowIgnored showIgnored).syncStatusOverlayFrom old).restoreSelectionFrom
    old.selection
  { runtime with showIgnored, model := runtime.model.replaceTree tree }.clearSearchQuery false
    |>.requestReload

def togglePaneFocus (changedShown : Bool) : FilesRuntime :=
  if runtime.search.any (·.editing) || runtime.hasSearchFilter || !changedShown then runtime
  else { runtime with
    focusedPane := match runtime.focusedPane with
      | .tree => .changed
      | .changed => .tree }

def handleIntent : FilesIntent → FilesRuntime
  | .selectPrevious => runtime.moveFocusedSelection (-1)
  | .selectNext => runtime.moveFocusedSelection 1
  | .selectFirst => runtime.selectFocusedIndex 0
  | .selectLast => runtime.selectFocusedLast
  | .expandOrDescend => runtime.expandOrDescend
  | .collapseOrAscend => runtime.collapseOrAscend
  | .toggleSelected => runtime.toggleSelected
  | .refresh => runtime.requestReload
  | .toggleIgnoredFiles => runtime.toggleIgnoredFiles
  | .switchFilesPane changedShown => runtime.togglePaneFocus changedShown
  | .beginFileSearch => runtime.beginSearch
  | .fileSearchInput value => runtime.appendSearchQuery value
  | .fileSearchBackspace => runtime.backspaceSearchQuery
  | .fileSearchClear => runtime.clearSearchQuery true
  | .fileSearchCommit => runtime.finishSearchEditing
  | .fileSearchCancel => runtime.clearSearchQuery false
  | .pointerSelect target => runtime.selectViewportRow target
  | .pointerToggle target => runtime.toggleViewportRow target
  | .scroll delta => runtime.moveFocusedSelection delta

/-! ## Completions -/

/-- What the loop over the results of a load has made of the model. -/
structure LoadProgress where
  files : FilesModel
  loaded : PathSet
  notice : Option FilesystemNotice
  changed : Bool

def LoadProgress.apply (progress : LoadProgress)
    (loadResult : RelativePath × Except IoErrorKind DirectorySnapshot) : LoadProgress :=
  if loadResult.1 ≠ [] ∧ progress.files.tree.isDirectory loadResult.1 = false then progress
  else match loadResult.2 with
    | .ok snapshot =>
      { progress with
        files := progress.files.applyDirectory snapshot
        loaded := progress.loaded.insert loadResult.1
        changed := true }
    | .error error =>
      if error = .notFound ∧ loadResult.1 ≠ [] ∧
          progress.files.tree.nodes.get? loadResult.1 = none then progress
      else { progress with
        notice := progress.notice.or (some (.cannotLoad loadResult.1 error)) }

def applyLoads (files : FilesModel)
    (loads : List (RelativePath × Except IoErrorKind DirectorySnapshot)) : LoadProgress :=
  loads.foldl LoadProgress.apply ⟨files, ∅, none, false⟩

def completeFilesystem (generation : Nat) (expansions : PathSet)
    (loads : List (RelativePath × Except IoErrorKind DirectorySnapshot)) : FilesRuntime :=
  if runtime.filesystem.running ≠ some generation then
    { runtime with filesystem := { runtime.filesystem with expansionsRunning := ∅ } }
  else if generation ≠ runtime.filesystem.generation then
    startNextFilesystem { runtime with filesystem := runtime.filesystem.superseded expansions }
  else
    let progress := applyLoads runtime.model loads
    let settled := (runtime.filesystem.accept generation).settleAll
      (fun path => progress.loaded.contains path && progress.files.tree.isDirectory path) expansions
    let applied := { runtime with
      model := progress.files
      filesystem := { settled with notice := progress.notice } }
    let rebuilt :=
      if progress.changed then
        (if runtime.filesystem.reloadRunning then applied.restartSearchScan
          else applied).rebuildVisibleRows
      else applied
    rebuilt.startNextFilesystem.startNextSearchPage

def completeVcsRefresh (result : PreparedRefreshResult) : FilesRuntime :=
  let completed := runtime.model.completePreparedRefresh result
  let shown : FilesRuntime := { runtime with model := completed.1 }
  let synced : FilesRuntime :=
    { shown with
      statusSeen := true
      search := runtime.search.map fun search => search.syncStatusFrom completed.1.tree }
  let rebuilt :=
    if completed.2 then
      (synced.restoreChangedSelection.queueSearchProjection false).rebuildVisibleRows
    else shown
  rebuilt.startNextVcsRefresh

def completeSearchPage (generation epoch : Nat) (page : PreparedSearchPage) : FilesRuntime :=
  match runtime.search with
  | none => runtime
  | some search =>
    if search.running ≠ some (generation, epoch) then runtime
    else if epoch ≠ search.scanEpoch then
      { runtime with search := some search.pageEnded }.startNextSearchPage
    else if page.cancelled then { runtime with search := some search.requeuePage }
    else
      { runtime with
        search := some (search.pageEnded.applyPage page)
        searchPageNotice := false }.queueSearchProjection false |>.startNextSearchPage

def completeSearchProjection (generation : Nat) (projection : Option SearchProjection) :
    FilesRuntime :=
  match runtime.search with
  | none => runtime
  | some search =>
    if generation ≠ search.projectionRequested ∨ search.active = false then runtime
    else match projection with
      | none => { runtime with search := some { search with projectionCancel := false } }
      | some projection =>
        let kept := search.index.selection.any fun selected =>
          projection.matchedPaths.contains selected
        let index :=
          if kept then search.index
          else match projection.rows.find? fun path => projection.matchedPaths.contains path with
            | none => search.index
            | some first => (search.index.select first).1
        { runtime with
          search := some { search with
            index
            projectionCancel := false
            projectionApplied := generation
            matchedPaths := projection.matchedPaths }
          visibleRows := projection.rows
          searchProjectionNotice := false }

/-! ## Failures -/

def failFilesystem : FilesRuntime :=
  let failed :=
    if runtime.filesystem.running.isSome then
      { runtime with filesystem := runtime.filesystem.stopped }
    else runtime
  if failed.filesystem.panicRetried then failed.retryPending else failed

def failVcs (generation : Nat) : FilesRuntime :=
  retryPending { runtime with
    model := (runtime.model.cancelRefreshStart generation).1.requestRefresh
    filesystem := { runtime.filesystem with notice := some .vcsStoppedUnexpectedly } }

/-- The directories of the page are not scanned, and the scan ends with it. -/
def failSearchPage (generation : Nat) : FilesRuntime :=
  match runtime.search with
  | none => runtime.retryPending
  | some search =>
    match search.running with
    | none => runtime.retryPending
    | some running =>
      if running.1 = generation then
        retryPending { runtime with
          search := some { search.pageEnded with
            complete := search.complete || running.2 = search.scanEpoch }
          searchPageNotice := true }
      else runtime.retryPending

def failSearchProjection (generation : Nat) : FilesRuntime :=
  match runtime.search with
  | none => runtime.retryPending
  | some search =>
    if generation = search.projectionRequested then
      retryPending { runtime with
        search := some { search with projectionCancel := false, projectionApplied := generation }
        searchProjectionNotice := true }
    else runtime.retryPending

end FilesRuntime

/-! ## Runs -/

/-- One call of the owner. The parameters of a job's end are what the task met:
the disk, the answers of the VCS, the flags it could see raised. -/
inductive FilesEvent where
  | intent (intent : FilesIntent)
  | retryPending
  | tick
  | startBackground
  | pauseBackground
  | setJujutsuMode (mode : JujutsuMode)
  | filesystemDone (disk : RelativePath → FilesRoot)
  | filesystemPanicked
  | vcsDone (lookup : RelativePath → Except IoErrorKind VisibleEntryKind)
    (snapshot : Except VcsError VcsStatusSnapshot) (diffStats : Option VcsDiffStats)
  | vcsPanicked
  | pageDone (disk : RelativePath → FilesRoot) (flags : RelativePath → DirectoryFlags)
  | pagePanicked
  | projectionDone (projection : Option SearchProjection)
  | projectionPanicked

/-- A task sees no flag that was not raised. -/
def seenFlags (raised : Bool) (flags : RelativePath → DirectoryFlags) (directory : RelativePath) :
    DirectoryFlags :=
  if raised then flags directory else .clear

namespace FilesRuntime

/-- What a search page job makes of its directories. -/
def pageResult (slot : JobSlot PageJob) (job : PageJob) (disk : RelativePath → FilesRoot)
    (flags : RelativePath → DirectoryFlags) : PreparedSearchPage :=
  preparePage job.loader disk (seenFlags slot.raised flags) job.request

variable (runtime : FilesRuntime)

/-- The end of a job is an event only while the job is the newest of its key. -/
def step : FilesEvent → FilesRuntime
  | .intent intent => runtime.handleIntent intent
  | .retryPending => runtime.retryPending
  | .tick => runtime.requestVcsRefresh
  | .startBackground => runtime.startBackground
  | .pauseBackground => runtime.pauseBackground
  | .setJujutsuMode mode => runtime.setJujutsuMode mode
  | .filesystemDone disk =>
    match runtime.filesystem.jobs.newest with
    | none => runtime
    | some (generation, job) =>
      { runtime with filesystem.jobs := runtime.filesystem.jobs.ended }.completeFilesystem generation
        job.expansions (job.run disk)
  | .filesystemPanicked =>
    match runtime.filesystem.jobs.newest with
    | none => runtime
    | some _ => { runtime with filesystem.jobs := runtime.filesystem.jobs.ended }.failFilesystem
  | .vcsDone lookup snapshot diffStats =>
    match runtime.vcsJobs.newest with
    | none => runtime
    | some (generation, input) =>
      { runtime with vcsJobs := runtime.vcsJobs.ended }.completeVcsRefresh
        (.prepare lookup generation input snapshot diffStats)
  | .vcsPanicked =>
    match runtime.vcsJobs.newest with
    | none => runtime
    | some (generation, _) => { runtime with vcsJobs := runtime.vcsJobs.ended }.failVcs generation
  | .pageDone disk flags =>
    match runtime.pages.newest with
    | none => runtime
    | some (generation, job) =>
      { runtime with pages := runtime.pages.ended }.completeSearchPage generation job.epoch
        (pageResult runtime.pages job disk flags)
  | .pagePanicked =>
    match runtime.pages.newest with
    | none => runtime
    | some (generation, _) => { runtime with pages := runtime.pages.ended }.failSearchPage generation
  | .projectionDone projection =>
    match runtime.projections.newest with
    | none => runtime
    | some (generation, _) =>
      { runtime with projections := runtime.projections.ended }.completeSearchProjection generation
        projection
  | .projectionPanicked =>
    match runtime.projections.newest with
    | none => runtime
    | some (generation, _) =>
      { runtime with projections := runtime.projections.ended }.failSearchProjection generation

/-- `run` of the owner's loop over a list of events. -/
def run (start : FilesRuntime) (events : List FilesEvent) : FilesRuntime :=
  events.foldl step start

section
variable (model : FilesModel) (vcs : Option VcsRefresh) (searchIgnored : Bool)
  (filesystemRoom vcsRoom pageRoom projectionRoom : Nat → Bool)

/-- The fields `bootstrap` sets. -/
def unshown : FilesRuntime where
  model
  backgroundActive := true
  vcs
  filesystem := .new filesystemRoom
  visibleRows := []
  focusedPane := .tree
  changedSelected := none
  statusSeen := false
  searchPageNotice := false
  searchProjectionNotice := false
  showIgnored := model.tree.loader.showIgnored
  searchIgnored
  search := none
  vcsJobs := .new vcsRoom
  pages := .new pageRoom
  projections := .new projectionRoom

/-- `bootstrap`, from the model with its root loaded and what the queues answer. -/
def bootstrap : FilesRuntime :=
  (unshown model vcs searchIgnored filesystemRoom vcsRoom pageRoom projectionRoom).rebuildVisibleRows

end

end FilesRuntime

end HerdrContext.Files
