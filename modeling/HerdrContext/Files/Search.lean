import HerdrContext.Files.Expansion
import HerdrContext.Files.Load

/-! The file search: an index of the whole tree that background pages fill in,
a batch of directories at a time. -/
namespace HerdrContext.Files

open Library
open Worker.WorkerRuntime (saturatingAdd)

def directoriesPerPage : Nat := 64
def maxIndexEntries : Nat := 50000
def maxExaminedEntries : Nat := 200000
def maxQueryBytes : Nat := 256

/-- The normalized text a query is matched against is a function of the path. -/
structure IndexedSearchPath where
  path : RelativePath
  kind : TreeNodeKind
  deriving DecidableEq

abbrev SearchablePaths := Table RelativePath IndexedSearchPath.path

def TreeNode.indexed (node : TreeNode) : IndexedSearchPath := ⟨node.path, node.kind⟩

/-- An index starts with the deleted paths, which no scan finds. -/
def FilesTree.searchIndex (tree : FilesTree) (maxEntries : Nat) : FilesTree :=
  { tree with nodes := (tree.virtualNodes.take maxEntries).foldl Table.insert ∅ }.restoreSelection

/-! ## Pages -/

/-- What the loads of the two cancellation flags show around one directory. -/
structure DirectoryFlags where
  before : Bool
  interrupted : Bool
  during : Nat → Bool
  after : Bool

def DirectoryFlags.clear : DirectoryFlags := ⟨false, false, fun _ => false, false⟩

/-- `DirectoryLoader::load_bounded`. -/
def IgnorePolicy.loadBounded (loader : IgnorePolicy) (root : FilesRoot) (directory : RelativePath)
    (maxEntries maxExamined : Nat) (flags : DirectoryFlags) :
    Except IoErrorKind (DirectorySnapshot × Nat × Bool) := do
  let batch ← visibleEntriesWithBounds root loader directory
    (some ⟨max maxEntries 1, max maxExamined 1, flags.interrupted, flags.during⟩)
  return (.ofEntries directory batch.entries, batch.examined, batch.truncated)

structure SearchPageRequest where
  index : FilesTree
  searchable : SearchablePaths
  directories : List RelativePath
  remainingEntries : Nat
  remainingExamined : Nat

/-- What the loop over a page's directories has collected. -/
structure PageScan where
  snapshots : List DirectorySnapshot
  scannedDirectories : List RelativePath
  discoveredDirectories : List RelativePath
  entries : List IndexedSearchPath
  scannedEntries : Nat
  examinedEntries : Nat
  skippedDirectories : Nat
  truncated : Bool
  cancelled : Bool

def PageScan.new : PageScan := ⟨[], [], [], [], 0, 0, 0, false, false⟩

def PageScan.record (scan : PageScan) (directory : RelativePath) (snapshot : DirectorySnapshot)
    (examined : Nat) : PageScan :=
  { scan with
    snapshots := scan.snapshots ++ [snapshot]
    scannedDirectories := scan.scannedDirectories ++ [directory]
    discoveredDirectories := scan.discoveredDirectories ++
      (snapshot.nodes.filter (·.kind = .directory)).map (·.path)
    entries := scan.entries ++ (snapshot.nodes.filter (·.kind ≠ .directory)).map TreeNode.indexed
    scannedEntries := scan.scannedEntries + snapshot.nodes.length
    examinedEntries := scan.examinedEntries + examined }

structure PreparedSearchPage where
  index : FilesTree
  searchable : SearchablePaths
  discoveredDirectories : List RelativePath
  scannedEntries : Nat
  examinedEntries : Nat
  skippedDirectories : Nat
  truncated : Bool
  cancelled : Bool

section
variable (loader : IgnorePolicy) (disk : RelativePath → FilesRoot)
  (flags : RelativePath → DirectoryFlags)

/-- A directory that cannot be read is counted and passed over. -/
def scanDirectories (remainingEntries remainingExamined : Nat) :
    PageScan → List RelativePath → PageScan
  | scan, [] => scan
  | scan, directory :: rest =>
    if (flags directory).before then { scan with cancelled := true }
    else if remainingEntries - scan.scannedEntries = 0 ∨
        remainingExamined - scan.examinedEntries = 0 then { scan with truncated := true }
    else match loader.loadBounded (disk directory) directory
        (remainingEntries - scan.scannedEntries) (remainingExamined - scan.examinedEntries)
        (flags directory) with
      | .error _ =>
        scanDirectories remainingEntries remainingExamined
          { scan with skippedDirectories := scan.skippedDirectories + 1 } rest
      | .ok (snapshot, examined, directoryTruncated) =>
        if (flags directory).after then { scan with cancelled := true }
        else if directoryTruncated then
          { scan.record directory snapshot examined with truncated := true }
        else
          scanDirectories remainingEntries remainingExamined
            (scan.record directory snapshot examined) rest

/-- The entries of the scanned directories take the place of what was known of them. -/
def searchableAfter (searchable : SearchablePaths) (scan : PageScan) (index : FilesTree) :
    SearchablePaths :=
  let cleared := scan.scannedDirectories.foldl (fun searchable directory =>
    searchable.filter fun indexed =>
      indexed.kind = .virtual || decide (parentPath indexed.path ≠ directory)) searchable
  (scan.entries.foldl Table.insert cleared).filter fun indexed =>
    (index.nodes.get? indexed.path).isSome

def preparePage (request : SearchPageRequest) : PreparedSearchPage :=
  let scan := scanDirectories loader disk flags request.remainingEntries request.remainingExamined
    .new request.directories
  let index := scan.snapshots.foldl FilesTree.applyDirectory request.index
  { index := if scan.cancelled then request.index else index
    searchable :=
      if scan.cancelled then request.searchable else searchableAfter request.searchable scan index
    discoveredDirectories := scan.discoveredDirectories
    scannedEntries := scan.scannedEntries
    examinedEntries := scan.examinedEntries
    skippedDirectories := scan.skippedDirectories
    truncated := scan.truncated
    cancelled := scan.cancelled }

end

/-! ## The search -/

structure SearchProjection where
  matchedPaths : PathSet
  rows : List RelativePath

/-- What the task of a page is given. -/
structure PageJob where
  epoch : Nat
  loader : IgnorePolicy
  request : SearchPageRequest

structure FileSearchState where
  editing : Bool
  query : String
  index : FilesTree
  searchable : SearchablePaths
  matchedPaths : PathSet
  pendingDirectories : List RelativePath
  running : Option (Nat × Nat)
  runningDirectories : List RelativePath
  pageCancel : Bool
  projectionCancel : Bool
  jobGeneration : Nat
  scanEpoch : Nat
  scannedEntries : Nat
  examinedEntries : Nat
  skippedDirectories : Nat
  complete : Bool
  truncated : Bool
  projectionRequested : Nat
  projectionSubmitted : Nat
  projectionApplied : Nat

namespace FileSearchState

/-- The non-directories of an index. -/
def indexedNodes (index : FilesTree) : SearchablePaths :=
  ((index.nodes.values.filter (·.kind ≠ .directory)).map TreeNode.indexed).foldl Table.insert ∅

def new (index : FilesTree) : FileSearchState where
  editing := true
  query := ""
  index
  searchable := indexedNodes index
  matchedPaths := ∅
  pendingDirectories := [[]]
  running := none
  runningDirectories := []
  pageCancel := false
  projectionCancel := false
  jobGeneration := 0
  scanEpoch := 0
  scannedEntries := (indexedNodes index).size
  examinedEntries := 0
  skippedDirectories := 0
  complete := false
  truncated := false
  projectionRequested := 0
  projectionSubmitted := 0
  projectionApplied := 0

variable (search : FileSearchState)

def active : Bool := search.query ≠ ""

def shouldScan : Bool := search.editing || search.active

def syncVirtualEntries : FileSearchState :=
  { search with
    searchable := (search.index.virtualNodes.map TreeNode.indexed).foldl Table.insert
      (search.searchable.filter fun indexed => indexed.kind ≠ .virtual ||
        (search.index.nodes.get? indexed.path).any (·.kind = .virtual)) }

/-- What a completed status refresh does to a search. -/
def syncStatusFrom (tree : FilesTree) : FileSearchState :=
  syncVirtualEntries { search with index := search.index.syncStatusOverlayFrom tree }

/-- `restart_search_scan`, the flag of the page under way aside. -/
def restartScan : FileSearchState :=
  { search with
    pageCancel := false
    scanEpoch := saturatingAdd search.scanEpoch 1
    running := none
    runningDirectories := []
    pendingDirectories := [[]]
    scannedEntries := (search.searchable.values.filter (·.kind = .virtual)).length
    examinedEntries := 0
    skippedDirectories := 0
    complete := false
    truncated := false }

/-- What a page starting now is to do. -/
def nextPage : PageJob where
  epoch := search.scanEpoch
  loader := search.index.loader
  request :=
    { index := search.index
      searchable := search.searchable
      directories := search.pendingDirectories.take directoriesPerPage
      remainingEntries := maxIndexEntries - search.scannedEntries
      remainingExamined := maxExaminedEntries - search.examinedEntries }

/-- `start_next_search_page` while the background is active; the flag tells of a
refused page. -/
def startNextPage (pages : JobSlot PageJob) : FileSearchState × JobSlot PageJob × Option Bool :=
  if search.running.isSome || !search.shouldScan || search.complete then (search, pages, none)
  else if maxIndexEntries ≤ search.scannedEntries ∨ maxExaminedEntries ≤ search.examinedEntries then
    ({ search with truncated := true, complete := true, pendingDirectories := [] }, pages, none)
  else if search.pendingDirectories = [] then ({ search with complete := true }, pages, none)
  else
    let generation := saturatingAdd search.jobGeneration 1
    let submitted := pages.submit generation search.nextPage
    if submitted.2 then
      ({ search with
        pendingDirectories := search.pendingDirectories.drop directoriesPerPage
        running := some (generation, search.scanEpoch)
        runningDirectories := search.pendingDirectories.take directoriesPerPage
        pageCancel := true
        jobGeneration := generation }, submitted.1, some true)
    else (search, submitted.1, some false)

/-- A page of the scan that is under way is written over the live copies. -/
def applyPage (page : PreparedSearchPage) : FileSearchState :=
  let pending := search.pendingDirectories ++ page.discoveredDirectories
  { search with
    index := page.index
    searchable := page.searchable
    pendingDirectories := if page.truncated then [] else pending
    scannedEntries := saturatingAdd search.scannedEntries page.scannedEntries
    examinedEntries := saturatingAdd search.examinedEntries page.examinedEntries
    skippedDirectories := saturatingAdd search.skippedDirectories page.skippedDirectories
    truncated := search.truncated || page.truncated
    complete := search.complete || page.truncated || pending.isEmpty }

/-- The search after its page has ended. -/
def pageEnded : FileSearchState :=
  { search with running := none, pageCancel := false, runningDirectories := [] }

def requeuePage : FileSearchState :=
  { search.pageEnded with pendingDirectories := search.runningDirectories ++ search.pendingDirectories }

/-- `pause_background`, the flags of the jobs under way aside. -/
def pause : FileSearchState :=
  let paused :=
    if search.running.isSome then
      { search with
        pageCancel := false
        running := none
        runningDirectories := []
        pendingDirectories := search.runningDirectories ++ search.pendingDirectories
        scanEpoch := saturatingAdd search.scanEpoch 1 }
    else { search with pageCancel := false }
  if paused.projectionCancel then
    { paused with
      projectionCancel := false
      projectionRequested := saturatingAdd paused.projectionRequested 1 }
  else paused

/-- `clear_search_projection`. -/
def clearProjection : FileSearchState :=
  { search with
    projectionCancel := false
    projectionRequested := saturatingAdd search.projectionRequested 1
    projectionApplied := saturatingAdd search.projectionRequested 1
    matchedPaths := ∅ }

/-- The characters of an input that still fit the query. -/
def appendQuery (query : String) : List Char → String
  | [] => query
  | character :: rest =>
    if maxQueryBytes < query.utf8ByteSize + character.utf8Size then query
    else appendQuery (query.push character) rest

end FileSearchState

end HerdrContext.Files
