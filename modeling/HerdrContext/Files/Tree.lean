import HerdrContext.Files.Ignore
import HerdrContext.Files.Status
import HerdrContext.Library.Table

/-! The lazily loaded files tree with the VCS status laid over it. -/
namespace HerdrContext.Files

open Library

inductive TreeNodeKind where
  | directory | file | symlink | virtual
  deriving DecidableEq, Repr

structure TreeNode where
  path : RelativePath
  kind : TreeNodeKind
  status : Option VcsStatusKind
  ignored : Bool
  deriving DecidableEq

/-- Flat, file-level VCS change derived from the latest accepted status snapshot. -/
structure ChangedFile where
  path : RelativePath
  kind : VcsStatusKind
  missing : Bool
  deriving DecidableEq

abbrev TreeNodes := Table RelativePath TreeNode.path

/-- One directory's children as they were listed. -/
structure DirectorySnapshot where
  directory : RelativePath
  nodes : List TreeNode
  direct : ∀ node ∈ nodes, ∃ name, node.path = directory ++ [name]
  physical : ∀ node ∈ nodes, node.kind ≠ .virtual

def VisibleEntryKind.treeKind : VisibleEntryKind → TreeNodeKind
  | .directory => .directory
  | .file => .file
  | .symlink => .symlink

/-- `DirectoryLoader::snapshot`. -/
def DirectorySnapshot.ofEntries (directory : RelativePath) (entries : List VisibleEntry) :
    DirectorySnapshot where
  directory
  nodes := entries.map fun entry =>
    { path := directory ++ [entry.name]
      kind := entry.kind.treeKind
      status := none
      ignored := entry.ignored }
  direct := by
    intro node hnode
    have ⟨entry, _, hentry⟩ := List.mem_map.mp hnode
    exact ⟨entry.name, hentry ▸ rfl⟩
  physical := by
    intro node hnode
    have ⟨entry, _, hentry⟩ := List.mem_map.mp hnode
    subst hentry
    cases entry.kind <;> simp [VisibleEntryKind.treeKind]

structure FilesTree where
  loader : IgnorePolicy
  nodes : TreeNodes
  statuses : Statuses
  changedFiles : List ChangedFile
  selection : Option RelativePath

/-- `DirectoryLoader::load`. -/
def IgnorePolicy.load (loader : IgnorePolicy) (root : FilesRoot) (directory : RelativePath) :
    Except IoErrorKind DirectorySnapshot := do
  let batch ← visibleEntriesWithBounds root loader directory none
  return .ofEntries directory batch.entries

/-! ## Children -/

section
variable (nodes : TreeNodes)

def isDirectoryNode (path : RelativePath) : Bool :=
  (nodes.get? path).any (·.kind = .directory)

/-- A deleted path is shown below the nearest directory the tree knows. -/
def displayParent (node : TreeNode) : RelativePath :=
  if node.kind ≠ .virtual then parentPath node.path
  else ((ancestors node.path).tail.find? fun ancestor =>
    ancestor = [] ∨ isDirectoryNode nodes ancestor).getD []

def nodeOrder (node : TreeNode) : Nat := if node.kind = .directory then 0 else 1

/-- Directories first, then by path. -/
def shownBefore (left right : TreeNode) : Prop :=
  nodeOrder left < nodeOrder right ∨
    nodeOrder left = nodeOrder right ∧ (compare left.path right.path).isLE

instance : DecidableRel shownBefore := fun _ _ => by
  unfold shownBefore
  infer_instance

/-- The index `rebuild_children` computes at the end of every operation that
changes the nodes. -/
def childNodes (directory : RelativePath) : List TreeNode :=
  (nodes.values.filter fun node => displayParent nodes node = directory).insertionSort shownBefore

end

namespace FilesTree

/-- `for_workspace_with_visibility`. -/
def empty (loader : IgnorePolicy) : FilesTree where
  loader
  nodes := ∅
  statuses := ∅
  changedFiles := []
  selection := none

def children (tree : FilesTree) (directory : RelativePath) : List TreeNode :=
  childNodes tree.nodes directory

def withShowIgnored (tree : FilesTree) (showIgnored : Bool) : FilesTree :=
  { tree with loader := tree.loader.rescoped showIgnored }

/-! ## Selection -/

def orderedFirstPath (tree : FilesTree) : Option RelativePath :=
  (tree.children []).head?.map (·.path)

def restoreSelection (tree : FilesTree) : FilesTree :=
  match tree.selection with
  | none => { tree with selection := tree.orderedFirstPath }
  | some selected =>
    if (tree.nodes.get? selected).isSome then tree
    else { tree with
      selection := ((ancestors selected).tail.find? fun ancestor =>
        (tree.nodes.get? ancestor).isSome).or tree.orderedFirstPath }

def restoreSelectionFrom (tree : FilesTree) (selected : Option RelativePath) : FilesTree :=
  { tree with selection := selected }.restoreSelection

/-- The flag says whether the path is in the tree. -/
def select (tree : FilesTree) (path : RelativePath) : FilesTree × Bool :=
  if (tree.nodes.get? path).isSome then ({ tree with selection := some path }, true)
  else (tree, false)

/-! ## Directory loads -/

section
variable (tree : FilesTree) (snapshot : DirectorySnapshot)

/-- The listed nodes with the statuses of the last merge. -/
def loadedNodes : List TreeNode :=
  snapshot.nodes.map fun node => { node with status := tree.statuses[node.path]? }

def loadedPaths : List RelativePath := snapshot.nodes.map (·.path)

/-- Children of the directory that the listing no longer shows. -/
def removedPaths : List RelativePath :=
  (tree.nodes.values.filter fun node => node.kind ≠ .virtual ∧
    parentPath node.path = snapshot.directory ∧ node.path ∉ loadedPaths snapshot).map (·.path)

/-- Directories whose path is listed as something else now. -/
def replacedDirectories : List RelativePath :=
  (snapshot.nodes.filter fun node => node.kind ≠ .directory ∧
    isDirectoryNode tree.nodes node.path).map (·.path)

/-- What `retain` keeps of the nodes before the listing is entered. -/
def keeps (node : TreeNode) : Bool :=
  node.kind = .virtual ∨
    ((ancestors node.path).tail.all fun ancestor =>
      ancestor ∉ tree.removedPaths snapshot ∧ ancestor ∉ tree.replacedDirectories snapshot) ∧
    (parentPath node.path ≠ snapshot.directory ∨ node.path ∈ loadedPaths snapshot)

def applyDirectory : FilesTree :=
  { tree with
    nodes := (tree.loadedNodes snapshot).foldl Table.insert
      (tree.nodes.filter (tree.keeps snapshot)) }.restoreSelection

end

/-- `load_directory`; a directory that cannot be read leaves the tree as it is. -/
def loadDirectory (root : FilesRoot) (tree : FilesTree) (directory : RelativePath) :
    Except IoErrorKind FilesTree := do
  let snapshot ← tree.loader.load root directory
  return tree.applyDirectory snapshot

/-! ## Status merges -/

abbrev Candidates := MeetTable RelativePath VcsStatusKind

/-- What the loop over a snapshot collects. -/
structure Collected where
  statuses : Statuses
  virtualCandidates : Candidates
  changed : Changed

section
variable (isVisible : RelativePath → Bool) (filesPrefix : RelativePath)

/-- The path below the files root, if it is there and visible. -/
def visibleIn (path : RelativePath) : Option RelativePath :=
  (stripPrefix filesPrefix path).filter isVisible

def collectEntry (collected : Collected) (entry : VcsEntryStatus) : Collected :=
  let own :=
    match visibleIn isVisible filesPrefix entry.path with
    | none => collected
    | some path =>
      { statuses := insertStatusWithAncestors collected.statuses path entry.kind
        changed := upsertChangedFile collected.changed path entry.kind false
        virtualCandidates :=
          if entry.deletes then insertPreferredStatus collected.virtualCandidates path entry.kind
          else collected.virtualCandidates }
  match entry.sourcePath.bind (visibleIn isVisible filesPrefix) with
  | none => own
  | some path =>
    { own with
      virtualCandidates := insertPreferredStatus own.virtualCandidates path entry.kind }

def collectEntries (entries : List VcsEntryStatus) : Collected :=
  entries.foldl (collectEntry isVisible filesPrefix) ⟨∅, ∅, ∅⟩

end

/-- What the loop over the candidates makes of the paths that are not found. -/
structure Resolved where
  statuses : Statuses
  changed : Changed
  virtualNodes : List TreeNode

section
variable (lookup : RelativePath → Except IoErrorKind VisibleEntryKind)

def resolveCandidate (resolved : Resolved) (candidate : RelativePath × VcsStatusKind) : Resolved :=
  match lookup candidate.1 with
  | .error .notFound =>
    { statuses := insertStatusWithAncestors resolved.statuses candidate.1 candidate.2
      changed := upsertChangedFile resolved.changed candidate.1 candidate.2 true
      virtualNodes := resolved.virtualNodes ++
        [{ path := candidate.1, kind := .virtual, status := some candidate.2, ignored := false }] }
  | _ => resolved

def resolveCandidates (collected : Collected) : Resolved :=
  collected.virtualCandidates.toList.foldl (resolveCandidate lookup)
    ⟨collected.statuses, collected.changed, []⟩

end

/-- The nodes under new statuses and with other virtual nodes. -/
def overlay (nodes : TreeNodes) (statuses : Statuses) (virtualNodes : List TreeNode) : TreeNodes :=
  virtualNodes.foldl Table.insert
    ((nodes.filter (·.kind ≠ .virtual)).mapValues
      (fun node => { node with status := statuses[node.path]? }) fun _ => rfl)

def changedList (changed : Changed) : List ChangedFile :=
  changed.toList.map fun (path, kind, missing) => ⟨path, kind, OrderDual.ofDual missing⟩

/-- `merge_workspace_status`, with what `symlink_metadata` answers. It never fails. -/
def mergeWorkspaceStatus (lookup : RelativePath → Except IoErrorKind VisibleEntryKind)
    (tree : FilesTree) (snapshot : VcsStatusSnapshot) (filesPrefix : RelativePath) : FilesTree :=
  let resolved := resolveCandidates lookup
    (collectEntries tree.loader.isVisible filesPrefix snapshot.entries)
  { tree with
    nodes := overlay tree.nodes resolved.statuses resolved.virtualNodes
    statuses := resolved.statuses
    changedFiles := changedList resolved.changed }.restoreSelection

def virtualNodes (tree : FilesTree) : List TreeNode :=
  tree.nodes.values.filter (·.kind = .virtual)

def syncStatusOverlayFrom (tree source : FilesTree) : FilesTree :=
  { tree with
    nodes := overlay tree.nodes source.statuses source.virtualNodes
    statuses := source.statuses
    changedFiles := source.changedFiles }.restoreSelection

end FilesTree

end HerdrContext.Files
