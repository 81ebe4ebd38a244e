import HerdrContext.KnownStores.Store

/-! The session files of a store, as each format's layout tells them from other
entries. A cancelled listing returns early; its caller looks at the flag right
after it and drops what was listed, so the flag is left to the caller. -/
namespace HerdrContext.KnownStores

open Library

/-- The paths and errors that `list_candidates` returns. -/
structure Inventory where
  paths : List RelativePath
  errors : List SourceError

/-- The running state of a listing. -/
structure Walk where
  visited : Nat := 0
  children : List RelativePath := []
  files : List RelativePath := []
  compressedSeen : Bool := false
  errors : List SourceError := []

namespace Walk

def push (walk : Walk) (error : SourceError) : Walk :=
  { walk with errors := walk.errors ++ [error] }

/-- The walk at its end, whether it ran through or returned early. -/
def ended : Except Walk Walk → Walk
  | .ok walk => walk
  | .error walk => walk

def inventory (walk : Walk) : Inventory := ⟨walk.files, walk.errors⟩

end Walk

def jsonlExtension : OsString := [106, 115, 111, 110, 108]

def isSessionName (name : FileName) : Bool := name.extension = some jsonlExtension

section

variable (root : PathBuf) (view : StoreView)

/-! ## Claude Code -/

namespace ClaudeCode

def maxProjectDirectories : Nat := 2000
def maxVisitedEntries : Nat := maxCandidatePaths + maxProjectDirectories

/-- The project's own directory first, then by name. -/
def directoryBefore (expected : OsString) (left right : FileName) : Prop :=
  (left.bytes = expected ∧ right.bytes ≠ expected) ∨
    ((left.bytes = expected ↔ right.bytes = expected) ∧ left ≤ right)

instance (expected : OsString) : DecidableRel (directoryBefore expected) := fun _ _ => by
  unfold directoryBefore
  infer_instance

def listEntry (directory : FileName) (walk : Walk) (entry : FileName × EntryKind) :
    Except Walk Walk :=
  if walk.visited = maxVisitedEntries then
    .error (walk.push (inventoryError .claudeCode (storeItself root)
      "Claude projects store exceeds the bounded traversal budget"))
  else
    let walk := { walk with visited := walk.visited + 1 }
    if entry.2 = .file ∧ isSessionName entry.1 then
      if walk.files.length = maxCandidatePaths then
        .error (walk.push (inventoryError .claudeCode (storeItself root)
          "Claude projects store exceeds the bounded session inventory"))
      else .ok { walk with files := walk.files ++ [[directory, entry.1]] }
    else if entry.2 = .directory then .ok walk
    else
      .ok (walk.push (shapeError .claudeCode (root.join [directory, entry.1])
        "Claude store entry is outside the verified flat JSONL layout"))

def listProject (walk : Walk) (directory : FileName) : Except Walk Walk :=
  match view.listDirectory [directory] with
  | .error error =>
    .ok (walk.push (listingError .claudeCode (root.join [directory])
      "Claude project store cannot be listed" error))
  | .ok entries => entries.foldlM (listEntry root directory) walk

def strayError (name : FileName) : SourceError :=
  shapeError .claudeCode (root.join [name]) "Claude projects store contains a non-directory entry"

def listStore (expected : OsString) (entries : List (FileName × EntryKind)) : Walk :=
  let directories := ((entries.filter (·.2 = .directory)).map (·.1)).insertionSort
    (directoryBefore expected)
  let walk : Walk := {
    visited := entries.length
    errors := (entries.filter (·.2 ≠ .directory)).map fun entry => strayError root entry.1 }
  let walk := if maxProjectDirectories < directories.length then
      walk.push (inventoryError .claudeCode (storeItself root)
        "Claude projects store exceeds the bounded directory inventory")
    else walk
  .ended ((directories.take maxProjectDirectories).foldlM (listProject root view) walk)

def listCandidates (project : ProjectIdentity) : Inventory :=
  match view.listDirectory [] with
  | .error .notFound => ⟨[], []⟩
  | .error error =>
    ⟨[], [listingError .claudeCode (storeItself root) "Claude projects store cannot be listed"
      error]⟩
  | .ok entries => (listStore root view (claudeProjectDirectory project.root) entries).inventory

end ClaudeCode

/-! ## Codex CLI -/

namespace CodexCli

def maxLayoutDirectories : Nat := 2000
def maxVisitedEntries : Nat := maxCandidatePaths + 3 * maxLayoutDirectories

def validDateName (depth : Nat) (name : FileName) : Bool :=
  (toStr name.bytes).any fun text => validDateComponent depth text.toList

/-- `codex_file_name(name).is_some()`. -/
def isRolloutName (name : FileName) : Bool :=
  (toStr name.bytes).any fun text =>
    "rollout-".toList.isPrefixOf text.toList && ".jsonl".toList.isSuffixOf text.toList

def isCompressedName (name : FileName) : Bool :=
  (toStr name.bytes).any fun text =>
    "rollout-".toList.isPrefixOf text.toList && ".jsonl.zst".toList.isSuffixOf text.toList

def overBudget (walk : Walk) : Walk :=
  walk.push (inventoryError .codexCli (storeItself root)
    "Codex store exceeds the bounded traversal budget")

def listDateEntry (depth : Nat) (directory : RelativePath) (walk : Walk)
    (entry : FileName × EntryKind) : Except Walk Walk :=
  if walk.visited = maxVisitedEntries then .error (overBudget root walk)
  else
    let walk := { walk with visited := walk.visited + 1 }
    let relative := directory ++ [entry.1]
    if entry.2 = .directory ∧ validDateName depth entry.1 then
      .ok { walk with children := walk.children ++ [relative] }
    else
      .ok (walk.push (shapeError .codexCli (root.join relative)
        "Codex store entry is outside the verified YYYY/MM/DD layout"))

def listDateDirectory (depth : Nat) (walk : Walk) (directory : RelativePath) : Except Walk Walk :=
  match view.listDirectory directory with
  | .error .notFound => .ok walk
  | .error error =>
    .ok (walk.push (listingError .codexCli (root.join directory)
      "Codex date directory cannot be listed" error))
  | .ok entries => entries.foldlM (listDateEntry root depth directory) walk

/-- One of the three date levels; the directories of the next are left in
`children`, latest first. -/
def listLevel (walk : Walk) (depth : Nat) : Except Walk Walk := do
  let listed ← walk.children.foldlM (listDateDirectory root view depth) { walk with children := [] }
  let children := listed.children.insertionSort fun left right => right ≤ left
  let listed := if maxLayoutDirectories < children.length then
      listed.push (inventoryError .codexCli (storeItself root)
        "Codex store exceeds the bounded date-directory inventory")
    else listed
  return { listed with children := children.take maxLayoutDirectories }

def listSessionEntry (directory : RelativePath) (walk : Walk) (entry : FileName × EntryKind) :
    Except Walk Walk :=
  if walk.visited = maxVisitedEntries then .error (overBudget root walk)
  else
    let walk := { walk with visited := walk.visited + 1 }
    let relative := directory ++ [entry.1]
    if entry.2 = .file ∧ isRolloutName entry.1 then
      if walk.files.length = maxCandidatePaths then
        .error (walk.push (inventoryError .codexCli (storeItself root)
          "Codex store exceeds the bounded session inventory"))
      else .ok { walk with files := walk.files ++ [relative] }
    else if entry.2 = .file ∧ isCompressedName entry.1 then
      -- reported once in the whole store
      if walk.compressedSeen then .ok walk
      else .ok { walk.push (shapeError .codexCli (root.join relative)
        "Codex compressed rollouts are not readable; keep the JSONL rollout available") with
          compressedSeen := true }
    else
      .ok (walk.push (shapeError .codexCli (root.join relative)
        "Codex session entry is outside the verified rollout JSONL layout"))

def listSessionDirectory (walk : Walk) (directory : RelativePath) : Except Walk Walk :=
  match view.listDirectory directory with
  | .error error =>
    .ok (walk.push (listingError .codexCli (root.join directory)
      "Codex session directory cannot be listed" error))
  | .ok entries => entries.foldlM (listSessionEntry root directory) walk

def listCandidates : Inventory :=
  let walk : Except Walk Walk := do
    let walk ← [0, 1, 2].foldlM (listLevel root view) { children := [[]] }
    walk.children.foldlM (listSessionDirectory root view) walk
  (Walk.ended walk).inventory

end CodexCli

/-! ## Pi and OMP -/

/-- The one directory of a project; OMP keeps further directories beside its sessions. -/
def listProjectDirectory (tool : Tool) (name : OsString) (ignored : EntryKind → Bool)
    (unlisted misplaced : String) : Inventory :=
  let listed : Except IoErrorKind (FileName × List (FileName × EntryKind)) := do
    let directory ← okOr .invalidInput (FileName.new? name)
    let entries ← view.listDirectory [directory]
    return (directory, entries)
  match listed with
  | .error .notFound => ⟨[], []⟩
  | .error error => ⟨[], [listingError tool ⟨root.bytes ++ slash :: name⟩ unlisted error]⟩
  | .ok (directory, entries) =>
    let isSession := fun entry : FileName × EntryKind => entry.2 = .file ∧ isSessionName entry.1
    ⟨(entries.filter isSession).map fun entry => [directory, entry.1],
      (entries.filter fun entry => ¬ isSession entry ∧ ¬ ignored entry.2).map fun entry =>
        shapeError tool (root.join [directory, entry.1]) misplaced⟩

def Pi.listCandidates (project : ProjectIdentity) : Inventory :=
  listProjectDirectory root view .pi (piProjectDirectory project.root) (fun _ => false)
    "Pi project store cannot be listed" "Pi store entry is outside the verified flat JSONL layout"

def Omp.listCandidates (home temp : PathBuf) (project : ProjectIdentity) : Inventory :=
  listProjectDirectory root view .omp (ompProjectDirectory project.root home temp)
    (· = .directory) "OMP project store cannot be listed"
    "OMP store entry is outside the verified flat JSONL layout"

end

def KnownFormat.listCandidates (format : KnownFormat) (root : PathBuf) (view : StoreView)
    (project : ProjectIdentity) : Inventory :=
  match format with
  | claudeCode => ClaudeCode.listCandidates root view project
  | codexCli => CodexCli.listCandidates root view
  | pi => Pi.listCandidates root view project
  | omp home temp => Omp.listCandidates root view home temp project

/-! ## Whose errors they are -/

/-- Every error so far carries the id. -/
def Walk.OwnedBy (id : SourceId) (walk : Walk) : Prop := ∀ error ∈ walk.errors, error.sourceId = id

theorem Walk.OwnedBy.push {id : SourceId} {walk : Walk} (h : walk.OwnedBy id) {error : SourceError}
    (herror : error.sourceId = id) : (walk.push error).OwnedBy id := by
  intro other hother
  rcases List.mem_append.mp hother with hold | hnew
  · exact h other hold
  · rw [List.mem_singleton.mp hnew]
    exact herror

/-- What every step of a walk keeps, the whole walk keeps. -/
theorem Walk.foldlM_keeps {α : Type} {visit : Walk → α → Except Walk Walk} {keeps : Walk → Prop}
    (hvisit : ∀ walk entry, keeps walk → keeps (Walk.ended (visit walk entry)))
    {entries : List α} {walk : Walk} (h : keeps walk) :
    keeps (Walk.ended (entries.foldlM visit walk)) := by
  induction entries generalizing walk with
  | nil => exact h
  | cons entry entries ih =>
    have hentry := hvisit walk entry h
    rw [List.foldlM_cons]
    cases hstep : visit walk entry with
    | error stopped =>
      rw [hstep] at hentry
      exact hentry
    | ok next =>
      rw [hstep] at hentry
      exact ih hentry

theorem ClaudeCode.owned_listEntry (root : PathBuf) (directory : FileName) (walk : Walk)
    (entry : FileName × EntryKind) (h : walk.OwnedBy Tool.claudeCode.sourceId) :
    (Walk.ended (listEntry root directory walk entry)).OwnedBy Tool.claudeCode.sourceId := by
  simp only [listEntry]
  split
  next => exact h.push rfl
  next =>
    split
    next =>
      split
      next => exact h.push rfl
      next => exact h
    next =>
      split
      next => exact h
      next => exact Walk.OwnedBy.push h rfl

theorem ClaudeCode.owned_listProject (root : PathBuf) (view : StoreView) (walk : Walk)
    (directory : FileName) (h : walk.OwnedBy Tool.claudeCode.sourceId) :
    (Walk.ended (listProject root view walk directory)).OwnedBy Tool.claudeCode.sourceId := by
  unfold listProject
  split
  next => exact h.push rfl
  next => exact Walk.foldlM_keeps (owned_listEntry root directory) h

theorem ClaudeCode.owned_listCandidates (root : PathBuf) (view : StoreView)
    (project : ProjectIdentity) : ∀ error ∈ (listCandidates root view project).errors,
      error.sourceId = Tool.claudeCode.sourceId := by
  unfold listCandidates
  split
  next => simp
  next => simp [listingError]
  next entries hentries =>
    apply Walk.foldlM_keeps (owned_listProject root view)
    have hstray : Walk.OwnedBy Tool.claudeCode.sourceId {
        visited := entries.length
        errors := (entries.filter (·.2 ≠ .directory)).map fun entry => strayError root entry.1 } := by
      intro error herror
      obtain ⟨entry, -, rfl⟩ := List.mem_map.mp herror
      rfl
    split
    next => exact hstray.push rfl
    next => exact hstray

theorem CodexCli.owned_listDateEntry (root : PathBuf) (depth : Nat) (directory : RelativePath)
    (walk : Walk) (entry : FileName × EntryKind) (h : walk.OwnedBy Tool.codexCli.sourceId) :
    (Walk.ended (listDateEntry root depth directory walk entry)).OwnedBy
      Tool.codexCli.sourceId := by
  simp only [listDateEntry]
  split
  next => exact h.push rfl
  next =>
    split
    next => exact h
    next => exact Walk.OwnedBy.push h rfl

theorem CodexCli.owned_listDateDirectory (root : PathBuf) (view : StoreView) (depth : Nat)
    (walk : Walk) (directory : RelativePath) (h : walk.OwnedBy Tool.codexCli.sourceId) :
    (Walk.ended (listDateDirectory root view depth walk directory)).OwnedBy
      Tool.codexCli.sourceId := by
  unfold listDateDirectory
  split
  next => exact h
  next => exact h.push rfl
  next => exact Walk.foldlM_keeps (owned_listDateEntry root depth directory) h

theorem CodexCli.owned_listLevel (root : PathBuf) (view : StoreView) (walk : Walk) (depth : Nat)
    (h : walk.OwnedBy Tool.codexCli.sourceId) :
    (Walk.ended (listLevel root view walk depth)).OwnedBy Tool.codexCli.sourceId := by
  have hlisted : (Walk.ended (walk.children.foldlM (listDateDirectory root view depth)
      { walk with children := [] })).OwnedBy Tool.codexCli.sourceId :=
    Walk.foldlM_keeps (owned_listDateDirectory root view depth) h
  unfold listLevel
  cases hrun : walk.children.foldlM (listDateDirectory root view depth)
      { walk with children := [] } with
  | error stopped =>
    rw [hrun] at hlisted
    exact hlisted
  | ok listed =>
    rw [hrun] at hlisted
    simp only [ok_bind]
    split
    next => exact hlisted.push rfl
    next => exact hlisted

theorem CodexCli.owned_listSessionEntry (root : PathBuf) (directory : RelativePath) (walk : Walk)
    (entry : FileName × EntryKind) (h : walk.OwnedBy Tool.codexCli.sourceId) :
    (Walk.ended (listSessionEntry root directory walk entry)).OwnedBy Tool.codexCli.sourceId := by
  simp only [listSessionEntry]
  split
  next => exact h.push rfl
  next =>
    split
    next =>
      split
      next => exact h.push rfl
      next => exact h
    next =>
      split
      next =>
        split
        next => exact h
        next => exact Walk.OwnedBy.push h rfl
      next => exact Walk.OwnedBy.push h rfl

theorem CodexCli.owned_listSessionDirectory (root : PathBuf) (view : StoreView) (walk : Walk)
    (directory : RelativePath) (h : walk.OwnedBy Tool.codexCli.sourceId) :
    (Walk.ended (listSessionDirectory root view walk directory)).OwnedBy
      Tool.codexCli.sourceId := by
  unfold listSessionDirectory
  split
  next => exact h.push rfl
  next => exact Walk.foldlM_keeps (owned_listSessionEntry root directory) h

theorem CodexCli.owned_listCandidates (root : PathBuf) (view : StoreView) :
    ∀ error ∈ (listCandidates root view).errors, error.sourceId = Tool.codexCli.sourceId := by
  have hlevels : (Walk.ended ([0, 1, 2].foldlM (listLevel root view)
      { children := [[]] })).OwnedBy Tool.codexCli.sourceId :=
    Walk.foldlM_keeps (owned_listLevel root view) (by simp [Walk.OwnedBy])
  unfold listCandidates
  cases hrun : [0, 1, 2].foldlM (listLevel root view) { children := [[]] } with
  | error stopped =>
    rw [hrun] at hlevels
    exact hlevels
  | ok walk =>
    rw [hrun] at hlevels
    exact Walk.foldlM_keeps (owned_listSessionDirectory root view) hlevels

theorem owned_listProjectDirectory (root : PathBuf) (view : StoreView) (tool : Tool)
    (name : OsString) (ignored : EntryKind → Bool) (unlisted misplaced : String) :
    ∀ error ∈ (listProjectDirectory root view tool name ignored unlisted misplaced).errors,
      error.sourceId = tool.sourceId := by
  simp only [listProjectDirectory]
  split
  next => simp
  next => simp [listingError]
  next =>
    intro error herror
    obtain ⟨entry, -, rfl⟩ := List.mem_map.mp herror
    rfl

/-- Listing errors carry the built-in id of the tool, whatever the source's own id is. -/
theorem KnownFormat.owned_listCandidates (format : KnownFormat) (root : PathBuf)
    (view : StoreView) (project : ProjectIdentity) :
    ∀ error ∈ (format.listCandidates root view project).errors,
      error.sourceId = format.tool.sourceId := by
  cases format with
  | claudeCode => exact ClaudeCode.owned_listCandidates root view project
  | codexCli => exact CodexCli.owned_listCandidates root view
  | pi => exact owned_listProjectDirectory root view .pi _ _ _ _
  | omp home temp => exact owned_listProjectDirectory root view .omp _ _ _ _

end HerdrContext.KnownStores
