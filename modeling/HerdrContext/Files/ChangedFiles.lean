import HerdrContext.Files.Merge

/-! The list of changed files, the missing paths and the statuses a merge shows. -/
namespace HerdrContext.Files

open Library FilesTree

/-- A lookup says that nothing is there where the directory opens or is not
there itself; a file or a link in its place is another error. -/
theorem FilesRoot.symlinkMetadata_eq_notFound_iff {root : FilesRoot} {path : RelativePath}
    (hne : path ≠ []) :
    root.symlinkMetadata path = .error .notFound ↔ root.Absent path ∧
      (root.openDirectory (parentPath path) = .ok () ∨
        root.openDirectory (parentPath path) = .error .notFound) := by
  constructor
  · intro h
    refine ⟨absent_of_symlinkMetadata h, ?_⟩
    rw [symlinkMetadata, if_neg hne] at h
    cases hopen : root.openDirectory (parentPath path) with
    | ok _ => exact Or.inl rfl
    | error kind =>
      rw [hopen] at h
      cases h
      exact Or.inr rfl
  · rintro ⟨habsent, hopen | hopen⟩
    · rw [symlinkMetadata, if_neg hne, hopen, ok_bind]
      exact habsent
    · rw [symlinkMetadata, if_neg hne, hopen]
      rfl

section
variable {lookup : RelativePath → Except IoErrorKind VisibleEntryKind} {tree : FilesTree}
  {snapshot : VcsStatusSnapshot} {filesPrefix : RelativePath}

theorem mem_changedFiles_merge {file : ChangedFile} :
    file ∈ (mergeWorkspaceStatus lookup tree snapshot filesPrefix).changedFiles ↔
      IsLeast (Contributed tree.loader.isVisible filesPrefix lookup snapshot.entries file.path)
        file.kind ∧
      (file.missing = true ↔
        Missing tree.loader.isVisible filesPrefix lookup snapshot.entries file.path) := by
  rw [changedFiles_merge, mem_changedList]
  have hkind : MeetOf
      (Contributed tree.loader.isVisible filesPrefix lookup snapshot.entries file.path)
      (((enteredChanges tree.loader.isVisible filesPrefix lookup snapshot.entries).foldl meetInto
        (∅ : Changed))[file.path]?.map Prod.fst) := meetOf_changedKind
  constructor
  · intro hget
    rw [hget] at hkind
    exact ⟨hkind.isLeast (Set.toFinite _), missing_of_changed hget⟩
  · rintro ⟨hleast, hmissing⟩
    have hsome := hkind.isSome_iff.mpr ⟨file.kind, hleast.1⟩
    rw [Option.isSome_map] at hsome
    have ⟨⟨kind, flag⟩, hget⟩ := Option.isSome_iff_exists.mp hsome
    rw [hget] at hkind
    have hsame : kind = file.kind := (hkind.isLeast (Set.toFinite _)).unique hleast
    have hflag : OrderDual.ofDual flag = file.missing :=
      Bool.eq_iff_iff.mpr ((missing_of_changed hget).trans hmissing.symm)
    rw [hget, hsame, ← hflag]
    rfl

theorem statuses_merge_eq_some_iff {path : RelativePath} {kind : VcsStatusKind} :
    (mergeWorkspaceStatus lookup tree snapshot filesPrefix).statuses[path]? = some kind ↔
      IsLeast (Reaching tree.loader.isVisible filesPrefix lookup snapshot.entries path) kind := by
  rw [statuses_merge]
  have hmeet : MeetOf (Reaching tree.loader.isVisible filesPrefix lookup snapshot.entries path)
      ((spreadAll (enteredKinds tree.loader.isVisible filesPrefix lookup
        snapshot.entries)).foldl meetInto (∅ : Statuses))[path]? := meetOf_statuses
  constructor
  · intro hget
    rw [hget] at hmeet
    exact hmeet.isLeast (Set.toFinite _)
  · intro hleast
    have hkept : MeetOf
        (Reaching tree.loader.isVisible filesPrefix lookup snapshot.entries path) (some kind) :=
      ⟨⟨kind, hleast.1⟩, hleast.isGLB⟩
    exact hmeet.unique hkept

theorem status_merge {path : RelativePath} {node : TreeNode}
    (hget : (mergeWorkspaceStatus lookup tree snapshot filesPrefix).nodes.get? path = some node)
    (hkind : node.kind ≠ .virtual) :
    node.status = (mergeWorkspaceStatus lookup tree snapshot filesPrefix).statuses[path]? := by
  rw [nodes_merge] at hget
  cases mem_overlay hget with
  | inl hmem =>
    have ⟨candidate, _, heq⟩ := List.mem_map.mp hmem
    exact absurd (by rw [← heq]; rfl) hkind
  | inr hold =>
    have ⟨_, old, _, _, heq⟩ := hold
    rw [heq]

end

/-- The changed files are strictly sorted and list the visible entries and the
missing sources, each with its strongest kind; the missing ones are the
deletions and sources whose lookup finds nothing, they alone have a virtual node,
and nothing is on disk there; every physical node shows the strongest status
that reaches its path. -/
theorem changed_files_law (root : FilesRoot) (tree : FilesTree) (snapshot : VcsStatusSnapshot)
    (filesPrefix : RelativePath) :
    let merged := mergeWorkspaceStatus root.symlinkMetadata tree snapshot filesPrefix
    let isVisible := tree.loader.isVisible
    let missing := Missing isVisible filesPrefix root.symlinkMetadata snapshot.entries
    (merged.changedFiles.Pairwise fun left right => compare left.path right.path = .lt) ∧
    (∀ file, file ∈ merged.changedFiles ↔
      IsLeast (Contributed isVisible filesPrefix root.symlinkMetadata snapshot.entries file.path)
        file.kind ∧ (file.missing = true ↔ missing file.path)) ∧
    (∀ path, missing path ↔ path ≠ [] ∧ root.Absent path ∧
      (root.openDirectory (parentPath path) = .ok () ∨
        root.openDirectory (parentPath path) = .error .notFound) ∧
      ∃ kind, IsDeletion isVisible filesPrefix snapshot.entries path kind ∨
        IsSource isVisible filesPrefix snapshot.entries path kind) ∧
    (∀ path, (∃ node, merged.nodes.get? path = some node ∧ node.kind = .virtual) ↔
      missing path) ∧
    (∀ path node, merged.nodes.get? path = some node → node.kind ≠ .virtual →
      ∀ kind, node.status = some kind ↔
        IsLeast (Reaching isVisible filesPrefix root.symlinkMetadata snapshot.entries path) kind) := by
  intro merged isVisible missing
  refine ⟨?_, fun file => mem_changedFiles_merge, fun path => ?_, fun path => exists_virtual_merge, ?_⟩
  · rw [changedFiles_merge]
    exact pairwise_changedList _
  · by_cases hne : path = []
    · constructor
      · rintro ⟨hlookup, _⟩
        rw [FilesRoot.symlinkMetadata, if_pos hne] at hlookup
        contradiction
      · exact fun h => absurd hne h.1
    · have hlookup := root.symlinkMetadata_eq_notFound_iff hne
      constructor
      · rintro ⟨hmissing, hcandidate⟩
        obtain ⟨habsent, hopen⟩ := hlookup.mp hmissing
        exact ⟨hne, habsent, hopen, hcandidate⟩
      · rintro ⟨_, habsent, hopen, hcandidate⟩
        exact ⟨hlookup.mpr ⟨habsent, hopen⟩, hcandidate⟩
  · intro path node hget hkind kind
    rw [status_merge hget hkind]
    exact statuses_merge_eq_some_iff

namespace Sample

def nameA : FileName := ⟨[97], by decide⟩
def nameB : FileName := ⟨[98], by decide⟩

/-- A files root with one regular file `a` and nothing else. -/
def oneFile : FilesRoot where
  stat path := if path = [nameA] then .ok .file else .error .notFound
  openable _ := true
  listing _ := .ok [some nameA]
  matchers _ := .ok ⟨fun _ _ => false, false⟩
  parent_directory := by
    intro directory name h
    split at h
    next heq =>
      left
      have hlength := congrArg List.length heq
      simpa using hlength
    next => contradiction

/-- A files root with nothing in it. -/
def nothing : FilesRoot where
  stat _ := .error .notFound
  openable _ := true
  listing _ := .ok []
  matchers _ := .ok ⟨fun _ _ => false, false⟩
  parent_directory := fun _ _ h => absurd rfl h

def deletion (path : RelativePath) (kind : VcsStatusKind) (h : path ≠ [])
    (hkind : ¬ (kind = .renamed ∨ kind = .copied)) : VcsEntryStatus where
  path
  sourcePath := none
  kind
  indexState := none
  worktreeState := some .deleted
  path_ne_nil := h
  source_ne_nil := by simp
  moved_source := fun hmoved => absurd hmoved hkind

def tree : FilesTree := .empty ⟨fun _ => true, false⟩

theorem nameA_ne_nil : [nameA] ≠ [] := List.cons_ne_nil _ _

theorem deleted_unmoved :
    ¬ (VcsStatusKind.deleted = .renamed ∨ VcsStatusKind.deleted = .copied) := by
  simp

/-- The deletion of `a/b`. -/
def deletedBelow : VcsStatusSnapshot :=
  ⟨[deletion [nameA, nameB] .deleted (by simp) deleted_unmoved], false⟩

/-- The deletion of `a` and a conflict about the deleted `a/b`. -/
def conflictBelow : VcsStatusSnapshot :=
  ⟨[deletion [nameA] .deleted nameA_ne_nil deleted_unmoved,
    deletion [nameA, nameB] .conflicted (by simp) (by simp)], false⟩

end Sample

open Sample in
/-- Where a file took the place of the parent the deleted path is not marked as
missing and has no virtual node, and a virtual node does not show a conflict
below it. -/
theorem missing_behind_file :
    (⟨[nameA, nameB], .deleted, false⟩ : ChangedFile) ∈
      (mergeWorkspaceStatus oneFile.symlinkMetadata tree deletedBelow []).changedFiles ∧
    (mergeWorkspaceStatus oneFile.symlinkMetadata tree deletedBelow []).nodes.get? [nameA, nameB] =
      none ∧
    oneFile.Absent [nameA, nameB] ∧
    IsDeletion (fun _ => true) [] deletedBelow.entries [nameA, nameB] .deleted ∧
    (mergeWorkspaceStatus nothing.symlinkMetadata tree conflictBelow []).nodes.get? [nameA] =
      some ⟨[nameA], .virtual, some .deleted, false⟩ ∧
    VcsStatusKind.conflicted ∈ Reaching (fun _ => true) [] nothing.symlinkMetadata
      conflictBelow.entries [nameA] ∧
    VcsStatusKind.conflicted < .deleted := by
  refine ⟨by decide +kernel, by decide +kernel, rfl, ?_, by decide +kernel, ?_, by decide⟩
  · exact ⟨_, List.mem_cons_self, rfl, rfl, rfl⟩
  · refine ⟨by simp, Or.inr ⟨[nameA, nameB], by simp, by simp, .conflicted, Or.inl ?_, rfl⟩⟩
    exact ⟨_, List.mem_cons_of_mem _ List.mem_cons_self, rfl, rfl⟩

end HerdrContext.Files
