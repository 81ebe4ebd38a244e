import HerdrContext.Files.Merge

/-! What a directory load leaves of a tree. -/
namespace HerdrContext.Files

open Library

namespace FilesTree

section
variable {tree : FilesTree} {snapshot : DirectorySnapshot} {path : RelativePath} {node : TreeNode}

theorem nodes_applyDirectory : (tree.applyDirectory snapshot).nodes =
    (tree.loadedNodes snapshot).foldl Table.insert (tree.nodes.filter (tree.keeps snapshot)) := by
  simp only [applyDirectory, nodes_restoreSelection]

theorem mem_loadedNodes : node ∈ tree.loadedNodes snapshot ↔
    ∃ listed ∈ snapshot.nodes, node = { listed with status := tree.statuses[listed.path]? } := by
  simp only [loadedNodes, List.mem_map, eq_comm]

theorem mem_loadedPaths : path ∈ loadedPaths snapshot ↔ ∃ listed ∈ snapshot.nodes, listed.path = path :=
  List.mem_map

theorem mem_removedPaths : path ∈ tree.removedPaths snapshot ↔
    ∃ node, tree.nodes.get? path = some node ∧ node.kind ≠ .virtual ∧
      parentPath path = snapshot.directory ∧ path ∉ loadedPaths snapshot := by
  simp only [removedPaths, List.mem_map, List.mem_filter, Table.mem_values, decide_eq_true_eq]
  constructor
  · intro h
    have ⟨node, ⟨hget, hkind, hparent, hfresh⟩, hpath⟩ := h
    subst hpath
    exact ⟨node, hget, hkind, hparent, hfresh⟩
  · intro h
    have ⟨node, hget, hkind, hparent, hfresh⟩ := h
    have hpath : node.path = path := Table.key_of_get? hget
    subst hpath
    exact ⟨node, ⟨hget, hkind, hparent, hfresh⟩, rfl⟩

theorem mem_replacedDirectories : path ∈ tree.replacedDirectories snapshot ↔
    ∃ listed ∈ snapshot.nodes, listed.path = path ∧ listed.kind ≠ .directory ∧
      isDirectoryNode tree.nodes path = true := by
  simp only [replacedDirectories, List.mem_map, List.mem_filter, decide_eq_true_eq]
  constructor
  · intro h
    have ⟨listed, ⟨hmem, hkind, hdirectory⟩, hpath⟩ := h
    subst hpath
    exact ⟨listed, hmem, rfl, hkind, hdirectory⟩
  · intro h
    have ⟨listed, hmem, hpath, hkind, hdirectory⟩ := h
    subst hpath
    exact ⟨listed, ⟨hmem, hkind, hdirectory⟩, rfl⟩

/-- The last listed node of a path; a listing names a path once. -/
def listedAt (snapshot : DirectorySnapshot) (path : RelativePath) : Option TreeNode :=
  snapshot.nodes.reverse.find? fun node => node.path = path

theorem listedAt_eq_some (h : listedAt snapshot path = some node) :
    node ∈ snapshot.nodes ∧ node.path = path :=
  ⟨List.mem_reverse.mp (List.mem_of_find?_eq_some h), by simpa using List.find?_some h⟩

theorem listedAt_isSome_iff : (listedAt snapshot path).isSome ↔ path ∈ loadedPaths snapshot := by
  simp [listedAt, loadedPaths]

/-- A listed path holds its listed node, any other path what was kept there. -/
theorem get?_applyDirectory (tree : FilesTree) (snapshot : DirectorySnapshot) (path : RelativePath) :
    (tree.applyDirectory snapshot).nodes.get? path =
      ((listedAt snapshot path).map fun node =>
        { node with status := tree.statuses[node.path]? }).or
      ((tree.nodes.get? path).filter (tree.keeps snapshot)) := by
  rw [nodes_applyDirectory, Table.get?_foldl_insert, Table.get?_filter, loadedNodes,
    ← List.map_reverse, List.find?_map]
  rfl

theorem get?_applyDirectory_listed (h : path ∈ loadedPaths snapshot) :
    ∃ listed ∈ snapshot.nodes, listed.path = path ∧
      (tree.applyDirectory snapshot).nodes.get? path =
        some { listed with status := tree.statuses[listed.path]? } := by
  have ⟨listed, hlisted⟩ := Option.isSome_iff_exists.mp (listedAt_isSome_iff.mpr h)
  have ⟨hmem, hpath⟩ := listedAt_eq_some hlisted
  refine ⟨listed, hmem, hpath, ?_⟩
  rw [get?_applyDirectory, hlisted]
  rfl

theorem get?_applyDirectory_kept (h : path ∉ loadedPaths snapshot) :
    (tree.applyDirectory snapshot).nodes.get? path =
      (tree.nodes.get? path).filter (tree.keeps snapshot) := by
  have hnone : listedAt snapshot path = none := by
    rw [← listedAt_isSome_iff] at h
    simpa using h
  rw [get?_applyDirectory, hnone]
  rfl

theorem keeps_iff : tree.keeps snapshot node = true ↔ node.kind = .virtual ∨
    (∀ ancestor ∈ (ancestors node.path).tail, ancestor ∉ tree.removedPaths snapshot ∧
      ancestor ∉ tree.replacedDirectories snapshot) ∧
    (parentPath node.path ≠ snapshot.directory ∨ node.path ∈ loadedPaths snapshot) := by
  simp [keeps]

end

end FilesTree

end HerdrContext.Files
