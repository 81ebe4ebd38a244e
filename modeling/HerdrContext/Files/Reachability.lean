import HerdrContext.Files.ChangedFiles
import HerdrContext.Files.Load
import HerdrContext.Library.Transition

/-! Every physical node hangs below a directory of the tree, and every node is
found from the root. -/
namespace HerdrContext.Files

open Library FilesTree

/-! ## The invariant -/

theorem isDirectoryNode_iff {nodes : TreeNodes} {path : RelativePath} :
    isDirectoryNode nodes path = true ↔
      ∃ node, nodes.get? path = some node ∧ node.kind = .directory := by
  unfold isDirectoryNode
  cases nodes.get? path <;> simp

theorem mem_tail_ancestors {path ancestor : RelativePath} :
    ancestor ∈ (ancestors path).tail ↔ ancestor <+: path ∧ ancestor ≠ path := by
  induction path using List.reverseRecOn with
  | nil =>
    simp only [ancestors, List.inits, List.reverse_singleton, List.tail_cons, List.not_mem_nil,
      false_iff, not_and, not_not]
    exact List.prefix_nil.mp
  | append_singleton path name _ =>
    rw [ancestors_concat, List.tail_cons, mem_ancestors]
    constructor
    · intro habove
      refine ⟨habove.trans (List.prefix_append _ _), fun heq => ?_⟩
      have hlength := habove.length_le
      rw [heq, List.length_append] at hlength
      simp at hlength
    · intro h
      exact (List.prefix_concat_iff.mp h.1).resolve_left h.2

theorem length_parentPath_lt {path : RelativePath} (h : path ≠ []) :
    (parentPath path).length < path.length := by
  have hpositive := List.length_pos_of_ne_nil h
  rw [parentPath, List.length_dropLast]
  omega

/-- The parent of every physical node is the root or a directory of the tree. -/
def Connected (nodes : TreeNodes) : Prop :=
  ∀ path node, nodes.get? path = some node → node.kind ≠ .virtual →
    parentPath path = [] ∨ isDirectoryNode nodes (parentPath path) = true

/-- Nodes found from the root through `children`. -/
inductive Reached (nodes : TreeNodes) : TreeNode → Prop where
  | root {node : TreeNode} (shown : node ∈ childNodes nodes []) : Reached nodes node
  | child {directory node : TreeNode} (reached : Reached nodes directory)
    (shown : node ∈ childNodes nodes directory.path) : Reached nodes node

theorem mem_childNodes {nodes : TreeNodes} {directory : RelativePath} {node : TreeNode} :
    node ∈ childNodes nodes directory ↔
      nodes.get? node.path = some node ∧ displayParent nodes node = directory := by
  rw [childNodes, (List.perm_insertionSort _ _).mem_iff, List.mem_filter, Table.mem_values,
    decide_eq_true_eq]

/-- A node's display parent is the root or a directory above it. -/
theorem Connected.displayParent_cases {nodes : TreeNodes} (h : Connected nodes)
    {path : RelativePath} {node : TreeNode} (hget : nodes.get? path = some node) :
    displayParent nodes node = [] ∨
      isDirectoryNode nodes (displayParent nodes node) = true ∧
        (displayParent nodes node).length < path.length := by
  have hpath : node.path = path := Table.key_of_get? hget
  by_cases hkind : node.kind = .virtual
  · have hparent : displayParent nodes node = ((ancestors path).tail.find? fun ancestor =>
        ancestor = [] ∨ isDirectoryNode nodes ancestor).getD [] := by
      rw [displayParent, if_neg (not_not.mpr hkind), hpath]
    rw [hparent]
    cases hfind : (ancestors path).tail.find? fun ancestor =>
        ancestor = [] ∨ isDirectoryNode nodes ancestor with
    | none => exact Or.inl rfl
    | some ancestor =>
      have hfound := List.find?_some hfind
      have ⟨habove, hdiffers⟩ := mem_tail_ancestors.mp (List.mem_of_find?_eq_some hfind)
      cases decide_eq_true_eq.mp hfound with
      | inl hroot => exact Or.inl hroot
      | inr hdirectory =>
        refine Or.inr ⟨hdirectory, lt_of_le_of_ne habove.length_le fun hlength => ?_⟩
        exact hdiffers (habove.eq_of_length hlength)
  · have hparent : displayParent nodes node = parentPath path := by
      rw [displayParent, if_pos hkind, hpath]
    rw [hparent]
    cases h path node hget hkind with
    | inl hroot => exact Or.inl hroot
    | inr hdirectory =>
      by_cases hroot : parentPath path = []
      · exact Or.inl hroot
      · refine Or.inr ⟨hdirectory, length_parentPath_lt fun hnil => hroot ?_⟩
        rw [hnil]
        rfl

/-- In a connected tree every node is reached; the induction is on the length
of the path. -/
theorem Connected.reached {nodes : TreeNodes} (h : Connected nodes) {path : RelativePath}
    {node : TreeNode} (hget : nodes.get? path = some node) : Reached nodes node := by
  generalize hlength : path.length = length
  induction length using Nat.strongRecOn generalizing path node with
  | ind length ih =>
    have hself : nodes.get? node.path = some node := by
      rw [Table.key_of_get? hget]
      exact hget
    cases h.displayParent_cases hget with
    | inl hroot => exact .root (mem_childNodes.mpr ⟨hself, hroot⟩)
    | inr hbelow =>
      have ⟨directory, hdirectory, _⟩ := isDirectoryNode_iff.mp hbelow.1
      have hreached := ih _ (hlength ▸ hbelow.2) hdirectory rfl
      have hpath : directory.path = displayParent nodes node := Table.key_of_get? hdirectory
      exact .child hreached (mem_childNodes.mpr ⟨hself, hpath.symm⟩)

theorem Reached.mem {nodes : TreeNodes} {node : TreeNode} (h : Reached nodes node) :
    nodes.get? node.path = some node := by
  cases h with
  | root shown => exact (mem_childNodes.mp shown).1
  | child _ shown => exact (mem_childNodes.mp shown).1

/-- A node whose display parent is not in the tree is lost. -/
theorem not_reached {nodes : TreeNodes} {node : TreeNode} (hparent : displayParent nodes node ≠ [])
    (hnone : nodes.get? (displayParent nodes node) = none) : ¬ Reached nodes node := by
  intro h
  cases h with
  | root shown => exact hparent (mem_childNodes.mp shown).2
  | child reached shown =>
    rw [(mem_childNodes.mp shown).2, reached.mem] at hnone
    contradiction

/-! ## Steps -/

theorem connected_empty : Connected (∅ : TreeNodes) := by
  intro path node h
  simp at h

/-- A listed path lies right below the directory. -/
theorem parentPath_of_mem_loadedPaths {snapshot : DirectorySnapshot} {path : RelativePath}
    (h : path ∈ loadedPaths snapshot) :
    parentPath path = snapshot.directory ∧ snapshot.directory.length < path.length := by
  have ⟨listed, hnode, hpath⟩ := mem_loadedPaths.mp h
  have ⟨name, hname⟩ := snapshot.direct listed hnode
  rw [← hpath, hname, parentPath, List.dropLast_concat, List.length_append]
  simp

/-- The directory that is listed is not touched by its listing. -/
theorem isDirectoryNode_applyDirectory_self {tree : FilesTree} {snapshot : DirectorySnapshot}
    (hroot : snapshot.directory ≠ []) (h : isDirectoryNode tree.nodes snapshot.directory = true) :
    isDirectoryNode (tree.applyDirectory snapshot).nodes snapshot.directory = true := by
  have ⟨directory, hfound, hdirKind⟩ := isDirectoryNode_iff.mp h
  have hpath : directory.path = snapshot.directory := Table.key_of_get? hfound
  have hfresh : snapshot.directory ∉ loadedPaths snapshot :=
    fun hself => lt_irrefl _ (parentPath_of_mem_loadedPaths hself).2
  have hkept : tree.keeps snapshot directory = true := by
    rw [keeps_iff, hpath]
    right
    constructor
    · intro ancestor hancestor
      have hshort := (mem_tail_ancestors.mp hancestor).1.length_le
      constructor
      · intro hremoved
        have ⟨_, _, _, hparent, _⟩ := mem_removedPaths.mp hremoved
        by_cases hnil : ancestor = []
        · exact hroot (by rw [← hparent, hnil]; rfl)
        · have hlonger := length_parentPath_lt hnil
          rw [hparent] at hlonger
          omega
      · intro hreplaced
        have ⟨listed, hnode, hlistedPath, _⟩ := mem_replacedDirectories.mp hreplaced
        have hlonger :=
          (parentPath_of_mem_loadedPaths (mem_loadedPaths.mpr ⟨listed, hnode, hlistedPath⟩)).2
        omega
    · left
      intro hself
      have hlonger := length_parentPath_lt hroot
      rw [hself] at hlonger
      omega
  apply isDirectoryNode_iff.mpr
  refine ⟨directory, ?_, hdirKind⟩
  rw [get?_applyDirectory_kept hfresh, hfound]
  simp [Option.filter, hkept]

/-- A kept node's parent is kept, or listed as a directory again. -/
theorem Connected.applyDirectory_kept {tree : FilesTree} (h : Connected tree.nodes)
    {snapshot : DirectorySnapshot} {path : RelativePath} {node : TreeNode}
    (hfresh : path ∉ loadedPaths snapshot)
    (hget : (tree.applyDirectory snapshot).nodes.get? path = some node) (hkind : node.kind ≠ .virtual) :
    parentPath path = [] ∨
      isDirectoryNode (tree.applyDirectory snapshot).nodes (parentPath path) = true := by
  rw [get?_applyDirectory_kept hfresh] at hget
  have ⟨hold, hkeeps⟩ := Option.filter_eq_some_iff.mp hget
  have hpath : node.path = path := Table.key_of_get? hold
  have ⟨habove, hshown⟩ := (keeps_iff.mp hkeeps).resolve_left hkind
  rw [hpath] at habove hshown
  by_cases hroot : parentPath path = []
  · exact Or.inl hroot
  · right
    have ⟨parent, hparent, hparentKind⟩ :=
      isDirectoryNode_iff.mp ((h path node hold hkind).resolve_left hroot)
    have hne : path ≠ [] := by
      intro hnil
      exact hroot (by rw [hnil]; rfl)
    have hstrict : parentPath path ∈ (ancestors path).tail := by
      rw [mem_tail_ancestors]
      refine ⟨List.dropLast_prefix path, fun heq => ?_⟩
      have hshorter := length_parentPath_lt hne
      rw [heq] at hshorter
      omega
    apply isDirectoryNode_iff.mpr
    by_cases hlistedParent : parentPath path ∈ loadedPaths snapshot
    · have ⟨listed, hnode, hlistedPath, hafter⟩ : ∃ listed ∈ snapshot.nodes,
          listed.path = parentPath path ∧ (tree.applyDirectory snapshot).nodes.get?
            (parentPath path) = some { listed with status := tree.statuses[listed.path]? } :=
        get?_applyDirectory_listed hlistedParent
      refine ⟨_, hafter, ?_⟩
      by_contra hother
      apply (habove _ hstrict).2
      apply mem_replacedDirectories.mpr
      exact ⟨listed, hnode, hlistedPath, hother, isDirectoryNode_iff.mpr ⟨parent, hparent, hparentKind⟩⟩
    · have hparentPath : parent.path = parentPath path := Table.key_of_get? hparent
      have hparentPhysical : parent.kind ≠ .virtual := by
        rw [hparentKind]
        simp
      have hkept : tree.keeps snapshot parent = true := by
        rw [keeps_iff, hparentPath]
        right
        constructor
        · intro ancestor hancestor
          apply habove
          have ⟨habove', hdiffers⟩ := mem_tail_ancestors.mp hancestor
          apply mem_tail_ancestors.mpr
          refine ⟨habove'.trans (List.dropLast_prefix path), fun heq => ?_⟩
          have hshort := habove'.length_le
          have hshorter := length_parentPath_lt hne
          rw [heq] at hshort
          omega
        · left
          intro hself
          apply (habove _ hstrict).1
          exact mem_removedPaths.mpr ⟨parent, hparent, hparentPhysical, hself, hlistedParent⟩
      refine ⟨parent, ?_, hparentKind⟩
      rw [get?_applyDirectory_kept hlistedParent, hparent]
      simp [Option.filter, hkept]

/-- The listing of the root or of a directory of the tree keeps it connected. -/
theorem Connected.applyDirectory {tree : FilesTree} (h : Connected tree.nodes)
    (snapshot : DirectorySnapshot)
    (hdirectory : snapshot.directory = [] ∨ isDirectoryNode tree.nodes snapshot.directory = true) :
    Connected (tree.applyDirectory snapshot).nodes := by
  intro path node hget hkind
  by_cases hmem : path ∈ loadedPaths snapshot
  · rw [(parentPath_of_mem_loadedPaths hmem).1]
    by_cases hroot : snapshot.directory = []
    · exact Or.inl hroot
    · exact Or.inr (isDirectoryNode_applyDirectory_self hroot (hdirectory.resolve_left hroot))
  · exact h.applyDirectory_kept hmem hget hkind

/-- No cached node stays physical below a path that is taken. -/
def Spares (nodes : TreeNodes) (taken : RelativePath → Prop) : Prop :=
  ∀ path node, nodes.get? path = some node → node.kind ≠ .virtual → ¬ taken path →
    parentPath path = [] ∨ ¬ taken (parentPath path)

/-- An overlay keeps a tree connected exactly where it spares the parents of
what stays. -/
theorem Connected.overlay_iff {nodes : TreeNodes} (h : Connected nodes) (statuses : Statuses)
    {virtualNodes : List TreeNode} (hvirtual : ∀ node ∈ virtualNodes, node.kind = .virtual) :
    Connected (overlay nodes statuses virtualNodes) ↔
      Spares nodes fun path => ∃ node ∈ virtualNodes, node.path = path := by
  constructor
  · intro hafter path node hget hkind hfree
    have hstays := get?_overlay_of_physical statuses hget hkind fun other hother heq =>
      hfree ⟨other, hother, heq⟩
    apply (hafter path _ hstays hkind).imp_right
    intro hdirectory htaken
    have ⟨other, hother, hpath⟩ := htaken
    have ⟨found, hfound, _, hshown⟩ := exists_get?_overlay nodes statuses hother
    have ⟨parent, hparent, hparentKind⟩ := isDirectoryNode_iff.mp hdirectory
    rw [← hpath, hshown] at hparent
    rw [← Option.some.inj hparent, hvirtual found hfound] at hparentKind
    contradiction
  · intro hspares path node hget hkind
    cases mem_overlay hget with
    | inl hmem => exact absurd (hvirtual node hmem) hkind
    | inr hold =>
      have ⟨hfree, old, hold, holdKind, _⟩ := hold
      have hnotTaken : ¬ ∃ node ∈ virtualNodes, node.path = path :=
        fun htaken => hfree htaken.choose htaken.choose_spec.1 htaken.choose_spec.2
      cases h path old hold holdKind with
      | inl hroot => exact Or.inl hroot
      | inr hdirectory =>
        apply (hspares path old hold holdKind hnotTaken).imp_right
        intro hparentFree
        have ⟨parent, hparent, hparentKind⟩ := isDirectoryNode_iff.mp hdirectory
        have hphysical : parent.kind ≠ .virtual := by
          rw [hparentKind]
          simp
        have hstays := get?_overlay_of_physical statuses hparent hphysical fun other hother heq =>
          hparentFree ⟨other, hother, heq⟩
        exact isDirectoryNode_iff.mpr ⟨_, hstays, hparentKind⟩

/-- The paths a merge makes virtual. -/
theorem exists_missingNode (isVisible : RelativePath → Bool) (filesPrefix : RelativePath)
    (lookup : RelativePath → Except IoErrorKind VisibleEntryKind) (entries : List VcsEntryStatus) :
    (fun path => ∃ node ∈ (missingKinds isVisible filesPrefix lookup entries).map virtualNode,
      node.path = path) = Missing isVisible filesPrefix lookup entries := by
  funext path
  apply propext
  rw [← exists_missingKind]
  constructor
  · intro h
    have ⟨node, hnode, hpath⟩ := h
    have ⟨candidate, hmem, heq⟩ := List.mem_map.mp hnode
    subst heq
    exact ⟨candidate.2, hpath ▸ hmem⟩
  · intro h
    have ⟨kind, hmem⟩ := h
    exact ⟨virtualNode (path, kind), List.mem_map_of_mem hmem, rfl⟩

/-- The paths a tree shows as virtual. -/
theorem exists_virtualNode (tree : FilesTree) :
    (fun path => ∃ node ∈ tree.virtualNodes, node.path = path) =
      fun path => ∃ node, tree.nodes.get? path = some node ∧ node.kind = .virtual := by
  funext path
  apply propext
  simp only [virtualNodes, List.mem_filter, Table.mem_values, decide_eq_true_eq]
  constructor
  · intro h
    have ⟨node, ⟨hget, hkind⟩, hpath⟩ := h
    subst hpath
    exact ⟨node, hget, hkind⟩
  · intro h
    have ⟨node, hget, hkind⟩ := h
    have hpath : node.path = path := Table.key_of_get? hget
    subst hpath
    exact ⟨node, ⟨hget, hkind⟩, rfl⟩

/-! ## Runs -/

section
variable {ι : Type} [DecidableEq ι]

/-- What happens to one of several trees. -/
inductive TreeOp (ι : Type) where
  | load (tree : ι) (snapshot : DirectorySnapshot)
  | merge (tree : ι) (lookup : RelativePath → Except IoErrorKind VisibleEntryKind)
    (status : VcsStatusSnapshot) (filesPrefix : RelativePath)
  | sync (tree source : ι)

namespace TreeOp

def apply (trees : ι → FilesTree) : TreeOp ι → ι → FilesTree
  | load tree snapshot => Function.update trees tree ((trees tree).applyDirectory snapshot)
  | merge tree lookup status filesPrefix =>
    Function.update trees tree (mergeWorkspaceStatus lookup (trees tree) status filesPrefix)
  | sync tree source =>
    Function.update trees tree ((trees tree).syncStatusOverlayFrom (trees source))

/-- The root or a directory of the tree at that moment is loaded. -/
def Allowed (trees : ι → FilesTree) : TreeOp ι → Prop
  | load tree snapshot =>
    snapshot.directory = [] ∨ isDirectoryNode (trees tree).nodes snapshot.directory = true
  | _ => True

/-- No path that becomes virtual is the parent of a cached node that stays. -/
def Spares (trees : ι → FilesTree) : TreeOp ι → Prop
  | load _ _ => True
  | merge tree lookup status filesPrefix =>
    Files.Spares (trees tree).nodes
      (Missing (trees tree).loader.isVisible filesPrefix lookup status.entries)
  | sync tree source =>
    Files.Spares (trees tree).nodes fun path =>
      ∃ node, (trees source).nodes.get? path = some node ∧ node.kind = .virtual

inductive Step (trees : ι → FilesTree) (op : TreeOp ι) : (ι → FilesTree) → Prop where
  | run (allowed : op.Allowed trees) : Step trees op (op.apply trees)

end TreeOp

/-- In every tree the parents of physical nodes are directories, and every node
is found from the root. -/
def Reachable (trees : ι → FilesTree) : Prop :=
  ∀ i, Connected (trees i).nodes ∧
    ∀ path node, (trees i).nodes.get? path = some node → Reached (trees i).nodes node

omit [DecidableEq ι] in
theorem reachable_iff {trees : ι → FilesTree} :
    Reachable trees ↔ ∀ i, Connected (trees i).nodes :=
  ⟨fun h i => (h i).1, fun h i => ⟨h i, fun _ _ hget => (h i).reached hget⟩⟩

theorem connected_update {trees : ι → FilesTree} (h : ∀ i, Connected (trees i).nodes) (i : ι)
    (tree : FilesTree) :
    (∀ j, Connected (Function.update trees i tree j).nodes) ↔ Connected tree.nodes := by
  constructor
  · intro hall
    simpa using hall i
  · intro htree j
    by_cases hj : j = i
    · subst hj
      simpa using htree
    · rw [Function.update_of_ne hj]
      exact h j

/-- One step keeps the trees reachable exactly where it spares the parents. -/
theorem TreeOp.Step.reachable_iff {trees trees' : ι → FilesTree} {op : TreeOp ι}
    (hstep : op.Step trees trees') (h : ∀ i, Connected (trees i).nodes) :
    (∀ i, Connected (trees' i).nodes) ↔ op.Spares trees := by
  cases hstep with
  | run allowed =>
    cases op with
    | load i snapshot =>
      rw [TreeOp.apply, connected_update h]
      exact iff_of_true ((h i).applyDirectory snapshot allowed) trivial
    | merge i lookup status filesPrefix =>
      rw [TreeOp.apply, connected_update h, nodes_merge, (h i).overlay_iff]
      · rw [exists_missingNode]
        rfl
      · intro node hnode
        have ⟨_, _, heq⟩ := List.mem_map.mp hnode
        rw [← heq]
        rfl
    | sync i source =>
      have hnodes : ((trees i).syncStatusOverlayFrom (trees source)).nodes =
          overlay (trees i).nodes (trees source).statuses (trees source).virtualNodes := by
        simp only [syncStatusOverlayFrom, nodes_restoreSelection]
      rw [TreeOp.apply, connected_update h, hnodes, (h i).overlay_iff]
      · rw [exists_virtualNode]
        rfl
      · intro node hnode
        simpa using (List.mem_filter.mp hnode).2

/-- Every state of a run is reachable exactly if each of its steps spares the
parents of the nodes that stay. -/
theorem reachable_iff_spares (loaders : ι → IgnorePolicy) (ops : List (TreeOp ι))
    (trees : ι → FilesTree) :
    Run (fun before op after => op.Step before after ∧ Reachable after)
        (fun i => .empty (loaders i)) ops trees ↔
      Run (fun before op after => op.Step before after ∧ op.Spares before)
        (fun i => .empty (loaders i)) ops trees := by
  have hempty : ∀ i, Connected (FilesTree.empty (loaders i)).nodes := fun _ => connected_empty
  constructor
  · intro run
    have hboth : (∀ i, Connected (trees i).nodes) ∧
        Run (fun before op after => op.Step before after ∧ op.Spares before)
          (fun i => .empty (loaders i)) ops trees := by
      induction run with
      | refl => exact ⟨hempty, .refl⟩
      | step _ last ih =>
        have hafter := reachable_iff.mp last.2
        exact ⟨hafter, ih.2.step ⟨last.1, (last.1.reachable_iff ih.1).mp hafter⟩⟩
    exact hboth.2
  · intro run
    have hboth : (∀ i, Connected (trees i).nodes) ∧
        Run (fun before op after => op.Step before after ∧ Reachable after)
          (fun i => .empty (loaders i)) ops trees := by
      induction run with
      | refl => exact ⟨hempty, .refl⟩
      | step _ last ih =>
        have hafter := (last.1.reachable_iff ih.1).mpr last.2
        exact ⟨hafter, ih.2.step ⟨last.1, reachable_iff.mpr hafter⟩⟩
    exact hboth.2

end

namespace Sample

/-- The root shows the directory `a`, which shows the file `b`. -/
def rootListing : DirectorySnapshot := .ofEntries [] [⟨nameA, .directory, false⟩]
def innerListing : DirectorySnapshot := .ofEntries [nameA] [⟨nameB, .file, false⟩]

/-- The directory is deleted and its deletion committed: the first merge reports
it, the second does not, and the root is read again. -/
def deletedDirectory : List (TreeOp Unit) :=
  [.load () rootListing, .load () innerListing,
    .merge () nothing.symlinkMetadata ⟨[deletion [nameA] .deleted nameA_ne_nil deleted_unmoved], false⟩ [],
    .merge () nothing.symlinkMetadata ⟨[], false⟩ [], .load () (.ofEntries [] [])]

def treesAfter (ops : List (TreeOp Unit)) : Unit → FilesTree :=
  ops.foldl TreeOp.apply fun _ => tree

end Sample

open Sample in
/-- The file of a deleted directory stays in the tree for good, and nothing
leads to it. -/
theorem orphan_survives :
    Run TreeOp.Step (fun _ => tree) deletedDirectory (treesAfter deletedDirectory) ∧
    (treesAfter deletedDirectory ()).nodes.get? [nameA] = none ∧
    (treesAfter deletedDirectory ()).nodes.get? [nameA, nameB] =
      some ⟨[nameA, nameB], .file, none, false⟩ ∧
    ¬ Reached (treesAfter deletedDirectory ()).nodes ⟨[nameA, nameB], .file, none, false⟩ := by
  have hnone : (treesAfter deletedDirectory ()).nodes.get? [nameA] = none := by decide +kernel
  have hrun : Run TreeOp.Step (fun _ => tree) deletedDirectory (treesAfter deletedDirectory) := by
    have hroot : Run TreeOp.Step (fun _ => tree) [.load () rootListing] _ :=
      Run.single (.run (Or.inl rfl))
    have hinner := hroot.step (.run (show TreeOp.Allowed _ (.load () innerListing) from
      Or.inr (by decide +kernel)))
    have hdeleted := hinner.step (.run (show TreeOp.Allowed _ (.merge () nothing.symlinkMetadata
      ⟨[deletion [nameA] .deleted nameA_ne_nil deleted_unmoved], false⟩ []) from trivial))
    have hcommitted := hdeleted.step (.run (show TreeOp.Allowed _
      (.merge () nothing.symlinkMetadata ⟨[], false⟩ []) from trivial))
    exact hcommitted.step (.run (Or.inl rfl))
  exact ⟨hrun, hnone, by decide +kernel, not_reached (by decide +kernel) hnone⟩

end HerdrContext.Files
