import HerdrContext.Files.ChangedFiles
import HerdrContext.Files.Load

/-! Loads and merges commute while the file system stays as it is: the tree is
a function of the loaded directories and of the last snapshot. -/
namespace HerdrContext.Files

open Library FilesTree

inductive FilesOp where
  | load (directory : RelativePath)
  | merge (snapshot : VcsStatusSnapshot)

section
variable (root : FilesRoot) (filesPrefix : RelativePath)

/-- A directory that cannot be read leaves the tree as it is. -/
def FilesOp.apply (tree : FilesTree) : FilesOp → FilesTree
  | load directory =>
    match tree.loadDirectory root directory with
    | .ok loaded => loaded
    | .error _ => tree
  | merge snapshot => mergeWorkspaceStatus root.symlinkMetadata tree snapshot filesPrefix

def runOps (tree : FilesTree) (ops : List FilesOp) : FilesTree :=
  ops.foldl (FilesOp.apply root filesPrefix) tree

theorem FilesOp.apply_load {tree : FilesTree} {directory : RelativePath}
    {snapshot : DirectorySnapshot} (h : tree.loader.load root directory = .ok snapshot) :
    (FilesOp.load directory).apply root filesPrefix tree = tree.applyDirectory snapshot := by
  simp only [FilesOp.apply, loadDirectory, h, ok_bind, pure_eq_ok]

theorem FilesOp.apply_unreadable {tree : FilesTree} {directory : RelativePath} {kind : IoErrorKind}
    (h : tree.loader.load root directory = .error kind) :
    (FilesOp.load directory).apply root filesPrefix tree = tree := by
  simp only [FilesOp.apply, loadDirectory, h]
  rfl

/-- The directories that were loaded. -/
def loadedDirectories (loader : IgnorePolicy) (ops : List FilesOp) : Set RelativePath :=
  {directory | .load directory ∈ ops ∧ ∃ snapshot, loader.load root directory = .ok snapshot}

end

/-- The entries of the last merged snapshot. -/
def lastEntries (ops : List FilesOp) : List VcsEntryStatus :=
  ops.foldl (fun entries op =>
    match op with
    | .load _ => entries
    | .merge snapshot => snapshot.entries) []

/-! ## Listings of one file system -/

section
variable {root : FilesRoot} {loader : IgnorePolicy}

theorem load_directory {directory : RelativePath} {snapshot : DirectorySnapshot}
    (h : loader.load root directory = .ok snapshot) : snapshot.directory = directory := by
  have ⟨_, _, hsnapshot⟩ := bind_eq_ok_iff.mp h
  cases hsnapshot
  rfl

/-- A listed path is found by a lookup, as what it is listed. -/
theorem load_lookup {directory : RelativePath} {snapshot : DirectorySnapshot} {node : TreeNode}
    (h : loader.load root directory = .ok snapshot) (hmem : node ∈ snapshot.nodes) :
    ∃ kind, root.symlinkMetadata node.path = .ok kind ∧ node.kind = kind.treeKind := by
  have ⟨batch, hbatch, hsnapshot⟩ := bind_eq_ok_iff.mp h
  cases hsnapshot
  have ⟨entry, hentry, heq⟩ := List.mem_map.mp hmem
  subst heq
  have ⟨hopen, hstat⟩ := visibleEntriesWithBounds_stat hbatch hentry
  refine ⟨entry.kind, ?_, rfl⟩
  have hne : directory ++ [entry.name] ≠ [] := by simp
  rw [FilesRoot.symlinkMetadata, if_neg hne, parentPath, List.dropLast_concat, hopen, ok_bind]
  exact hstat

end

/-! ## The canonical tree -/

section
variable (root : FilesRoot) (loader : IgnorePolicy) (filesPrefix : RelativePath)

open Classical in
/-- The node a loaded directory lists at a path, without its status. -/
noncomputable def canonicalListed (loaded : Set RelativePath) (path : RelativePath) :
    Option TreeNode :=
  if path ≠ [] ∧ parentPath path ∈ loaded then
    match loader.load root (parentPath path) with
    | .ok snapshot => listedAt snapshot path
    | .error _ => none
  else none

def canonicalStatuses (entries : List VcsEntryStatus) : Statuses :=
  (spreadAll (enteredKinds loader.isVisible filesPrefix root.symlinkMetadata entries)).foldl
    meetInto ∅

noncomputable def canonicalChanged (entries : List VcsEntryStatus) : List ChangedFile :=
  changedList ((enteredChanges loader.isVisible filesPrefix root.symlinkMetadata entries).foldl
    meetInto ∅)

def canonicalVirtual (entries : List VcsEntryStatus) (path : RelativePath) : Option TreeNode :=
  ((missingKinds loader.isVisible filesPrefix root.symlinkMetadata entries).map
    virtualNode).reverse.find? fun node => node.path = path

/-- The tree shows the loaded directories and the last snapshot, and no trace of
anything else. -/
structure Canonical (loaded : Set RelativePath) (entries : List VcsEntryStatus)
    (tree : FilesTree) : Prop where
  loader_eq : tree.loader = loader
  statuses_eq : tree.statuses = canonicalStatuses root loader filesPrefix entries
  changedFiles_eq : tree.changedFiles = canonicalChanged root loader filesPrefix entries
  get?_eq : ∀ path, tree.nodes.get? path =
    ((canonicalListed root loader loaded path).map fun node =>
      { node with status := (canonicalStatuses root loader filesPrefix entries)[node.path]? }).or
    (canonicalVirtual root loader filesPrefix entries path)

end

section
variable {root : FilesRoot} {loader : IgnorePolicy} {filesPrefix : RelativePath}
  {loaded : Set RelativePath} {entries : List VcsEntryStatus} {tree : FilesTree}
  {path : RelativePath} {node : TreeNode}

theorem canonicalListed_eq_some (h : canonicalListed root loader loaded path = some node) :
    ∃ snapshot, loader.load root (parentPath path) = .ok snapshot ∧ parentPath path ∈ loaded ∧
      node ∈ snapshot.nodes ∧ node.path = path := by
  unfold canonicalListed at h
  split at h
  next hloaded =>
    split at h
    next snapshot hsnapshot =>
      have ⟨hmem, hpath⟩ := listedAt_eq_some h
      exact ⟨snapshot, hsnapshot, hloaded.2, hmem, hpath⟩
    next => contradiction
  next => contradiction

theorem canonicalListed_of_load {directory : RelativePath} {snapshot : DirectorySnapshot}
    (hload : loader.load root directory = .ok snapshot) (hmem : directory ∈ loaded)
    (hparent : parentPath path = directory) (hne : path ≠ []) :
    canonicalListed root loader loaded path = listedAt snapshot path := by
  subst hparent
  rw [canonicalListed, if_pos ⟨hne, hmem⟩, hload]

theorem canonicalVirtual_eq_some
    (h : canonicalVirtual root loader filesPrefix entries path = some node) :
    node.kind = .virtual ∧ root.symlinkMetadata path = .error .notFound := by
  have ⟨candidate, hmem, heq⟩ :=
    List.mem_map.mp (List.mem_reverse.mp (List.mem_of_find?_eq_some h))
  have hpath : node.path = path := by simpa using List.find?_some h
  subst heq
  exact ⟨rfl, hpath ▸ (mem_missingKinds.mp hmem).1⟩

/-- What a directory lists is not missing. -/
theorem canonicalVirtual_of_listed (h : canonicalListed root loader loaded path = some node) :
    canonicalVirtual root loader filesPrefix entries path = none := by
  have ⟨snapshot, hload, _, hmem, hpath⟩ := canonicalListed_eq_some h
  have ⟨kind, hlookup, _⟩ := load_lookup hload hmem
  apply Option.eq_none_iff_forall_ne_some.mpr
  intro found hfound
  have hmissing := (canonicalVirtual_eq_some hfound).2
  rw [hpath, hmissing] at hlookup
  contradiction

/-- Physical nodes of a canonical tree are listed by a loaded directory. -/
theorem Canonical.listed (h : Canonical root loader filesPrefix loaded entries tree)
    (hget : tree.nodes.get? path = some node) (hkind : node.kind ≠ .virtual) :
    ∃ listed, canonicalListed root loader loaded path = some listed ∧ listed.kind = node.kind := by
  rw [h.get?_eq] at hget
  cases hlisted : canonicalListed root loader loaded path with
  | some listed =>
    rw [hlisted] at hget
    exact ⟨listed, rfl, by rw [← Option.some.inj hget]⟩
  | none =>
    rw [hlisted] at hget
    exact absurd (canonicalVirtual_eq_some hget).1 hkind

/-- A listing of an unchanged directory makes nothing of the tree go away. -/
theorem Canonical.keeps (h : Canonical root loader filesPrefix loaded entries tree)
    {directory : RelativePath} {snapshot : DirectorySnapshot}
    (hload : loader.load root directory = .ok snapshot)
    (hget : tree.nodes.get? path = some node) : tree.keeps snapshot node = true := by
  have hdirectory := load_directory hload
  have hpath : node.path = path := Table.key_of_get? hget
  have hshown : ∀ {path : RelativePath} {node : TreeNode}, tree.nodes.get? path = some node →
      node.kind ≠ .virtual → parentPath path = snapshot.directory → path ∈ loadedPaths snapshot := by
    intro path node hget hkind hparent
    have ⟨listed, hlisted, _⟩ := h.listed hget hkind
    have ⟨other, hother, _, hmem, hlistedPath⟩ := canonicalListed_eq_some hlisted
    rw [hparent, hdirectory, hload] at hother
    cases hother
    exact mem_loadedPaths.mpr ⟨listed, hmem, hlistedPath⟩
  by_cases hkind : node.kind = .virtual
  · exact keeps_iff.mpr (Or.inl hkind)
  · apply keeps_iff.mpr
    right
    rw [hpath]
    constructor
    · intro ancestor _
      constructor
      · intro hremoved
        have ⟨gone, hgone, hgoneKind, hparent, hfresh⟩ := mem_removedPaths.mp hremoved
        exact hfresh (hshown hgone hgoneKind hparent)
      · intro hreplaced
        have ⟨listed, hmem, hlistedPath, hother, hwas⟩ := mem_replacedDirectories.mp hreplaced
        have ⟨before, hbefore, hbeforeKind⟩ :
            ∃ before, tree.nodes.get? ancestor = some before ∧ before.kind = .directory := by
          unfold isDirectoryNode at hwas
          cases hfound : tree.nodes.get? ancestor with
          | none =>
            rw [hfound] at hwas
            contradiction
          | some before => exact ⟨before, rfl, by simpa [hfound] using hwas⟩
        have hphysical : before.kind ≠ .virtual := by
          rw [hbeforeKind]
          simp
        have ⟨first, hfirst, hfirstKind⟩ := h.listed hbefore hphysical
        have ⟨_, hfirstLoad, _, hfirstMem, hfirstPath⟩ := canonicalListed_eq_some hfirst
        have ⟨kind, hkindNow, hnow⟩ := load_lookup hload hmem
        have ⟨kind', hkindThen, hthen⟩ := load_lookup hfirstLoad hfirstMem
        rw [hlistedPath] at hkindNow
        rw [hfirstPath, hkindNow] at hkindThen
        cases hkindThen
        exact hother (hnow.trans (hthen.symm.trans (hfirstKind.trans hbeforeKind)))
    · by_cases hparent : parentPath path = snapshot.directory
      · exact Or.inr (hshown hget hkind hparent)
      · exact Or.inl hparent

theorem Canonical.load (h : Canonical root loader filesPrefix loaded entries tree)
    {directory : RelativePath} {snapshot : DirectorySnapshot}
    (hload : loader.load root directory = .ok snapshot) :
    Canonical root loader filesPrefix (insert directory loaded) entries
      (tree.applyDirectory snapshot) where
  loader_eq := by
    simp only [applyDirectory, loader_restoreSelection]
    exact h.loader_eq
  statuses_eq := by
    simp only [applyDirectory, statuses_restoreSelection]
    exact h.statuses_eq
  changedFiles_eq := by
    simp only [applyDirectory, changedFiles_restoreSelection]
    exact h.changedFiles_eq
  get?_eq := by
    intro path
    have hkept : (tree.nodes.get? path).filter (tree.keeps snapshot) = tree.nodes.get? path := by
      cases hget : tree.nodes.get? path with
      | none => rfl
      | some node => simp [Option.filter, h.keeps hload hget]
    rw [get?_applyDirectory, hkept, h.get?_eq, h.statuses_eq]
    by_cases hparent : path ≠ [] ∧ parentPath path = directory
    · rw [canonicalListed_of_load hload (Set.mem_insert _ _) hparent.2 hparent.1]
      cases hlisted : listedAt snapshot path with
      | some node => rfl
      | none =>
        have hbefore : canonicalListed root loader loaded path = none := by
          by_cases hmem : directory ∈ loaded
          · rw [canonicalListed_of_load hload hmem hparent.2 hparent.1, hlisted]
          · rw [canonicalListed, if_neg]
            rw [hparent.2]
            exact fun hboth => hmem hboth.2
        rw [hbefore]
        rfl
    · have hlisted : listedAt snapshot path = none := by
        apply Option.eq_none_iff_forall_ne_some.mpr
        intro node hnode
        obtain ⟨hmem, hpath⟩ := listedAt_eq_some hnode
        obtain ⟨name, hname⟩ := snapshot.direct node hmem
        apply hparent
        rw [← hpath, hname, parentPath, List.dropLast_concat, load_directory hload]
        exact ⟨by simp, rfl⟩
      have hsame : canonicalListed root loader (insert directory loaded) path =
          canonicalListed root loader loaded path := by
        unfold canonicalListed
        congr 1
        apply propext
        constructor
        · intro hboth
          exact ⟨hboth.1, hboth.2.resolve_left fun heq => hparent ⟨hboth.1, heq⟩⟩
        · intro hboth
          exact ⟨hboth.1, Set.mem_insert_of_mem _ hboth.2⟩
      rw [hlisted, hsame]
      rfl

theorem Canonical.merge (h : Canonical root loader filesPrefix loaded entries tree)
    (snapshot : VcsStatusSnapshot) :
    Canonical root loader filesPrefix loaded snapshot.entries
      (mergeWorkspaceStatus root.symlinkMetadata tree snapshot filesPrefix) where
  loader_eq := by
    simp only [mergeWorkspaceStatus, loader_restoreSelection]
    exact h.loader_eq
  statuses_eq := by
    rw [statuses_merge, h.loader_eq]
    rfl
  changedFiles_eq := by
    rw [changedFiles_merge, h.loader_eq]
    rfl
  get?_eq := by
    intro path
    rw [nodes_merge, statuses_merge, get?_overlay, h.get?_eq, h.loader_eq]
    cases hlisted : canonicalListed root loader loaded path with
    | some node =>
      obtain ⟨_, hload, _, hmem, _⟩ := canonicalListed_eq_some hlisted
      have hnone : canonicalVirtual root loader filesPrefix snapshot.entries path = none :=
        canonicalVirtual_of_listed hlisted
      obtain ⟨kind, _, hkind⟩ := load_lookup hload hmem
      have hphysical : node.kind ≠ .virtual := by
        rw [hkind]
        cases kind <;> simp [VisibleEntryKind.treeKind]
      rw [canonicalVirtual] at hnone
      rw [hnone]
      simp [Option.filter, hphysical, canonicalStatuses]
    | none =>
      have hdropped : (canonicalVirtual root loader filesPrefix entries path).filter
          (fun node => decide (node.kind ≠ .virtual)) = none := by
        cases hvirtual : canonicalVirtual root loader filesPrefix entries path with
        | none => rfl
        | some node => simp [Option.filter, (canonicalVirtual_eq_some hvirtual).1]
      simp only [Option.map_none, Option.none_or, hdropped, Option.or_none]
      rfl

theorem canonical_empty : Canonical root loader filesPrefix ∅ [] (.empty loader) where
  loader_eq := rfl
  statuses_eq := rfl
  changedFiles_eq := rfl
  get?_eq := by
    intro path
    have hlisted : canonicalListed root loader ∅ path = none := by
      rw [canonicalListed, if_neg]
      exact fun hboth => hboth.2
    have hvirtual : canonicalVirtual root loader filesPrefix [] path = none := rfl
    rw [hlisted, hvirtual, FilesTree.empty, Table.get?_empty]
    rfl

/-- After any sequence the tree is the canonical one. -/
theorem canonical_runOps (root : FilesRoot) (loader : IgnorePolicy) (filesPrefix : RelativePath)
    (ops : List FilesOp) :
    Canonical root loader filesPrefix (loadedDirectories root loader ops) (lastEntries ops)
      (runOps root filesPrefix (.empty loader) ops) := by
  induction ops using List.reverseRecOn with
  | nil =>
    have hnone : loadedDirectories root loader [] = ∅ := by
      ext directory
      simp [loadedDirectories]
    rw [hnone]
    exact canonical_empty
  | append_singleton ops op ih =>
    have hrun : runOps root filesPrefix (.empty loader) (ops ++ [op]) =
        op.apply root filesPrefix (runOps root filesPrefix (.empty loader) ops) := by
      simp [runOps]
    rw [hrun]
    cases op with
    | load directory =>
      have hlast : lastEntries (ops ++ [.load directory]) = lastEntries ops := by
        simp [lastEntries]
      rw [hlast]
      cases hload : loader.load root directory with
      | error kind =>
        have hloaded : loadedDirectories root loader (ops ++ [.load directory]) =
            loadedDirectories root loader ops := by
          ext other
          simp only [loadedDirectories, List.mem_append, List.mem_singleton, Set.mem_ofPred_eq]
          constructor
          · intro hboth
            have ⟨hmem, snapshot, hother⟩ := hboth
            refine ⟨hmem.resolve_right fun heq => ?_, snapshot, hother⟩
            cases heq
            rw [hload] at hother
            contradiction
          · exact fun hboth => ⟨Or.inl hboth.1, hboth.2⟩
        rw [hloaded, FilesOp.apply_unreadable root filesPrefix (ih.loader_eq ▸ hload)]
        exact ih
      | ok snapshot =>
        have hloaded : loadedDirectories root loader (ops ++ [.load directory]) =
            insert directory (loadedDirectories root loader ops) := by
          ext other
          simp only [loadedDirectories, List.mem_append, List.mem_singleton, Set.mem_ofPred_eq,
            Set.mem_insert_iff, FilesOp.load.injEq]
          constructor
          · intro hboth
            cases hboth.1 with
            | inl hmem => exact Or.inr ⟨hmem, hboth.2⟩
            | inr heq => exact Or.inl heq
          · intro hcases
            cases hcases with
            | inl heq => exact ⟨Or.inr heq, snapshot, heq ▸ hload⟩
            | inr hboth => exact ⟨Or.inl hboth.1, hboth.2⟩
        rw [hloaded, FilesOp.apply_load root filesPrefix (ih.loader_eq ▸ hload)]
        exact ih.load hload
    | merge snapshot =>
      have hlast : lastEntries (ops ++ [.merge snapshot]) = snapshot.entries := by
        simp [lastEntries]
      have hloaded : loadedDirectories root loader (ops ++ [.merge snapshot]) =
          loadedDirectories root loader ops := by
        ext other
        simp [loadedDirectories]
      rw [hlast, hloaded]
      exact ih.merge snapshot

/-! ## What a snapshot says does not depend on the order of its entries -/

variable {entries' : List VcsEntryStatus}

theorem isOwn_congr (h : ∀ entry, entry ∈ entries ↔ entry ∈ entries') {isVisible : RelativePath → Bool}
    {kind : VcsStatusKind} :
    IsOwn isVisible filesPrefix entries path kind ↔ IsOwn isVisible filesPrefix entries' path kind := by
  simp only [IsOwn, h]

theorem mem_ownKinds_congr (h : ∀ entry, entry ∈ entries ↔ entry ∈ entries')
    {isVisible : RelativePath → Bool} (pair : RelativePath × VcsStatusKind) :
    pair ∈ ownKinds isVisible filesPrefix entries ↔
      pair ∈ ownKinds isVisible filesPrefix entries' := by
  have hleft : pair ∈ ownKinds isVisible filesPrefix entries ↔
      IsOwn isVisible filesPrefix entries pair.1 pair.2 := mem_ownKinds
  have hright : pair ∈ ownKinds isVisible filesPrefix entries' ↔
      IsOwn isVisible filesPrefix entries' pair.1 pair.2 := mem_ownKinds
  rw [hleft, hright]
  exact isOwn_congr h

theorem missingKinds_congr (h : ∀ entry, entry ∈ entries ↔ entry ∈ entries')
    (isVisible : RelativePath → Bool) (lookup : RelativePath → Except IoErrorKind VisibleEntryKind) :
    missingKinds isVisible filesPrefix lookup entries =
      missingKinds isVisible filesPrefix lookup entries' := by
  have hcandidates : ∀ pair, pair ∈ candidateKinds isVisible filesPrefix entries ↔
      pair ∈ candidateKinds isVisible filesPrefix entries' := by
    intro pair
    simp only [candidateKinds, List.mem_flatMap, h]
  rw [missingKinds, missingKinds, strongestCandidates, strongestCandidates,
    foldl_meetInto_congr hcandidates]

theorem canonicalStatuses_congr (h : ∀ entry, entry ∈ entries ↔ entry ∈ entries') :
    canonicalStatuses root loader filesPrefix entries =
      canonicalStatuses root loader filesPrefix entries' := by
  apply foldl_meetInto_congr
  intro pair
  simp only [spreadAll, List.mem_flatMap, enteredKinds, List.mem_append, mem_ownKinds_congr h,
    missingKinds_congr h]

theorem canonicalChanged_congr (h : ∀ entry, entry ∈ entries ↔ entry ∈ entries') :
    canonicalChanged root loader filesPrefix entries =
      canonicalChanged root loader filesPrefix entries' := by
  unfold canonicalChanged
  apply congrArg changedList
  apply foldl_meetInto_congr
  intro change
  simp only [enteredChanges, changedKinds, List.mem_append, List.mem_map, mem_ownKinds_congr h,
    missingKinds_congr h]

/-- Trees that show the same directories and the same snapshot are the same. -/
theorem Canonical.unique {tree' : FilesTree} (h : ∀ entry, entry ∈ entries ↔ entry ∈ entries')
    (hleft : Canonical root loader filesPrefix loaded entries tree)
    (hright : Canonical root loader filesPrefix loaded entries' tree') :
    tree.nodes = tree'.nodes ∧ tree.statuses = tree'.statuses ∧
      tree.changedFiles = tree'.changedFiles := by
  refine ⟨?_, ?_, ?_⟩
  · ext1 path
    rw [hleft.get?_eq, hright.get?_eq, canonicalStatuses_congr h, canonicalVirtual,
      canonicalVirtual, missingKinds_congr h]
  · rw [hleft.statuses_eq, hright.statuses_eq, canonicalStatuses_congr h]
  · rw [hleft.changedFiles_eq, hright.changedFiles_eq, canonicalChanged_congr h]

end

/-- Whatever the order of loads and merges and whatever was merged before: the
same loaded directories and the same entries of the last snapshot give the same
nodes, statuses, changed files and children. -/
theorem loads_and_merges_commute (root : FilesRoot) (loader : IgnorePolicy)
    (filesPrefix : RelativePath) (ops ops' : List FilesOp)
    (hloaded : loadedDirectories root loader ops = loadedDirectories root loader ops')
    (hlast : ∀ entry, entry ∈ lastEntries ops ↔ entry ∈ lastEntries ops') :
    let tree := runOps root filesPrefix (.empty loader) ops
    let tree' := runOps root filesPrefix (.empty loader) ops'
    tree.nodes = tree'.nodes ∧ tree.statuses = tree'.statuses ∧
      tree.changedFiles = tree'.changedFiles ∧
      ∀ directory, tree.children directory = tree'.children directory := by
  intro tree tree'
  have hright := canonical_runOps root loader filesPrefix ops'
  rw [← hloaded] at hright
  have ⟨hnodes, hstatuses, hchanged⟩ :=
    (canonical_runOps root loader filesPrefix ops).unique hlast hright
  refine ⟨hnodes, hstatuses, hchanged, fun directory => ?_⟩
  rw [FilesTree.children, FilesTree.children, hnodes]

namespace Sample

def loadThenMerge : List FilesOp := [.load [], .merge conflictBelow]

/-- The same snapshot the other way round, after another one, then the load. -/
def mergesThenLoad : List FilesOp :=
  [.merge deletedBelow, .merge ⟨conflictBelow.entries.reverse, true⟩, .load []]

end Sample

open Sample in
theorem loads_and_merges_commute_sample :
    (runOps oneFile [] (.empty ⟨fun _ => true, false⟩) loadThenMerge).nodes =
      (runOps oneFile [] (.empty ⟨fun _ => true, false⟩) mergesThenLoad).nodes := by
  refine (loads_and_merges_commute oneFile ⟨fun _ => true, false⟩ [] loadThenMerge mergesThenLoad
    ?_ ?_).1
  · ext directory
    simp [loadedDirectories, loadThenMerge, mergesThenLoad]
  · intro entry
    simp [lastEntries, loadThenMerge, mergesThenLoad]

end HerdrContext.Files
