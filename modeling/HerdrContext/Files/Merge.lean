import HerdrContext.Files.Tree

/-! What a status merge makes of a snapshot: which paths are changed, which of
them are missing, and which status every node shows. -/
namespace HerdrContext.Files

open Library FilesTree

/-! ## What a snapshot says of a path -/

section
variable (isVisible : RelativePath → Bool) (filesPrefix : RelativePath)
  (lookup : RelativePath → Except IoErrorKind VisibleEntryKind) (entries : List VcsEntryStatus)

/-- An entry's own path, or the one it was moved or copied from. -/
def IsOwn (path : RelativePath) (kind : VcsStatusKind) : Prop :=
  ∃ entry ∈ entries, visibleIn isVisible filesPrefix entry.path = some path ∧ entry.kind = kind

def IsSource (path : RelativePath) (kind : VcsStatusKind) : Prop :=
  ∃ entry ∈ entries,
    entry.sourcePath.bind (visibleIn isVisible filesPrefix) = some path ∧ entry.kind = kind

def IsDeletion (path : RelativePath) (kind : VcsStatusKind) : Prop :=
  ∃ entry ∈ entries, entry.deletes = true ∧
    visibleIn isVisible filesPrefix entry.path = some path ∧ entry.kind = kind

/-- A deletion or a source whose lookup finds nothing. -/
def Missing (path : RelativePath) : Prop :=
  lookup path = .error .notFound ∧ ∃ kind,
    IsDeletion isVisible filesPrefix entries path kind ∨ IsSource isVisible filesPrefix entries path kind

/-- The kinds that count at a path: those of its entries and, where the lookup
finds nothing, those it is a source with. -/
def Contributed (path : RelativePath) : Set VcsStatusKind :=
  {kind | IsOwn isVisible filesPrefix entries path kind ∨
    lookup path = .error .notFound ∧ IsSource isVisible filesPrefix entries path kind}

/-- The kinds that count at a path or come up to it from below. -/
def Reaching (path : RelativePath) : Set VcsStatusKind :=
  {kind | path ≠ [] ∧ (kind ∈ Contributed isVisible filesPrefix lookup entries path ∨
    ∃ below, path ≠ below ∧ path <+: below ∧
      ∃ own ∈ Contributed isVisible filesPrefix lookup entries below, kind = ancestorStatus own)}

end

theorem ancestorStatus_mono {left right : VcsStatusKind} (h : left ≤ right) :
    ancestorStatus left ≤ ancestorStatus right := by
  revert h
  cases left <;> cases right <;> decide

/-! ## The tables of the loops -/

section
variable (isVisible : RelativePath → Bool) (filesPrefix : RelativePath)

def ownKinds (entries : List VcsEntryStatus) : List (RelativePath × VcsStatusKind) :=
  entries.filterMap fun entry =>
    (visibleIn isVisible filesPrefix entry.path).map fun path => (path, entry.kind)

/-- The candidates one entry adds. -/
def entryCandidates (entry : VcsEntryStatus) : List (RelativePath × VcsStatusKind) :=
  (if entry.deletes then
    ((visibleIn isVisible filesPrefix entry.path).map fun path => (path, entry.kind)).toList
  else []) ++
  ((entry.sourcePath.bind (visibleIn isVisible filesPrefix)).map fun path =>
    (path, entry.kind)).toList

def candidateKinds (entries : List VcsEntryStatus) : List (RelativePath × VcsStatusKind) :=
  entries.flatMap (entryCandidates isVisible filesPrefix)

end

def spreadAll (kinds : List (RelativePath × VcsStatusKind)) : List (RelativePath × VcsStatusKind) :=
  kinds.flatMap fun (path, kind) => spread path kind

def changedKinds (missing : Bool) (kinds : List (RelativePath × VcsStatusKind)) :
    List (RelativePath × VcsStatusKind × Boolᵒᵈ) :=
  kinds.map fun (path, kind) => (path, kind, OrderDual.toDual missing)

section
variable {isVisible : RelativePath → Bool} {filesPrefix : RelativePath}
  {lookup : RelativePath → Except IoErrorKind VisibleEntryKind} {entries : List VcsEntryStatus}
  {path : RelativePath} {kind : VcsStatusKind}

theorem mem_ownKinds :
    (path, kind) ∈ ownKinds isVisible filesPrefix entries ↔
      IsOwn isVisible filesPrefix entries path kind := by
  simp only [ownKinds, List.mem_filterMap, Option.map_eq_some_iff, Prod.mk.injEq, IsOwn]
  constructor
  · rintro ⟨entry, hmem, found, hpath, rfl, hkind⟩
    exact ⟨entry, hmem, hpath, hkind⟩
  · rintro ⟨entry, hmem, hpath, hkind⟩
    exact ⟨entry, hmem, path, hpath, rfl, hkind⟩

theorem mem_candidateKinds :
    (path, kind) ∈ candidateKinds isVisible filesPrefix entries ↔
      IsDeletion isVisible filesPrefix entries path kind ∨
        IsSource isVisible filesPrefix entries path kind := by
  simp only [candidateKinds, entryCandidates, List.mem_flatMap, List.mem_append, IsDeletion, IsSource]
  constructor
  · rintro ⟨entry, hmem, hdeleted | hsource⟩
    · split at hdeleted
      next hdeletes =>
        simp only [Option.mem_toList, Option.map_eq_some_iff, Prod.mk.injEq] at hdeleted
        have ⟨_, hpath, hsame, hkind⟩ := hdeleted
        exact Or.inl ⟨entry, hmem, hdeletes, hsame ▸ hpath, hkind⟩
      next => contradiction
    · simp only [Option.mem_toList, Option.map_eq_some_iff, Prod.mk.injEq] at hsource
      have ⟨_, hpath, hsame, hkind⟩ := hsource
      exact Or.inr ⟨entry, hmem, hsame ▸ hpath, hkind⟩
  · rintro (⟨entry, hmem, hdeletes, hpath, hkind⟩ | ⟨entry, hmem, hpath, hkind⟩)
    · refine ⟨entry, hmem, Or.inl ?_⟩
      simp [hdeletes, hpath, hkind]
    · refine ⟨entry, hmem, Or.inr ?_⟩
      simp [hpath, hkind]

/-- A deletion is an entry of its path. -/
theorem IsDeletion.isOwn (h : IsDeletion isVisible filesPrefix entries path kind) :
    IsOwn isVisible filesPrefix entries path kind := by
  have ⟨entry, hmem, _, hpath, hkind⟩ := h
  exact ⟨entry, hmem, hpath, hkind⟩

theorem collectEntry_eq (collected : Collected) (entry : VcsEntryStatus) :
    collectEntry isVisible filesPrefix collected entry =
      { statuses := (spreadAll (ownKinds isVisible filesPrefix [entry])).foldl meetInto
          collected.statuses
        changed := (changedKinds false (ownKinds isVisible filesPrefix [entry])).foldl meetInto
          collected.changed
        virtualCandidates := (entryCandidates isVisible filesPrefix entry).foldl meetInto
          collected.virtualCandidates } := by
  unfold collectEntry entryCandidates ownKinds
  cases hown : visibleIn isVisible filesPrefix entry.path <;>
    cases hsource : entry.sourcePath.bind (visibleIn isVisible filesPrefix) <;>
    by_cases hdeletes : entry.deletes = true <;>
    simp [hown, hdeletes, spreadAll, changedKinds, insertStatusWithAncestors_eq, upsertChangedFile_eq,
      insertPreferredStatus_eq]

theorem foldl_collectEntry (collected : Collected) :
    entries.foldl (collectEntry isVisible filesPrefix) collected =
      { statuses := (spreadAll (ownKinds isVisible filesPrefix entries)).foldl meetInto
          collected.statuses
        changed := (changedKinds false (ownKinds isVisible filesPrefix entries)).foldl meetInto
          collected.changed
        virtualCandidates := (candidateKinds isVisible filesPrefix entries).foldl meetInto
          collected.virtualCandidates } := by
  induction entries generalizing collected with
  | nil => rfl
  | cons entry rest ih =>
    have hown : ownKinds isVisible filesPrefix (entry :: rest) =
        ownKinds isVisible filesPrefix [entry] ++ ownKinds isVisible filesPrefix rest := by
      rw [ownKinds, ownKinds, ownKinds, ← List.filterMap_append, List.singleton_append]
    rw [List.foldl_cons, ih, collectEntry_eq, hown]
    simp only [spreadAll, changedKinds, candidateKinds, List.flatMap_append, List.map_append,
      List.foldl_append, List.flatMap_cons]

/-- The candidates that are not found. -/
def missingOf (lookup : RelativePath → Except IoErrorKind VisibleEntryKind)
    (candidates : List (RelativePath × VcsStatusKind)) : List (RelativePath × VcsStatusKind) :=
  candidates.filter fun candidate => lookup candidate.1 = .error .notFound

def virtualNode (candidate : RelativePath × VcsStatusKind) : TreeNode where
  path := candidate.1
  kind := .virtual
  status := some candidate.2
  ignored := false

theorem foldl_resolveCandidate (candidates : List (RelativePath × VcsStatusKind))
    (resolved : Resolved) :
    candidates.foldl (resolveCandidate lookup) resolved =
      { statuses := (spreadAll (missingOf lookup candidates)).foldl meetInto resolved.statuses
        changed := (changedKinds true (missingOf lookup candidates)).foldl meetInto resolved.changed
        virtualNodes := resolved.virtualNodes ++ (missingOf lookup candidates).map virtualNode } := by
  induction candidates generalizing resolved with
  | nil => simp [missingOf, spreadAll, changedKinds]
  | cons candidate rest ih =>
    rw [List.foldl_cons, ih]
    unfold resolveCandidate
    split
    next hmissing =>
      have hkept : missingOf lookup (candidate :: rest) = candidate :: missingOf lookup rest := by
        simp [missingOf, hmissing]
      rw [hkept]
      simp [spreadAll, changedKinds, virtualNode, insertStatusWithAncestors_eq,
        upsertChangedFile_eq]
    next hfound =>
      have hkept : missingOf lookup (candidate :: rest) = missingOf lookup rest :=
        List.filter_cons_of_neg (by simpa using hfound)
      rw [hkept]

end

/-! ## A merge as a whole -/

section
variable (isVisible : RelativePath → Bool) (filesPrefix : RelativePath)
  (lookup : RelativePath → Except IoErrorKind VisibleEntryKind) (entries : List VcsEntryStatus)

/-- The strongest candidate kind of each path, in path order. -/
def strongestCandidates : List (RelativePath × VcsStatusKind) :=
  ((candidateKinds isVisible filesPrefix entries).foldl meetInto (∅ : Candidates)).toList

def missingKinds : List (RelativePath × VcsStatusKind) :=
  missingOf lookup (strongestCandidates isVisible filesPrefix entries)

/-- The kinds a merge enters, those of missing paths last. -/
def enteredKinds : List (RelativePath × VcsStatusKind) :=
  ownKinds isVisible filesPrefix entries ++ missingKinds isVisible filesPrefix lookup entries

theorem resolveCandidates_eq :
    resolveCandidates lookup (collectEntries isVisible filesPrefix entries) =
      { statuses := (spreadAll (enteredKinds isVisible filesPrefix lookup entries)).foldl meetInto ∅
        changed := (changedKinds false (ownKinds isVisible filesPrefix entries) ++
          changedKinds true (missingKinds isVisible filesPrefix lookup entries)).foldl meetInto ∅
        virtualNodes := (missingKinds isVisible filesPrefix lookup entries).map virtualNode } := by
  rw [resolveCandidates, collectEntries, foldl_collectEntry, foldl_resolveCandidate]
  simp only [enteredKinds, spreadAll, List.flatMap_append, List.foldl_append, List.nil_append]
  rfl

end

section
variable {isVisible : RelativePath → Bool} {filesPrefix : RelativePath}
  {lookup : RelativePath → Except IoErrorKind VisibleEntryKind} {entries : List VcsEntryStatus}
  {path : RelativePath} {kind : VcsStatusKind}

theorem mem_strongestCandidates :
    (path, kind) ∈ strongestCandidates isVisible filesPrefix entries ↔
      IsLeast (valuesAt (candidateKinds isVisible filesPrefix entries) path) kind := by
  rw [strongestCandidates, Std.ExtTreeMap.mem_toList_iff_getElem?_eq_some]
  have hmeet := meetOf_meetInto (candidateKinds isVisible filesPrefix entries) path
  have hfinite := finite_valuesAt (candidateKinds isVisible filesPrefix entries) path
  constructor
  · intro hget
    rw [hget] at hmeet
    exact hmeet.isLeast hfinite
  · intro hleast
    have hkept : MeetOf (valuesAt (candidateKinds isVisible filesPrefix entries) path) (some kind) :=
      ⟨⟨kind, hleast.1⟩, hleast.isGLB⟩
    exact hmeet.unique hkept

theorem mem_missingKinds :
    (path, kind) ∈ missingKinds isVisible filesPrefix lookup entries ↔
      lookup path = .error .notFound ∧
        IsLeast (valuesAt (candidateKinds isVisible filesPrefix entries) path) kind := by
  rw [missingKinds, missingOf, List.mem_filter, mem_strongestCandidates, decide_eq_true_eq]
  exact and_comm

/-- Every candidate of a path is dominated by the one that is entered for it. -/
theorem exists_least_candidate (h : (path, kind) ∈ candidateKinds isVisible filesPrefix entries) :
    ∃ least, IsLeast (valuesAt (candidateKinds isVisible filesPrefix entries) path) least ∧
      least ≤ kind := by
  have hmeet := meetOf_meetInto (candidateKinds isVisible filesPrefix entries) path
  have hfinite := finite_valuesAt (candidateKinds isVisible filesPrefix entries) path
  have hsome := hmeet.isSome_iff.mpr ⟨kind, h⟩
  have ⟨least, hget⟩ := Option.isSome_iff_exists.mp hsome
  rw [hget] at hmeet
  exact ⟨least, hmeet.isLeast hfinite, hmeet.2.1 h⟩

theorem exists_missingKind :
    (∃ kind, (path, kind) ∈ missingKinds isVisible filesPrefix lookup entries) ↔
      Missing isVisible filesPrefix lookup entries path := by
  simp only [mem_missingKinds, Missing, exists_and_left]
  constructor
  · rintro ⟨hlookup, least, hleast⟩
    exact ⟨hlookup, least, mem_candidateKinds.mp hleast.1⟩
  · rintro ⟨hlookup, kind, hkind⟩
    have ⟨least, hleast, _⟩ := exists_least_candidate (mem_candidateKinds.mpr hkind)
    exact ⟨hlookup, least, hleast⟩

theorem enteredKinds_contributed
    (h : (path, kind) ∈ enteredKinds isVisible filesPrefix lookup entries) :
    kind ∈ Contributed isVisible filesPrefix lookup entries path := by
  cases List.mem_append.mp h with
  | inl hown => exact Or.inl (mem_ownKinds.mp hown)
  | inr hmissing =>
    have ⟨hlookup, hleast⟩ := mem_missingKinds.mp hmissing
    cases mem_candidateKinds.mp hleast.1 with
    | inl hdeletion => exact Or.inl hdeletion.isOwn
    | inr hsource => exact Or.inr ⟨hlookup, hsource⟩

theorem exists_enteredKind (h : kind ∈ Contributed isVisible filesPrefix lookup entries path) :
    ∃ entered ≤ kind, (path, entered) ∈ enteredKinds isVisible filesPrefix lookup entries := by
  cases h with
  | inl hown => exact ⟨kind, le_rfl, List.mem_append_left _ (mem_ownKinds.mpr hown)⟩
  | inr hsource =>
    have ⟨hlookup, hsource⟩ := hsource
    have ⟨least, hleast, hle⟩ := exists_least_candidate (mem_candidateKinds.mpr (Or.inr hsource))
    exact ⟨least, hle, List.mem_append_right _ (mem_missingKinds.mpr ⟨hlookup, hleast⟩)⟩

theorem mem_spreadAll {kinds : List (RelativePath × VcsStatusKind)} :
    (path, kind) ∈ spreadAll kinds ↔ path ≠ [] ∧ ((path, kind) ∈ kinds ∨
      ∃ below, path ≠ below ∧ path <+: below ∧
        ∃ own, (below, own) ∈ kinds ∧ kind = ancestorStatus own) := by
  simp only [spreadAll, List.mem_flatMap, Prod.exists, mem_spread]
  constructor
  · rintro ⟨below, own, hmem, hne, ⟨rfl, rfl⟩ | ⟨hdiffers, habove, hkind⟩⟩
    · exact ⟨hne, Or.inl hmem⟩
    · exact ⟨hne, Or.inr ⟨below, hdiffers, habove, own, hmem, hkind⟩⟩
  · rintro ⟨hne, hmem | ⟨below, hdiffers, habove, own, hmem, hkind⟩⟩
    · exact ⟨path, kind, hmem, hne, Or.inl ⟨rfl, rfl⟩⟩
    · exact ⟨below, own, hmem, hne, Or.inr ⟨hdiffers, habove, hkind⟩⟩

/-- The recorded status of a path is the strongest of those that reach it. -/
theorem meetOf_statuses :
    MeetOf (Reaching isVisible filesPrefix lookup entries path)
      ((spreadAll (enteredKinds isVisible filesPrefix lookup entries)).foldl meetInto
        (∅ : Statuses))[path]? := by
  apply (meetOf_meetInto _ path).of_dominated
  · intro kind hkind
    have ⟨hne, hreaches⟩ := mem_spreadAll.mp hkind
    refine ⟨hne, hreaches.imp enteredKinds_contributed ?_⟩
    rintro ⟨below, hdiffers, habove, own, hown, heq⟩
    exact ⟨below, hdiffers, habove, own, enteredKinds_contributed hown, heq⟩
  · rintro kind ⟨hne, hkind | ⟨below, hdiffers, habove, own, hown, rfl⟩⟩
    · have ⟨entered, hle, hmem⟩ := exists_enteredKind hkind
      exact ⟨entered, mem_spreadAll.mpr ⟨hne, Or.inl hmem⟩, hle⟩
    · have ⟨entered, hle, hmem⟩ := exists_enteredKind hown
      refine ⟨ancestorStatus entered, mem_spreadAll.mpr ⟨hne, Or.inr ?_⟩, ancestorStatus_mono hle⟩
      exact ⟨below, hdiffers, habove, entered, hmem, rfl⟩

/-! ### Changed files -/

theorem mem_changedList {changed : Changed} {file : ChangedFile} :
    file ∈ changedList changed ↔
      changed[file.path]? = some (file.kind, OrderDual.toDual file.missing) := by
  simp only [changedList, List.mem_map, Prod.exists, Std.ExtTreeMap.mem_toList_iff_getElem?_eq_some]
  constructor
  · rintro ⟨path, kind, missing, hget, rfl⟩
    exact hget
  · intro hget
    exact ⟨file.path, file.kind, OrderDual.toDual file.missing, hget, rfl⟩

theorem pairwise_changedList (changed : Changed) :
    (changedList changed).Pairwise fun left right => compare left.path right.path = .lt :=
  List.pairwise_map.mpr Std.ExtTreeMap.ordered_keys_toList

theorem mem_changedKinds {missing : Bool} {kinds : List (RelativePath × VcsStatusKind)}
    {flag : Boolᵒᵈ} :
    (path, kind, flag) ∈ changedKinds missing kinds ↔
      (path, kind) ∈ kinds ∧ flag = OrderDual.toDual missing := by
  simp only [changedKinds, List.mem_map, Prod.exists, Prod.mk.injEq]
  constructor
  · rintro ⟨path', kind', hmem, rfl, rfl, hflag⟩
    exact ⟨hmem, hflag.symm⟩
  · rintro ⟨hmem, hflag⟩
    exact ⟨path, kind, hmem, rfl, rfl, hflag.symm⟩

variable (isVisible filesPrefix lookup entries) in
/-- What a merge enters into the table of changed files. -/
def enteredChanges : List (RelativePath × VcsStatusKind × Boolᵒᵈ) :=
  changedKinds false (ownKinds isVisible filesPrefix entries) ++
    changedKinds true (missingKinds isVisible filesPrefix lookup entries)

theorem mem_enteredChanges {flag : Boolᵒᵈ} :
    (path, kind, flag) ∈ enteredChanges isVisible filesPrefix lookup entries ↔
      (path, kind) ∈ ownKinds isVisible filesPrefix entries ∧ flag = OrderDual.toDual false ∨
      (path, kind) ∈ missingKinds isVisible filesPrefix lookup entries ∧
        flag = OrderDual.toDual true := by
  rw [enteredChanges, List.mem_append, mem_changedKinds, mem_changedKinds]

/-- The kind kept for a path is the strongest that counts there. -/
theorem meetOf_changedKind :
    MeetOf (Contributed isVisible filesPrefix lookup entries path)
      (((enteredChanges isVisible filesPrefix lookup entries).foldl meetInto
        (∅ : Changed))[path]?.map Prod.fst) := by
  have hmeet := meetOf_meetInto (enteredChanges isVisible filesPrefix lookup entries) path
  have hkinds : MeetOf (valuesAt (enteredKinds isVisible filesPrefix lookup entries) path)
      (((enteredChanges isVisible filesPrefix lookup entries).foldl meetInto
        (∅ : Changed))[path]?.map Prod.fst) := by
    have himage : Prod.fst '' valuesAt (enteredChanges isVisible filesPrefix lookup entries) path =
        valuesAt (enteredKinds isVisible filesPrefix lookup entries) path := by
      ext kind
      simp only [Set.mem_image, Prod.exists, exists_eq_right, exists_and_right, valuesAt,
        Set.mem_ofPred_eq, mem_enteredChanges, enteredKinds, List.mem_append]
      constructor
      · rintro ⟨flag, hown | hmissing⟩
        · exact Or.inl hown.1
        · exact Or.inr hmissing.1
      · rintro (hown | hmissing)
        · exact ⟨_, Or.inl ⟨hown, rfl⟩⟩
        · exact ⟨_, Or.inr ⟨hmissing, rfl⟩⟩
    rw [← himage]
    exact hmeet.map_fst
  apply hkinds.of_dominated
  · exact fun kind => enteredKinds_contributed
  · intro kind hkind
    obtain ⟨entered, hle, hmem⟩ := exists_enteredKind hkind
    exact ⟨entered, hmem, hle⟩

/-- The flag kept for a path tells whether it is missing. -/
theorem missing_of_changed {flag : Boolᵒᵈ}
    (h : ((enteredChanges isVisible filesPrefix lookup entries).foldl meetInto
      (∅ : Changed))[path]? = some (kind, flag)) :
    OrderDual.ofDual flag = true ↔ Missing isVisible filesPrefix lookup entries path := by
  have hmeet := meetOf_meetInto (enteredChanges isVisible filesPrefix lookup entries) path
  rw [h] at hmeet
  have hleast := hmeet.map_snd.isLeast (Set.toFinite _)
  rw [← exists_missingKind]
  constructor
  · intro hflag
    have ⟨⟨other, otherFlag⟩, hmem, heq⟩ := hleast.1
    have hsame : otherFlag = flag := heq
    cases mem_enteredChanges.mp hmem with
    | inl hown =>
      rw [← hsame, hown.2] at hflag
      contradiction
    | inr hmissing => exact ⟨other, hmissing.1⟩
  · rintro ⟨other, hother⟩
    have hmem : (path, other, OrderDual.toDual true) ∈
        enteredChanges isVisible filesPrefix lookup entries :=
      mem_enteredChanges.mpr (Or.inr ⟨hother, rfl⟩)
    have hle : flag ≤ OrderDual.toDual true := hleast.2 ⟨_, hmem, rfl⟩
    exact top_le_iff.mp (OrderDual.le_toDual.mp hle)

end

/-! ### Nodes -/

namespace FilesTree

section
variable (tree : FilesTree)

@[simp] theorem nodes_restoreSelection : tree.restoreSelection.nodes = tree.nodes := by
  unfold restoreSelection
  split
  next => rfl
  next => split <;> rfl

@[simp] theorem statuses_restoreSelection : tree.restoreSelection.statuses = tree.statuses := by
  unfold restoreSelection
  split
  next => rfl
  next => split <;> rfl

@[simp] theorem changedFiles_restoreSelection :
    tree.restoreSelection.changedFiles = tree.changedFiles := by
  unfold restoreSelection
  split
  next => rfl
  next => split <;> rfl

@[simp] theorem loader_restoreSelection : tree.restoreSelection.loader = tree.loader := by
  unfold restoreSelection
  split
  next => rfl
  next => split <;> rfl

end

theorem get?_overlay (nodes : TreeNodes) (statuses : Statuses) (virtualNodes : List TreeNode)
    (path : RelativePath) :
    (overlay nodes statuses virtualNodes).get? path =
      (virtualNodes.reverse.find? fun node => node.path = path).or
        (((nodes.get? path).filter (·.kind ≠ .virtual)).map fun node =>
          { node with status := statuses[node.path]? }) := by
  rw [overlay, Table.get?_foldl_insert, Table.get?_mapValues, Table.get?_filter]

/-- A node of an overlaid tree is one of the new virtual nodes or an old
physical one under its new status. -/
theorem mem_overlay {nodes : TreeNodes} {statuses : Statuses} {virtualNodes : List TreeNode}
    {path : RelativePath} {node : TreeNode}
    (h : (overlay nodes statuses virtualNodes).get? path = some node) :
    node ∈ virtualNodes ∨ (∀ other ∈ virtualNodes, other.path ≠ path) ∧
      ∃ old, nodes.get? path = some old ∧ old.kind ≠ .virtual ∧
        node = { old with status := statuses[path]? } := by
  rw [get?_overlay, Option.or_eq_some_iff] at h
  cases h with
  | inl hvirtual => exact Or.inl (List.mem_reverse.mp (List.mem_of_find?_eq_some hvirtual))
  | inr hold =>
    have ⟨hnone, hmap⟩ := hold
    refine Or.inr ⟨fun other hother => ?_, ?_⟩
    · have hdiffers := List.find?_eq_none.mp hnone other (List.mem_reverse.mpr hother)
      simpa using hdiffers
    · have ⟨old, hfilter, hnode⟩ := Option.map_eq_some_iff.mp hmap
      have ⟨hget, hkind⟩ := Option.filter_eq_some_iff.mp hfilter
      have hpath : old.path = path := Table.key_of_get? hget
      have hstatus := congrArg (fun p => { old with status := statuses[p]? }) hpath
      exact ⟨old, hget, by simpa using hkind, hnode.symm.trans hstatus⟩

/-- A physical node stays unless a virtual one takes its path. -/
theorem get?_overlay_of_physical {nodes : TreeNodes} {virtualNodes : List TreeNode}
    {path : RelativePath} {node : TreeNode} (statuses : Statuses)
    (hget : nodes.get? path = some node) (hkind : node.kind ≠ .virtual)
    (hfree : ∀ other ∈ virtualNodes, other.path ≠ path) :
    (overlay nodes statuses virtualNodes).get? path =
      some { node with status := statuses[path]? } := by
  have hnone : (virtualNodes.reverse.find? fun node => node.path = path) = none := by
    apply List.find?_eq_none.mpr
    intro other hother
    simpa using hfree other (List.mem_reverse.mp hother)
  have hfilter : Option.filter (fun node : TreeNode => decide (node.kind ≠ .virtual)) (some node) =
      some node := by
    simp [Option.filter, hkind]
  have hpath : node.path = path := Table.key_of_get? hget
  rw [get?_overlay, hnone, hget, hfilter, ← hpath]
  rfl

/-- A virtual node is found at its path. -/
theorem exists_get?_overlay (nodes : TreeNodes) (statuses : Statuses) {virtualNodes : List TreeNode}
    {node : TreeNode} (h : node ∈ virtualNodes) :
    ∃ found ∈ virtualNodes, found.path = node.path ∧
      (overlay nodes statuses virtualNodes).get? node.path = some found := by
  have hsome : (virtualNodes.reverse.find? fun other => other.path = node.path).isSome :=
    List.find?_isSome.mpr ⟨node, List.mem_reverse.mpr h, by simp⟩
  have ⟨found, hfound⟩ := Option.isSome_iff_exists.mp hsome
  refine ⟨found, List.mem_reverse.mp (List.mem_of_find?_eq_some hfound), ?_, ?_⟩
  · simpa using List.find?_some hfound
  · rw [get?_overlay, hfound]
    rfl

section
variable (lookup : RelativePath → Except IoErrorKind VisibleEntryKind) (tree : FilesTree)
  (snapshot : VcsStatusSnapshot) (filesPrefix : RelativePath)

theorem nodes_merge : (mergeWorkspaceStatus lookup tree snapshot filesPrefix).nodes =
    overlay tree.nodes (mergeWorkspaceStatus lookup tree snapshot filesPrefix).statuses
      ((missingKinds tree.loader.isVisible filesPrefix lookup snapshot.entries).map virtualNode) := by
  simp only [mergeWorkspaceStatus, resolveCandidates_eq, nodes_restoreSelection,
    statuses_restoreSelection]

theorem statuses_merge : (mergeWorkspaceStatus lookup tree snapshot filesPrefix).statuses =
    (spreadAll (enteredKinds tree.loader.isVisible filesPrefix lookup snapshot.entries)).foldl
      meetInto ∅ := by
  simp only [mergeWorkspaceStatus, resolveCandidates_eq, statuses_restoreSelection]

theorem changedFiles_merge : (mergeWorkspaceStatus lookup tree snapshot filesPrefix).changedFiles =
    changedList ((enteredChanges tree.loader.isVisible filesPrefix lookup snapshot.entries).foldl
      meetInto ∅) := by
  simp only [mergeWorkspaceStatus, resolveCandidates_eq, changedFiles_restoreSelection,
    enteredChanges]

end

/-- A path is virtual after a merge exactly where it is missing. -/
theorem exists_virtual_merge {lookup : RelativePath → Except IoErrorKind VisibleEntryKind}
    {tree : FilesTree} {snapshot : VcsStatusSnapshot} {filesPrefix path : RelativePath} :
    (∃ node, (mergeWorkspaceStatus lookup tree snapshot filesPrefix).nodes.get? path = some node ∧
      node.kind = .virtual) ↔
      Missing tree.loader.isVisible filesPrefix lookup snapshot.entries path := by
  rw [nodes_merge, ← exists_missingKind]
  constructor
  · rintro ⟨node, hget, hvirtual⟩
    cases mem_overlay hget with
    | inl hmem =>
      have ⟨⟨found, kind⟩, hmissing, heq⟩ := List.mem_map.mp hmem
      have hpath : found = path := by
        rw [← Table.key_of_get? hget, ← heq]
        rfl
      exact ⟨kind, hpath ▸ hmissing⟩
    | inr hold =>
      have ⟨_, old, _, hkind, heq⟩ := hold
      rw [heq] at hvirtual
      exact absurd hvirtual hkind
  · rintro ⟨kind, hmissing⟩
    have hmem := List.mem_map_of_mem (f := virtualNode) hmissing
    have ⟨found, hfound, _, hget⟩ := exists_get?_overlay tree.nodes
      (mergeWorkspaceStatus lookup tree snapshot filesPrefix).statuses hmem
    have ⟨_, _, heq⟩ := List.mem_map.mp hfound
    exact ⟨found, hget, by rw [← heq]; rfl⟩

end FilesTree

end HerdrContext.Files
