import HerdrContext.Files.Search

/-! What a search page collects: the listings it read, each of one of its
directories. -/
namespace HerdrContext.Files

open Library

/-! ## Listings -/

namespace FilesRoot

/-- A directory lists a name once. -/
def NamesOnce (root : FilesRoot) : Prop :=
  ∀ directory listing, root.listing directory = .ok listing → listing.reduceOption.Nodup

end FilesRoot

section
variable {root : FilesRoot} {policy : IgnorePolicy} {matchers : IgnoreMatchers}
  {directory : RelativePath}

theorem visibleEntry_name {item : Option FileName} {entry : VisibleEntry}
    (h : visibleEntry root policy matchers directory item = some entry) :
    item = some entry.name ∧ policy.isVisible (directory ++ [entry.name]) = true ∧
      (entry.ignored = true → policy.showIgnored = true) := by
  unfold visibleEntry at h
  cases item with
  | none => contradiction
  | some name =>
    simp only [Option.bind_eq_bind, Option.bind_some] at h
    split at h
    next hvisible =>
      split at h
      next => contradiction
      next kind _ =>
        split at h
        next => contradiction
        next hshown =>
          cases h
          refine ⟨rfl, hvisible, fun hignored => ?_⟩
          simpa [show matchers.isIgnored _ _ = true from hignored] using hshown
    next => contradiction

/-- The entries kept of a listing are named in its order. -/
theorem names_enumerate (bounds : Option EnumerationBounds) (examined : Nat)
    (entries : List VisibleEntry) (listing : List (Option FileName)) :
    ∃ kept, (enumerate root policy matchers directory bounds examined entries listing).entries =
        entries ++ kept ∧
      (kept.map (·.name)).Sublist listing.reduceOption ∧
      ∀ entry ∈ kept, visibleEntry root policy matchers directory (some entry.name) = some entry := by
  induction listing generalizing examined entries with
  | nil => exact ⟨[], (List.append_nil _).symm, List.nil_sublist _, fun _ hnone => nomatch hnone⟩
  | cons item rest ih =>
    have hnothing : ∃ kept, entries = entries ++ kept ∧
        (kept.map (·.name)).Sublist (item :: rest).reduceOption ∧
        ∀ entry ∈ kept, visibleEntry root policy matchers directory (some entry.name) = some entry :=
      ⟨[], (List.append_nil _).symm, List.nil_sublist _, fun _ hnone => nomatch hnone⟩
    unfold enumerate
    split
    next => exact hnothing
    next =>
      split
      next => exact hnothing
      next =>
        split
        next =>
          have ⟨kept, heq, hnames, hkept⟩ := ih (examined + 1) entries
          have hsub : rest.reduceOption.Sublist (item :: rest).reduceOption :=
            (List.sublist_cons_self item rest).filterMap id
          exact ⟨kept, heq, hnames.trans hsub, hkept⟩
        next found hfound =>
          split
          next => exact hnothing
          next =>
            have ⟨kept, heq, hnames, hkept⟩ := ih (examined + 1) (entries ++ [found])
            have hname := (visibleEntry_name hfound).1
            subst hname
            refine ⟨found :: kept, ?_, ?_, ?_⟩
            · rw [heq, List.append_assoc]
              rfl
            · rw [List.map_cons, List.reduceOption_cons_of_some]
              exact hnames.cons_cons _
            · intro entry hentry
              cases List.mem_cons.mp hentry with
              | inl hsame => exact hsame ▸ hfound
              | inr hmem => exact hkept entry hmem

/-- The entries of a directory that could be read. -/
theorem entries_visibleEntriesWithBounds {bounds : Option EnumerationBounds}
    {batch : VisibleEntriesBatch}
    (h : visibleEntriesWithBounds root policy directory bounds = .ok batch) :
    root.openDirectory directory = .ok () ∧ ∃ matchers, root.matchers directory = .ok matchers ∧
      (∀ entry ∈ batch.entries,
        visibleEntry root policy matchers directory (some entry.name) = some entry) ∧
      (root.NamesOnce → (batch.entries.map (·.name)).Nodup) := by
  unfold visibleEntriesWithBounds at h
  simp only [bind_eq_ok_iff] at h
  obtain ⟨_, _, _, hopen, matchers, hmatchers, h⟩ := h
  refine ⟨hopen, matchers, hmatchers, ?_⟩
  split at h
  next =>
    cases h
    constructor
    · exact fun _ hnone => by cases hnone
    · exact fun _ => List.nodup_nil
  next =>
    obtain ⟨listing, hlisting, hbatch⟩ := bind_eq_ok_iff.mp h
    obtain ⟨kept, heq, hnames, hkept⟩ : ∃ kept,
        (enumerate root policy matchers directory bounds 0 [] listing).entries = [] ++ kept ∧
        (kept.map (·.name)).Sublist listing.reduceOption ∧
        ∀ entry ∈ kept, visibleEntry root policy matchers directory (some entry.name) = some entry :=
      names_enumerate bounds 0 [] listing
    cases hbatch
    simp only [heq, List.nil_append]
    have hperm := List.perm_insertionSort (fun left right : VisibleEntry => left.name ≤ right.name) kept
    constructor
    · intro entry hentry
      exact hkept entry (hperm.mem_iff.mp hentry)
    · intro honce
      apply (hperm.map _).nodup_iff.mpr
      exact (honce directory listing hlisting).sublist hnames

end

/-- What a load of a directory may show of it. -/
def IgnorePolicy.Lists (loader : IgnorePolicy) (root : FilesRoot) (snapshot : DirectorySnapshot) :
    Prop :=
  ∃ bounds batch, visibleEntriesWithBounds root loader snapshot.directory bounds = .ok batch ∧
    snapshot = .ofEntries snapshot.directory batch.entries

theorem IgnorePolicy.lists_of_load {loader : IgnorePolicy} {root : FilesRoot}
    {directory : RelativePath} {snapshot : DirectorySnapshot}
    (h : loader.load root directory = .ok snapshot) :
    snapshot.directory = directory ∧ loader.Lists root snapshot := by
  have ⟨batch, hbatch, heq⟩ := bind_eq_ok_iff.mp h
  cases heq
  exact ⟨rfl, none, batch, hbatch, rfl⟩

theorem IgnorePolicy.lists_of_loadBounded {loader : IgnorePolicy} {root : FilesRoot}
    {directory : RelativePath} {maxEntries maxExamined : Nat} {flags : DirectoryFlags}
    {snapshot : DirectorySnapshot} {examined : Nat} {truncated : Bool}
    (h : loader.loadBounded root directory maxEntries maxExamined flags =
      .ok (snapshot, examined, truncated)) :
    snapshot.directory = directory ∧ loader.Lists root snapshot := by
  have ⟨batch, hbatch, heq⟩ := bind_eq_ok_iff.mp h
  cases heq
  exact ⟨rfl, _, batch, hbatch, rfl⟩

namespace IgnorePolicy.Lists

variable {loader : IgnorePolicy} {root : FilesRoot} {snapshot : DirectorySnapshot} {node : TreeNode}

/-- A listed node is what the directory holds under its name, and may be shown. -/
theorem shown (h : loader.Lists root snapshot) (hnode : node ∈ snapshot.nodes) :
    root.openDirectory snapshot.directory = .ok () ∧
    (∃ kind, root.stat node.path = .ok kind ∧ node.kind = kind.treeKind) ∧
    loader.isVisible node.path = true ∧ (node.ignored = true → loader.showIgnored = true) := by
  have ⟨bounds, batch, hbatch, heq⟩ := h
  have ⟨hopen, matchers, _, hentries, _⟩ := entries_visibleEntriesWithBounds hbatch
  rw [heq, DirectorySnapshot.ofEntries, List.mem_map] at hnode
  have ⟨entry, hentry, hnode⟩ := hnode
  have hfound := hentries entry hentry
  have ⟨_, hvisible, hshown⟩ := visibleEntry_name hfound
  subst hnode
  exact ⟨hopen, ⟨entry.kind, visibleEntry_stat hfound, rfl⟩, hvisible, hshown⟩

theorem not_absent (h : loader.Lists root snapshot) {path : RelativePath}
    (hpath : path ∈ FilesTree.loadedPaths snapshot) : ¬ root.Absent path := by
  have ⟨node, hnode, heq⟩ := FilesTree.mem_loadedPaths.mp hpath
  have ⟨_, ⟨kind, hstat, _⟩, _⟩ := h.shown hnode
  rw [heq] at hstat
  intro habsent
  rw [FilesRoot.Absent, hstat] at habsent
  contradiction

theorem nodup (h : loader.Lists root snapshot) (honce : root.NamesOnce) :
    (FilesTree.loadedPaths snapshot).Nodup := by
  have ⟨bounds, batch, hbatch, heq⟩ := h
  have ⟨_, _, _, _, hnames⟩ := entries_visibleEntriesWithBounds hbatch
  have hpaths : FilesTree.loadedPaths snapshot =
      (batch.entries.map (·.name)).map fun name => snapshot.directory ++ [name] := by
    rw [heq]
    simp [FilesTree.loadedPaths, DirectorySnapshot.ofEntries]
  rw [hpaths]
  apply (hnames honce).map
  intro name other hsame
  exact List.singleton_inj.mp (List.append_cancel_left hsame)

end IgnorePolicy.Lists

end HerdrContext.Files
