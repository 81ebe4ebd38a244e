import HerdrContext.Files.Steps

/-! What a search page does to an index, and what the search knows of the page
under way. -/
namespace HerdrContext.Files

open Library
open Worker.WorkerRuntime (saturatingAdd)

/-! ## Virtual nodes -/

/-- The virtual node at a path. -/
def virtualAt (nodes : TreeNodes) (path : RelativePath) : Option TreeNode :=
  (nodes.get? path).filter (·.kind = .virtual)

theorem virtualAt_eq_some {nodes : TreeNodes} {path : RelativePath} {node : TreeNode} :
    virtualAt nodes path = some node ↔ nodes.get? path = some node ∧ node.kind = .virtual := by
  simp [virtualAt, Option.filter_eq_some_iff]

namespace FilesTree

section
variable {tree : FilesTree} {path : RelativePath}

theorem mem_virtualNodes {node : TreeNode} :
    node ∈ tree.virtualNodes ↔ virtualAt tree.nodes node.path = some node := by
  rw [virtualNodes, List.mem_filter, Table.mem_values, virtualAt_eq_some, decide_eq_true_eq]

/-- A path names at most one of the listed nodes. -/
theorem find?_eq_of_unique {nodes : List TreeNode} {found : Option TreeNode}
    (hmem : ∀ node, node.path = path → (node ∈ nodes ↔ found = some node))
    (hpath : ∀ node, found = some node → node.path = path) :
    (nodes.reverse.find? fun node => node.path = path) = found := by
  cases hfind : nodes.reverse.find? fun node => node.path = path with
  | none =>
    cases found with
    | none => rfl
    | some node =>
      have hnode := (hmem node (hpath node rfl)).mpr rfl
      have hdiffers := List.find?_eq_none.mp hfind node (List.mem_reverse.mpr hnode)
      simp [hpath node rfl] at hdiffers
  | some node =>
    have hnode := List.mem_reverse.mp (List.mem_of_find?_eq_some hfind)
    have hat : node.path = path := by simpa using List.find?_some hfind
    exact ((hmem node hat).mp hnode).symm

theorem find?_virtualNodes (tree : FilesTree) (path : RelativePath) :
    (tree.virtualNodes.reverse.find? fun node => node.path = path) = virtualAt tree.nodes path := by
  apply find?_eq_of_unique
  · intro node hpath
    rw [mem_virtualNodes, hpath]
  · intro node hnode
    exact Table.key_of_get? (virtualAt_eq_some.mp hnode).1

/-- An overlay takes its virtual nodes from the source. -/
theorem virtualAt_overlay (nodes : TreeNodes) (statuses : Statuses) (source : FilesTree)
    (path : RelativePath) :
    virtualAt (overlay nodes statuses source.virtualNodes) path = virtualAt source.nodes path := by
  rw [virtualAt, get?_overlay, find?_virtualNodes]
  cases hsource : virtualAt source.nodes path with
  | some node =>
    have hkind := (virtualAt_eq_some.mp hsource).2
    simp [Option.filter, hkind]
  | none =>
    rw [Option.none_or, Option.filter_eq_none_iff]
    intro node hnode
    have ⟨old, hold, heq⟩ := Option.map_eq_some_iff.mp hnode
    have hkind := (Option.filter_eq_some_iff.mp hold).2
    rw [← heq]
    simpa using hkind

/-- A listing that shows no virtual path leaves the virtual nodes. -/
theorem virtualAt_applyDirectory {snapshot : DirectorySnapshot}
    (hfree : (virtualAt tree.nodes path).isSome → path ∉ loadedPaths snapshot) :
    virtualAt (tree.applyDirectory snapshot).nodes path = virtualAt tree.nodes path := by
  by_cases hmem : path ∈ loadedPaths snapshot
  · have hnone : virtualAt tree.nodes path = none := by
      by_contra hsome
      exact hfree (Option.isSome_iff_ne_none.mpr hsome) hmem
    have ⟨listed, hlisted, _, hget⟩ :
        ∃ listed ∈ snapshot.nodes, listed.path = path ∧ (tree.applyDirectory snapshot).nodes.get?
          path = some { listed with status := tree.statuses[listed.path]? } :=
      get?_applyDirectory_listed hmem
    rw [hnone, virtualAt, hget]
    simp [Option.filter, snapshot.physical listed hlisted]
  · rw [virtualAt, get?_applyDirectory_kept hmem, virtualAt, Option.filter_filter]
    congr 1
    funext node
    by_cases hkind : node.kind = .virtual
    · simp [hkind, keeps]
    · simp [hkind]

@[simp] theorem nodes_select (path : RelativePath) : (tree.select path).1.nodes = tree.nodes := by
  unfold select
  split <;> rfl

@[simp] theorem statuses_select (path : RelativePath) :
    (tree.select path).1.statuses = tree.statuses := by
  unfold select
  split <;> rfl

@[simp] theorem changedFiles_select (path : RelativePath) :
    (tree.select path).1.changedFiles = tree.changedFiles := by
  unfold select
  split <;> rfl

@[simp] theorem loader_select (path : RelativePath) : (tree.select path).1.loader = tree.loader := by
  unfold select
  split <;> rfl

@[simp] theorem loader_syncStatusOverlayFrom (tree source : FilesTree) :
    (tree.syncStatusOverlayFrom source).loader = tree.loader := by
  simp [syncStatusOverlayFrom]

@[simp] theorem loader_applyDirectory (snapshot : DirectorySnapshot) :
    (tree.applyDirectory snapshot).loader = tree.loader := by
  simp [applyDirectory]

@[simp] theorem statuses_applyDirectory (snapshot : DirectorySnapshot) :
    (tree.applyDirectory snapshot).statuses = tree.statuses := by
  simp [applyDirectory]

@[simp] theorem changedFiles_applyDirectory (snapshot : DirectorySnapshot) :
    (tree.applyDirectory snapshot).changedFiles = tree.changedFiles := by
  simp [applyDirectory]

/-- A selection stays while its path does. -/
theorem selection_restoreSelection (hselected : tree.selection = some path)
    (hpath : (tree.nodes.get? path).isSome) : tree.restoreSelection.selection = some path := by
  simp only [restoreSelection, hselected, if_pos hpath]

theorem applyDirectories_frame (snapshots : List DirectorySnapshot) (tree : FilesTree) :
    (snapshots.foldl applyDirectory tree).loader = tree.loader ∧
    (snapshots.foldl applyDirectory tree).statuses = tree.statuses ∧
    (snapshots.foldl applyDirectory tree).changedFiles = tree.changedFiles := by
  induction snapshots generalizing tree with
  | nil => exact ⟨rfl, rfl, rfl⟩
  | cons first rest ih =>
    have ⟨hloader, hstatuses, hchanged⟩ := ih (tree.applyDirectory first)
    simp only [loader_applyDirectory, statuses_applyDirectory, changedFiles_applyDirectory]
      at hloader hstatuses hchanged
    exact ⟨hloader, hstatuses, hchanged⟩

theorem virtualAt_applyDirectories (snapshots : List DirectorySnapshot) (tree : FilesTree)
    (hfree : (virtualAt tree.nodes path).isSome → ∀ snapshot ∈ snapshots,
      path ∉ loadedPaths snapshot) :
    virtualAt (snapshots.foldl applyDirectory tree).nodes path = virtualAt tree.nodes path := by
  induction snapshots generalizing tree with
  | nil => rfl
  | cons first rest ih =>
    have hfirst : virtualAt (tree.applyDirectory first).nodes path = virtualAt tree.nodes path :=
      virtualAt_applyDirectory fun hsome => hfree hsome first List.mem_cons_self
    rw [List.foldl_cons, ih, hfirst]
    rw [hfirst]
    exact fun hsome snapshot hmem => hfree hsome snapshot (List.mem_cons_of_mem _ hmem)

end

end FilesTree

/-! ## Starting a page -/

namespace FileSearchState

/-- What starting the next page can do. -/
inductive StartsPage (search : FileSearchState) (pages : JobSlot PageJob) :
    FileSearchState → JobSlot PageJob → Prop where
  | idle : StartsPage search pages search pages
  | refused (asked : Nat) : StartsPage search pages search { pages with asked }
  | exhausted (stopped : search.running = none)
    (budget : maxIndexEntries ≤ search.scannedEntries ∨ maxExaminedEntries ≤ search.examinedEntries) :
    StartsPage search pages
      { search with truncated := true, complete := true, pendingDirectories := [] } pages
  | finished (stopped : search.running = none) (empty : search.pendingDirectories = []) :
    StartsPage search pages { search with complete := true } pages
  | started (stopped : search.running = none) (incomplete : search.complete = false)
    (waiting : search.pendingDirectories ≠ [])
    (entries : search.scannedEntries < maxIndexEntries)
    (examined : search.examinedEntries < maxExaminedEntries)
    (accepted : pages.accepts (saturatingAdd search.jobGeneration 1) = true) :
    StartsPage search pages
      { search with
        pendingDirectories := search.pendingDirectories.drop directoriesPerPage
        running := some (saturatingAdd search.jobGeneration 1, search.scanEpoch)
        runningDirectories := search.pendingDirectories.take directoriesPerPage
        pageCancel := true
        jobGeneration := saturatingAdd search.jobGeneration 1 }
      { pages with
        asked := pages.asked + 1
        latest := some (saturatingAdd search.jobGeneration 1)
        newest := some (saturatingAdd search.jobGeneration 1, search.nextPage)
        raised := false }

theorem startsPage_startNextPage (search : FileSearchState) (pages : JobSlot PageJob) :
    StartsPage search pages (search.startNextPage pages).1 (search.startNextPage pages).2.1 := by
  unfold startNextPage
  split
  next => exact .idle
  next hready =>
    simp only [Bool.or_eq_true, not_or, Bool.not_eq_true, Option.isSome_eq_false_iff,
      Option.isNone_iff_eq_none] at hready
    split
    next hbudget => exact .exhausted hready.1.1 hbudget
    next hbudget =>
      rw [not_or, Nat.not_le, Nat.not_le] at hbudget
      split
      next hempty => exact .finished hready.1.1 hempty
      next hwaiting =>
        cases haccepts : pages.accepts (saturatingAdd search.jobGeneration 1) with
        | true =>
          simp only [JobSlot.submit_accepted haccepts, if_true]
          exact .started hready.1.1 hready.2 hwaiting hbudget.1 hbudget.2 haccepts
        | false =>
          simp only [JobSlot.submit_refused haccepts, Bool.false_eq_true, if_false]
          exact .refused _

section
variable {search search' : FileSearchState} {pages pages' : JobSlot PageJob}

theorem StartsPage.index_eq (h : StartsPage search pages search' pages') :
    search'.index = search.index := by
  cases h <;> rfl

theorem StartsPage.searchable_eq (h : StartsPage search pages search' pages') :
    search'.searchable = search.searchable := by
  cases h <;> rfl

end

end FileSearchState

/-! ## The page under way -/

/-- The job of the search reads with the loader of its index, and the one under
way does what the search says is running, with its flag down. -/
structure FileSearchState.Sound (search : FileSearchState) (pages : JobSlot PageJob) : Prop where
  loader : ∀ generation job, pages.newest = some (generation, job) →
    job.loader = search.index.loader ∧ job.request.index.loader = search.index.loader
  running : ∀ generation epoch, search.running = some (generation, epoch) →
    epoch = search.scanEpoch ∧ pages.raised = false ∧ ∃ job,
      pages.newest = some (generation, job) ∧ job.epoch = epoch ∧
      job.request.directories = search.runningDirectories ∧
      job.request.remainingEntries = maxIndexEntries - search.scannedEntries ∧
      job.request.remainingExamined = maxExaminedEntries - search.examinedEntries
  stopped : search.running = none → search.runningDirectories = []
  cancel : search.running = none → search.pageCancel = false

namespace FileSearchState.Sound

variable {search : FileSearchState} {pages : JobSlot PageJob}

/-- The search that runs nothing. -/
theorem of_stopped (hrunning : search.running = none) (hdirectories : search.runningDirectories = [])
    (hcancel : search.pageCancel = false)
    (hloader : ∀ generation job, pages.newest = some (generation, job) →
      job.loader = search.index.loader ∧ job.request.index.loader = search.index.loader) :
    search.Sound pages := by
  constructor
  case loader => exact hloader
  case running =>
    intro generation epoch hsome
    rw [hrunning] at hsome
    contradiction
  case stopped => exact fun _ => hdirectories
  case cancel => exact fun _ => hcancel

theorem select (h : search.Sound pages) (path : RelativePath) :
    ({ search with index := (search.index.select path).1 } : FileSearchState).Sound pages := by
  constructor
  case loader =>
    simp only [FilesTree.loader_select]
    exact h.loader
  case running => exact h.running
  case stopped => exact h.stopped
  case cancel => exact h.cancel

theorem syncStatusFrom (h : search.Sound pages) (tree : FilesTree) :
    (search.syncStatusFrom tree).Sound pages := by
  constructor
  case loader =>
    simp only [FileSearchState.syncStatusFrom, syncVirtualEntries, FilesTree.loader_syncStatusOverlayFrom]
    exact h.loader
  case running => exact h.running
  case stopped => exact h.stopped
  case cancel => exact h.cancel

theorem startsPage {search' : FileSearchState} {pages' : JobSlot PageJob} (h : search.Sound pages)
    (hstart : search.StartsPage pages search' pages') : search'.Sound pages' := by
  cases hstart with
  | idle => exact h
  | refused => exact ⟨h.loader, h.running, h.stopped, h.cancel⟩
  | exhausted hnone => exact ⟨h.loader, h.running, h.stopped, h.cancel⟩
  | finished hnone => exact ⟨h.loader, h.running, h.stopped, h.cancel⟩
  | started =>
    constructor
    case loader =>
      rintro generation job ⟨rfl, rfl⟩
      exact ⟨rfl, rfl⟩
    case running =>
      rintro generation epoch ⟨rfl, rfl⟩
      exact ⟨rfl, rfl, _, rfl, rfl, rfl, rfl, rfl⟩
    case stopped => exact fun hnone => nomatch hnone
    case cancel => exact fun hnone => nomatch hnone

/-- A raised flag belongs to a page that no longer counts. -/
theorem restartScan (h : search.Sound pages) :
    search.restartScan.Sound (if search.pageCancel then pages.raise else pages) := by
  apply of_stopped rfl rfl rfl
  intro generation job hnewest
  apply h.loader generation job
  split at hnewest <;> exact hnewest

theorem pause (h : search.Sound pages) :
    search.pause.Sound (if search.pageCancel then pages.raise else pages) := by
  have hloader : ∀ generation job,
      (if search.pageCancel then pages.raise else pages).newest = some (generation, job) →
      job.loader = search.index.loader ∧ job.request.index.loader = search.index.loader := by
    intro generation job hnewest
    apply h.loader generation job
    split at hnewest <;> exact hnewest
  unfold FileSearchState.pause
  cases hrunning : search.running with
  | some running =>
    simp only [Option.isSome_some, if_true]
    split <;> exact of_stopped rfl rfl rfl hloader
  | none =>
    simp only [Option.isSome_none, Bool.false_eq_true, if_false]
    split <;> exact of_stopped rfl (h.stopped hrunning) rfl hloader

/-- The job that ends is the one the search runs, if it runs any. -/
theorem running_newest (h : search.Sound pages) {newest : Nat × PageJob}
    (hnewest : pages.newest = some newest) {running : Nat × Nat}
    (hrunning : search.running = some running) : running = (newest.1, newest.2.epoch) := by
  have ⟨_, _, job, hjob, hepoch, _⟩ := h.running running.1 running.2 hrunning
  rw [hnewest] at hjob
  cases hjob
  exact Prod.ext rfl hepoch.symm

theorem ended_idle (h : search.Sound pages) {newest : Nat × PageJob}
    (hnewest : pages.newest = some newest)
    (hrunning : search.running ≠ some (newest.1, newest.2.epoch)) : search.Sound pages.ended := by
  have hnone : search.running = none := by
    cases hsome : search.running with
    | none => rfl
    | some running =>
      rw [h.running_newest hnewest hsome] at hsome
      contradiction
  exact of_stopped hnone (h.stopped hnone) (h.cancel hnone) fun _ _ hnewest => nomatch hnewest

end FileSearchState.Sound

namespace FilesRuntime

structure PageSound (runtime : FilesRuntime) : Prop where
  no_search : runtime.search = none → runtime.pages.newest = none
  sound : ∀ search, runtime.search = some search → search.Sound runtime.pages

theorem PageSound.moves {begins : Prop} {runtime after : FilesRuntime} (h : runtime.PageSound)
    (moves : Moves begins runtime after) : after.PageSound := by
  induction moves with
  | refl => exact h
  | view _ _ _ _ _ _ _ _ _ _ _ ih => exact ⟨ih.no_search, ih.sound⟩
  | model _ _ ih => exact ⟨ih.no_search, ih.sound⟩
  | select _ _ ih => exact ⟨ih.no_search, ih.sound⟩
  | filesystem _ _ ih => exact ⟨ih.no_search, ih.sound⟩
  | @edit r _ search hsearch _ _ _ _ _ _ _ ih =>
    have hsound := ih.sound search hsearch
    constructor
    · exact fun hnone => nomatch hnone
    · rintro _ ⟨rfl⟩
      exact ⟨hsound.loader, hsound.running, hsound.stopped, hsound.cancel⟩
  | @selectIndexed r _ search hsearch path ih =>
    constructor
    · exact fun hnone => nomatch hnone
    · rintro _ ⟨rfl⟩
      exact (ih.sound search hsearch).select path
  | @begin r _ _ hnone ih =>
    constructor
    · exact fun hnone => nomatch hnone
    · rintro _ ⟨rfl⟩
      apply FileSearchState.Sound.of_stopped rfl rfl rfl
      intro generation job hnewest
      rw [ih.no_search hnone] at hnewest
      contradiction
  | @page r _ search hsearch ih =>
    constructor
    · exact fun hnone => nomatch hnone
    · rintro _ ⟨rfl⟩
      exact (ih.sound search hsearch).startsPage (search.startsPage_startNextPage r.pages)

theorem PageSound.restartSearchScan {runtime : FilesRuntime} (h : runtime.PageSound) :
    runtime.restartSearchScan.PageSound := by
  unfold FilesRuntime.restartSearchScan
  split
  next => exact h
  next search hsearch =>
    constructor
    · exact fun hnone => nomatch hnone
    · rintro _ ⟨rfl⟩
      exact (h.sound search hsearch).restartScan

theorem loader_preparePage (loader : IgnorePolicy) (disk : RelativePath → FilesRoot)
    (flags : RelativePath → DirectoryFlags) (request : SearchPageRequest) :
    (preparePage loader disk flags request).index.loader = request.index.loader := by
  simp only [preparePage]
  split
  next => rfl
  next => exact (FilesTree.applyDirectories_frame _ _).1

theorem PageSound.landed {runtime : FilesRuntime} (h : runtime.PageSound) (event : FilesEvent) :
    (runtime.landed event).PageSound := by
  cases event with
  | pauseBackground =>
    simp only [FilesRuntime.landed, pauseBackground]
    split
    next hnone => exact ⟨h.no_search, h.sound⟩
    next search hsearch =>
      constructor
      · exact fun hnone => nomatch hnone
      · rintro _ ⟨rfl⟩
        exact (h.sound search hsearch).pause
  | filesystemDone disk =>
    simp only [FilesRuntime.landed]
    split
    next => exact h
    next =>
      split
      next => exact ⟨h.no_search, h.sound⟩
      next =>
        split
        next => exact ⟨h.no_search, h.sound⟩
        next =>
          split
          next => exact PageSound.restartSearchScan ⟨h.no_search, h.sound⟩
          next => exact ⟨h.no_search, h.sound⟩
  | filesystemPanicked =>
    simp only [FilesRuntime.landed]
    split
    next => exact h
    next => split <;> exact ⟨h.no_search, h.sound⟩
  | vcsDone lookup snapshot diffStats =>
    simp only [FilesRuntime.landed]
    split
    next => exact h
    next =>
      constructor
      · intro hnone
        apply h.no_search
        split at hnone
        next => exact Option.map_eq_none_iff.mp hnone
        next => exact hnone
      · intro search hsome
        simp only at hsome
        split at hsome
        next =>
          have ⟨old, hold, heq⟩ := Option.map_eq_some_iff.mp hsome
          rw [← heq]
          exact (h.sound old hold).syncStatusFrom _
        next => exact h.sound search hsome
  | pageDone disk flags =>
    simp only [FilesRuntime.landed]
    split
    next generation job search hnewest hsearch =>
      have hsound := h.sound search hsearch
      have ⟨hjob, hrequest⟩ := hsound.loader generation job hnewest
      constructor
      · exact fun hnone => nomatch hnone
      · rintro _ ⟨rfl⟩
        split
        next hidle => exact hsound.ended_idle hnewest hidle
        next =>
          split
          next => exact .of_stopped rfl rfl rfl fun _ _ hnone => nomatch hnone
          next =>
            split <;> exact .of_stopped rfl rfl rfl fun _ _ hnone => nomatch hnone
    next newest hnewest hsearch => exact ⟨fun _ => rfl, fun search hsome => absurd hsome (by simp [hsearch])⟩
    next => exact h
  | pagePanicked =>
    simp only [FilesRuntime.landed]
    split
    next generation job search hnewest hsearch =>
      have hsound := h.sound search hsearch
      constructor
      · exact fun hnone => nomatch hnone
      · rintro _ ⟨rfl⟩
        split
        next hnone =>
          exact .of_stopped hnone (hsound.stopped hnone) (hsound.cancel hnone) fun _ _ hnone => nomatch hnone
        next running hrunning =>
          have hsame := hsound.running_newest hnewest hrunning
          rw [if_pos (congrArg Prod.fst hsame)]
          exact .of_stopped rfl rfl rfl fun _ _ hnone => nomatch hnone
    next newest hnewest hsearch => exact ⟨fun _ => rfl, fun search hsome => absurd hsome (by simp [hsearch])⟩
    next => exact h
  | intent intent =>
    cases intent <;> exact ⟨h.no_search, h.sound⟩
  | _ => exact h

/-- In every run the search knows the page under way. -/
theorem PageSound.step {runtime : FilesRuntime} (h : runtime.PageSound) (event : FilesEvent) :
    (runtime.step event).PageSound :=
  (h.landed event).moves (moves_step runtime event)

end FilesRuntime

end HerdrContext.Files
