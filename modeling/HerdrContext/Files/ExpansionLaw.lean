import HerdrContext.Files.Expansion

/-! What every operation on the expansion sets keeps. -/
namespace HerdrContext.Files

open Library
open Worker.WorkerRuntime (saturatingAdd)

theorem saturatingAdd_one_cases (count : Nat) :
    saturatingAdd count 1 = u64Max ∨ saturatingAdd count 1 = count + 1 := by
  unfold saturatingAdd Worker.WorkerRuntime.usizeMax u64Max
  omega

theorem le_of_eq_saturatingAdd_one {count running : Nat} (hle : running ≤ count)
    (h : running = saturatingAdd count 1) : running = u64Max := by
  have hcases := saturatingAdd_one_cases count
  omega

namespace FilesystemState

/-- The numbers the load under way and its jobs go by; an open directory waits
for no further load until the counter has stopped. -/
structure Sound (fs : FilesystemState) : Prop where
  generation_le : fs.generation ≤ u64Max
  running_le : ∀ generation, fs.running = some generation → generation ≤ fs.generation
  running_latest : ∀ generation, fs.running = some generation → fs.jobs.latest = some generation
  idle : fs.running = none → fs.reloadRunning = false ∧ fs.expansionsRunning = ∅
  expanded_desired : ∀ path ∈ fs.expanded, path ∈ fs.desiredExpanded
  expanded_idle : ∀ path ∈ fs.expanded, path ∉ fs.expansionsRunning
  expanded_settled : ∀ path ∈ fs.expanded, path ∈ fs.pendingExpansions →
    fs.jobs.latest = some u64Max
  current_alone : fs.running = some fs.generation → ∀ path ∈ fs.pendingExpansions,
    fs.generation = u64Max

/-- Every directory that is wanted open is open or on its way. -/
def Covered (fs : FilesystemState) : Prop :=
  ∀ path ∈ fs.desiredExpanded,
    path ∈ fs.expanded ∨ path ∈ fs.pendingExpansions ∨ path ∈ fs.expansionsRunning

/-- A reload that no load has served yet. -/
def Requested (fs : FilesystemState) : Prop := fs.reloadPending = true ∨ fs.reloadRunning = true

/-- A panic now would give up a directory that is wanted open. -/
def GivesUpWanted (fs : FilesystemState) : Prop :=
  fs.panicRetried = true ∧ ∃ path ∈ fs.desiredExpanded,
    path ∈ fs.pendingExpansions ∨ path ∈ fs.expansionsRunning

section
variable {fs : FilesystemState} {path : RelativePath}

theorem sound_new (room : Nat → Bool) : (new room).Sound where
  generation_le := Nat.zero_le _
  running_le := by simp [new]
  running_latest := by simp [new]
  idle := fun _ => ⟨rfl, rfl⟩
  expanded_desired := fun _ h => absurd h Std.ExtTreeSet.not_mem_empty
  expanded_idle := fun _ h => absurd h Std.ExtTreeSet.not_mem_empty
  expanded_settled := fun _ h => absurd h Std.ExtTreeSet.not_mem_empty
  current_alone := by simp [new]

theorem covered_new (room : Nat → Bool) : (new room).Covered :=
  fun _ h => absurd h Std.ExtTreeSet.not_mem_empty

/-! ## Requests -/

theorem Sound.invalidate (h : fs.Sound) : fs.invalidate.Sound where
  generation_le := saturatingAdd_one_le
  running_le := fun generation hrunning =>
    (h.running_le generation hrunning).trans (le_saturatingAdd_one h.generation_le)
  running_latest := h.running_latest
  idle := h.idle
  expanded_desired := h.expanded_desired
  expanded_idle := h.expanded_idle
  expanded_settled := h.expanded_settled
  current_alone := by
    intro hrunning _ _
    exact le_of_eq_saturatingAdd_one (h.running_le _ hrunning) rfl

theorem Sound.erased (h : fs.Sound) (path : RelativePath) :
    ({ fs with
      desiredExpanded := fs.desiredExpanded.erase path
      pendingExpansions := fs.pendingExpansions.erase path
      expanded := fs.expanded.erase path } : FilesystemState).Sound where
  generation_le := h.generation_le
  running_le := h.running_le
  running_latest := h.running_latest
  idle := h.idle
  expanded_desired := by
    intro other hother
    have ⟨hne, hmem⟩ := PathSet.mem_erase.mp hother
    exact PathSet.mem_erase.mpr ⟨hne, h.expanded_desired other hmem⟩
  expanded_idle := fun other hother => h.expanded_idle other (PathSet.mem_erase.mp hother).2
  expanded_settled := fun other hother hpending =>
    h.expanded_settled other (PathSet.mem_erase.mp hother).2 (PathSet.mem_erase.mp hpending).2
  current_alone := fun hrunning other hother =>
    h.current_alone hrunning other (PathSet.mem_erase.mp hother).2

theorem Sound.collapse (h : fs.Sound) (path : RelativePath) : (fs.collapse path).Sound := by
  rw [FilesystemState.collapse]
  cases hrunning : fs.running.isSome with
  | true => exact h.invalidate.erased path
  | false => exact h.erased path

theorem Sound.desire (h : fs.Sound) (hfresh : path ∉ fs.desiredExpanded) : (fs.desire path).Sound where
  generation_le := h.invalidate.generation_le
  running_le := h.invalidate.running_le
  running_latest := h.running_latest
  idle := h.idle
  expanded_desired := fun other hother =>
    PathSet.mem_insert.mpr (Or.inr (h.expanded_desired other hother))
  expanded_idle := h.expanded_idle
  expanded_settled := by
    intro other hother hpending
    cases PathSet.mem_insert.mp hpending with
    | inl heq =>
      subst heq
      exact absurd (h.expanded_desired other hother) hfresh
    | inr hold => exact h.expanded_settled other hother hold
  current_alone := by
    intro hrunning _ _
    exact le_of_eq_saturatingAdd_one (h.running_le _ hrunning) rfl

theorem Sound.reload (h : fs.Sound) : fs.reload.Sound where
  generation_le := h.invalidate.generation_le
  running_le := h.invalidate.running_le
  running_latest := h.running_latest
  idle := h.idle
  expanded_desired := h.expanded_desired
  expanded_idle := h.expanded_idle
  expanded_settled := h.expanded_settled
  current_alone := h.invalidate.current_alone

theorem Covered.collapse (h : fs.Covered) (path : RelativePath) : (fs.collapse path).Covered := by
  intro other hother
  have hsame : (fs.collapse path).expansionsRunning = fs.expansionsRunning := by
    unfold FilesystemState.collapse FilesystemState.invalidate
    split <;> rfl
  have ⟨hne, hmem⟩ := PathSet.mem_erase.mp hother
  rw [hsame]
  cases h other hmem with
  | inl hopen => exact Or.inl (PathSet.mem_erase.mpr ⟨hne, hopen⟩)
  | inr hwaits =>
    cases hwaits with
    | inl hpending => exact Or.inr (Or.inl (PathSet.mem_erase.mpr ⟨hne, hpending⟩))
    | inr hrunning => exact Or.inr (Or.inr hrunning)

theorem Covered.desire (h : fs.Covered) (path : RelativePath) : (fs.desire path).Covered := by
  intro other hother
  cases PathSet.mem_insert.mp hother with
  | inl heq => exact Or.inr (Or.inl (PathSet.mem_insert.mpr (Or.inl heq)))
  | inr hold =>
    cases h other hold with
    | inl hopen => exact Or.inl hopen
    | inr hwaits =>
      cases hwaits with
      | inl hpending => exact Or.inr (Or.inl (PathSet.mem_insert.mpr (Or.inr hpending)))
      | inr hrunning => exact Or.inr (Or.inr hrunning)

/-! ## Starting a load -/

/-- Nothing to load means that nothing waits. -/
theorem directories_eq_nil (h : fs.directories = []) :
    fs.reloadPending = false ∧ fs.pendingExpansions.toList = [] := by
  unfold directories at h
  have hnil := (List.destutter_eq_nil _).mp h
  have hlength := congrArg List.length hnil
  rw [List.length_insertionSort, List.length_append, List.length_nil] at hlength
  constructor
  · by_contra hpending
    rw [Bool.not_eq_false] at hpending
    rw [if_pos hpending, List.length_cons] at hlength
    omega
  · apply List.eq_nil_of_length_eq_zero
    omega

theorem pending_eq_empty (h : fs.pendingExpansions.toList = []) : path ∉ fs.pendingExpansions := by
  intro hmem
  rw [← Std.ExtTreeSet.mem_toList, h] at hmem
  contradiction

/-- What starting the next load can do. -/
theorem startNext_cases (fs : FilesystemState) (loader : IgnorePolicy) :
    fs.startNext loader = fs ∨
    (fs.running = none ∧ (∀ last ∈ fs.jobs.latest, last < fs.generation) ∧
      fs.startNext loader = { fs with
        reloadPending := false
        pendingExpansions := ∅
        running := some fs.generation
        reloadRunning := fs.reloadPending
        expansionsRunning := fs.pendingExpansions
        jobs := { fs.jobs with
          asked := fs.jobs.asked + 1
          latest := some fs.generation
          newest := some (fs.generation, ⟨fs.pendingExpansions, fs.directories, loader⟩)
          raised := false } }) ∨
    fs.startNext loader = { fs with
      jobs := { fs.jobs with asked := fs.jobs.asked + 1 }, notice := some .queueUnavailable } := by
  by_cases hrunning : fs.running.isSome
  · exact Or.inl (by rw [startNext, if_pos hrunning])
  · rw [startNext, if_neg hrunning]
    by_cases hnil : fs.directories = []
    · left
      have ⟨hreload, hpending⟩ := directories_eq_nil hnil
      have hempty : fs.pendingExpansions = ∅ := by
        apply Std.ExtTreeSet.ext_mem
        intro path
        exact iff_of_false (pending_eq_empty hpending) Std.ExtTreeSet.not_mem_empty
      rw [if_pos hnil, ← hreload, ← hempty]
    · right
      rw [if_neg hnil]
      cases haccepts : fs.jobs.accepts fs.generation with
      | true =>
        left
        have hnewer : ∀ last ∈ fs.jobs.latest, last < fs.generation := by
          simp only [JobSlot.accepts, Bool.and_eq_true, decide_eq_true_eq] at haccepts
          exact haccepts.2
        refine ⟨by simpa using hrunning, hnewer, ?_⟩
        simp only [JobSlot.submit_accepted haccepts, if_true]
      | false =>
        right
        simp only [JobSlot.submit_refused haccepts, Bool.false_eq_true, if_false]

theorem Sound.startNext (h : fs.Sound) (loader : IgnorePolicy) : (fs.startNext loader).Sound := by
  cases startNext_cases fs loader with
  | inl hsame =>
    rw [hsame]
    exact h
  | inr hcases =>
    cases hcases with
    | inl hstarted =>
      have ⟨_, hnewer, heq⟩ := hstarted
      rw [heq]
      constructor
      case generation_le => exact h.generation_le
      case running_le =>
        intro generation hgeneration
        cases hgeneration
        exact le_refl _
      case running_latest =>
        intro generation hgeneration
        cases hgeneration
        rfl
      case idle => simp
      case expanded_desired => exact h.expanded_desired
      case expanded_idle =>
        intro path hopen hpending
        have hstopped := hnewer _ (h.expanded_settled path hopen hpending)
        have hle := h.generation_le
        omega
      case expanded_settled => exact fun _ _ hnone => absurd hnone Std.ExtTreeSet.not_mem_empty
      case current_alone => exact fun _ _ hnone => absurd hnone Std.ExtTreeSet.not_mem_empty
    | inr hrefused =>
      rw [hrefused]
      exact ⟨h.generation_le, h.running_le, h.running_latest, h.idle, h.expanded_desired,
        h.expanded_idle, h.expanded_settled, h.current_alone⟩

theorem Covered.startNext (h : fs.Covered) (hsound : fs.Sound) (loader : IgnorePolicy) :
    (fs.startNext loader).Covered := by
  cases startNext_cases fs loader with
  | inl hsame =>
    rw [hsame]
    exact h
  | inr hcases =>
    cases hcases with
    | inl hstarted =>
      have ⟨hidle, _, heq⟩ := hstarted
      rw [heq]
      intro path hmem
      cases h path hmem with
      | inl hopen => exact Or.inl hopen
      | inr hwaits =>
        cases hwaits with
        | inl hpending => exact Or.inr (Or.inr hpending)
        | inr hrunning =>
          rw [(hsound.idle hidle).2] at hrunning
          exact absurd hrunning Std.ExtTreeSet.not_mem_empty
    | inr hrefused =>
      rw [hrefused]
      exact h

/-! ## The end of a load -/

theorem mem_requeue {expansions : PathSet} : path ∈ (fs.requeue expansions).pendingExpansions ↔
    path ∈ fs.pendingExpansions ∨ path ∈ expansions ∧ path ∈ fs.desiredExpanded := by
  rw [requeue, Std.ExtTreeSet.mem_union_iff, PathSet.mem_filter, Std.ExtTreeSet.contains_iff_mem]

theorem Sound.requeue (h : fs.Sound) :
    (fs.requeue fs.expansionsRunning).Sound where
  generation_le := h.generation_le
  running_le := by simp [FilesystemState.requeue]
  running_latest := by simp [FilesystemState.requeue]
  idle := fun _ => ⟨rfl, rfl⟩
  expanded_desired := h.expanded_desired
  expanded_idle := fun _ _ => Std.ExtTreeSet.not_mem_empty
  expanded_settled := by
    intro path hopen hpending
    cases mem_requeue.mp hpending with
    | inl hold => exact h.expanded_settled path hopen hold
    | inr hnew => exact absurd hnew.1 (h.expanded_idle path hopen)
  current_alone := by simp [FilesystemState.requeue]

theorem Covered.requeue (h : fs.Covered) : (fs.requeue fs.expansionsRunning).Covered := by
  intro path hmem
  cases h path hmem with
  | inl hopen => exact Or.inl hopen
  | inr hwaits =>
    cases hwaits with
    | inl hpending => exact Or.inr (Or.inl (mem_requeue.mpr (Or.inl hpending)))
    | inr hrunning => exact Or.inr (Or.inl (mem_requeue.mpr (Or.inr ⟨hrunning, hmem⟩)))

theorem superseded_cases (fs : FilesystemState) (expansions : PathSet) :
    ∃ applied, fs.superseded expansions =
      { fs.requeue expansions with appliedGeneration := applied } := by
  simp only [superseded]
  split
  next => exact ⟨_, rfl⟩
  next => exact ⟨fs.appliedGeneration, rfl⟩

theorem Sound.superseded (h : fs.Sound) : (fs.superseded fs.expansionsRunning).Sound := by
  have ⟨_, heq⟩ := superseded_cases fs fs.expansionsRunning
  have hrequeued := h.requeue
  rw [heq]
  exact ⟨hrequeued.generation_le, hrequeued.running_le, hrequeued.running_latest, hrequeued.idle,
    hrequeued.expanded_desired, hrequeued.expanded_idle, hrequeued.expanded_settled,
    hrequeued.current_alone⟩

theorem Covered.superseded (h : fs.Covered) : (fs.superseded fs.expansionsRunning).Covered := by
  have ⟨_, heq⟩ := superseded_cases fs fs.expansionsRunning
  rw [heq]
  exact h.requeue

/-- The retry and the giving up of a panicked load. -/
theorem stopped_cases (fs : FilesystemState) :
    (fs.panicRetried = false ∧
      fs.stopped = { (fs.requeue fs.expansionsRunning).invalidate with
        panicRetried := true, notice := some .stoppedRetrying }) ∨
    ((fs.panicRetried = true ∨
        (fs.requeue fs.expansionsRunning).reloadPending = false ∧
          (fs.requeue fs.expansionsRunning).pendingExpansions.isEmpty = true) ∧
      fs.stopped = { (fs.requeue fs.expansionsRunning).invalidate with
        reloadPending := false
        pendingExpansions := ∅
        appliedGeneration := (fs.requeue fs.expansionsRunning).invalidate.generation
        notice := some .stoppedUnexpectedly }) := by
  have hretried : (fs.requeue fs.expansionsRunning).invalidate.panicRetried = fs.panicRetried := rfl
  rw [stopped]
  split
  next h =>
    left
    rw [hretried, Bool.and_eq_true, Bool.not_eq_true'] at h
    exact ⟨h.1, rfl⟩
  next h =>
    right
    refine ⟨?_, rfl⟩
    rw [hretried] at h
    cases hpanic : fs.panicRetried with
    | true => exact Or.inl rfl
    | false =>
      right
      simpa [hpanic, FilesystemState.invalidate] using h

theorem Sound.stopped (h : fs.Sound) : fs.stopped.Sound := by
  have hsound := h.requeue.invalidate
  cases stopped_cases fs with
  | inl hretry =>
    rw [hretry.2]
    exact ⟨hsound.generation_le, hsound.running_le, hsound.running_latest, hsound.idle,
      hsound.expanded_desired, hsound.expanded_idle, hsound.expanded_settled, hsound.current_alone⟩
  | inr hgiven =>
    rw [hgiven.2]
    exact ⟨hsound.generation_le, hsound.running_le, hsound.running_latest, hsound.idle,
      hsound.expanded_desired, hsound.expanded_idle,
      fun _ _ hnone => absurd hnone Std.ExtTreeSet.not_mem_empty,
      fun _ _ hnone => absurd hnone Std.ExtTreeSet.not_mem_empty⟩

theorem Covered.stopped (h : fs.Covered) (hcareful : ¬ fs.GivesUpWanted) : fs.stopped.Covered := by
  have hcovered := h.requeue
  cases stopped_cases fs with
  | inl hretry =>
    rw [hretry.2]
    exact hcovered
  | inr hgiven =>
    rw [hgiven.2]
    intro path hmem
    cases h path hmem with
    | inl hopen => exact Or.inl hopen
    | inr hwaits =>
      exfalso
      cases hgiven.1 with
      | inl hretried => exact hcareful ⟨hretried, path, hmem, hwaits⟩
      | inr hnothing =>
        have hmemRequeued : path ∈ (fs.requeue fs.expansionsRunning).pendingExpansions :=
          mem_requeue.mpr (hwaits.imp_right fun hrunning => ⟨hrunning, hmem⟩)
        have hempty := Std.ExtTreeSet.isEmpty_iff.mp hnothing.2
        rw [hempty] at hmemRequeued
        exact absurd hmemRequeued Std.ExtTreeSet.not_mem_empty

/-! ## Settling -/

section
variable {loaded : RelativePath → Bool} {expansions : PathSet}

theorem mem_expanded_settle (other : RelativePath) : path ∈ (fs.settle loaded other).expanded ↔
    path ∈ fs.expanded ∨ path = other ∧ path ∈ fs.desiredExpanded ∧ loaded path = true := by
  unfold settle
  grind [PathSet.mem_insert, Std.ExtTreeSet.contains_iff_mem]

theorem mem_desired_settle (other : RelativePath) : path ∈ (fs.settle loaded other).desiredExpanded ↔
    path ∈ fs.desiredExpanded ∧ (path = other → loaded path = true) := by
  unfold settle
  grind [PathSet.mem_erase, Std.ExtTreeSet.contains_iff_mem]

theorem mem_foldl_settle (paths : List RelativePath) :
    (path ∈ (paths.foldl (fun fs path => fs.settle loaded path) fs).expanded ↔
      path ∈ fs.expanded ∨ path ∈ paths ∧ path ∈ fs.desiredExpanded ∧ loaded path = true) ∧
    (path ∈ (paths.foldl (fun fs path => fs.settle loaded path) fs).desiredExpanded ↔
      path ∈ fs.desiredExpanded ∧ (path ∈ paths → loaded path = true)) := by
  induction paths generalizing fs with
  | nil => simp
  | cons first rest ih =>
    have ⟨hexpanded, hdesired⟩ := @ih (fs.settle loaded first)
    rw [List.foldl_cons]
    constructor
    · rw [hexpanded, mem_expanded_settle, mem_desired_settle, List.mem_cons]
      tauto
    · rw [hdesired, mem_desired_settle, List.mem_cons]
      tauto

theorem mem_expanded_settleAll : path ∈ (fs.settleAll loaded expansions).expanded ↔
    path ∈ fs.expanded ∨ path ∈ expansions ∧ path ∈ fs.desiredExpanded ∧ loaded path = true := by
  rw [settleAll, (mem_foldl_settle _).1, Std.ExtTreeSet.mem_toList]

theorem mem_desired_settleAll : path ∈ (fs.settleAll loaded expansions).desiredExpanded ↔
    path ∈ fs.desiredExpanded ∧ (path ∈ expansions → loaded path = true) := by
  rw [settleAll, (mem_foldl_settle _).2, Std.ExtTreeSet.mem_toList]

/-- Settling touches the two sets only. -/
theorem settleAll_frame (fs : FilesystemState) (loaded : RelativePath → Bool)
    (expansions : PathSet) : ∃ expanded desiredExpanded,
    fs.settleAll loaded expansions = { fs with expanded, desiredExpanded } := by
  unfold settleAll
  induction expansions.toList generalizing fs with
  | nil => exact ⟨fs.expanded, fs.desiredExpanded, rfl⟩
  | cons first rest ih =>
    have ⟨expanded, desiredExpanded, heq⟩ := ih (fs.settle loaded first)
    refine ⟨expanded, desiredExpanded, ?_⟩
    rw [List.foldl_cons, heq, settle]
    split
    next => rfl
    next => split <;> rfl

end

section
variable {loaded : RelativePath → Bool} {generation : Nat}

/-- The load of the current generation is taken and its expansions settled. -/
def served (fs : FilesystemState) (generation : Nat) (loaded : RelativePath → Bool)
    (notice : Option FilesystemNotice) : FilesystemState :=
  { (fs.accept generation).settleAll loaded fs.expansionsRunning with notice }

theorem mem_expanded_served {notice : Option FilesystemNotice} :
    path ∈ (fs.served generation loaded notice).expanded ↔ path ∈ fs.expanded ∨
      path ∈ fs.expansionsRunning ∧ path ∈ fs.desiredExpanded ∧ loaded path = true :=
  mem_expanded_settleAll

theorem mem_desired_served {notice : Option FilesystemNotice} :
    path ∈ (fs.served generation loaded notice).desiredExpanded ↔
      path ∈ fs.desiredExpanded ∧ (path ∈ fs.expansionsRunning → loaded path = true) :=
  mem_desired_settleAll

theorem served_frame (fs : FilesystemState) (generation : Nat) (loaded : RelativePath → Bool)
    (notice : Option FilesystemNotice) : ∃ expanded desiredExpanded,
    fs.served generation loaded notice =
      { fs.accept generation with expanded, desiredExpanded, notice } := by
  have ⟨expanded, desiredExpanded, heq⟩ :=
    settleAll_frame (fs.accept generation) loaded fs.expansionsRunning
  refine ⟨expanded, desiredExpanded, ?_⟩
  rw [served, heq]

theorem Sound.served (h : fs.Sound) (hrunning : fs.running = some fs.generation)
    (notice : Option FilesystemNotice) : (fs.served fs.generation loaded notice).Sound := by
  have ⟨expanded, desiredExpanded, heq⟩ := served_frame fs fs.generation loaded notice
  have hexpanded : ∀ path, path ∈ expanded ↔ path ∈ fs.expanded ∨
      path ∈ fs.expansionsRunning ∧ path ∈ fs.desiredExpanded ∧ loaded path = true := by
    intro path
    rw [← mem_expanded_served, heq]
  have hdesired : ∀ path, path ∈ desiredExpanded ↔
      path ∈ fs.desiredExpanded ∧ (path ∈ fs.expansionsRunning → loaded path = true) := by
    intro path
    rw [← mem_desired_served, heq]
  rw [heq]
  constructor
  case generation_le => exact h.generation_le
  case running_le => simp [accept]
  case running_latest => simp [accept]
  case idle => exact fun _ => ⟨rfl, rfl⟩
  case expanded_desired =>
    intro path hopen
    rw [hdesired]
    cases (hexpanded path).mp hopen with
    | inl hold => exact ⟨h.expanded_desired path hold, fun hagain => absurd hagain (h.expanded_idle path hold)⟩
    | inr hnew => exact ⟨hnew.2.1, fun _ => hnew.2.2⟩
  case expanded_idle => exact fun _ _ => Std.ExtTreeSet.not_mem_empty
  case expanded_settled =>
    intro path _ hpending
    have hlatest := h.running_latest _ hrunning
    rw [h.current_alone hrunning path hpending] at hlatest
    exact hlatest
  case current_alone => simp [accept]

theorem Covered.served (h : fs.Covered) (notice : Option FilesystemNotice) :
    (fs.served generation loaded notice).Covered := by
  have ⟨expanded, desiredExpanded, heq⟩ := served_frame fs generation loaded notice
  intro path hmem
  have ⟨hwanted, hloaded⟩ := mem_desired_served.mp hmem
  rw [mem_expanded_served]
  cases h path hwanted with
  | inl hopen => exact Or.inl (Or.inl hopen)
  | inr hwaits =>
    cases hwaits with
    | inl hpending =>
      right
      left
      rw [heq]
      exact hpending
    | inr hrunning => exact Or.inl (Or.inr ⟨hrunning, hwanted, hloaded hrunning⟩)

end

/-! ## Pruning and notices -/

theorem Sound.retain (h : fs.Sound) (isDirectory : RelativePath → Bool) :
    (fs.retain isDirectory).Sound where
  generation_le := h.generation_le
  running_le := h.running_le
  running_latest := h.running_latest
  idle := h.idle
  expanded_desired := by
    intro path hopen
    have ⟨hmem, hdirectory⟩ := PathSet.mem_filter.mp hopen
    exact PathSet.mem_filter.mpr ⟨h.expanded_desired path hmem, hdirectory⟩
  expanded_idle := fun path hopen => h.expanded_idle path (PathSet.mem_filter.mp hopen).1
  expanded_settled := fun path hopen => h.expanded_settled path (PathSet.mem_filter.mp hopen).1
  current_alone := h.current_alone

theorem Covered.retain (h : fs.Covered) (isDirectory : RelativePath → Bool) :
    (fs.retain isDirectory).Covered := by
  intro path hmem
  have ⟨hwanted, hdirectory⟩ := PathSet.mem_filter.mp hmem
  exact (h path hwanted).imp_left fun hopen => PathSet.mem_filter.mpr ⟨hopen, hdirectory⟩

theorem Sound.notify (h : fs.Sound) (notice : Option FilesystemNotice) :
    ({ fs with notice } : FilesystemState).Sound :=
  ⟨h.generation_le, h.running_le, h.running_latest, h.idle, h.expanded_desired,
    h.expanded_idle, h.expanded_settled, h.current_alone⟩

theorem Sound.ended (h : fs.Sound) : ({ fs with jobs := fs.jobs.ended } : FilesystemState).Sound :=
  ⟨h.generation_le, h.running_le, h.running_latest, h.idle, h.expanded_desired,
    h.expanded_idle, h.expanded_settled, h.current_alone⟩

/-! ## The job under way -/

/-- The load under way is the newest accepted job, and it carries what the
state says is running. -/
structure Matched (fs : FilesystemState) : Prop where
  idle : fs.running = none → fs.jobs.newest = none
  busy : ∀ generation, fs.running = some generation → ∃ job,
    fs.jobs.newest = some (generation, job) ∧ job.expansions = fs.expansionsRunning ∧
      (fs.reloadRunning = true → [] ∈ job.directories)

theorem matched_new (room : Nat → Bool) : (new room).Matched :=
  ⟨fun _ => rfl, by simp [new]⟩

theorem mem_destutter' {α : Type} [DecidableEq α] {a b : α} (l : List α) :
    a ∈ l.destutter' (· ≠ ·) b ↔ a = b ∨ a ∈ l := by
  induction l generalizing b with
  | nil => simp
  | cons c rest ih =>
    rw [List.destutter'_cons]
    split
    next => rw [List.mem_cons, ih, List.mem_cons]
    next heq =>
      rw [not_not] at heq
      rw [ih, List.mem_cons, heq]
      tauto

theorem mem_destutter {α : Type} [DecidableEq α] {a : α} (l : List α) :
    a ∈ l.destutter (· ≠ ·) ↔ a ∈ l := by
  cases l with
  | nil => rfl
  | cons b rest =>
    rw [List.destutter_cons', mem_destutter', List.mem_cons]

theorem nil_mem_directories (h : fs.reloadPending = true) : [] ∈ fs.directories := by
  rw [directories, mem_destutter, (List.perm_insertionSort _ _).mem_iff, if_pos h]
  exact List.mem_append_left _ List.mem_cons_self

theorem Matched.startNext (h : fs.Matched) (loader : IgnorePolicy) : (fs.startNext loader).Matched := by
  cases startNext_cases fs loader with
  | inl hsame =>
    rw [hsame]
    exact h
  | inr hcases =>
    cases hcases with
    | inl hstarted =>
      rw [hstarted.2.2]
      constructor
      · intro hnone
        contradiction
      · intro generation hgeneration
        cases hgeneration
        exact ⟨_, rfl, rfl, nil_mem_directories⟩
    | inr hrefused =>
      rw [hrefused]
      exact ⟨h.idle, h.busy⟩

theorem Requested.startNext (h : fs.Requested) (hsound : fs.Sound) (loader : IgnorePolicy) :
    (fs.startNext loader).Requested := by
  cases startNext_cases fs loader with
  | inl hsame =>
    rw [hsame]
    exact h
  | inr hcases =>
    cases hcases with
    | inl hstarted =>
      rw [hstarted.2.2]
      cases h with
      | inl hpending => exact Or.inr hpending
      | inr hrunning =>
        rw [(hsound.idle hstarted.1).1] at hrunning
        contradiction
    | inr hrefused =>
      rw [hrefused]
      exact h

/-! ## What happens between two ends of loads -/

/-- Requests, starts, pruning and notices, in any number. -/
inductive Quiet (fs : FilesystemState) : FilesystemState → Prop where
  | refl : Quiet fs fs
  | collapse {fs' : FilesystemState} (before : Quiet fs fs') (path : RelativePath) :
    Quiet fs (fs'.collapse path)
  | desire {fs' : FilesystemState} (before : Quiet fs fs') {path : RelativePath}
    (fresh : path ∉ fs'.desiredExpanded) : Quiet fs (fs'.desire path)
  | reload {fs' : FilesystemState} (before : Quiet fs fs') : Quiet fs fs'.reload
  | startNext {fs' : FilesystemState} (before : Quiet fs fs') (loader : IgnorePolicy) :
    Quiet fs (fs'.startNext loader)
  | retain {fs' : FilesystemState} (before : Quiet fs fs') (isDirectory : RelativePath → Bool) :
    Quiet fs (fs'.retain isDirectory)
  | notify {fs' : FilesystemState} (before : Quiet fs fs') (notice : Option FilesystemNotice) :
    Quiet fs { fs' with notice }

namespace Quiet

variable {fs' fs'' : FilesystemState}

theorem trans (first : Quiet fs fs') (second : Quiet fs' fs'') : Quiet fs fs'' := by
  induction second with
  | refl => exact first
  | collapse _ path ih => exact ih.collapse path
  | desire _ fresh ih => exact ih.desire fresh
  | reload _ ih => exact ih.reload
  | startNext _ loader ih => exact ih.startNext loader
  | retain _ isDirectory ih => exact ih.retain isDirectory
  | notify _ notice ih => exact ih.notify notice

theorem sound (quiet : Quiet fs fs') (h : fs.Sound) : fs'.Sound := by
  induction quiet with
  | refl => exact h
  | collapse _ path ih => exact ih.collapse path
  | desire _ fresh ih => exact ih.desire fresh
  | reload _ ih => exact ih.reload
  | startNext _ loader ih => exact ih.startNext loader
  | retain _ isDirectory ih => exact ih.retain isDirectory
  | notify _ notice ih => exact ih.notify notice

theorem covered (quiet : Quiet fs fs') (hsound : fs.Sound) (h : fs.Covered) : fs'.Covered := by
  induction quiet with
  | refl => exact h
  | collapse _ path ih => exact ih.collapse path
  | desire _ _ ih => exact ih.desire _
  | reload _ ih => exact ih
  | startNext before loader ih => exact ih.startNext (before.sound hsound) loader
  | retain _ isDirectory ih => exact ih.retain isDirectory
  | notify _ _ ih => exact ih

theorem requested (quiet : Quiet fs fs') (hsound : fs.Sound) (h : fs.Requested) : fs'.Requested := by
  induction quiet with
  | refl => exact h
  | collapse _ path ih =>
    unfold Requested FilesystemState.collapse FilesystemState.invalidate
    split <;> exact ih
  | desire _ _ ih => exact ih
  | reload _ _ => exact Or.inl rfl
  | startNext before loader ih => exact ih.startNext (before.sound hsound) loader
  | retain _ _ ih => exact ih
  | notify _ _ ih => exact ih

theorem matched (quiet : Quiet fs fs') (h : fs.Matched) : fs'.Matched := by
  induction quiet with
  | refl => exact h
  | @collapse fs' _ path ih =>
    unfold FilesystemState.collapse
    cases hrunning : fs'.running.isSome with
    | true => exact ⟨ih.idle, ih.busy⟩
    | false => exact ⟨ih.idle, ih.busy⟩
  | desire _ _ ih => exact ⟨ih.idle, ih.busy⟩
  | reload _ ih => exact ⟨ih.idle, ih.busy⟩
  | startNext _ loader ih => exact ih.startNext loader
  | retain _ _ ih => exact ⟨ih.idle, ih.busy⟩
  | notify _ _ ih => exact ⟨ih.idle, ih.busy⟩

theorem panicRetried_eq (quiet : Quiet fs fs') : fs'.panicRetried = fs.panicRetried := by
  induction quiet with
  | refl => rfl
  | collapse _ path ih =>
    unfold FilesystemState.collapse FilesystemState.invalidate
    split <;> exact ih
  | desire _ _ ih => exact ih
  | reload _ ih => exact ih
  | @startNext fs' _ loader ih =>
    cases startNext_cases fs' loader with
    | inl hsame =>
      rw [hsame]
      exact ih
    | inr hcases =>
      cases hcases with
      | inl hstarted =>
        rw [hstarted.2.2]
        exact ih
      | inr hrefused =>
        rw [hrefused]
        exact ih
  | retain _ _ ih => exact ih
  | notify _ _ ih => exact ih

end Quiet

end

end FilesystemState

end HerdrContext.Files
