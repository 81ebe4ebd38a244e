import HerdrContext.Files.Prepared
import HerdrContext.Files.Steps

/-! The loads of the files surface over whole runs: what a superseded result, a
panic and a refused job leave of the requests. -/
namespace HerdrContext.Files

open Library

namespace FilesRuntime

/-! ## Landings -/

variable {runtime : FilesRuntime} {event : FilesEvent}

theorem Moves.quiet {begins : Prop} {after : FilesRuntime} (moves : Moves begins runtime after) :
    runtime.filesystem.Quiet after.filesystem := by
  induction moves with
  | refl => exact .refl
  | filesystem _ quiet ih => exact ih.trans quiet
  | view _ _ _ _ _ _ _ _ _ _ _ ih => exact ih
  | model _ _ ih => exact ih
  | select _ _ ih => exact ih
  | edit _ _ _ _ _ _ _ _ _ ih => exact ih
  | selectIndexed _ _ _ ih => exact ih
  | begin _ _ _ ih => exact ih
  | page _ _ ih => exact ih

/-- The end of a load that is the one under way. -/
structure Ending (runtime : FilesRuntime) (generation : Nat) (job : FilesystemJob) : Prop where
  newest : runtime.filesystem.jobs.newest = some (generation, job)
  running : runtime.filesystem.running = some generation
  expansions : job.expansions = runtime.filesystem.expansionsRunning
  reload : runtime.filesystem.reloadRunning = true → [] ∈ job.directories

theorem ending_of_newest (h : runtime.filesystem.Matched) {generation : Nat} {job : FilesystemJob}
    (hnewest : runtime.filesystem.jobs.newest = some (generation, job)) :
    runtime.Ending generation job := by
  cases hrunning : runtime.filesystem.running with
  | none =>
    rw [h.idle hrunning] at hnewest
    contradiction
  | some other =>
    have ⟨busy, hbusy, hexpansions, hreload⟩ := h.busy other hrunning
    rw [hnewest] at hbusy
    cases hbusy
    exact ⟨hnewest, hrunning, hexpansions, hreload⟩

/-- The state of the loads once the newest job has been taken out. -/
def endedFilesystem (runtime : FilesRuntime) : FilesystemState :=
  { runtime.filesystem with jobs := runtime.filesystem.jobs.ended }

theorem restartSearchScan_filesystem (runtime : FilesRuntime) :
    runtime.restartSearchScan.filesystem = runtime.filesystem := by
  unfold restartSearchScan
  split <;> rfl

theorem landed_superseded {generation : Nat} {job : FilesystemJob}
    (h : runtime.Ending generation job) (hstale : generation ≠ runtime.filesystem.generation)
    (disk : RelativePath → FilesRoot) :
    runtime.landed (.filesystemDone disk) = { runtime with
      filesystem := runtime.endedFilesystem.superseded runtime.filesystem.expansionsRunning } := by
  simp only [landed, h.newest, h.running, h.expansions, ne_eq, not_true_eq_false, if_false,
    if_pos hstale]
  rfl

theorem landed_served {generation : Nat} {job : FilesystemJob}
    (h : runtime.Ending generation job) (hcurrent : generation = runtime.filesystem.generation)
    (disk : RelativePath → FilesRoot) : ∃ loaded notice,
    (runtime.landed (.filesystemDone disk)).filesystem =
      runtime.endedFilesystem.served generation loaded notice := by
  simp only [landed, h.newest, h.running, h.expansions, ne_eq, not_true_eq_false, if_false,
    hcurrent]
  split
  next =>
    rw [restartSearchScan_filesystem]
    exact ⟨_, _, rfl⟩
  next => exact ⟨_, _, rfl⟩

theorem landed_panicked {generation : Nat} {job : FilesystemJob} (h : runtime.Ending generation job) :
    runtime.landed .filesystemPanicked =
      { runtime with filesystem := runtime.endedFilesystem.stopped } := by
  simp only [landed, h.newest, h.running]
  rfl

/-- What a landing does to the loads. -/
theorem landed_cases (h : runtime.filesystem.Matched) (event : FilesEvent) :
    (runtime.landed event).filesystem = runtime.filesystem ∨
    ∃ generation job, runtime.Ending generation job ∧
      ((∃ disk, event = .filesystemDone disk ∧ generation ≠ runtime.filesystem.generation ∧
          (runtime.landed event).filesystem =
            runtime.endedFilesystem.superseded runtime.filesystem.expansionsRunning) ∨
        (∃ disk loaded notice, event = .filesystemDone disk ∧
          generation = runtime.filesystem.generation ∧
          (runtime.landed event).filesystem =
            runtime.endedFilesystem.served generation loaded notice) ∨
        (event = .filesystemPanicked ∧
          (runtime.landed event).filesystem = runtime.endedFilesystem.stopped)) := by
  cases event with
  | filesystemDone disk =>
    cases hnewest : runtime.filesystem.jobs.newest with
    | none =>
      left
      simp only [landed, hnewest]
    | some newest =>
      have hending := ending_of_newest h hnewest
      right
      refine ⟨newest.1, newest.2, hending, ?_⟩
      by_cases hcurrent : newest.1 = runtime.filesystem.generation
      · right
        left
        have ⟨loaded, notice, heq⟩ := landed_served hending hcurrent disk
        exact ⟨disk, loaded, notice, rfl, hcurrent, heq⟩
      · left
        refine ⟨disk, rfl, hcurrent, ?_⟩
        rw [landed_superseded hending hcurrent]
  | filesystemPanicked =>
    cases hnewest : runtime.filesystem.jobs.newest with
    | none =>
      left
      simp only [landed, hnewest]
    | some newest =>
      have hending := ending_of_newest h hnewest
      right
      refine ⟨newest.1, newest.2, hending, Or.inr (Or.inr ⟨rfl, ?_⟩)⟩
      rw [landed_panicked hending]
  | intent intent =>
    left
    cases intent <;> rfl
  | pauseBackground =>
    left
    simp only [landed, pauseBackground]
    split <;> rfl
  | vcsDone lookup snapshot diffStats =>
    left
    simp only [landed]
    split <;> rfl
  | pageDone disk flags =>
    left
    simp only [landed]
    split <;> rfl
  | pagePanicked =>
    left
    simp only [landed]
    split <;> rfl
  | retryPending => exact Or.inl rfl
  | tick => exact Or.inl rfl
  | startBackground => exact Or.inl rfl
  | setJujutsuMode mode => exact Or.inl rfl
  | vcsPanicked => exact Or.inl rfl
  | projectionDone projection => exact Or.inl rfl
  | projectionPanicked => exact Or.inl rfl

/-! ## Invariants -/

/-- What holds of the loads in every state a run reaches. -/
structure Steady (runtime : FilesRuntime) : Prop where
  sound : runtime.filesystem.Sound
  matched : runtime.filesystem.Matched

theorem Steady.landed (h : runtime.Steady) (event : FilesEvent) :
    (runtime.landed event).filesystem.Sound ∧ (runtime.landed event).filesystem.Matched := by
  have hended : runtime.endedFilesystem.Sound := h.sound.ended
  cases landed_cases h.matched event with
  | inl hsame =>
    rw [hsame]
    exact ⟨h.sound, h.matched⟩
  | inr hlanding =>
    obtain ⟨generation, job, hending, hcases⟩ := hlanding
    cases hcases with
    | inl hstale =>
      obtain ⟨_, _, _, heq⟩ := hstale
      obtain ⟨applied, hsuperseded⟩ :=
        FilesystemState.superseded_cases runtime.endedFilesystem runtime.filesystem.expansionsRunning
      rw [heq]
      refine ⟨hended.superseded, ?_⟩
      rw [hsuperseded]
      exact ⟨fun _ => rfl, by simp [FilesystemState.requeue]⟩
    | inr hcases =>
      cases hcases with
      | inl hserved =>
        obtain ⟨_, loaded, notice, _, hcurrent, heq⟩ := hserved
        have hrunning : runtime.endedFilesystem.running = some runtime.endedFilesystem.generation := by
          rw [hcurrent] at hending
          exact hending.running
        obtain ⟨expanded, desiredExpanded, hframe⟩ :=
          FilesystemState.served_frame runtime.endedFilesystem generation loaded notice
        rw [heq]
        constructor
        · rw [hcurrent]
          exact hended.served hrunning notice
        · rw [hframe]
          exact ⟨fun _ => rfl, by simp [FilesystemState.accept]⟩
      | inr hpanicked =>
        rw [hpanicked.2]
        refine ⟨hended.stopped, ?_⟩
        cases FilesystemState.stopped_cases runtime.endedFilesystem with
        | inl hretry =>
          rw [hretry.2]
          exact ⟨fun _ => rfl, by simp [FilesystemState.requeue, FilesystemState.invalidate]⟩
        | inr hgiven =>
          rw [hgiven.2]
          exact ⟨fun _ => rfl, by simp [FilesystemState.requeue, FilesystemState.invalidate]⟩

theorem Steady.step (h : runtime.Steady) (event : FilesEvent) : (runtime.step event).Steady := by
  have ⟨hsound, hmatched⟩ := h.landed event
  have hquiet := (moves_step runtime event).quiet
  exact ⟨hquiet.sound hsound, hquiet.matched hmatched⟩

/-- A panic under which no directory that is wanted open is given up. -/
def KeepsWanted (runtime : FilesRuntime) (event : FilesEvent) : Prop :=
  event = .filesystemPanicked → runtime.filesystem.running.isSome →
    ¬ runtime.filesystem.GivesUpWanted

theorem Steady.covered (h : runtime.Steady) (hcovered : runtime.filesystem.Covered)
    (hkeeps : runtime.KeepsWanted event) : (runtime.step event).filesystem.Covered := by
  have hquiet := (moves_step runtime event).quiet
  refine hquiet.covered (h.landed event).1 ?_
  cases landed_cases h.matched event with
  | inl hsame =>
    rw [hsame]
    exact hcovered
  | inr hlanding =>
    have ⟨generation, job, hending, hcases⟩ := hlanding
    have hended : runtime.endedFilesystem.Covered := hcovered
    cases hcases with
    | inl hstale =>
      have ⟨_, _, _, heq⟩ := hstale
      rw [heq]
      exact hended.superseded
    | inr hcases =>
      cases hcases with
      | inl hserved =>
        have ⟨_, _, _, _, _, heq⟩ := hserved
        rw [heq]
        exact hended.served _
      | inr hpanicked =>
        rw [hpanicked.2]
        have hisSome : runtime.filesystem.running.isSome = true := by
          rw [hending.running]
          rfl
        exact hended.stopped (hkeeps hpanicked.1 hisSome)

/-! ## Reloads -/

/-- The result of a load of the current generation. -/
def Applies (runtime : FilesRuntime) (event : FilesEvent) (job : FilesystemJob) : Prop :=
  (∃ disk, event = .filesystemDone disk) ∧
    runtime.filesystem.running = some runtime.filesystem.generation ∧
    runtime.filesystem.jobs.newest = some (runtime.filesystem.generation, job)

/-- The panic of a load after one that was retried. -/
def GivesUp (runtime : FilesRuntime) (event : FilesEvent) : Prop :=
  event = .filesystemPanicked ∧ runtime.filesystem.running.isSome ∧
    runtime.filesystem.panicRetried = true

/-- A load panicked and none was applied since. -/
def PanickedSince (start : FilesRuntime) (events : List FilesEvent) : Prop :=
  ∃ before after, events = before ++ .filesystemPanicked :: after ∧
    (start.run before).filesystem.running.isSome ∧
    ∀ middle event rest, after = middle ++ event :: rest →
      ∀ job, ¬ (start.run (before ++ .filesystemPanicked :: middle)).Applies event job

theorem Steady.requested (h : runtime.Steady) (hrequested : runtime.filesystem.Requested)
    (event : FilesEvent) : (runtime.step event).filesystem.Requested ∨
      (∃ job, runtime.Applies event job ∧ [] ∈ job.directories) ∨ runtime.GivesUp event := by
  have hquiet := (moves_step runtime event).quiet
  have hkept : (runtime.landed event).filesystem.Requested →
      (runtime.step event).filesystem.Requested := hquiet.requested (h.landed event).1
  cases landed_cases h.matched event with
  | inl hsame =>
    left
    apply hkept
    rw [hsame]
    exact hrequested
  | inr hlanding =>
    have ⟨generation, job, hending, hcases⟩ := hlanding
    have hmerged : (runtime.filesystem.reloadPending || runtime.filesystem.reloadRunning) = true := by
      rw [Bool.or_eq_true]
      exact hrequested
    cases hcases with
    | inl hstale =>
      have ⟨_, _, _, heq⟩ := hstale
      have ⟨applied, hsuperseded⟩ :=
        FilesystemState.superseded_cases runtime.endedFilesystem runtime.filesystem.expansionsRunning
      left
      apply hkept
      rw [heq, hsuperseded]
      exact Or.inl hmerged
    | inr hcases =>
      cases hcases with
      | inl hserved =>
        have ⟨disk, loaded, notice, hevent, hcurrent, heq⟩ := hserved
        cases hrequested with
        | inl hpending =>
          have ⟨expanded, desiredExpanded, hframe⟩ :=
            FilesystemState.served_frame runtime.endedFilesystem generation loaded notice
          left
          apply hkept
          rw [heq, hframe]
          exact Or.inl hpending
        | inr hrunning =>
          right
          left
          rw [hcurrent] at hending
          exact ⟨job, ⟨⟨disk, hevent⟩, hending.running, hending.newest⟩, hending.reload hrunning⟩
      | inr hpanicked =>
        cases FilesystemState.stopped_cases runtime.endedFilesystem with
        | inl hretry =>
          left
          apply hkept
          rw [hpanicked.2, hretry.2]
          exact Or.inl hmerged
        | inr hgiven =>
          right
          right
          refine ⟨hpanicked.1, by rw [hending.running]; rfl, ?_⟩
          cases hgiven.1 with
          | inl hretried => exact hretried
          | inr hnothing =>
            have hnone : (runtime.filesystem.reloadPending || runtime.filesystem.reloadRunning)
                = false := hnothing.1
            rw [hmerged] at hnone
            contradiction

theorem Steady.panicRetried (h : runtime.Steady)
    (hretried : (runtime.step event).filesystem.panicRetried = true) :
    (runtime.filesystem.panicRetried = true ∧ ∀ job, ¬ runtime.Applies event job) ∨
      (event = .filesystemPanicked ∧ runtime.filesystem.running.isSome) := by
  rw [(moves_step runtime event).quiet.panicRetried_eq] at hretried
  cases landed_cases h.matched event with
  | inl hsame =>
    left
    rw [hsame] at hretried
    refine ⟨hretried, fun job happlies => ?_⟩
    have ⟨⟨disk, hevent⟩, hrunning, hnewest⟩ := happlies
    have hending := ending_of_newest h.matched hnewest
    have ⟨loaded, notice, heq⟩ := landed_served hending rfl disk
    have ⟨expanded, desiredExpanded, hframe⟩ := FilesystemState.served_frame
      runtime.endedFilesystem runtime.filesystem.generation loaded notice
    rw [← hevent, hsame, hframe] at heq
    have hcleared : runtime.filesystem.panicRetried = false := by
      rw [heq]
      rfl
    rw [hretried] at hcleared
    contradiction
  | inr hlanding =>
    have ⟨generation, job, hending, hcases⟩ := hlanding
    cases hcases with
    | inl hstale =>
      have ⟨disk, hevent, hold, heq⟩ := hstale
      have ⟨applied, hsuperseded⟩ :=
        FilesystemState.superseded_cases runtime.endedFilesystem runtime.filesystem.expansionsRunning
      left
      rw [heq, hsuperseded] at hretried
      refine ⟨hretried, fun other happlies => hold ?_⟩
      have hrunning := happlies.2.1
      rw [hending.running] at hrunning
      exact Option.some.inj hrunning
    | inr hcases =>
      cases hcases with
      | inl hserved =>
        have ⟨_, loaded, notice, _, _, heq⟩ := hserved
        have ⟨expanded, desiredExpanded, hframe⟩ :=
          FilesystemState.served_frame runtime.endedFilesystem generation loaded notice
        rw [heq, hframe] at hretried
        contradiction
      | inr hpanicked => exact Or.inr ⟨hpanicked.1, by rw [hending.running]; rfl⟩

theorem PanickedSince.concat {start : FilesRuntime} {events : List FilesEvent}
    (h : PanickedSince start events) (hnot : ∀ job, ¬ (start.run events).Applies event job) :
    PanickedSince start (events ++ [event]) := by
  have ⟨before, after, heq, hrunning, hafter⟩ := h
  refine ⟨before, after ++ [event], by rw [heq, List.append_assoc, List.cons_append], hrunning, ?_⟩
  intro middle other rest hsplit
  cases rest using List.reverseRecOn with
  | nil =>
    have ⟨hmiddle, hlast⟩ := List.append_inj' hsplit rfl
    cases hlast
    rw [← hmiddle, ← heq]
    exact hnot
  | append_singleton rest last =>
    rw [← List.cons_append, ← List.append_assoc] at hsplit
    exact hafter middle other rest (List.append_inj' hsplit rfl).1

/-! ## Notices -/

theorem startNextVcsRefresh_filesystem (runtime : FilesRuntime) :
    runtime.startNextVcsRefresh.filesystem = runtime.filesystem ∨
      runtime.startNextVcsRefresh.filesystem =
        { runtime.filesystem with notice := some .vcsQueueUnavailable } := by
  unfold startNextVcsRefresh
  split
  next =>
    split
    next => exact Or.inl rfl
    next =>
      split
      next => exact Or.inl rfl
      next =>
        simp only
        split
        next => exact Or.inl rfl
        next => exact Or.inr rfl
  next => exact Or.inl rfl

theorem startNextSearchPage_filesystem (runtime : FilesRuntime) :
    runtime.startNextSearchPage.filesystem = runtime.filesystem := by
  unfold startNextSearchPage
  split
  next => rfl
  next => split <;> rfl

theorem startNextSearchProjection_filesystem (runtime : FilesRuntime) :
    runtime.startNextSearchProjection.filesystem = runtime.filesystem := by
  unfold startNextSearchProjection
  split
  next => rfl
  next =>
    split
    next => rfl
    next =>
      simp only
      split <;> rfl

theorem startNext_of_nothing {fs : FilesystemState} (hreload : fs.reloadPending = false)
    (hpending : fs.pendingExpansions = ∅) (loader : IgnorePolicy) : fs.startNext loader = fs := by
  have hnil : fs.directories = [] := by
    rw [FilesystemState.directories, hreload, hpending]
    rfl
  rw [FilesystemState.startNext, if_pos hnil]
  split
  next => rfl
  next => rw [← hreload, ← hpending]

/-- What is given up is given up with a notice; the VCS queue, asked in the same
call, may put its own in the place. -/
theorem Steady.notice_of_givesUp (h : runtime.Steady) (hgives : runtime.GivesUp event) :
    (runtime.step event).filesystem.notice = some .stoppedUnexpectedly ∨
      (runtime.step event).filesystem.notice = some .vcsQueueUnavailable := by
  have ⟨hevent, hrunning, hretried⟩ := hgives
  subst hevent
  have ⟨generation, hgeneration⟩ := Option.isSome_iff_exists.mp hrunning
  have ⟨job, hnewest, _⟩ := h.matched.busy generation hgeneration
  have hgiven : runtime.endedFilesystem.stopped =
      { (runtime.endedFilesystem.requeue runtime.filesystem.expansionsRunning).invalidate with
        reloadPending := false
        pendingExpansions := ∅
        appliedGeneration := (runtime.endedFilesystem.requeue
          runtime.filesystem.expansionsRunning).invalidate.generation
        notice := some .stoppedUnexpectedly } := by
    cases FilesystemState.stopped_cases runtime.endedFilesystem with
    | inl hretry =>
      have hfalse : runtime.filesystem.panicRetried = false := hretry.1
      rw [hretried] at hfalse
      contradiction
    | inr hgiven => exact hgiven.2
  have hstep : runtime.step .filesystemPanicked =
      { runtime with filesystem := runtime.endedFilesystem.stopped }.retryPending := by
    have hstopped : runtime.endedFilesystem.stopped.panicRetried = true := by
      rw [hgiven]
      exact hretried
    simp only [FilesRuntime.step, hnewest, failFilesystem, hrunning, if_true]
    exact if_pos hstopped
  have hstart : ({ runtime with
      filesystem := runtime.endedFilesystem.stopped } : FilesRuntime).startNextFilesystem =
      { runtime with filesystem := runtime.endedFilesystem.stopped } := by
    have hsame : runtime.endedFilesystem.stopped.startNext runtime.model.tree.loader =
        runtime.endedFilesystem.stopped :=
      startNext_of_nothing (by rw [hgiven]) (by rw [hgiven]) runtime.model.tree.loader
    unfold startNextFilesystem
    split
    next => rw [hsame]
    next => rfl
  rw [hstep, retryPending, startNextSearchProjection_filesystem, startNextSearchPage_filesystem,
    hstart]
  cases startNextVcsRefresh_filesystem
      { runtime with filesystem := runtime.endedFilesystem.stopped } with
  | inl hsame =>
    left
    rw [hsame]
    simp only [hgiven]
  | inr hrefused =>
    right
    rw [hrefused]

/-! ## The law -/

/-- A directory waits for a load, or the load under way reads it. -/
def OnItsWay (runtime : FilesRuntime) (path : RelativePath) : Prop :=
  path ∈ runtime.filesystem.pendingExpansions ∨
    ∃ generation job, runtime.filesystem.running = some generation ∧
      runtime.filesystem.jobs.newest = some (generation, job) ∧ path ∈ job.expansions

theorem Steady.covered_iff (h : runtime.Steady) : runtime.filesystem.Covered ↔
    ∀ path ∈ runtime.filesystem.desiredExpanded,
      path ∈ runtime.filesystem.expanded ∨ runtime.OnItsWay path := by
  have hrunning : ∀ path, path ∈ runtime.filesystem.expansionsRunning ↔
      ∃ generation job, runtime.filesystem.running = some generation ∧
        runtime.filesystem.jobs.newest = some (generation, job) ∧ path ∈ job.expansions := by
    intro path
    constructor
    · intro hmem
      cases hidle : runtime.filesystem.running with
      | none =>
        rw [(h.sound.idle hidle).2] at hmem
        exact absurd hmem Std.ExtTreeSet.not_mem_empty
      | some generation =>
        have ⟨job, hnewest, hexpansions, _⟩ := h.matched.busy generation hidle
        exact ⟨generation, job, rfl, hnewest, hexpansions ▸ hmem⟩
    · intro hjob
      have ⟨generation, job, _, hnewest, hmem⟩ := hjob
      rw [(ending_of_newest h.matched hnewest).expansions] at hmem
      exact hmem
  simp only [FilesystemState.Covered, OnItsWay, hrunning]

theorem desiredExpanded_startNextFilesystem (runtime : FilesRuntime) :
    runtime.startNextFilesystem.filesystem.desiredExpanded =
      runtime.filesystem.desiredExpanded := by
  unfold startNextFilesystem
  split
  next =>
    cases FilesystemState.startNext_cases runtime.filesystem runtime.model.tree.loader with
    | inl hsame => rw [hsame]
    | inr hcases =>
      cases hcases with
      | inl hstarted => rw [hstarted.2.2]
      | inr hrefused => rw [hrefused]
  next => rfl

/-- Asking for a closed directory makes it wanted. -/
theorem mem_desired_expandOrDescend {path : RelativePath}
    (hselected : runtime.treeSelection = some path)
    (hdirectory : runtime.model.tree.isDirectory path = true)
    (hclosed : path ∉ runtime.filesystem.expanded) :
    path ∈ (runtime.step (.intent .expandOrDescend)).filesystem.desiredExpanded := by
  have hstep : runtime.step (.intent .expandOrDescend) = runtime.requestExpansion path := by
    simp only [step, handleIntent, expandOrDescend, hselected, if_neg hclosed]
  rw [hstep, requestExpansion, if_pos hdirectory]
  split
  next hwanted => exact hwanted
  next =>
    rw [desiredExpanded_startNextFilesystem]
    exact PathSet.mem_insert.mpr (Or.inl rfl)

section
variable (model : FilesModel) (vcs : Option VcsRefresh) (searchIgnored : Bool)
  (filesystemRoom vcsRoom pageRoom projectionRoom : Nat → Bool)

theorem bootstrap_quiet : (FilesystemState.new filesystemRoom).Quiet
    (bootstrap model vcs searchIgnored filesystemRoom vcsRoom pageRoom projectionRoom).filesystem := by
  have hmoves : Moves False (unshown model vcs searchIgnored filesystemRoom vcsRoom pageRoom
      projectionRoom) _ := moves_rebuildVisibleRows _
  exact hmoves.quiet

theorem steady_bootstrap :
    (bootstrap model vcs searchIgnored filesystemRoom vcsRoom pageRoom projectionRoom).Steady :=
  ⟨(bootstrap_quiet ..).sound (FilesystemState.sound_new _),
    (bootstrap_quiet ..).matched (FilesystemState.matched_new _)⟩

theorem panickedSince_of_retried {start : FilesRuntime} {events : List FilesEvent}
    (hstart : start.Steady) (hfresh : start.filesystem.panicRetried = false)
    (hretried : (start.run events).filesystem.panicRetried = true) : PanickedSince start events := by
  induction events using List.reverseRecOn with
  | nil =>
    rw [run, List.foldl_nil, hfresh] at hretried
    contradiction
  | append_singleton events event ih =>
    have hsteady : (start.run events).Steady :=
      run_invariant Steady hstart fun event h => h.step event
    rw [run_concat] at hretried
    cases hsteady.panicRetried hretried with
    | inl hold => exact (ih hold.1).concat hold.2
    | inr hpanicked =>
      refine ⟨events, [], by rw [hpanicked.1], hpanicked.2, ?_⟩
      intro middle other rest hsplit
      simp at hsplit

/-- In every run a superseded result leaves the model alone, a reload stays
requested until the current load has read the root or a second panic gives it
up, and no directory is open that is not wanted; and while no panic gives up
what is wanted, every wanted directory is open or on its way, so that asking for
a closed one always has it opened. -/
theorem expansion_law (events : List FilesEvent) :
    let start := bootstrap model vcs searchIgnored filesystemRoom vcsRoom pageRoom projectionRoom
    let runtime := start.run events
    (∀ disk generation job, runtime.filesystem.jobs.newest = some (generation, job) →
      generation ≠ runtime.filesystem.generation →
      (runtime.step (.filesystemDone disk)).model = runtime.model) ∧
    (∀ event, runtime.filesystem.Requested →
      (runtime.step event).filesystem.Requested ∨
      (∃ job, runtime.Applies event job ∧ [] ∈ job.directories) ∨
      (runtime.GivesUp event ∧ PanickedSince start events ∧
        ((runtime.step event).filesystem.notice = some .stoppedUnexpectedly ∨
          (runtime.step event).filesystem.notice = some .vcsQueueUnavailable))) ∧
    (∀ path ∈ runtime.filesystem.expanded, path ∈ runtime.filesystem.desiredExpanded) ∧
    (Throughout KeepsWanted start events →
      (∀ path ∈ runtime.filesystem.desiredExpanded,
        path ∈ runtime.filesystem.expanded ∨ runtime.OnItsWay path) ∧
      ∀ path, runtime.treeSelection = some path → runtime.model.tree.isDirectory path = true →
        path ∉ runtime.filesystem.expanded →
        let next := runtime.step (.intent .expandOrDescend)
        path ∈ next.filesystem.desiredExpanded ∧
          (path ∈ next.filesystem.expanded ∨ next.OnItsWay path)) := by
  intro start runtime
  have hstart : start.Steady := steady_bootstrap ..
  have hsteady : runtime.Steady := run_invariant Steady hstart fun event h => h.step event
  have hfresh : start.filesystem.panicRetried = false := by
    rw [(bootstrap_quiet ..).panicRetried_eq]
    rfl
  refine ⟨?_, ?_, hsteady.sound.expanded_desired, ?_⟩
  · intro disk generation job hnewest hstale
    have hrunning := (ending_of_newest hsteady.matched hnewest).running
    simp only [step, hnewest, completeFilesystem, hrunning, ne_eq, not_true_eq_false, if_false,
      if_pos hstale, startNextFilesystem]
    split <;> rfl
  · intro event hrequested
    cases hsteady.requested hrequested event with
    | inl hkept => exact Or.inl hkept
    | inr hcases =>
      cases hcases with
      | inl happlied => exact Or.inr (Or.inl happlied)
      | inr hgives =>
        exact Or.inr (Or.inr ⟨hgives, panickedSince_of_retried hstart hfresh hgives.2.2,
          hsteady.notice_of_givesUp hgives⟩)
  · intro hkeeps
    have hcovered : ∀ later, Throughout KeepsWanted start later →
        (start.run later).filesystem.Covered := by
      intro later hlater
      have hboth := hlater.invariant (fun runtime => runtime.Steady ∧ runtime.filesystem.Covered)
        ⟨hstart, (bootstrap_quiet ..).covered (FilesystemState.sound_new _)
          (FilesystemState.covered_new _)⟩
        fun h hkept => ⟨h.1.step _, h.1.covered h.2 hkept⟩
      exact hboth.2
    refine ⟨hsteady.covered_iff.mp (hcovered events hkeeps), ?_⟩
    intro path hselected hdirectory hclosed next
    have hwanted := mem_desired_expandOrDescend hselected hdirectory hclosed
    have hnext : next.Steady := hsteady.step _
    have hkept : next.filesystem.Covered :=
      hsteady.covered (hcovered events hkeeps) fun h => by cases h
    exact ⟨hwanted, hnext.covered_iff.mp hkept path hwanted⟩

end

/-! ## A second panic -/

open Sample (nameA)

/-- A project that holds one directory. -/
def oneDirectory : FilesModel :=
  (FilesModel.new ⟨fun _ => true, false⟩ []).applyDirectory
    (.ofEntries [] [⟨nameA, .directory, false⟩])

def oneDirectoryShown : FilesRuntime :=
  bootstrap oneDirectory none false (fun _ => true) (fun _ => true) (fun _ => true) fun _ => true

theorem expansion_law_sample : Throughout KeepsWanted oneDirectoryShown [.intent .expandOrDescend] ∧
    (oneDirectoryShown.run [.intent .expandOrDescend]).OnItsWay [nameA] := by
  have hkeeps : Throughout KeepsWanted oneDirectoryShown [.intent .expandOrDescend] := by
    intro before event after hsplit
    cases before with
    | nil =>
      cases hsplit
      exact fun h => nomatch h
    | cons first rest =>
      have hlength := congrArg List.length hsplit
      simp at hlength
  have hlaw := (expansion_law oneDirectory none false (fun _ => true) (fun _ => true)
    (fun _ => true) (fun _ => true) [.intent .expandOrDescend]).2.2.2 hkeeps
  refine ⟨hkeeps, (hlaw.1 [nameA] ?_).resolve_left ?_⟩ <;> decide +kernel

/-- A directory is asked for and its load panics twice. It stays wanted and
closed, nothing loads it, and asking again changes nothing. -/
theorem panics_strand_directory :
    let runtime := oneDirectoryShown.run
      [.intent .expandOrDescend, .filesystemPanicked, .filesystemPanicked]
    let again := runtime.step (.intent .expandOrDescend)
    runtime.treeSelection = some [nameA] ∧ runtime.model.tree.isDirectory [nameA] = true ∧
    [nameA] ∈ runtime.filesystem.desiredExpanded ∧ [nameA] ∉ runtime.filesystem.expanded ∧
    ¬ runtime.OnItsWay [nameA] ∧
    [nameA] ∉ again.filesystem.expanded ∧ ¬ again.OnItsWay [nameA] ∧
    again.filesystem.generation = runtime.filesystem.generation := by
  have hidle : ∀ {runtime : FilesRuntime}, [nameA] ∉ runtime.filesystem.pendingExpansions →
      runtime.filesystem.running = none → ¬ runtime.OnItsWay [nameA] := by
    intro runtime hpending hrunning hwaits
    cases hwaits with
    | inl hmem => exact hpending hmem
    | inr hjob =>
      have ⟨_, _, hbusy, _⟩ := hjob
      rw [hrunning] at hbusy
      contradiction
  intro runtime again
  refine ⟨?_, ?_, ?_, ?_, hidle ?_ ?_, ?_, hidle ?_ ?_, ?_⟩ <;> decide +kernel

end FilesRuntime

end HerdrContext.Files
