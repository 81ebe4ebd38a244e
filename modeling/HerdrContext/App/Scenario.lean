import HerdrContext.App.MainLoop

/-! Runs of the main loop over a runtime whose threads take turns with it. -/
namespace HerdrContext.App

open Library Live Worker

/-- A runtime whose threads are between two jobs. -/
def restingRuntime (active : Finset JobKey) (latest : Finmap fun _ : JobKey => Nat)
    (pending : Finmap fun _ : JobKey => Job Output) (high low : List (Job Output))
    (results : List (RawCompletion Output)) : WorkerRuntime Output where
  high := ⟨8, high, true, .between⟩
  low := ⟨4, low, true, .between⟩
  results := ⟨14, results⟩
  cancelled := false
  active
  latest
  pending
  outstandingCapacity := 14
  shuttingDown := false

theorem withCapacities_resting :
    (.withCapacities 8 4 : WorkerRuntime Output) = restingRuntime ∅ ∅ ∅ [] [] [] := by
  rfl

section
variable {active : Finset JobKey} {latest : Finmap fun _ : JobKey => Nat}
    {pending : Finmap fun _ : JobKey => Job Output}
    {high low : List (Job Output)} {results : List (RawCompletion Output)} {job : Job Output}

theorem submit_resting (hkey : job.key ∉ active)
    (hnewer : ∀ last, latest.lookup job.key = some last → last < job.generation)
    (hroom : active.card < 14) (hlow : job.priority = .low) (hqueue : low.length < 4) :
    (restingRuntime active latest ∅ high low results).submit job =
      (restingRuntime (insert job.key active) (latest.insert job.key job.generation) ∅ high
        (low ++ [job]) results, .queued) := by
  have hstale : (latest.lookup job.key).any (fun last => job.generation ≤ last) = false := by
    cases hlookup : latest.lookup job.key with
    | none => rfl
    | some last => simpa using hnewer last hlookup
  have hlen : (restingRuntime active latest ∅ high low results).outstandingLen = active.card :=
    Nat.add_zero _
  have hout : ¬ 14 ≤ (restingRuntime active latest ∅ high low results).outstandingLen :=
    hlen ▸ Nat.not_le.mpr hroom
  have hlength : low.length ≤ 3 := Nat.le_of_lt_succ hqueue
  simp only [restingRuntime] at hout
  simp [WorkerRuntime.submit, restingRuntime, hstale, hkey, WorkerRuntime.queueNew, hout, hlow, WorkerRuntime.lane, Lane.trySend, WorkerRuntime.setLane, hlength, Finmap.notMem_empty]

theorem submit_resting_busy (hkey : job.key ∈ active)
    (hnewer : ∀ last, latest.lookup job.key = some last → last < job.generation) :
    (restingRuntime active latest pending high low results).submit job =
      (restingRuntime active (latest.insert job.key job.generation) (pending.insert job.key job)
        high low results, .coalesced) := by
  have hstale : (latest.lookup job.key).any (fun last => job.generation ≤ last) = false := by
    cases hlookup : latest.lookup job.key with
    | none => rfl
    | some last => simpa using hnewer last hlookup
  simp [WorkerRuntime.submit, restingRuntime, hstale, hkey]

theorem accept_resting {result : RawCompletion Output}
    (hpending : pending.lookup result.key = none)
    (hlatest : latest.lookup result.key = some result.generation) :
    (restingRuntime active latest pending high low results).acceptCompletion result =
      (restingRuntime (active.erase result.key) latest pending high low results,
        some ⟨result.key, result.generation, result.completion⟩) := by
  simp [WorkerRuntime.acceptCompletion, WorkerRuntime.pumpKey, restingRuntime, hlatest, hpending]

end

variable {hash : List FingerprintInput → UInt64} {cond : AppState → AppEvent → Prop}

/-- A run of the main loop whose steps meet a condition. -/
def Reaches (hash : List FingerprintInput → UInt64) (cond : AppState → AppEvent → Prop)
    (app app' : AppState) : Prop :=
  ∃ events, Run (fun app event app' => Step hash app event app' ∧ cond app event) app events app'

section

variable {app app' app'' : AppState}

theorem Reaches.trans (h : Reaches hash cond app app') (h' : Reaches hash cond app' app'') :
    Reaches hash cond app app'' := by
  obtain ⟨events, run⟩ := h
  obtain ⟨events', run'⟩ := h'
  exact ⟨_, run.trans run'⟩

theorem Reaches.single {event : AppEvent} (h : Step hash app event app') (hcond : cond app event) :
    Reaches hash cond app app' := ⟨_, Run.single ⟨h, hcond⟩⟩

end

section

variable {c : Controller} {active : Finset JobKey} {latest : Finmap fun _ : JobKey => Nat}
  {pending : Finmap fun _ : JobKey => Job Output} {high low : List (Job Output)}
  {results : List (RawCompletion Output)} {job : Job Output} {caller : Caller Output}
  (hcond : ∀ app, cond app ⟨.workers, [.silent]⟩)

include hcond

theorem reaches_silent {s s' : System Output} (h : Worker.Step s .silent s')
    (running : s'.runtime.shuttingDown = false) : Reaches hash cond ⟨c, s⟩ ⟨c, s'⟩ :=
  .single (.workers h running) (hcond _)

theorem reaches_high (completion : Completion Output) (hroom : results.length < 14)
    (htask : job.task completion) :
    Reaches hash cond ⟨c, restingRuntime active latest pending (job :: high) low results, caller⟩
      ⟨c, restingRuntime active latest pending high low
        (results ++ [⟨job.key, job.generation, completion⟩]), caller⟩ := by
  refine (reaches_silent hcond (@Step.lane Output _ _ .high _ _ (.recv (Or.inl rfl) rfl)) rfl).trans ?_
  refine (reaches_silent hcond (@Step.lane Output _ _ .high _ _ (.start rfl)) rfl).trans ?_
  refine (reaches_silent hcond (@Step.lane Output _ _ .high _ _ (.finish rfl htask)) rfl).trans ?_
  exact reaches_silent hcond (@Step.lane Output _ _ .high _ _ (.send rfl hroom)) rfl


theorem reaches_low (completion : Completion Output) (hroom : results.length < 14)
    (htask : job.task completion) :
    Reaches hash cond ⟨c, restingRuntime active latest pending high (job :: low) results, caller⟩
      ⟨c, restingRuntime active latest pending high low
        (results ++ [⟨job.key, job.generation, completion⟩]), caller⟩ := by
  refine (reaches_silent hcond (@Step.lane Output _ _ .low _ _ (.recv (Or.inl rfl) rfl)) rfl).trans ?_
  refine (reaches_silent hcond (@Step.lane Output _ _ .low _ _ (.start rfl)) rfl).trans ?_
  refine (reaches_silent hcond (@Step.lane Output _ _ .low _ _ (.finish rfl htask)) rfl).trans ?_
  exact reaches_silent hcond (@Step.lane Output _ _ .low _ _ (.send rfl hroom)) rfl

theorem reaches_taken (result : RawCompletion Output) :
    Reaches hash cond
      ⟨c, restingRuntime active latest pending high low (result :: results), .ready⟩
      ⟨c, restingRuntime active latest pending high low results, .accepting result .tryRecv⟩ :=
  (reaches_silent hcond .tryRecv rfl).trans (reaches_silent hcond (.receive rfl) rfl)

omit hcond in
theorem delivered_resting {result : RawCompletion Output}
    (hpending : pending.lookup result.key = none)
    (hlatest : latest.lookup result.key = some result.generation) :
    Worker.Step
      ⟨restingRuntime active latest pending high low results, .accepting result .tryRecv⟩
      (.delivered ⟨result.key, result.generation, result.completion⟩)
      ⟨restingRuntime (active.erase result.key) latest pending high low results, .ready⟩ := by
  have haccept : (restingRuntime active latest pending high low results).acceptCompletion result =
      (restingRuntime (active.erase result.key) latest pending high low results,
        some ⟨result.key, result.generation, result.completion⟩) := accept_resting hpending hlatest
  have hstep := @Step.accept Output (restingRuntime active latest pending high low results) .tryRecv
    result _ (congrArg Prod.snd haccept)
  rw [haccept] at hstep
  exact hstep

omit hcond in
/-- A result in hand is current and handed over. -/
theorem reaches_accepted {result : RawCompletion Output} {c' : Controller} {s : System Output}
    {events : List (Event Output)} {dirty : Bool} (fs : FileSystem) (clock : Nat)
    (hpending : pending.lookup result.key = none)
    (hlatest : latest.lookup result.key = some result.generation)
    (hresult : cond ⟨c, restingRuntime active latest pending high low results,
        .accepting result .tryRecv⟩
      ⟨.result ⟨result.key, result.generation, result.completion⟩,
        .delivered ⟨result.key, result.generation, result.completion⟩ :: events⟩)
    (hruns : (c.applyResult hash fs ⟨result.key, result.generation, result.completion⟩ clock).Runs
      Answers Moves ⟨restingRuntime (active.erase result.key) latest pending high low results,
        .ready⟩ events (c', dirty) s) :
    Reaches hash cond
      ⟨c, restingRuntime active latest pending high low results, .accepting result .tryRecv⟩
      ⟨c', s⟩ :=
  .single (.result (delivered_resting hpending hlatest) hruns) hresult

/-- A result in hand is stale: the job held back behind it goes to its lane. -/
theorem reaches_discarded {result : RawCompletion Output}
    (hpending : pending.lookup result.key = some job) (hlow : job.priority = .low)
    (hqueue : low.length < 4) (hlatest : latest.lookup result.key ≠ some result.generation) :
    Reaches hash cond
      ⟨c, restingRuntime active latest pending high low results, .accepting result .tryRecv⟩
      ⟨c, restingRuntime (insert result.key (active.erase result.key)) latest
        (pending.erase result.key) high (low ++ [job]) results, .receiving .tryRecv⟩ := by
  have haccept : (restingRuntime active latest pending high low results).acceptCompletion result =
      (restingRuntime (insert result.key (active.erase result.key)) latest
        (pending.erase result.key) high (low ++ [job]) results, none) := by
    have hlength : low.length ≤ 3 := Nat.le_of_lt_succ hqueue
    simp [WorkerRuntime.acceptCompletion, WorkerRuntime.pumpKey, restingRuntime, hlatest, hpending,
      hlow, WorkerRuntime.lane, WorkerRuntime.setLane, Lane.trySend, hlength]
  have hstep := @Step.discard Output (restingRuntime active latest pending high low results) .tryRecv
    result (congrArg Prod.snd haccept)
  rw [haccept] at hstep
  exact reaches_silent hcond hstep rfl

end

theorem answers_of_submit {w w' : WorkerRuntime Output} {job : Job Output} {status : SubmitStatus}
    (h : w.submit job = (w', status)) :
    Answers ⟨w, .ready⟩ job (.submitted job.key job.generation status) status ⟨w', .ready⟩ := by
  have hanswer := @Answers.submit Output w job
  rw [h] at hanswer
  exact hanswer

/-- The controller behind an explicit refresh that is not refused. -/
def Controller.asked (c : Controller) (page live : Nat) : Controller :=
  ((c.setGenerations page c.conversations.appliedGeneration).setLoading .loading).markLoading live

theorem root_asked (c : Controller) (page live : Nat) : (c.asked page live).root = c.root := rfl

theorem keys_asked (c : Controller) (page live : Nat) :
    (c.asked page live).liveKey = c.liveKey ∧ (c.asked page live).pageKey = c.pageKey := by
  rw [Controller.liveKey, Controller.pageKey, root_asked]
  exact ⟨rfl, rfl⟩

theorem jobs_asked (c : Controller) (page live generation : Nat) :
    (c.asked page live).liveJob generation = c.liveJob generation ∧
      (c.asked page live).pageJob generation = c.pageJob generation := by
  rw [Controller.liveJob, Controller.pageJob, (keys_asked c page live).1, (keys_asked c page live).2]
  exact ⟨rfl, rfl⟩

theorem runs_page {c : Controller} {w w' : WorkerRuntime Output} {generation : Nat}
    (hgeneration : WorkerRuntime.saturatingAdd c.conversations.requestedGeneration 1 = generation)
    (h : w.submit (c.pageJob generation) = (w', .queued)) :
    (c.scheduleConversationPage true).Runs Answers Moves ⟨w, .ready⟩
      [.submitted c.pageKey generation .queued]
      ((c.setGenerations generation c.conversations.appliedGeneration).setLoading .loading)
      ⟨w', .ready⟩ := by
  unfold Controller.scheduleConversationPage
  rw [hgeneration]
  exact .answer (answers_of_submit h) .done

theorem runs_loud {c : Controller} {w w' : WorkerRuntime Output} {generation clock : Nat}
    (hbinary : c.hostBinary ≠ none)
    (hgeneration : WorkerRuntime.saturatingAdd c.conversations.liveRequestedGeneration 1 = generation)
    (h : w.submit (c.liveJob generation) = (w', .queued)) :
    (c.scheduleLivePoll false clock).Runs Answers Moves ⟨w, .ready⟩
      [.submitted c.liveKey generation .queued] (c.markLoading generation) ⟨w', .ready⟩ := by
  unfold Controller.scheduleLivePoll
  cases hhost : c.hostBinary with
  | none => exact absurd hhost hbinary
  | some binary =>
    rw [← hgeneration] at h ⊢
    exact .answer (answers_of_submit h) .done

theorem Controller.liveKey_ne_pageKey (c : Controller) : c.liveKey ≠ c.pageKey := by
  simp [Controller.liveKey, Controller.pageKey, JobKey.new]

theorem runs_scheduled {c : Controller} {latest : Finmap fun _ : JobKey => Nat} {clock : Nat}
    {page live : Nat} (hbinary : c.hostBinary ≠ none)
    (hpage : WorkerRuntime.saturatingAdd c.conversations.requestedGeneration 1 = page)
    (hlive : WorkerRuntime.saturatingAdd c.conversations.liveRequestedGeneration 1 = live)
    (hpages : ∀ last, latest.lookup c.pageKey = some last → last < page)
    (hlives : ∀ last, latest.lookup c.liveKey = some last → last < live) :
    (c.scheduleConversations clock).Runs Answers Moves
      ⟨restingRuntime ∅ latest ∅ [] [] [], .ready⟩
      [.submitted c.pageKey page .queued, .submitted c.liveKey live .queued]
      (c.asked page live)
      ⟨restingRuntime (insert c.liveKey (insert c.pageKey ∅))
        ((latest.insert c.pageKey page).insert c.liveKey live) ∅ []
        [c.pageJob page, c.liveJob live] [], .ready⟩ := by
  have hfirst := @submit_resting ∅ latest [] [] [] (c.pageJob page) (by simp) hpages (by simp) rfl
    (by simp)
  have hsecond := @submit_resting (insert c.pageKey ∅) (latest.insert c.pageKey page) []
    [c.pageJob page] [] (c.liveJob live) (by simpa [Controller.liveJob] using c.liveKey_ne_pageKey)
    (by simpa [Controller.liveJob, c.liveKey_ne_pageKey] using hlives) (by simp) rfl (by simp)
  exact (runs_page hpage hfirst).bind (runs_loud hbinary hlive hsecond)

/-- Both jobs of a refresh end, and the page finds that it was cancelled. -/
theorem reaches_round {c paged c' : Controller} {latest : Finmap fun _ : JobKey => Nat} {page live : Nat}
    {completion : Completion Output} {dirty : Bool} (fs : FileSystem) (clock : Nat)
    (hworkers : ∀ app, cond app ⟨.workers, [.silent]⟩)
    (hother : ∀ app done events, done.key.kind ≠ .conversationLive →
      cond app ⟨.result done, events⟩)
    (hpaged : (c.setGenerations page page).setLoading .ready = paged)
    (hanswer : ∀ s, cond ⟨paged, s⟩
      ⟨.result ⟨c.liveKey, live, completion⟩, [.delivered ⟨c.liveKey, live, completion⟩]⟩)
    (hpage : latest.lookup c.pageKey = some page) (hlive : latest.lookup c.liveKey = some live)
    (hrequested : c.conversations.requestedGeneration = page)
    (happly : paged.applyLive hash live completion clock = .done (c', dirty)) :
    Reaches hash cond
      ⟨c, restingRuntime (insert c.liveKey (insert c.pageKey ∅)) latest ∅ []
        [c.pageJob page, c.liveJob live] [], .ready⟩
      ⟨c', restingRuntime ∅ latest ∅ [] [] [], .ready⟩ := by
  have hcancelled : c.applyConversations fs page (.success (.conversations .cancelled)) =
      .done (paged, true) := by
    simp [Controller.applyConversations, hrequested, hpaged]
  have hleft : (insert c.liveKey (insert c.pageKey ∅) : Finset JobKey).erase c.pageKey =
      {c.liveKey} := by
    rw [Finset.erase_insert_of_ne c.liveKey_ne_pageKey, Finset.erase_insert (Finset.notMem_empty _)]
    rfl
  have hpages : Program.Runs Answers Moves
      (c.applyResult hash fs ⟨c.pageKey, page, .success (.conversations .cancelled)⟩ clock)
      ⟨restingRuntime ((insert c.liveKey (insert c.pageKey ∅) : Finset JobKey).erase c.pageKey) latest
        ∅ [] []
        [⟨c.liveKey, live, completion⟩], .ready⟩ []
      (paged, true)
      ⟨restingRuntime ((insert c.liveKey (insert c.pageKey ∅) : Finset JobKey).erase c.pageKey) latest
        ∅ [] []
        [⟨c.liveKey, live, completion⟩], .ready⟩ := by
    have hhandler : c.applyResult hash fs
        ⟨c.pageKey, page, .success (.conversations .cancelled)⟩ clock =
        .done (paged, true) := hcancelled
    rw [hhandler]
    exact .done
  have hlives : Program.Runs Answers Moves
      (paged.applyResult hash fs ⟨c.liveKey, live, completion⟩ clock)
      ⟨restingRuntime (({c.liveKey} : Finset JobKey).erase c.liveKey) latest ∅ [] [] [], .ready⟩ []
      (c', dirty) ⟨restingRuntime ∅ latest ∅ [] [] [], .ready⟩ := by
    have hhandler : paged.applyResult hash fs ⟨c.liveKey, live, completion⟩ clock =
        .done (c', dirty) := happly
    rw [hhandler, Finset.erase_singleton]
    exact .done
  refine (reaches_low hworkers (.success (.conversations .cancelled)) (by simp) trivial).trans ?_
  refine (reaches_low hworkers completion (by simp) trivial).trans ?_
  refine (reaches_taken hworkers _).trans ?_
  refine (reaches_accepted fs clock (Finmap.lookup_empty _) hpage
    (hother _ _ _ (by simp [Controller.pageJob, Controller.pageKey, JobKey.new])) hpages).trans ?_
  rw [hleft]
  refine (reaches_taken hworkers _).trans ?_
  exact reaches_accepted fs clock (Finmap.lookup_empty _) hlive (hanswer _) hlives

/-- An explicit refresh and its two results. -/
theorem reaches_refreshed {c paged c' : Controller} {latest : Finmap fun _ : JobKey => Nat}
    {page live : Nat} {completion : Completion Output} {dirty : Bool} (fs : FileSystem) (clock : Nat)
    (hcond : ∀ app event, cond app event) (hview : c.activeView = .conversations)
    (hbinary : c.hostBinary ≠ none)
    (hpage : WorkerRuntime.saturatingAdd c.conversations.requestedGeneration 1 = page)
    (hlive : WorkerRuntime.saturatingAdd c.conversations.liveRequestedGeneration 1 = live)
    (hpages : ∀ last, latest.lookup c.pageKey = some last → last < page)
    (hlives : ∀ last, latest.lookup c.liveKey = some last → last < live)
    (hpaged : ((c.asked page live).setGenerations page page).setLoading .ready = paged)
    (happly : paged.applyLive hash live completion clock = .done (c', dirty)) :
    Reaches hash cond ⟨c, restingRuntime ∅ latest ∅ [] [] [], .ready⟩
      ⟨c', restingRuntime ∅ ((latest.insert c.pageKey page).insert c.liveKey live) ∅ [] [] [],
        .ready⟩ := by
  have hruns : (c.scheduleConversations clock).Runs Answers Moves _ _ (c.asked page live) _ :=
    runs_scheduled hbinary hpage hlive hpages hlives
  have hasked : Step hash ⟨c, _⟩ _ ⟨c.asked page live, _⟩ := .refresh hview rfl hruns
  have hfound : ((latest.insert c.pageKey page).insert c.liveKey live).lookup c.pageKey = some page :=
    (Finmap.lookup_insert_of_ne _ c.liveKey_ne_pageKey.symm).trans (Finmap.lookup_insert _)
  have hkeys := keys_asked c page live
  have hround : Reaches hash cond
      ⟨c.asked page live, restingRuntime
        (insert (c.asked page live).liveKey (insert (c.asked page live).pageKey ∅))
        ((latest.insert c.pageKey page).insert c.liveKey live) ∅ []
        [(c.asked page live).pageJob page, (c.asked page live).liveJob live] [], .ready⟩
      ⟨c', restingRuntime ∅ ((latest.insert c.pageKey page).insert c.liveKey live) ∅ [] [] [],
        .ready⟩ := by
    refine reaches_round fs clock (fun _ => hcond _ _) (fun _ _ _ _ => hcond _ _) hpaged
      (fun _ => hcond _ _) ?_ ?_ rfl happly
    · rw [hkeys.2]
      exact hfound
    · rw [hkeys.1]
      exact Finmap.lookup_insert _
  rw [hkeys.1, hkeys.2, (jobs_asked c page live page).2, (jobs_asked c page live live).1] at hround
  exact (Reaches.single hasked (hcond _ _)).trans hround

/-- The controller with a configuration and the first refresh it starts. -/
def Controller.loaded (c : Controller) (adaptive : Option (Nat × Nat)) (clock : Nat) : Controller :=
  { c with
    liveSensor := adaptive.map fun (minimum, maximum) => .new minimum maximum clock
    subsystemsStarted := true }

/-- The configuration job of a main loop in a directory. -/
def configJob (cwd : PathBuf) : Job Output := ⟨.new .config cwd, 1, .high, fun _ => True⟩

def configLatest (cwd : PathBuf) : Finmap fun _ : JobKey => Nat :=
  Finmap.insert (JobKey.new .config cwd) 1 ∅

/-- A main loop whose first refresh is under way. -/
def loadedLatest (cwd : PathBuf) : Finmap fun _ : JobKey => Nat :=
  ((configLatest cwd).insert (.new .conversationDiscovery cwd) 1).insert (.new .conversationLive cwd) 1

theorem lookup_loadedLatest_page {cwd : PathBuf} :
    (loadedLatest cwd).lookup (.new .conversationDiscovery cwd) = some 1 := by
  rw [loadedLatest, Finmap.lookup_insert_of_ne _ (by simp [JobKey.new])]
  exact Finmap.lookup_insert _

theorem started_resting (cwd binary : PathBuf) :
    Started ⟨Controller.new cwd none (some binary),
      restingRuntime {.new .config cwd} (configLatest cwd) ∅ [configJob cwd] [] [], .ready⟩ := by
  have hlen : (restingRuntime ∅ ∅ ∅ [] [] []).outstandingLen = 0 := rfl
  have hconfig : (.withCapacities 8 4 : WorkerRuntime Output).submit (configJob cwd) =
      (restingRuntime {.new .config cwd} (configLatest cwd) ∅ [configJob cwd] [] [], .queued) := by
    rw [withCapacities_resting]
    simp only [restingRuntime] at hlen
    simp [WorkerRuntime.submit, restingRuntime, Finmap.notMem_empty, WorkerRuntime.queueNew, hlen,
      WorkerRuntime.lane, Lane.trySend, WorkerRuntime.setLane, configJob, configLatest]
  exact ⟨cwd, none, some binary, cwd, 0, 8, 4, _, .answer (answers_of_submit hconfig) .done⟩

theorem reaches_loaded (cwd binary : PathBuf) (adaptive : Option (Nat × Nat)) (clock : Nat)
    (fs : FileSystem) (hworkers : ∀ app, cond app ⟨.workers, [.silent]⟩)
    (hother : ∀ app done events, done.key.kind ≠ .conversationLive →
      cond app ⟨.result done, events⟩)
    {c : Controller}
    (hloaded : c = ((Controller.new cwd none (some binary)).loaded adaptive clock).asked 1 1) :
    Reaches hash cond
      ⟨Controller.new cwd none (some binary),
        restingRuntime {.new .config cwd} (configLatest cwd) ∅ [configJob cwd] [] [], .ready⟩
      ⟨c, restingRuntime (insert c.liveKey (insert c.pageKey ∅)) (loadedLatest cwd) ∅ []
        [c.pageJob 1, c.liveJob 1] [], .ready⟩ := by
  have hone : WorkerRuntime.saturatingAdd 0 1 = 1 := by decide
  generalize hbefore : (Controller.new cwd none (some binary)).loaded adaptive clock = before
    at hloaded
  have hroot : before.root = cwd := hbefore ▸ rfl
  have hhost : before.hostBinary = some binary := hbefore ▸ rfl
  have hpage : before.conversations.requestedGeneration = 0 := hbefore ▸ rfl
  have hlive : before.conversations.liveRequestedGeneration = 0 := hbefore ▸ rfl
  have hscheduled : (before.scheduleConversations clock).Runs Answers Moves
      ⟨restingRuntime ∅ (configLatest cwd) ∅ [] [] [], .ready⟩
      [.submitted before.pageKey 1 .queued, .submitted before.liveKey 1 .queued] (before.asked 1 1)
      ⟨restingRuntime (insert before.liveKey (insert before.pageKey ∅))
        (((configLatest cwd).insert before.pageKey 1).insert before.liveKey 1) ∅ []
        [before.pageJob 1, before.liveJob 1] [], .ready⟩ := by
    refine runs_scheduled (by simp [hhost]) (hpage ▸ hone) (hlive ▸ hone) ?_ ?_
    all_goals simp [configLatest, Controller.pageKey, Controller.liveKey, JobKey.new]
  have hconfig : Program.Runs Answers Moves
      ((Controller.new cwd none (some binary)).applyResult hash fs
        ⟨.new .config cwd, 1, .success (.config adaptive)⟩ clock)
      ⟨restingRuntime (({.new .config cwd} : Finset JobKey).erase (.new .config cwd))
        (configLatest cwd) ∅ [] [] [], .ready⟩
      ([.submitted before.pageKey 1 .queued, .submitted before.liveKey 1 .queued] ++ [])
      (before.asked 1 1, true)
      ⟨restingRuntime (insert before.liveKey (insert before.pageKey ∅))
        (((configLatest cwd).insert before.pageKey 1).insert before.liveKey 1) ∅ []
        [before.pageJob 1, before.liveJob 1] [], .ready⟩ := by
    rw [Finset.erase_singleton]
    rw [← hbefore] at hscheduled ⊢
    exact hscheduled.bind .done
  have hkeys : ((configLatest cwd).insert before.pageKey 1).insert before.liveKey 1 =
      loadedLatest cwd := by
    rw [Controller.pageKey, Controller.liveKey, hroot]
    rfl
  rw [hkeys] at hconfig
  rw [hloaded, (keys_asked before 1 1).1, (keys_asked before 1 1).2, (jobs_asked before 1 1 1).2,
    (jobs_asked before 1 1 1).1]
  refine (reaches_high hworkers (.success (.config adaptive)) (by simp) trivial).trans ?_
  refine (reaches_taken hworkers _).trans ?_
  exact reaches_accepted fs clock (Finmap.lookup_empty _) (Finmap.lookup_insert _)
    (hother _ _ _ (by simp [configJob, JobKey.new])) hconfig

end HerdrContext.App
