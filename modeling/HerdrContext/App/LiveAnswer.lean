import HerdrContext.App.Scenario
import HerdrContext.Live.Law

/-! What becomes of an explicit refresh that quiet polls may supersede. -/
namespace HerdrContext.App

open Library Live Worker

variable {hash : List FingerprintInput → UInt64}

/-- A job in a lane, on a thread, among the results, in the hands of the main
loop, or held back behind one of its key. -/
def Outstanding (s : System Output) (key : JobKey) (generation : Nat) : Prop :=
  (key, generation) ∈ s.runtime.carried + s.caller.inHand ∨
    ∃ job, s.runtime.pending.lookup key = some job ∧ job.generation = generation

theorem Awaited.outstanding {history : List (Action JobKey Nat)} {s : System Output} {key : JobKey}
    {generation : Nat} (books : Open history s) (h : Awaited history key generation) :
    Outstanding s key generation := by
  have htraced := books.tracks.traced
  obtain ⟨newest, hnewest, hle⟩ := htraced.accepted_le h.accepted
  have heq : newest = generation := le_antisymm (h.newest _ (htraced.latest_accepted hnewest)) hle
  rw [heq] at hnewest
  rcases htraced.kept hnewest with hdelivered | hcarried | hheld
  · exact absurd hdelivered h.undelivered
  · exact Or.inl hcarried
  · obtain ⟨job, hjob, hgeneration⟩ := Option.map_eq_some_iff.mp hheld
    exact Or.inr ⟨job, hjob, hgeneration⟩

/-- The result of a poll of the live sessions. -/
def Answer (app : AppState) (event : AppEvent) (done : CompletedJob Output) : Prop :=
  event.cause = .result done ∧ done.key = app.controller.liveKey

def LiveSnapshot.content (snapshot : LiveSnapshot) : ProjectIdentity × LiveConversationSnapshot :=
  (snapshot.project, snapshot.sessions)

/-- No quiet poll fails while the view is loading or takes other sessions for
those shown, and no explicit poll is cancelled. -/
structure Attends (hash : List FingerprintInput → UInt64) (app : AppState) (event : AppEvent) :
    Prop where
  failed : ∀ done, Answer app event done → app.controller.isPendingSensor done.generation = true →
    (∀ snapshot, pollOutcome done.completion ≠ .found snapshot) →
    app.controller.conversations.liveLoading = false
  same : ∀ done snapshot, Answer app event done →
    app.controller.isPendingSensor done.generation = true →
    pollOutcome done.completion = .found snapshot →
    app.controller.isUnchanged hash snapshot = true → ∀ shown,
      app.controller.liveSnapshot = some shown → shown.content = snapshot.content
  uncancelled : ∀ done, Answer app event done →
    app.controller.isPendingSensor done.generation = false → pollOutcome done.completion ≠ .cancelled

section

variable {app app' : AppState} {event : AppEvent} {awaited awaited' : Option Nat}
  {polls : List (PollEvent LiveSnapshot)}

/-- A condition on answers holds along a step when it holds of its answer. -/
theorem Passes.along {cond : Display LiveSnapshot UInt64 → PollEvent LiveSnapshot → Prop}
    (h : Passes hash app event app' awaited polls awaited')
    (hask : ∀ d quiet accepted generation, cond d (.ask quiet accepted generation))
    (hconfigure : ∀ d sensor, cond d (.configure sensor))
    (hunavailable : app.controller.hostBinary = none → ∀ d, cond d .unavailable)
    (hanswer : ∀ done, Answer app event done → cond (app.controller.display awaited)
      (.answer done.generation (pollOutcome done.completion))) :
    Run (fun d event d' => d.Step (LiveSnapshot.print hash) event d' ∧ cond d event)
      (app.controller.display awaited) polls (app'.controller.display awaited') := by
  have hshape := h.shape
  have hrun := h.run
  have hasked : ∀ {quiet asks d d'}, Asked (· ∈ event.events) app.controller quiet asks →
      Run (Display.Step (LiveSnapshot.print hash)) d asks d' →
      Run (fun d event d' => d.Step (LiveSnapshot.print hash) event d' ∧ cond d event) d asks d' := by
    intro quiet asks d d' hasked hasks
    cases hasked with
    | unavailable binary => exact .single ⟨hasks.of_single, hunavailable binary d⟩
    | ask accepted generation => exact .single ⟨hasks.of_single, hask d quiet accepted generation⟩
  generalize hcause : event.cause = cause at hshape
  cases hshape with
  | still =>
    rw [hrun.nil]
    exact .refl
  | refresh asked => exact hasked asked hrun
  | tick asked => exact hasked asked hrun
  | config kind asked =>
    obtain ⟨middle, hstep, hrest⟩ := hrun.head
    have hfirst : Run (fun d event d' => d.Step (LiveSnapshot.print hash) event d' ∧ cond d event)
        (app.controller.display awaited) [.configure _] middle := .single ⟨hstep, hconfigure _ _⟩
    rcases asked with rfl | asked
    · rw [hrest.nil]
      exact hfirst
    · exact hfirst.trans (hasked asked hrest)
  | @answer done key => exact .single ⟨hrun.of_single, hanswer done ⟨hcause, key⟩⟩

theorem Passes.clears (h : Passes hash app event app' awaited polls awaited')
    (hattends : Attends hash app event) :
    Run (fun d event d' => d.Step (LiveSnapshot.print hash) event d' ∧ d.ClearsLoading event)
      (app.controller.display awaited) polls (app'.controller.display awaited') := by
  refine h.along (fun _ _ _ _ => trivial) (fun _ _ => trivial) (fun _ _ => trivial)
    fun done hanswer hquiet hfailed => ?_
  rw [isQuiet_display] at hquiet
  exact hattends.failed done hanswer hquiet hfailed

theorem Passes.attentive (h : Passes hash app event app' awaited polls awaited')
    (hattends : Attends hash app event) (hbinary : app.controller.hostBinary ≠ none) :
    Run (fun d event d' => d.Step (LiveSnapshot.print hash) event d' ∧
        d.Attentive LiveSnapshot.content (LiveSnapshot.print hash) event)
      (app.controller.display awaited) polls (app'.controller.display awaited') := by
  refine h.along (fun _ _ _ _ => trivial) (fun _ _ => trivial)
    (fun hnone => absurd hnone hbinary) fun done hanswer => ⟨?_, ?_, ?_⟩
  all_goals rw [isQuiet_display]
  · exact hattends.failed done hanswer
  · intro hquiet snapshot hfound hunchanged
    rw [isUnchanged_display] at hunchanged
    exact hattends.same done snapshot hanswer hquiet hfound hunchanged
  · exact hattends.uncancelled done hanswer

end

/-! ## Runs -/

/-- What the view and the books of the runtime say of the poll that is awaited. -/
structure Waiting (hash : List FingerprintInput → UInt64) (history : List (Action JobKey Nat))
    (app : AppState) (awaited : Option Nat) : Prop where
  tracked : Tracked history app awaited
  current : (app.controller.display awaited).Current
  traced : (app.controller.display awaited).Traced (LiveSnapshot.print hash)

section

variable {history : List (Action JobKey Nat)} {app app' : AppState} {event : AppEvent}
  {awaited : Option Nat}

theorem Waiting.step (h : Waiting hash history app awaited) (hstep : Step hash app event app')
    (hattends : Attends hash app event) :
    ∃ history' polls awaited', Passes hash app event app' awaited polls awaited' ∧
      Waiting hash history' app' awaited' := by
  obtain ⟨polls, awaited', hpasses, htracked⟩ := h.tracked.step hstep
  refine ⟨_, polls, awaited', hpasses, htracked, h.current.run (hpasses.clears hattends), ?_⟩
  exact hpasses.run.invariant (Display.Traced _) h.traced fun htraced hstep => htraced.step hstep

theorem Started.waiting (h : Started app) : ∃ history awaited, Waiting hash history app awaited := by
  obtain ⟨history, awaited, polls, htracked, hpolls, hrun⟩ := h.tracked hash
  have hclears : Run (fun d event d' => d.Step (LiveSnapshot.print hash) event d' ∧
      d.ClearsLoading event) Display.blank polls (app.controller.display awaited) := by
    rcases hpolls with rfl | ⟨asks, rfl, hasks⟩
    · rw [hrun.nil]
      exact .refl
    · obtain ⟨middle, hstep, hrest⟩ := hrun.head
      have hfirst : Run (fun d event d' => d.Step (LiveSnapshot.print hash) event d' ∧
          d.ClearsLoading event) Display.blank [.configure false] middle := .single ⟨hstep, trivial⟩
      rcases hasks with rfl | rfl | ⟨accepted, generation, rfl⟩
      · rw [hrest.nil]
        exact hfirst
      · exact hfirst.step ⟨hrest.of_single, trivial⟩
      · exact hfirst.step ⟨hrest.of_single, trivial⟩
  have hblank : Display.blank.Current := ⟨fun _ hnone => by contradiction, fun hloading => by contradiction⟩
  have htraced : Display.blank.Traced (LiveSnapshot.print hash) := fun _ hnone => by contradiction
  exact ⟨history, awaited, htracked, hblank.run hclears,
    hrun.invariant (Display.Traced _) htraced fun htraced hstep => htraced.step hstep⟩

/-- A view that is loading waits for a poll that is outstanding. -/
theorem Waiting.outstanding (h : Waiting hash history app awaited)
    (hloading : app.controller.conversations.liveLoading = true) :
    Outstanding app.workers app.controller.liveKey
      app.controller.conversations.liveRequestedGeneration := by
  obtain ⟨generation, hgeneration⟩ := Option.ne_none_iff_exists'.mp (h.current.loading hloading)
  have hnewest := h.current.newest generation hgeneration
  have hawaited := (h.tracked.books.awaited_iff generation).mp hgeneration
  rw [hnewest] at hawaited
  exact Awaited.outstanding h.tracked.world.books hawaited

/-- The result of the poll that is awaited ends the loading. -/
theorem Waiting.cleared (h : Waiting hash history app awaited) (hstep : Step hash app event app')
    (hattends : Attends hash app event) {done : CompletedJob Output}
    (hanswer : Answer app event done) :
    done.generation = app.controller.conversations.liveRequestedGeneration ∧
      app'.controller.conversations.liveLoading = false := by
  obtain ⟨polls, awaited', hpasses, -⟩ := h.tracked.step hstep
  have hshape := hpasses.shape
  have hrun := hpasses.run
  rw [hanswer.1] at hshape
  cases hshape with
  | still _ hother => exact absurd (congrArg JobKey.kind hanswer.2) (hother done rfl)
  | config kind =>
    rw [hanswer.2] at kind
    contradiction
  | answer =>
    obtain ⟨hadmits, hdisplay⟩ := hrun.of_single
    have hcurrent := h.current.newest _ hadmits
    refine ⟨hcurrent, ?_⟩
    by_contra hloading
    have hstill : (app'.controller.display awaited').loading = true :=
      Bool.eq_true_of_not_eq_false hloading
    rw [hdisplay, Display.apply, Display.loading_answer hcurrent.ge, isQuiet_display] at hstill
    obtain ⟨hbefore, hquiet, hfailed⟩ := hstill
    have hcleared := hattends.failed done hanswer hquiet hfailed
    rw [show app.controller.conversations.liveLoading = true from hbefore] at hcleared
    contradiction

end

/-! ## Behind an explicit refresh -/

/-- Among the events is the result of a poll of a generation or a later one, and
the sessions it found are shown. -/
def ShownSince (key : JobKey) (generation : Nat) (events : List AppEvent) (c : Controller) : Prop :=
  ∃ event ∈ events, ∃ done snapshot, event.cause = .result done ∧ done.key = key ∧
    generation ≤ done.generation ∧ done.completion = .success (.live (.ready snapshot)) ∧
    c.conversations.items = c.mergedConversations ∧
    ∃ shown, c.liveSnapshot = some shown ∧ shown.content = snapshot.content

/-- A live error is shown. -/
def ErrorVisible (c : Controller) : Prop :=
  ∃ message, c.conversations.liveError = some message ∧
    ∃ error ∈ c.conversations.visibleErrors, error.message = message

/-- The polls that found something since a refresh, and what is shown. -/
structure Answering (hash : List FingerprintInput → UInt64) (before : Controller) (generation : Nat)
    (events : List AppEvent) (app : AppState) (awaited : Option Nat)
    (polls : List (PollEvent LiveSnapshot)) : Prop where
  answered : (app.controller.display awaited).Answered LiveSnapshot.content generation polls
  found : ∀ poll ∈ Display.found polls, ∃ event ∈ events, ∃ done, event.cause = .result done ∧
    done.key = before.liveKey ∧ done.generation = poll.1 ∧
    done.completion = .success (.live (.ready poll.2))
  binary : app.controller.hostBinary ≠ none
  root : app.controller.root = before.root

section

variable {history : List (Action JobKey Nat)} {app app' : AppState} {event : AppEvent}
  {awaited awaited' : Option Nat} {polls polls' : List (PollEvent LiveSnapshot)}

theorem completion_of_found {completion : Completion Output} {snapshot : LiveSnapshot}
    (h : pollOutcome completion = .found snapshot) :
    completion = .success (.live (.ready snapshot)) := by
  rcases completion with (_ | _ | (found | _ | message) | _ | _) | _ <;>
    simp only [pollOutcome] at h <;> first | contradiction | skip
  cases h
  rfl

theorem found_asked {only : Event Output → Prop} {c : Controller} {quiet : Bool}
    (h : Asked only c quiet polls) : Display.found polls = [] := by
  cases h <;> rfl

/-- A step finds what the result it hands over found. -/
theorem Passes.found (h : Passes hash app event app' awaited polls awaited') {poll : Nat × LiveSnapshot}
    (hpoll : poll ∈ Display.found polls) : ∃ done, Answer app event done ∧
      done.generation = poll.1 ∧ done.completion = .success (.live (.ready poll.2)) := by
  have hshape := h.shape
  generalize hcause : event.cause = cause at hshape
  cases hshape with
  | still => contradiction
  | refresh asked => simp [found_asked asked] at hpoll
  | tick asked => simp [found_asked asked] at hpoll
  | @config _ sensor asks kind asked =>
    have hnone : Display.found (.configure sensor :: asks) = [] := by
      rcases asked with rfl | asked
      · rfl
      · have hnone : Display.found asks = [] := found_asked asked
        exact hnone
    simp [hnone] at hpoll
  | @answer done key =>
    cases houtcome : pollOutcome done.completion with
    | found snapshot =>
      rw [houtcome] at hpoll
      cases List.mem_singleton.mp hpoll
      exact ⟨done, ⟨hcause, key⟩, rfl, completion_of_found houtcome⟩
    | cancelled => simp [houtcome, Display.found] at hpoll
    | failed => simp [houtcome, Display.found] at hpoll

theorem Answering.step {before : Controller} {generation : Nat} {events : List AppEvent}
    (h : Answering hash before generation events app awaited polls)
    (hwaiting : Waiting hash history app awaited)
    (hpasses : Passes hash app event app' awaited polls' awaited')
    (hattends : Attends hash app event) :
    Answering hash before generation (events ++ [event]) app' awaited' (polls ++ polls') where
  answered := h.answered.run hwaiting.current hwaiting.traced (hpasses.attentive hattends h.binary)
  found := by
    intro poll hpoll
    rw [Display.found, List.filterMap_append] at hpoll
    rcases List.mem_append.mp hpoll with hpoll | hpoll
    · obtain ⟨earlier, hmem, hfound⟩ := h.found poll hpoll
      exact ⟨earlier, List.mem_append_left _ hmem, hfound⟩
    · obtain ⟨done, hanswer, hgeneration, hcompletion⟩ := hpasses.found hpoll
      exact ⟨event, by simp, done, hanswer.1, hanswer.2.trans (liveKey_of_root h.root), hgeneration,
        hcompletion⟩
  binary := by
    rw [hpasses.binary]
    exact h.binary
  root := hpasses.root.trans h.root

/-- What is no result of a poll attends to the refreshes. -/
theorem attends_of_unanswered (h : ∀ done, ¬ Answer app event done) : Attends hash app event where
  failed := fun done hanswer => absurd hanswer (h done)
  same := fun done _ hanswer => absurd hanswer (h done)
  uncancelled := fun done hanswer => absurd hanswer (h done)

theorem attends_of_refresh (h : event.cause = .refresh) : Attends hash app event := by
  refine attends_of_unanswered fun done hanswer => ?_
  have hcause := h.symm.trans hanswer.1
  contradiction

/-- A refresh of a main loop with a host is a poll that is asked for, or a failure. -/
theorem Passes.refreshed (h : Passes hash app event app' awaited polls awaited')
    (hrefresh : event.cause = .refresh) (hbinary : app.controller.hostBinary ≠ none) :
    Answering hash app'.controller app'.controller.conversations.liveRequestedGeneration [] app'
      awaited' [] := by
  have hshape := h.shape
  rw [hrefresh] at hshape
  refine ⟨⟨le_rfl, ?_⟩, by simp [Display.found], h.binary ▸ hbinary, rfl⟩
  cases hshape with
  | still hother => exact absurd rfl hother
  | refresh asked =>
    cases asked with
    | unavailable hnone => exact absurd hnone hbinary
    | ask accepted generation =>
      obtain ⟨-, hdisplay⟩ := h.run.of_single
      rw [hdisplay]
      cases accepted with
      | true => exact Or.inl rfl
      | false => exact Or.inr (Or.inl rfl)

theorem Answering.run {before : Controller} {generation : Nat} {refreshed : AppState}
    {later : List AppEvent} (hwaiting : Waiting hash history refreshed awaited)
    (h : Answering hash before generation [] refreshed awaited [])
    (run : Run (fun app event app' => Step hash app event app' ∧ Attends hash app event) refreshed
      later app') :
    ∃ history' awaited' polls, Waiting hash history' app' awaited' ∧
      Answering hash before generation later app' awaited' polls := by
  refine run.history (fun later app => ∃ history awaited polls, Waiting hash history app awaited ∧
    Answering hash before generation later app awaited polls) ⟨history, awaited, [], hwaiting, h⟩ ?_
  rintro events app event app' ⟨history, awaited, polls, hwaiting, hanswering⟩ ⟨hstep, hattends⟩
  obtain ⟨history', polls', awaited', hpasses, hwaiting'⟩ := hwaiting.step hstep hattends
  exact ⟨history', awaited', _, hwaiting', hanswering.step hwaiting hpasses hattends⟩

/-- When nothing is outstanding, the refresh has come to what is shown. -/
theorem Answering.settled {before : Controller} {generation : Nat} {later : List AppEvent}
    (h : Answering hash before generation later app awaited polls)
    (hwaiting : Waiting hash history app awaited)
    (hquiet : ∀ generation, ¬ Outstanding app.workers app.controller.liveKey generation) :
    app.controller.conversations.liveLoading = false ∧
      (ErrorVisible app.controller ∨ ShownSince before.liveKey generation later app.controller) := by
  have hloading : app.controller.conversations.liveLoading = false := by
    by_contra hloading
    exact hquiet _ (hwaiting.outstanding (Bool.eq_true_of_not_eq_false hloading))
  refine ⟨hloading, ?_⟩
  rcases h.answered.2 with hstill | hfailure | ⟨poll, hpoll, hle, shown, hshown, hcontent⟩
  · rw [show (app.controller.display awaited).loading = false from hloading] at hstill
    contradiction
  · obtain ⟨message, hmessage⟩ := Option.isSome_iff_exists.mp hfailure
    exact Or.inl ⟨message, hmessage, app.controller.conversations.live_error_visible hmessage⟩
  · obtain ⟨event, hmem, done, hcause, hkey, hgeneration, hcompletion⟩ := h.found poll hpoll
    exact Or.inr ⟨event, hmem, done, poll.2, hcause, hkey, hle.trans_eq hgeneration.symm, hcompletion,
      hwaiting.tracked.rendered, shown, hshown, hcontent⟩

end

/-- In every run in which each step attends to the refreshes: a view that is
loading waits for a poll that is outstanding, whose result ends the loading, and
a refresh comes to a visible error or to what it or a later poll found. -/
theorem live_refresh_answered {start app : AppState} {events : List AppEvent}
    (started : Started start)
    (run : Run (fun app event app' => Step hash app event app' ∧ Attends hash app event)
      start events app) :
    (app.controller.conversations.liveLoading = true →
      Outstanding app.workers app.controller.liveKey
        app.controller.conversations.liveRequestedGeneration) ∧
    (∀ event app' done, Step hash app event app' → Attends hash app event →
      Answer app event done →
      done.generation = app.controller.conversations.liveRequestedGeneration ∧
        app'.controller.conversations.liveLoading = false) ∧
    ∀ event refreshed later app', Step hash app event refreshed → event.cause = .refresh →
      app.controller.hostBinary ≠ none →
      Run (fun app event app' => Step hash app event app' ∧ Attends hash app event) refreshed later
        app' →
      (∀ generation, ¬ Outstanding app'.workers app'.controller.liveKey generation) →
      app'.controller.conversations.liveLoading = false ∧
        (ErrorVisible app'.controller ∨
          ShownSince refreshed.controller.liveKey
            refreshed.controller.conversations.liveRequestedGeneration later app'.controller) := by
  have hwaiting : ∃ history awaited, Waiting hash history app awaited := by
    refine run.invariant (fun app => ∃ history awaited, Waiting hash history app awaited)
      started.waiting ?_
    rintro app event app' ⟨history, awaited, hwaiting⟩ ⟨hstep, hattends⟩
    obtain ⟨history', polls, awaited', -, hwaiting'⟩ := hwaiting.step hstep hattends
    exact ⟨history', awaited', hwaiting'⟩
  obtain ⟨history, awaited, hwaiting⟩ := hwaiting
  refine ⟨hwaiting.outstanding, fun event app' done hstep hattends hanswer =>
    hwaiting.cleared hstep hattends hanswer, ?_⟩
  intro event refreshed later app' hstep hrefresh hbinary hlater hquiet
  obtain ⟨history', polls, awaited', hpasses, hwaiting'⟩ :=
    hwaiting.step hstep (attends_of_refresh hrefresh)
  obtain ⟨_, _, _, hend, hanswering⟩ :=
    (hpasses.refreshed hrefresh hbinary).run hwaiting' hlater
  exact hanswering.settled hend hquiet

/-! A quiet poll supersedes the first refresh, and fails. -/

def waitingRoot : PathBuf := ⟨[slash]⟩

/-- The first refresh is under way. -/
def waitingController : Controller :=
  ((Controller.new waitingRoot none (some waitingRoot)).loaded (some (1, 2)) 0).asked 1 1

theorem reaches_waiting {cond : AppState → AppEvent → Prop}
    (hworkers : ∀ app, cond app ⟨.workers, [.silent]⟩)
    (hother : ∀ app done events, done.key.kind ≠ .conversationLive →
      cond app ⟨.result done, events⟩) :
    Reaches hash cond
      ⟨Controller.new waitingRoot none (some waitingRoot),
        restingRuntime {.new .config waitingRoot} (configLatest waitingRoot) ∅
          [configJob waitingRoot] [] [], .ready⟩
      ⟨waitingController, restingRuntime
        (insert waitingController.liveKey (insert waitingController.pageKey ∅))
        (loadedLatest waitingRoot) ∅ []
        [waitingController.pageJob 1, waitingController.liveJob 1] [], .ready⟩ :=
  reaches_loaded waitingRoot waitingRoot (some (1, 2)) 0 sampleFileSystem hworkers hother rfl

theorem live_refresh_answered_sample : ∃ app : AppState,
    app.controller.conversations.liveLoading = true ∧
      Outstanding app.workers app.controller.liveKey
        app.controller.conversations.liveRequestedGeneration := by
  have hother : ∀ app done events, done.key.kind ≠ .conversationLive →
      Attends (fun _ => 0) app ⟨.result done, events⟩ := by
    intro app done events hkind
    refine attends_of_unanswered ?_
    rintro other ⟨hcause, hkey⟩
    cases hcause
    exact hkind (hkey ▸ rfl)
  have hworkers : ∀ app, Attends (fun _ => 0) app ⟨.workers, [.silent]⟩ := by
    intro app
    refine attends_of_unanswered ?_
    rintro done ⟨hcause, -⟩
    contradiction
  obtain ⟨events, run⟩ := reaches_waiting hworkers hother
  exact ⟨_, rfl, (live_refresh_answered (started_resting waitingRoot waitingRoot) run).1 rfl⟩

section

variable {c : Controller} {generation clock : Nat}

theorem runs_quiet {w w' : WorkerRuntime Output} {sensor : LiveSensor} {now : Nat}
    (hdue : c.isDue now = true) (hbinary : c.hostBinary ≠ none) (hsensor : c.liveSensor = some sensor)
    (hgeneration : WorkerRuntime.saturatingAdd c.conversations.liveRequestedGeneration 1 = generation)
    (h : w.submit (c.liveJob generation) = (w', .coalesced)) :
    (c.tickLiveSensor now clock).Runs Answers Moves ⟨w, .ready⟩
      [.submitted c.liveKey generation .coalesced] (c.armQuiet sensor generation clock)
      ⟨w', .ready⟩ := by
  unfold Controller.tickLiveSensor Controller.scheduleLivePoll
  rw [if_pos hdue, hsensor]
  cases hhost : c.hostBinary with
  | none => exact absurd hhost hbinary
  | some binary =>
    rw [← hgeneration] at h ⊢
    exact .answer (answers_of_submit h) .done

theorem applyLive_quiet_error (hcurrent : ¬ generation < c.conversations.liveRequestedGeneration)
    (hquiet : c.isPendingSensor generation = true) (message : String) :
    c.applyLive hash generation (.success (.live (.error message))) clock =
      .done (c.forgetPending.syncAndBackOff c.conversations.liveRequestedGeneration generation clock,
        false) := by
  simp [Controller.applyLive, hcurrent, Controller.takePendingLiveSensor, hquiet]

end

/-- A quiet poll supersedes a refresh that is under way: only its result is handed
over. -/
theorem reaches_superseded {cond : AppState → AppEvent → Prop} {c armed paged c' : Controller}
    {sensor : LiveSensor} {latest : Finmap fun _ : JobKey => Nat} {page live quiet now : Nat}
    {completion : Completion Output} {dirty : Bool} (fs : FileSystem) (clock : Nat)
    (hcond : ∀ app event, cond app event) (hdue : c.isDue now = true) (hbinary : c.hostBinary ≠ none)
    (hsensor : c.liveSensor = some sensor)
    (hgeneration : WorkerRuntime.saturatingAdd c.conversations.liveRequestedGeneration 1 = quiet)
    (hnewer : live < quiet) (hpage : latest.lookup c.pageKey = some page)
    (hlive : latest.lookup c.liveKey = some live)
    (hrequested : c.conversations.requestedGeneration = page)
    (harmed : c.armQuiet sensor quiet clock = armed)
    (hpaged : (armed.setGenerations page page).setLoading .ready = paged)
    (happly : paged.applyLive hash quiet completion clock = .done (c', dirty)) :
    Reaches hash cond
      ⟨c, restingRuntime (insert c.liveKey (insert c.pageKey ∅)) latest ∅ []
        [c.pageJob page, c.liveJob live] [], .ready⟩
      ⟨c', restingRuntime ∅ (latest.insert c.liveKey quiet) ∅ [] [] [], .ready⟩ := by
  have hne := c.liveKey_ne_pageKey.symm
  have hsubmit : (restingRuntime (insert c.liveKey (insert c.pageKey ∅)) latest ∅ []
      [c.pageJob page, c.liveJob live] []).submit (c.liveJob quiet) =
      (restingRuntime (insert c.liveKey (insert c.pageKey ∅)) (latest.insert c.liveKey quiet)
        ((∅ : Finmap fun _ : JobKey => Job Output).insert c.liveKey (c.liveJob quiet)) []
        [c.pageJob page, c.liveJob live] [], .coalesced) := by
    refine submit_resting_busy (Finset.mem_insert_self _ _) fun last hlast => ?_
    rw [← Option.some.inj (hlive.symm.trans hlast)]
    exact hnewer
  have hroot : armed.root = c.root := harmed ▸ rfl
  have hpagedRoot : paged.root = c.root := hpaged ▸ hroot
  have hrequestedArmed : armed.conversations.requestedGeneration = page := harmed ▸ hrequested
  have hruns : (c.tickLiveSensor now clock).Runs Answers Moves _ _ (c.armQuiet sensor quiet clock) _ :=
    runs_quiet hdue hbinary hsensor hgeneration hsubmit
  rw [harmed] at hruns
  have hticked : Step hash ⟨c, _⟩ _ ⟨armed, _⟩ := .tick rfl hruns
  generalize hheld : (∅ : Finmap fun _ : JobKey => Job Output).insert c.liveKey (c.liveJob quiet) =
    held at *
  have hheldPage : held.lookup c.pageKey = none := by
    rw [← hheld, Finmap.lookup_insert_of_ne _ hne]
    exact Finmap.lookup_empty _
  have hheldLive : held.lookup c.liveKey = some (c.liveJob quiet) := hheld ▸ Finmap.lookup_insert _
  have hreleased : held.erase c.liveKey = ∅ := by
    refine Finmap.ext_lookup fun key => ?_
    rw [Finmap.lookup_empty]
    by_cases hkey : key = c.liveKey
    · rw [hkey, Finmap.lookup_erase]
    · rw [Finmap.lookup_erase_ne hkey, ← hheld, Finmap.lookup_insert_of_ne _ hkey]
      exact Finmap.lookup_empty _
  have hleft : (insert c.liveKey (insert c.pageKey ∅) : Finset JobKey).erase c.pageKey =
      {c.liveKey} := by
    rw [Finset.erase_insert_of_ne c.liveKey_ne_pageKey, Finset.erase_insert (Finset.notMem_empty _)]
    rfl
  have hpages : Program.Runs Answers Moves
      (armed.applyResult hash fs ⟨c.pageKey, page, .success (.conversations .cancelled)⟩ clock)
      ⟨restingRuntime ((insert c.liveKey (insert c.pageKey ∅) : Finset JobKey).erase c.pageKey)
        (latest.insert c.liveKey quiet) held [] [] [⟨c.liveKey, live, .panicked⟩], .ready⟩ []
      (paged, true)
      ⟨restingRuntime {c.liveKey} (latest.insert c.liveKey quiet) held [] []
        [⟨c.liveKey, live, .panicked⟩], .ready⟩ := by
    have hcancelled : armed.applyConversations fs page (.success (.conversations .cancelled)) =
        .done (paged, true) := by
      simp [Controller.applyConversations, hrequestedArmed, hpaged]
    have hhandler : armed.applyResult hash fs
        ⟨c.pageKey, page, .success (.conversations .cancelled)⟩ clock = .done (paged, true) :=
      hcancelled
    rw [hhandler, hleft]
    exact .done
  have hlives : Program.Runs Answers Moves
      (paged.applyResult hash fs ⟨c.liveKey, quiet, completion⟩ clock)
      ⟨restingRuntime ((insert c.liveKey (({c.liveKey} : Finset JobKey).erase c.liveKey)).erase
        c.liveKey) (latest.insert c.liveKey quiet) ∅ [] [] [], .ready⟩ [] (c', dirty)
      ⟨restingRuntime ∅ (latest.insert c.liveKey quiet) ∅ [] [] [], .ready⟩ := by
    have hhandler : paged.applyResult hash fs ⟨c.liveKey, quiet, completion⟩ clock =
        .done (c', dirty) := happly
    rw [hhandler, Finset.erase_singleton, Finset.erase_insert (Finset.notMem_empty _)]
    exact .done
  have hstale : (latest.insert c.liveKey quiet).lookup c.liveKey ≠ some live := by
    rw [Finmap.lookup_insert]
    simpa using hnewer.ne'
  refine (Reaches.single hticked (hcond _ _)).trans ?_
  refine (reaches_low (fun _ => hcond _ _) (.success (.conversations .cancelled)) (by simp)
    trivial).trans ?_
  refine (reaches_low (fun _ => hcond _ _) .panicked (by simp) trivial).trans ?_
  refine (reaches_taken (fun _ => hcond _ _) _).trans ?_
  refine (reaches_accepted fs clock hheldPage ((Finmap.lookup_insert_of_ne _ hne).trans hpage)
    (hcond _ _) hpages).trans ?_
  refine (reaches_taken (fun _ => hcond _ _) _).trans ?_
  refine (reaches_discarded (fun _ => hcond _ _) hheldLive rfl (by simp) hstale).trans ?_
  refine (reaches_low (fun _ => hcond _ _) completion (by simp) trivial).trans ?_
  refine (reaches_silent (fun _ => hcond _ _) (.receive rfl) rfl).trans ?_
  rw [hreleased]
  exact reaches_accepted fs clock (Finmap.lookup_empty _) (Finmap.lookup_insert _) (hcond _ _) hlives

/-- The controller behind the tick, and when the page has ended too. -/
def supersededController : Controller :=
  ({ waitingController with activeView := .conversations } : Controller).armQuiet
    { LiveSensor.new 1 2 0 with pendingGeneration := none } 2 1

def endedController : Controller := (supersededController.setGenerations 1 1).setLoading .ready

theorem sample_stuck : Reaches (fun _ => 0) (fun _ _ => True)
    ⟨Controller.new waitingRoot none (some waitingRoot),
      restingRuntime {.new .config waitingRoot} (configLatest waitingRoot) ∅
        [configJob waitingRoot] [] [], .ready⟩
    ⟨endedController.forgetPending.syncAndBackOff 2 2 1, restingRuntime ∅
      ((loadedLatest waitingRoot).insert (.new .conversationLive waitingRoot) 2) ∅ [] [] [],
      .ready⟩ := by
  have hwaiting : Reaches (fun _ => 0) (fun _ _ => True) _ ⟨waitingController, _⟩ :=
    reaches_waiting (fun _ => trivial) fun _ _ _ _ => trivial
  have hviewed := hwaiting.trans (.single (.switchView .conversations) trivial)
  generalize hviewing : ({ waitingController with activeView := .conversations } : Controller) =
    viewed at hviewed
  have hlive : viewed.conversations.liveRequestedGeneration = 1 := hviewing ▸ rfl
  have hroot : viewed.root = waitingRoot := hviewing ▸ rfl
  have hhost : viewed.hostBinary = some waitingRoot := hviewing ▸ rfl
  have hsensor : viewed.liveSensor = some { LiveSensor.new 1 2 0 with pendingGeneration := none } :=
    hviewing ▸ rfl
  have hdue : viewed.isDue 1 = true := hviewing ▸ rfl
  have htwo : WorkerRuntime.saturatingAdd 1 1 = 2 := by decide
  generalize harmed : viewed.armQuiet { LiveSensor.new 1 2 0 with pendingGeneration := none } 2 1 = armed
  generalize hpaged : (armed.setGenerations 1 1).setLoading .ready = paged
  have hcurrent : paged.conversations.liveRequestedGeneration = 2 := hpaged ▸ harmed ▸ rfl
  have hquiet : paged.isPendingSensor 2 = true := hpaged ▸ harmed ▸ rfl
  have happly : paged.applyLive (fun _ => 0) 2 (.success (.live (.error "refused"))) 1 =
      .done (paged.forgetPending.syncAndBackOff 2 2 1, false) := by
    have herror := @applyLive_quiet_error (fun _ => 0) paged 2 1 hcurrent.not_gt hquiet
      "refused"
    rw [hcurrent] at herror
    exact herror
  have hsuperseded : Reaches (fun _ => 0) (fun _ _ => True)
      ⟨viewed, restingRuntime (insert viewed.liveKey (insert viewed.pageKey ∅))
        (loadedLatest waitingRoot) ∅ [] [viewed.pageJob 1, viewed.liveJob 1] [], .ready⟩
      ⟨paged.forgetPending.syncAndBackOff 2 2 1, restingRuntime ∅
        ((loadedLatest waitingRoot).insert viewed.liveKey 2) ∅ [] [] [], .ready⟩ := by
    refine reaches_superseded sampleFileSystem 1 (fun _ _ => trivial) hdue (by simp [hhost]) hsensor
      (hlive ▸ htwo) Nat.one_lt_two ?_ ?_ (hviewing ▸ rfl) harmed hpaged happly
    · rw [Controller.pageKey, hroot]
      exact lookup_loadedLatest_page
    · rw [Controller.liveKey, hroot]
      exact Finmap.lookup_insert _
  have hstart : (⟨viewed, restingRuntime (insert viewed.liveKey (insert viewed.pageKey ∅))
      (loadedLatest waitingRoot) ∅ [] [viewed.pageJob 1, viewed.liveJob 1] [], .ready⟩ : AppState) =
      ⟨viewed, restingRuntime (insert waitingController.liveKey (insert waitingController.pageKey ∅))
        (loadedLatest waitingRoot) ∅ []
        [waitingController.pageJob 1, waitingController.liveJob 1] [], .ready⟩ := by
    rw [← hviewing]
    rfl
  rw [hstart] at hsuperseded
  have hstuck := hviewed.trans hsuperseded
  rw [Controller.liveKey, hroot, ← hpaged, ← harmed, ← hviewing] at hstuck
  exact hstuck

theorem refresh_left_loading : ¬ ∀ (hash : List FingerprintInput → UInt64) (start app : AppState)
    (events : List AppEvent), Started start → Run (Step hash) start events app →
      app.controller.conversations.liveLoading = true →
      Outstanding app.workers app.controller.liveKey
        app.controller.conversations.liveRequestedGeneration := by
  intro h
  obtain ⟨events, run⟩ := sample_stuck
  rcases h _ _ _ events (started_resting waitingRoot waitingRoot) (run.imp fun hstep => hstep.1) rfl
    with hmem | ⟨job, hjob, -⟩
  · exact absurd hmem (Multiset.notMem_zero _)
  · simp [restingRuntime] at hjob

end HerdrContext.App
