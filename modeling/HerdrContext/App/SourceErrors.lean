import HerdrContext.App.LiveBaseline

/-! The notices of the sources, from the pages that report them to the view. -/
namespace HerdrContext.App

open Library Live Worker

/-! ## What is reported -/

/-- The notices of a result that is applied as a page, and whether they replace
the earlier ones. -/
def Controller.appliedPage (c : Controller) (done : CompletedJob Output) :
    Option (List VisibleError × Bool) :=
  if done.key.kind = .conversationDiscovery ∧
      ¬ done.generation < c.conversations.requestedGeneration then
    match done.completion with
    | .success (.conversations (.ready _ _ _ sourceErrors reset)) => some (sourceErrors, reset)
    | _ => none
  else none

/-- The notices since and including the last reset page. -/
def Controller.reported (c : Controller) (cause : Cause) (notices : List VisibleError) :
    List VisibleError :=
  match cause with
  | .result done =>
    match c.appliedPage done with
    | some (sourceErrors, reset) => if reset then sourceErrors else notices ++ sourceErrors
    | none => notices
  | _ => notices

/-- A run of the main loop with the notices its pages reported. -/
inductive Reported (hash : List FingerprintInput → UInt64) (start : AppState) :
    List AppEvent → AppState → List VisibleError → Prop where
  | start : Reported hash start [] start []
  | step {events : List AppEvent} {app app' : AppState} {event : AppEvent}
    {notices : List VisibleError} (run : Reported hash start events app notices)
    (last : Step hash app event app') :
    Reported hash start (events ++ [event]) app' (app.controller.reported event.cause notices)

/-- The messages in order, each once and at most eight of them. -/
def boundedMessages (notices : List VisibleError) : List String :=
  ((notices.map (·.message)).dedup.insertionSort (· ≤ ·)).take 8

structure ShowsNotices (notices shown : List VisibleError) : Prop where
  messages : shown.map (·.message) = boundedMessages notices
  reported : ∀ error ∈ shown, error ∈ notices

theorem boundedMessages_eq_nil {notices : List VisibleError} :
    boundedMessages notices = [] ↔ notices = [] := by
  constructor
  · intro h
    have hsorted : (notices.map (·.message)).dedup.insertionSort (· ≤ ·) = [] := by
      cases List.take_eq_nil_iff.mp h with
      | inl hzero => contradiction
      | inr hnil => exact hnil
    have hperm := List.perm_insertionSort (· ≤ ·) (notices.map (·.message)).dedup
    rw [hsorted] at hperm
    have hnone := List.dedup_eq_nil _ |>.mp hperm.nil_eq.symm
    exact List.map_eq_nil_iff.mp hnone
  · intro h
    rw [h]
    rfl

theorem showsNotices_nil {notices : List VisibleError} :
    ShowsNotices notices [] ↔ notices = [] := by
  constructor
  · exact fun h => boundedMessages_eq_nil.mp h.messages.symm
  · exact fun h => ⟨(boundedMessages_eq_nil.mpr h).symm, by simp⟩

theorem exists_reported {hash : List FingerprintInput → UInt64} {start app : AppState}
    {events : List AppEvent} (run : Run (Step hash) start events app) :
    ∃ notices, Reported hash start events app notices := by
  induction run with
  | refl => exact ⟨[], .start⟩
  | step _ last ih =>
    have ⟨notices, hreported⟩ := ih
    exact ⟨_, hreported.step last⟩

/-! ## What is shown -/

namespace Controller

/-- The notices of the sources in the view are the same. -/
def SameErrors (c c' : Controller) : Prop :=
  c'.conversations.sourceErrors = c.conversations.sourceErrors

section
variable (c : Controller)

theorem sameErrors_page (showLoading : Bool) :
    (c.scheduleConversationPage showLoading).Yields c.SameErrors := by
  intro status
  unfold SameErrors
  cases showLoading <;> cases status <;> rfl

theorem sameErrors_showLive (generation : Nat) : c.SameErrors (c.showLive generation).1 := by
  unfold SameErrors showLive ConversationsViewState.replaceLiveItems
  split <;> rfl

theorem sameErrors_dropLive (reason : String) (generation : Nat) :
    c.SameErrors (c.dropLive reason generation).1 :=
  sameErrors_showLive ({ c with liveSnapshot := none }.setLiveError (some reason)) generation

theorem sameErrors_poll (quiet : Bool) (clock : Nat) :
    (c.scheduleLivePoll quiet clock).Yields c.SameErrors := by
  unfold scheduleLivePoll
  cases c.hostBinary with
  | none => cases quiet <;> exact rfl
  | some binary =>
    cases quiet with
    | true =>
      cases c.liveSensor with
      | none => exact rfl
      | some sensor =>
        intro status
        cases status <;> exact rfl
    | false =>
      intro status
      simp only [Program.bind, Program.Yields]
      split
      next => exact rfl
      next => exact sameErrors_dropLive (c.markLoading _) _ _

theorem sameErrors_conversations (clock : Nat) :
    (c.scheduleConversations clock).Yields c.SameErrors := by
  unfold scheduleConversations
  rw [Program.yields_bind]
  refine (sameErrors_page c true).imp fun scheduled hscheduled => ?_
  exact (sameErrors_poll scheduled false clock).imp fun polled hpolled => hpolled.trans hscheduled

theorem sameErrors_configLoad (adaptive : Option (Nat × Nat)) (clock : Nat) :
    (c.applyConfigLoad adaptive clock).Yields c.SameErrors := by
  unfold applyConfigLoad startSubsystems
  split
  next => exact rfl
  next =>
    refine (sameErrors_conversations _ clock).imp fun started hstarted => ?_
    exact hstarted.trans rfl

theorem sameErrors_start (configRoot : PathBuf) (clock : Nat) :
    (c.start configRoot clock).Yields c.SameErrors := by
  intro status
  simp only [Program.bind]
  split
  next => exact rfl
  next => exact sameErrors_configLoad c none clock

theorem sameErrors_launch (completion : Completion Output) :
    c.SameErrors (c.applyLaunch completion) := rfl

variable (hash : List FingerprintInput → UInt64)

theorem sameErrors_adopt (snapshot : LiveSnapshot) (generation clock : Nat) :
    c.SameErrors (c.adoptSnapshot hash snapshot generation clock).1 :=
  sameErrors_showLive ({ c.seedLiveBaseline hash snapshot clock with
    liveSnapshot := some snapshot }.setLiveError none) generation

theorem sameErrors_taken (generation : Nat) :
    c.SameErrors (c.takePendingLiveSensor generation).1 := by
  unfold takePendingLiveSensor
  split <;> rfl

theorem sameErrors_sensor (snapshot : LiveSnapshot) (generation requested clock : Nat) :
    (c.applySensorSnapshot hash snapshot generation requested clock).Yields
      fun result => c.SameErrors result.1 := by
  unfold applySensorSnapshot
  split
  next => exact rfl
  next =>
    dsimp only
    split
    next =>
      rw [Program.yields_bind]
      refine (sameErrors_page _ false).imp fun scheduled hscheduled => ?_
      exact hscheduled.trans (sameErrors_adopt c hash snapshot generation clock)
    next => exact sameErrors_adopt c hash snapshot generation clock

theorem sameErrors_live (generation : Nat) (completion : Completion Output) (clock : Nat) :
    (c.applyLive hash generation completion clock).Yields fun result => c.SameErrors result.1 := by
  have htaken := sameErrors_taken c generation
  have hdropped : ∀ reason, c.SameErrors
      ((c.takePendingLiveSensor generation).1.dropLive reason generation).1 :=
    fun reason => (sameErrors_dropLive _ reason generation).trans htaken
  unfold applyLive
  dsimp only
  split
  next => exact rfl
  next =>
    split
    next =>
      split
      next => exact htaken
      next => exact hdropped _
    next snapshot =>
      split
      next =>
        refine (sameErrors_sensor _ hash snapshot generation _ clock).imp fun result hresult => ?_
        exact hresult.trans htaken
      next => exact (sameErrors_adopt _ hash snapshot generation clock).trans htaken
    next => split <;> exact htaken
    next =>
      split
      next => exact htaken
      next => exact hdropped _
    next =>
      split
      next => exact htaken
      next => exact hdropped _

theorem sameErrors_applyConversations (fs : FileSystem) (generation : Nat)
    (completion : Completion Output) :
    (c.applyConversations fs generation completion).Yields fun result => c.SameErrors result.1 := by
  have hreplaced : ∀ (view : ConversationsViewState) (items : List Conversation),
      (view.replaceItems items generation).1.sourceErrors = view.sourceErrors := by
    intro view items
    unfold ConversationsViewState.replaceItems
    split <;> rfl
  unfold applyConversations
  dsimp only
  split
  next => exact rfl
  next =>
    split
    next => exact rfl
    next =>
      split
      next =>
        split
        next =>
          rw [Program.yields_bind]
          refine (sameErrors_page _ false).imp fun scheduled hscheduled => ?_
          exact hscheduled.trans (hreplaced _ _)
        next => exact hreplaced _ _
      next => exact rfl
      next => exact rfl
      next => exact rfl

theorem sameErrors_result (fs : FileSystem) (done : CompletedJob Output) (clock : Nat) :
    (c.applyResult hash fs done clock).Yields fun result => c.SameErrors result.1 := by
  unfold applyResult
  split
  next =>
    rw [Program.yields_bind]
    exact sameErrors_configLoad c _ clock
  next => exact sameErrors_applyConversations c fs _ _
  next => exact sameErrors_live c hash _ _ clock
  next => exact sameErrors_launch c _
  next => exact rfl

theorem sameErrors_tick (now clock : Nat) :
    (c.tickLiveSensor now clock).Yields c.SameErrors := by
  unfold tickLiveSensor
  split
  next => exact sameErrors_poll c true clock
  next => exact rfl

end

end Controller

/-! ## The law -/

variable {hash : List FingerprintInput → UInt64}

theorem Started.sourceErrors_eq {app : AppState} (h : Started app) :
    app.controller.conversations.sourceErrors = [] := by
  have ⟨cwd, foregroundCwd, hostBinary, configRoot, clock, _, _, events, runs⟩ := h
  exact runs.yields (Controller.sameErrors_start (.new cwd foregroundCwd hostBinary) configRoot clock)

/-- No step of the main loop stores what a page reports. -/
theorem Step.sourceErrors_eq {app app' : AppState} {event : AppEvent}
    (h : Step hash app event app') :
    app'.controller.conversations.sourceErrors = app.controller.conversations.sourceErrors := by
  cases h with
  | workers => rfl
  | submitted => rfl
  | refresh view ready runs => exact runs.yields (Controller.sameErrors_conversations _ _)
  | switchView => rfl
  | navigate => rfl
  | notice => rfl
  | tick ready runs => exact runs.yields (Controller.sameErrors_tick _ _ _)
  | result delivered runs => exact runs.yields (Controller.sameErrors_result _ hash _ _ _)

theorem source_errors_eq_nil {start app : AppState} {events : List AppEvent}
    {notices : List VisibleError} (started : Started start)
    (run : Reported hash start events app notices) :
    app.controller.conversations.sourceErrors = [] := by
  induction run with
  | start => exact started.sourceErrors_eq
  | step _ last ih => exact last.sourceErrors_eq.trans ih

/-- In every run the view shows the notices of the applied pages exactly as long
as there are none. -/
theorem source_errors_shown {start app : AppState} {events : List AppEvent}
    {notices : List VisibleError} (started : Started start)
    (run : Reported hash start events app notices) :
    ShowsNotices notices app.controller.conversations.sourceErrors ↔ notices = [] := by
  rw [source_errors_eq_nil started run]
  exact showsNotices_nil

/-! ## A notice that is not shown -/

namespace Sample

def unreadable : VisibleError := .alert "PermissionDenied: store"

/-- What the first page finds: nothing but a source it cannot read. -/
def page : Completion Output :=
  .success (.conversations (.ready sampleProject ⟨[], ∅, ∅, ∅⟩ false [unreadable] true))

end Sample

open Sample in
/-- The first page of a main loop reports the source. -/
theorem unreadable_reported : ∃ start events app, Started start ∧
    Reported (fun _ => 0) start events app [unreadable] := by
  generalize hc : ((Controller.new sampleRoot none (some sampleRoot)).loaded none 0).asked 1 1 = c
  have hpageKey : c.pageKey = .new .conversationDiscovery sampleRoot := hc ▸ rfl
  have hrequested : c.conversations.requestedGeneration = 1 := hc ▸ rfl
  have hloaded : Reaches (fun _ => 0) (fun _ _ => True) _ _ :=
    reaches_loaded sampleRoot sampleRoot none 0 sampleFileSystem (fun _ => trivial)
      (fun _ _ _ _ => trivial) hc.symm
  have hended := (hloaded.trans (reaches_low (fun _ => trivial) page (by simp) trivial)).trans
    (reaches_taken (fun _ => trivial) _)
  have ⟨events, run⟩ := hended
  have ⟨notices, hreported⟩ := exists_reported (run.imp fun hstep => hstep.1)
  have ⟨result, hhandler⟩ : ∃ result, c.applyResult (fun _ => 0) sampleFileSystem
      ⟨c.pageKey, 1, page⟩ 0 = .done result := by
    have hcurrent : ¬ 1 < c.conversations.requestedGeneration := by
      rw [hrequested]
      omega
    have hresult : c.applyResult (fun _ => 0) sampleFileSystem ⟨c.pageKey, 1, page⟩ 0 =
        c.applyConversations sampleFileSystem 1 page := rfl
    rw [hresult, page]
    unfold Controller.applyConversations
    dsimp only
    rw [if_neg hcurrent]
    exact ⟨_, rfl⟩
  have hlatest : (loadedLatest sampleRoot).lookup c.pageKey = some 1 := by
    rw [hpageKey]
    exact lookup_loadedLatest_page
  have hdelivered : Worker.Step
      ⟨restingRuntime (insert c.liveKey (insert c.pageKey ∅)) (loadedLatest sampleRoot) ∅ []
        [c.liveJob 1] [], .accepting ⟨c.pageKey, 1, page⟩ .tryRecv⟩
      (.delivered ⟨c.pageKey, 1, page⟩) _ := delivered_resting (Finmap.lookup_empty _) hlatest
  have hruns : ∀ s, Program.Runs Answers Moves
      (c.applyResult (fun _ => 0) sampleFileSystem ⟨c.pageKey, 1, page⟩ 0) s []
      (result.1, result.2) s := by
    intro s
    rw [hhandler]
    exact .done
  have hlast : Step (fun _ => 0) _ _ _ := .result hdelivered (hruns _)
  have hnotices : c.reported (.result ⟨c.pageKey, 1, page⟩) notices = [unreadable] := by
    have hpage : c.appliedPage ⟨c.pageKey, 1, page⟩ = some ([unreadable], true) := by
      rw [Controller.appliedPage, hrequested]
      rfl
    rw [Controller.reported, hpage]
    rfl
  have hall := hreported.step hlast
  rw [hnotices] at hall
  exact ⟨_, _, _, sample_started, hall⟩

open Sample in
theorem source_errors_shown_sample : ∃ (start : AppState) (events : List AppEvent) (app : AppState),
    Reported (fun _ => 0) start events app [unreadable] ∧
      (ShowsNotices [unreadable] app.controller.conversations.sourceErrors ↔ [unreadable] = []) := by
  have ⟨start, events, app, hstarted, hreported⟩ := unreadable_reported
  exact ⟨start, events, app, hreported, source_errors_shown hstarted hreported⟩

theorem notice_dropped : ¬ ∀ (hash : List FingerprintInput → UInt64) (start app : AppState)
    (events : List AppEvent) (notices : List VisibleError), Started start →
      Reported hash start events app notices →
      ShowsNotices notices app.controller.conversations.sourceErrors := by
  intro h
  have ⟨start, events, app, hstarted, hreported⟩ := unreadable_reported
  have hnone := (source_errors_eq_nil hstarted hreported) ▸ h _ _ _ _ _ hstarted hreported
  exact absurd (showsNotices_nil.mp hnone) (by simp)

end HerdrContext.App
