import HerdrContext.App.Simulation

/-! The main loop against the display of polls: each of its steps is a few events
there, and the books of the runtime stay open. -/
namespace HerdrContext.App

open Library Live Worker

variable {hash : List FingerprintInput → UInt64}

section

variable {only : Event Output → Prop} {history : List (Action JobKey Nat)} {c c' : Controller}

theorem Asked.congr {quiet : Bool} {polls : List (PollEvent LiveSnapshot)}
    (h : Asked only c' quiet polls) (hroot : c'.root = c.root)
    (hbinary : c'.hostBinary = c.hostBinary) : Asked only c quiet polls := by
  cases h with
  | unavailable binary loud => exact .unavailable (hbinary.symm.trans binary) loud
  | ask accepted generation refused =>
    rw [liveKey_of_root hroot] at refused
    exact .ask accepted generation refused

theorem follows_conversations_refresh (history : List (Action JobKey Nat)) (c : Controller)
    (clock : Nat) :
    Does only (c.scheduleConversations clock) history fun c' history' =>
      ∃ polls, Asked only c false polls ∧ Follows hash history c polls history' c' := by
  have hpage : Does only (c.scheduleConversationPage true) history fun scheduled history' =>
      Follows hash history c [] history' scheduled := follows_page history c true
  refine does_bind (hpage.imp fun scheduled history' hscheduled => ?_)
  have hpoll : Does only (scheduled.scheduleLivePoll false clock) history' fun c' history'' =>
      ∃ polls, Asked only scheduled false polls ∧
        Follows hash history' scheduled polls history'' c' :=
    follows_poll history' scheduled false clock (by simp)
  refine hpoll.imp fun c' history'' hpolled => ?_
  obtain ⟨polls, hasked, hfollows⟩ := hpolled
  exact ⟨polls, hasked.congr hscheduled.root hscheduled.binary, hscheduled.trans hfollows⟩

/-- With a loaded configuration the first poll may be asked for. -/
theorem follows_configLoad (history : List (Action JobKey Nat)) (c : Controller)
    (adaptive : Option (Nat × Nat)) (clock : Nat) :
    Does only (c.applyConfigLoad adaptive clock) history fun c' history' =>
      ∃ polls, (polls = [] ∨ Asked only c false polls) ∧
        Follows hash history c (.configure adaptive.isSome :: polls) history' c' := by
  generalize hsensor : adaptive.map (fun (minimum, maximum) => LiveSensor.new minimum maximum clock) =
    sensor
  have hconfigured : Follows hash history c [.configure adaptive.isSome] history
      { c with liveSensor := sensor } := by
    refine ⟨rfl, rfl, id, fun awaited hbooks => ⟨awaited, hbooks.congr (.refl history) rfl rfl,
      Run.single ⟨trivial, ?_⟩⟩⟩
    rw [← hsensor]
    cases adaptive <;> rfl
  unfold Controller.applyConfigLoad Controller.startSubsystems
  rw [hsensor]
  split
  next => exact ⟨[], Or.inl rfl, hconfigured⟩
  next =>
    have hstart : Follows hash history { c with liveSensor := sensor } [] history
        { c with liveSensor := sensor, subsystemsStarted := true } :=
      follows_same (.refl history) rfl rfl id fun _ => rfl
    have hpolled : Does only (Controller.scheduleConversations
        { c with liveSensor := sensor, subsystemsStarted := true } clock) history
        fun c' history' => ∃ polls,
          Asked only { c with liveSensor := sensor, subsystemsStarted := true } false polls ∧
          Follows hash history { c with liveSensor := sensor, subsystemsStarted := true } polls
            history' c' := follows_conversations_refresh history _ clock
    refine hpolled.imp fun c' history' hpolled => ?_
    obtain ⟨polls, hasked, hfollows⟩ := hpolled
    exact ⟨polls, Or.inr (hasked.congr rfl rfl), (hconfigured.trans hstart).trans hfollows⟩

/-- What discovery finds is shown at once. -/
theorem follows_store (history : List (Action JobKey Nat)) (c : Controller)
    (project : ProjectIdentity) (conversations : FilesystemConversationSnapshot) {generation : Nat}
    (h : ¬ generation < c.conversations.requestedGeneration) :
    Follows hash history c [] history
      { c with
        conversationProject := some project
        filesystemConversations := some conversations
        conversations := (c.conversations.replaceItems
          ({ c with
            conversationProject := some project
            filesystemConversations := some conversations } : Controller).mergedConversations
          generation).1 } := by
  refine follows_same (.refl history) rfl rfl ?_ ?_
  all_goals
    simp only [ConversationsViewState.replaceItems, if_neg h]
    intro _
    rfl

theorem follows_conversations (fs : FileSystem) (history : List (Action JobKey Nat))
    (c : Controller) (generation : Nat) (completion : Completion Output) :
    Does only (c.applyConversations fs generation completion) history fun result history' =>
      Follows hash history c [] history' result.1 := by
  have hsame : ∀ loadingState, Follows hash history c [] history (c.setLoading loadingState) :=
    fun _ => follows_same (.refl history) rfl rfl id fun _ => rfl
  unfold Controller.applyConversations
  cases completion with
  | panicked => exact hsame _
  | success output =>
    simp only
    split
    next => exact follows_same (.refl history) rfl rfl id fun _ => rfl
    next hcurrent =>
      split
      next project conversations hasMore sourceErrors reset =>
        split
        next => exact follows_then_page (follows_store history c project _ hcurrent)
        next => exact follows_store history c project _ hcurrent
      next => exact follows_same (.refl history) rfl rfl id fun _ => rfl
      next => exact hsame _
      next => exact hsame _

theorem follows_tick (history : List (Action JobKey Nat)) (c : Controller) (now clock : Nat) :
    Does only (c.tickLiveSensor now clock) history fun c' history' =>
      ∃ polls, (polls = [] ∨ Asked only c true polls) ∧ Follows hash history c polls history' c' := by
  unfold Controller.tickLiveSensor
  by_cases hdue : c.isDue now = true
  · rw [if_pos hdue]
    have hready : true = true → c.hostBinary ≠ none ∧ c.liveSensor ≠ none := by
      intro _
      rw [Controller.isDue, Bool.and_eq_true, Bool.and_eq_true] at hdue
      refine ⟨Option.isSome_iff_ne_none.mp hdue.1.2, fun hnone => ?_⟩
      rw [hnone] at hdue
      exact absurd hdue.2 Bool.false_ne_true
    have hpoll : Does only (c.scheduleLivePoll true clock) history fun c' history' =>
        ∃ polls, Asked only c true polls ∧ Follows hash history c polls history' c' :=
      follows_poll history c true clock hready
    refine hpoll.imp fun c' history' hpolled => ?_
    obtain ⟨polls, hasked, hfollows⟩ := hpolled
    exact ⟨polls, Or.inr hasked, hfollows⟩
  · rw [if_neg hdue]
    exact ⟨[], Or.inl rfl, follows_same (.refl history) rfl rfl id fun _ => rfl⟩

end

/-! ## Steps -/

/-- What a step of the main loop is for the display of polls. -/
inductive Polls (c : Controller) (submitted : List (Event Output)) :
    Cause → List (PollEvent LiveSnapshot) → Prop where
  | still {cause : Cause} (refreshes : cause ≠ .refresh)
    (answers : ∀ done, cause = .result done → done.key.kind ≠ .conversationLive) :
    Polls c submitted cause []
  | refresh {polls : List (PollEvent LiveSnapshot)} (asked : Asked (· ∈ submitted) c false polls) :
    Polls c submitted .refresh polls
  | tick {polls : List (PollEvent LiveSnapshot)} (asked : Asked (· ∈ submitted) c true polls) :
    Polls c submitted .tick polls
  | config {done : CompletedJob Output} {sensor : Bool} {polls : List (PollEvent LiveSnapshot)}
    (kind : done.key.kind = .config) (asked : polls = [] ∨ Asked (· ∈ submitted) c false polls) :
    Polls c submitted (.result done) (.configure sensor :: polls)
  | answer {done : CompletedJob Output} (key : done.key = c.liveKey) :
    Polls c submitted (.result done) [.answer done.generation (pollOutcome done.completion)]

/-- The books of the runtime between two steps of the main loop. -/
structure World (history : List (Action JobKey Nat)) (s : System Output) : Prop where
  sound : s.runtime.Sound
  books : Open history s

section

variable {history : List (Action JobKey Nat)} {c c' : Controller} {s s' : System Output}
  {events : List (Event Output)}

theorem World.idle (h : World history s) (ready : s.caller = .ready) : Idle history s :=
  ⟨h.sound, h.books, ready⟩

/-- A handler that runs does what it does whatever the runtime answers. -/
theorem Does.runs {α : Type} {handler : Handler α} {value : α}
    {post : α → List (Action JobKey Nat) → Prop} (hdoes : Does (· ∈ events) handler history post)
    (idle : Idle history s) (h : handler.Runs Answers Moves s events value s') :
    post value (history ++ events.flatMap Event.actions) ∧
      World (history ++ events.flatMap Event.actions) s' := by
  have hrestricted := h.restrict (fun _ hmem => hmem)
  have hresult := hrestricted.ensures (fun idle move => move.idle idle)
    (fun idle answer => ⟨⟨(answer.1.allowed idle).1, answer.2⟩, (answer.1.allowed idle).2⟩) idle hdoes
  exact ⟨hresult.1, hresult.2.sound, hresult.2.books⟩

theorem Asked.mono {only only' : Event Output → Prop} {quiet : Bool}
    {polls : List (PollEvent LiveSnapshot)} (h : Asked only c quiet polls)
    (himp : ∀ event, only event → only' event) : Asked only' c quiet polls := by
  cases h with
  | unavailable binary loud => exact .unavailable binary loud
  | ask accepted generation refused =>
    refine .ask accepted generation fun hrefused => ?_
    obtain ⟨status, hstatus, honly⟩ := refused hrefused
    exact ⟨status, hstatus, himp _ honly⟩

theorem World.silent (world : World history s) (h : Worker.Step s .silent s')
    (running : s'.runtime.shuttingDown = false) : World history s' := by
  have hbooks := world.books.step world.sound h
  rw [silent_action, Option.toList_none, List.append_nil] at hbooks
  refine ⟨h.sound world.sound, hbooks.resolve_right fun hclosing => ?_⟩
  have hrefusing := hclosing.refusing
  rw [running] at hrefusing
  contradiction

/-- A result of another kind. -/
theorem follows_delivered {key : JobKey} (hkind : key.kind ≠ .conversationLive) (generation : Nat) :
    Follows hash history c [] (history ++ [.delivered key generation]) c := by
  refine follows_same ⟨fun other otherGeneration hother => ?_, fun other otherGeneration hother => ?_⟩
    rfl rfl id fun _ => rfl
  · simp
  · have hne : other ≠ key := fun heq => hkind (heq ▸ hother)
    simp [hne]

variable {done : CompletedJob Output} {awaited : Option Nat}

theorem does_result {only : Event Output → Prop} (fs : FileSystem) (clock : Nat)
    (books : Books history c awaited) (hawaited : Awaited history done.key done.generation) :
    Does only (c.applyResult hash fs done clock) (history ++ [.delivered done.key done.generation])
      fun result history' => ∃ polls, (∀ submitted, (∀ event, only event → event ∈ submitted) →
        Polls c submitted (.result done) polls) ∧
        Follows hash history c polls history' result.1 := by
  have hdelivered : done.key.kind ≠ .conversationLive →
      Follows hash history c [] (history ++ [.delivered done.key done.generation]) c :=
    fun hkind => follows_delivered hkind _
  have hstill : done.key.kind ≠ .conversationLive → ∀ submitted,
      Polls c submitted (.result done) [] := by
    intro hkind submitted
    refine .still (by simp) fun other heq => ?_
    cases heq
    exact hkind
  unfold Controller.applyResult
  cases hkind : done.key.kind <;> rw [hkind] at hdelivered hstill
  case config =>
    have hloads : Does only (c.applyConfigLoad (Controller.loadedCadence done.completion) clock)
        (history ++ [.delivered done.key done.generation]) fun c' history' =>
          ∃ polls, (polls = [] ∨ Asked only c false polls) ∧
            Follows hash (history ++ [.delivered done.key done.generation]) c
              (.configure (Controller.loadedCadence done.completion).isSome :: polls) history' c' :=
      follows_configLoad _ c _ clock
    refine does_bind (hloads.imp fun c' history' hloaded => ?_)
    obtain ⟨polls, hasked, hfollows⟩ := hloaded
    refine ⟨_, fun submitted hsubmitted => ?_, (hdelivered (by simp)).trans hfollows⟩
    exact .config hkind (hasked.imp_right fun asked => asked.mono hsubmitted)
  case conversationDiscovery =>
    have hshows : Does only (c.applyConversations fs done.generation done.completion)
        (history ++ [.delivered done.key done.generation]) fun result history' =>
          Follows hash (history ++ [.delivered done.key done.generation]) c [] history' result.1 :=
      follows_conversations fs _ c _ _
    refine hshows.imp fun result history' hfollows => ?_
    exact ⟨[], fun submitted _ => hstill (by simp) submitted, (hdelivered (by simp)).trans hfollows⟩
  case conversationLive =>
    have hkey := books.keyed _ _ hawaited.accepted hkind
    rw [hkey] at hawaited ⊢
    have hanswers : Does only (c.applyLive hash done.generation done.completion clock)
        (history ++ [.delivered c.liveKey done.generation]) fun result history' =>
          Follows hash history c [.answer done.generation (pollOutcome done.completion)] history'
            result.1 := follows_live hawaited done.completion clock
    refine hanswers.imp fun result history' hfollows => ?_
    exact ⟨_, fun submitted _ => .answer hkey, hfollows⟩
  all_goals
    exact ⟨[], fun submitted _ => hstill (by simp) submitted,
      (hdelivered (by simp)).trans (follows_same (.refl _) rfl rfl id fun _ => rfl)⟩

theorem Step.follows {app app' : AppState} {event : AppEvent}
    (world : World history app.workers) (books : Books history app.controller awaited)
    (h : Step hash app event app') :
    ∃ polls, Polls app.controller event.events event.cause polls ∧
      Follows hash history app.controller polls (history ++ event.events.flatMap Event.actions)
        app'.controller ∧
      World (history ++ event.events.flatMap Event.actions) app'.workers := by
  have hstill : ∀ {c : Controller} {cause : Cause} {submitted : List (Event Output)},
      cause ≠ .refresh → (∀ done, cause ≠ .result done) → Polls c submitted cause [] := by
    intro c cause submitted hrefresh hresult
    exact .still hrefresh fun done heq => absurd heq (hresult done)
  cases h with
  | workers step running =>
    rw [List.flatMap_singleton, show (Event.silent : Event Output).actions = [] from rfl,
      List.append_nil]
    exact ⟨[], hstill (by simp) (by simp), follows_same (.refl _) rfl rfl id fun _ => rfl,
      world.silent step running⟩
  | @submitted c s s' job event status live page answer =>
    have hready : s.caller = .ready := by
      cases answer
      rfl
    obtain ⟨hallowed, hidle⟩ := answer.allowed (world.idle hready)
    have hevent := hallowed.submitted
    subst hevent
    rw [List.flatMap_singleton]
    exact ⟨[], hstill (by simp) (by simp),
      follows_same (sameLive_submitted history live _ _) rfl rfl id fun _ => rfl,
      hidle.sound, hidle.books⟩
  | @refresh c c' s s' events clock view ready runs =>
    obtain ⟨⟨polls, hasked, hfollows⟩, hworld⟩ :=
      (follows_conversations_refresh history c clock).runs (world.idle ready) runs
    exact ⟨polls, .refresh hasked, hfollows, hworld⟩
  | switchView view =>
    rw [List.flatMap_nil, List.append_nil]
    exact ⟨[], hstill (by simp) (by simp), follows_same (.refl _) rfl rfl id fun _ => rfl, world⟩
  | navigate selection selectedProvider =>
    rw [List.flatMap_nil, List.append_nil]
    exact ⟨[], hstill (by simp) (by simp), follows_same (.refl _) rfl rfl id fun _ => rfl, world⟩
  | notice error =>
    rw [List.flatMap_nil, List.append_nil]
    exact ⟨[], hstill (by simp) (by simp), follows_same (.refl _) rfl rfl id fun _ => rfl, world⟩
  | @tick c c' s s' events now clock ready runs =>
    obtain ⟨⟨polls, hasked, hfollows⟩, hworld⟩ :=
      (follows_tick history c now clock).runs (world.idle ready) runs
    rcases hasked with rfl | hasked
    · exact ⟨[], hstill (by simp) (by simp), hfollows, hworld⟩
    · exact ⟨polls, .tick hasked, hfollows, hworld⟩
  | @result c c' s s' s'' done events dirty fs clock delivered runs =>
    have hawaited := awaited_of_delivered world.books delivered
    have hidle := idle_of_delivered world.sound world.books delivered
    obtain ⟨⟨polls, hpolls, hfollows⟩, hworld⟩ := (does_result fs clock books hawaited).runs hidle runs
    rw [List.append_assoc] at hfollows hworld
    exact ⟨polls, hpolls _ fun event hmem => List.mem_cons_of_mem _ hmem, hfollows, hworld⟩

end

/-! ## Runs -/

/-- The app with what the books of its runtime say of it. -/
structure Tracked (history : List (Action JobKey Nat)) (app : AppState) (awaited : Option Nat) :
    Prop where
  world : World history app.workers
  books : Books history app.controller awaited
  rendered : app.controller.Rendered

/-- What a step leaves of the poll that is awaited and of the display. -/
structure Passes (hash : List FingerprintInput → UInt64) (app : AppState) (event : AppEvent)
    (app' : AppState) (awaited : Option Nat) (polls : List (PollEvent LiveSnapshot))
    (awaited' : Option Nat) : Prop where
  shape : Polls app.controller event.events event.cause polls
  run : Run (Display.Step (LiveSnapshot.print hash)) (app.controller.display awaited) polls
    (app'.controller.display awaited')
  root : app'.controller.root = app.controller.root
  binary : app'.controller.hostBinary = app.controller.hostBinary

section

variable {history : List (Action JobKey Nat)} {app app' : AppState} {awaited : Option Nat}

theorem Tracked.step {event : AppEvent} (tracked : Tracked history app awaited)
    (h : Step hash app event app') :
    ∃ polls awaited', Passes hash app event app' awaited polls awaited' ∧
      Tracked (history ++ event.events.flatMap Event.actions) app' awaited' := by
  obtain ⟨polls, hpolls, hfollows, hworld⟩ := h.follows tracked.world tracked.books
  obtain ⟨awaited', hbooks, hrun⟩ := hfollows.books awaited tracked.books
  exact ⟨polls, awaited', ⟨hpolls, hrun, hfollows.root, hfollows.binary⟩,
    hworld, hbooks, hfollows.rendered tracked.rendered⟩

variable (hash) in
theorem does_start {only : Event Output → Prop} (history : List (Action JobKey Nat)) (c : Controller)
    (configRoot : PathBuf) (clock : Nat) :
    Does only (c.start configRoot clock) history fun c' history' =>
      ∃ polls, (polls = [] ∨ ∃ asks, polls = .configure false :: asks ∧
        (asks = [] ∨ Asked only c false asks)) ∧ Follows hash history c polls history' c' := by
  rintro event status ⟨hallowed, -⟩
  have hevent := hallowed.submitted
  subst hevent
  have hsubmitted : Follows hash history c [] (history ++
      (Event.submitted (.new .config configRoot) 1 status : Event Output).actions) c :=
    follows_same (sameLive_submitted history (by simp [JobKey.new]) _ _) rfl rfl id fun _ => rfl
  simp only [Program.bind]
  split
  next => exact ⟨[], Or.inl rfl, hsubmitted⟩
  next =>
    have hloads : Does only (c.applyConfigLoad none clock) (history ++
        (Event.submitted (.new .config configRoot) 1 status : Event Output).actions)
        fun c' history' => ∃ asks, (asks = [] ∨ Asked only c false asks) ∧
          Follows hash (history ++
            (Event.submitted (.new .config configRoot) 1 status : Event Output).actions) c
            (.configure false :: asks) history' c' := follows_configLoad _ c none clock
    refine hloads.imp fun c' history' hloaded => ?_
    obtain ⟨asks, hasked, hfollows⟩ := hloaded
    exact ⟨_, Or.inr ⟨asks, rfl, hasked⟩, hsubmitted.trans hfollows⟩

/-- The display before anything is known of live sessions. -/
def Display.blank : Display LiveSnapshot UInt64 := ⟨none, 0, false, false, none, none⟩

variable (hash) in
theorem Started.tracked (h : Started app) :
    ∃ history awaited polls, Tracked history app awaited ∧
      (polls = [] ∨ ∃ asks, polls = .configure false :: asks ∧
        (asks = [] ∨ asks = [.unavailable] ∨ ∃ accepted generation,
          asks = [.ask false accepted generation])) ∧
      Run (Display.Step (LiveSnapshot.print hash)) Display.blank polls
        (app.controller.display awaited) := by
  obtain ⟨cwd, foregroundCwd, hostBinary, configRoot, clock, highCapacity, lowCapacity, events,
    hruns⟩ := h
  have hidle : Idle [] (System.initial highCapacity lowCapacity : System Output) :=
    idle_initial highCapacity lowCapacity
  obtain ⟨⟨polls, hpolls, hfollows⟩, hworld⟩ :=
    (does_start hash [] _ configRoot clock).runs hidle hruns
  have hbooks : Books [] (Controller.new cwd foregroundCwd hostBinary) none := by
    refine ⟨fun generation => ⟨fun hnone => ?_, fun hawaited => ?_⟩, by simp, by simp, Nat.zero_le _⟩
    · contradiction
    · exact absurd hawaited.accepted List.not_mem_nil
  obtain ⟨awaited, hbooks', hrun⟩ := hfollows.books none hbooks
  refine ⟨_, awaited, polls, ⟨hworld, hbooks', hfollows.rendered rfl⟩, ?_, hrun⟩
  rcases hpolls with rfl | ⟨asks, rfl, rfl | hasked⟩
  · exact Or.inl rfl
  · exact Or.inr ⟨[], rfl, Or.inl rfl⟩
  · cases hasked with
    | unavailable => exact Or.inr ⟨_, rfl, Or.inr (Or.inl rfl)⟩
    | ask accepted generation => exact Or.inr ⟨_, rfl, Or.inr (Or.inr ⟨accepted, generation, rfl⟩)⟩

end

end HerdrContext.App
