import HerdrContext.App.Scenario
import HerdrContext.Live.Law

/-! What the sensor compares quiet polls with, against what the view shows. -/
namespace HerdrContext.App

open Library Live Worker

variable {hash : List FingerprintInput → UInt64}

namespace Controller

/-- The sensor has a poll to compare with. -/
def isSeeded (c : Controller) : Bool := c.liveSensor.any (·.fingerprint.isSome)

/-- What the sensor compares with is shown, and no live error is. -/
def Baseline (hash : List FingerprintInput → UInt64) (c : Controller) : Prop :=
  ∀ sensor seen, c.liveSensor = some sensor → sensor.fingerprint = some seen →
    (∃ shown, c.liveSnapshot = some shown ∧ fingerprint hash shown.sessions = seen) ∧
      c.conversations.liveError = none

/-- The live rows shown are those of a snapshot. -/
def Shows (c : Controller) (snapshot : LiveSnapshot) : Prop :=
  c.conversations.liveError = none ∧ c.conversations.items = c.mergedConversations ∧
    ∃ shown, c.liveSnapshot = some shown ∧ shown.project = snapshot.project ∧
      shown.sessions = snapshot.sessions

end Controller

/-- The event hands over the result of a poll the sensor asked for. -/
def FoundQuietly (app : AppState) (event : AppEvent) (snapshot : LiveSnapshot) : Prop :=
  ∃ done, event.cause = .result done ∧ done.key = app.controller.liveKey ∧
    app.controller.isPendingSensor done.generation = true ∧
    done.completion = .success (.live (.ready snapshot))

/-- Once the sensor is seeded, no explicit poll is refused or fails, and a quiet
poll it cannot tell from the last one found what is shown. -/
structure KeepsBaseline (hash : List FingerprintInput → UInt64) (app : AppState)
    (event : AppEvent) : Prop where
  refused : app.controller.isSeeded = true → event.cause = .refresh → ∀ generation status,
    .submitted app.controller.liveKey generation status ∈ event.events → status.accepted = true
  failed : app.controller.isSeeded = true → ∀ done, event.cause = .result done →
    done.key = app.controller.liveKey → app.controller.isPendingSensor done.generation = false →
    (∃ snapshot, done.completion = .success (.live (.ready snapshot))) ∨
      done.completion = .success (.live .cancelled)
  same : ∀ snapshot, FoundQuietly app event snapshot →
    app.controller.isUnchanged hash snapshot = true → ∀ shown,
      app.controller.liveSnapshot = some shown →
        shown.project = snapshot.project ∧ shown.sessions = snapshot.sessions

section

variable (c : Controller) (awaited : Option Nat)

theorem baseline_display :
    (c.display awaited).Baseline (LiveSnapshot.print hash) ↔ c.Baseline hash := by
  constructor
  · intro h sensor seen hsensor hseen
    obtain ⟨hfailure, hshown⟩ := h ⟨sensor.fingerprint, sensor.pendingGeneration⟩
      (congrArg (Option.map _) hsensor) seen hseen
    exact ⟨hshown, Option.not_isSome_iff_eq_none.mp (Bool.eq_false_iff.mp hfailure)⟩
  · intro h sensor hsensor seen hseen
    obtain ⟨before, hbefore, rfl⟩ := Option.map_eq_some_iff.mp hsensor
    obtain ⟨hshown, herror⟩ := h before seen hbefore hseen
    exact ⟨by simp [Controller.display, herror], hshown⟩

theorem unseeded_display : (c.display awaited).Unseeded ↔ c.isSeeded = false := by
  cases hsensor : c.liveSensor <;>
    simp [Display.Unseeded, Controller.isSeeded, Controller.display, hsensor]

theorem pollOutcome_cases (completion : Completion Output) :
    (∃ snapshot, completion = .success (.live (.ready snapshot)) ∧
      pollOutcome completion = .found snapshot) ∨
    completion = .success (.live .cancelled) ∧ pollOutcome completion = .cancelled ∨
    pollOutcome completion = .failed ∧ completion ≠ .success (.live .cancelled) ∧
      ∀ snapshot, completion ≠ .success (.live (.ready snapshot)) := by
  rcases completion with (_ | _ | (snapshot | _ | message) | _ | _) | _ <;> simp [pollOutcome]

end

theorem unseeded_configure {d d' : Display LiveSnapshot UInt64} {sensor : Bool}
    (h : d.Step (LiveSnapshot.print hash) (.configure sensor) d') : d'.Unseeded := by
  rw [h.2]
  cases sensor <;> simp [Display.apply, Display.Unseeded]

/-- Asking an unseeded display keeps the baseline. -/
theorem Display.Baseline.asked {only : Event Output → Prop} {c : Controller} {quiet : Bool}
    {polls : List (PollEvent LiveSnapshot)} {d d' : Display LiveSnapshot UInt64}
    (hasked : Asked only c quiet polls)
    (hkeeps : quiet = false → (∃ generation status, status.accepted = false ∧
      only (.submitted c.liveKey generation status)) → d.Unseeded)
    (hbaseline : d.Baseline (LiveSnapshot.print hash))
    (run : Run (Display.Step (LiveSnapshot.print hash)) d polls d') :
    d'.Baseline (LiveSnapshot.print hash) := by
  cases hasked with
  | unavailable =>
    have hstep := run.of_single
    exact hbaseline.step (show d.KeepsBaseline .unavailable from trivial) hstep
  | ask accepted generation refused =>
    refine hbaseline.step (fun hloud hrefused => ?_) run.of_single
    obtain ⟨status, hstatus, honly⟩ := refused hrefused
    exact hkeeps hloud ⟨generation, status, hstatus, honly⟩

section

variable {app app' : AppState} {event : AppEvent} {awaited awaited' : Option Nat}
  {polls : List (PollEvent LiveSnapshot)}

theorem Passes.baseline (h : Passes hash app event app' awaited polls awaited')
    (hkeeps : KeepsBaseline hash app event) (hbaseline : app.controller.Baseline hash) :
    app'.controller.Baseline hash := by
  rw [← baseline_display app.controller awaited] at hbaseline
  rw [← baseline_display app'.controller awaited']
  have hrun := h.run
  have hshape := h.shape
  generalize hcause : event.cause = cause at hshape
  cases hshape with
  | still =>
    rw [hrun.nil]
    exact hbaseline
  | refresh hasked =>
    refine hbaseline.asked hasked (fun _ hrefused => ?_) hrun
    obtain ⟨generation, status, hstatus, hmem⟩ := hrefused
    rw [unseeded_display]
    by_contra hseeded
    rw [hkeeps.refused (Bool.eq_true_of_not_eq_false hseeded) hcause generation status hmem] at hstatus
    contradiction
  | tick hasked => exact hbaseline.asked hasked (by simp) hrun
  | config hkind hasked =>
    obtain ⟨middle, hstep, hrest⟩ := hrun.head
    have hunseeded := unseeded_configure hstep
    rcases hasked with rfl | hasked
    · rw [hrest.nil]
      exact hunseeded.baseline
    · exact hunseeded.baseline.asked hasked (fun _ _ => hunseeded) hrest
  | @answer done hkey =>
    refine hbaseline.step (fun hloud hfound hcancelled => ?_) hrun.of_single
    rw [isQuiet_display] at hloud
    rw [unseeded_display]
    by_contra hseeded
    rcases hkeeps.failed (Bool.eq_true_of_not_eq_false hseeded) done hcause hkey hloud with
      ⟨snapshot, hready⟩ | hcancel
    · exact hfound snapshot (by rw [hready, pollOutcome])
    · exact hcancelled (by rw [hcancel, pollOutcome])

theorem Passes.newest (h : Passes hash app event app' awaited polls awaited')
    (hnewest : (app.controller.display awaited).Newest) :
    (app'.controller.display awaited').Newest :=
  h.run.invariant Display.Newest hnewest fun hnewest hstep => hnewest.step hstep

/-- A quiet poll that found something is shown. -/
theorem Passes.shows (h : Passes hash app event app' awaited polls awaited')
    (hkeeps : KeepsBaseline hash app event) (hbaseline : app.controller.Baseline hash)
    (hnewest : (app.controller.display awaited).Newest) {snapshot : LiveSnapshot}
    (hfound : FoundQuietly app event snapshot) (hrendered : app'.controller.Rendered) :
    app'.controller.Shows snapshot := by
  have hshape := h.shape
  have hrun := h.run
  obtain ⟨done, hcause, hkey, hpending, hready⟩ := hfound
  rw [hcause] at hshape
  cases hshape with
  | still _ hanswers => exact absurd (congrArg JobKey.kind hkey) (hanswers done rfl)
  | config hkind => 
    rw [hkey] at hkind
    contradiction
  | answer =>
    obtain ⟨hadmits, hdisplay⟩ := hrun.of_single
    have hanswer : app'.controller.display awaited' = (app.controller.display awaited).answer
        (LiveSnapshot.print hash) done.generation (.found snapshot) := by
      rw [hready] at hdisplay
      exact hdisplay
    have hcurrent := (hnewest _ hadmits).ge
    have hquiet := (isQuiet_display app.controller awaited done.generation).trans hpending
    obtain ⟨hfailure, hshown⟩ := ((baseline_display app.controller awaited).mpr hbaseline).found
      snapshot hcurrent hquiet
    rw [← hanswer] at hfailure hshown
    refine ⟨Option.not_isSome_iff_eq_none.mp (Bool.eq_false_iff.mp hfailure), hrendered, ?_⟩
    rcases hshown with hadopted | ⟨hunchanged, hkept, shown, hshown, -⟩
    · exact ⟨snapshot, hadopted, rfl, rfl⟩
    · rw [isUnchanged_display] at hunchanged
      exact ⟨shown, hkept.trans hshown,
        hkeeps.same snapshot ⟨done, hcause, hkey, hpending, hready⟩ hunchanged shown hshown⟩

/-- What the sensor and the books of the runtime know of a reached state. -/
def Watched (hash : List FingerprintInput → UInt64) (app : AppState) : Prop :=
  ∃ history awaited, Tracked history app awaited ∧ (app.controller.display awaited).Newest ∧
    app.controller.Baseline hash

theorem Watched.step (h : Watched hash app) (hstep : Step hash app event app')
    (hkeeps : KeepsBaseline hash app event) : Watched hash app' := by
  obtain ⟨history, awaited, htracked, hnewest, hbaseline⟩ := h
  obtain ⟨polls, awaited', hpasses, htracked'⟩ := htracked.step hstep
  exact ⟨_, awaited', htracked', hpasses.newest hnewest, hpasses.baseline hkeeps hbaseline⟩

theorem Watched.shows (h : Watched hash app) (hstep : Step hash app event app')
    (hkeeps : KeepsBaseline hash app event) {snapshot : LiveSnapshot}
    (hfound : FoundQuietly app event snapshot) : app'.controller.Shows snapshot := by
  obtain ⟨history, awaited, htracked, hnewest, hbaseline⟩ := h
  obtain ⟨polls, awaited', hpasses, htracked'⟩ := htracked.step hstep
  exact hpasses.shows hkeeps hbaseline hnewest hfound htracked'.rendered

theorem Started.watched (h : Started app) : Watched hash app := by
  obtain ⟨history, awaited, polls, htracked, hpolls, hrun⟩ := h.tracked hash
  have hblank : Display.blank.Newest := by
    intro generation hnone
    contradiction
  refine ⟨history, awaited, htracked,
    hrun.invariant Display.Newest hblank fun hnewest hstep => hnewest.step hstep, ?_⟩
  rw [← baseline_display app.controller awaited]
  rcases hpolls with rfl | ⟨asks, rfl, hasks⟩
  · rw [hrun.nil]
    exact Display.Unseeded.baseline fun sensor hsensor => by contradiction
  · obtain ⟨middle, hstep, hrest⟩ := hrun.head
    have hunseeded := unseeded_configure hstep
    rcases hasks with rfl | rfl | ⟨accepted, generation, rfl⟩
    · rw [hrest.nil]
      exact hunseeded.baseline
    · exact hunseeded.baseline.step (show middle.KeepsBaseline .unavailable from trivial)
        hrest.of_single
    · have hkeeps : middle.KeepsBaseline (.ask false accepted generation) := fun _ _ => hunseeded
      exact hunseeded.baseline.step hkeeps hrest.of_single

end

/-- In every run in which each step keeps the baseline, what the sensor compares
with is shown, and a quiet poll that finds something is what is shown next. -/
theorem live_baseline {start app : AppState} {events : List AppEvent} (started : Started start)
    (run : Run (fun app event app' => Step hash app event app' ∧ KeepsBaseline hash app event)
      start events app) :
    app.controller.Baseline hash ∧
      ∀ event app' snapshot, Step hash app event app' → KeepsBaseline hash app event →
        FoundQuietly app event snapshot → app'.controller.Shows snapshot := by
  have hwatched : Watched hash app :=
    run.invariant (Watched hash) started.watched fun hwatched hstep =>
      hwatched.step hstep.1 hstep.2
  refine ⟨?_, fun event app' snapshot hstep hkeeps hfound => hwatched.shows hstep hkeeps hfound⟩
  obtain ⟨history, awaited, -, -, hbaseline⟩ := hwatched
  exact hbaseline

/-! An explicit refresh fails behind a seeded sensor. -/

def samplePoll : LiveSnapshot where
  project := sampleProject
  sessions := prepareLiveConversations sampleFileSystem [samplePiSession] sampleProject
  observedAt := sampleTime

/-- The directory of the sample, and its host. -/
def sampleRoot : PathBuf := ⟨[slash]⟩

/-- The first refresh, when its page has ended. -/
def samplePaged : Controller :=
  ((((Controller.new sampleRoot none (some sampleRoot)).loaded (some (1, 2)) 0).asked 1
    1).setGenerations 1 1).setLoading .ready

def sampleShown (hash : List FingerprintInput → UInt64) : Controller :=
  (samplePaged.adoptSnapshot hash samplePoll 1 0).1

section

variable {c : Controller} {generation clock : Nat}

theorem applyLive_ready (hcurrent : ¬ generation < c.conversations.liveRequestedGeneration)
    (hloud : c.isPendingSensor generation = false) (snapshot : LiveSnapshot) :
    c.applyLive hash generation (.success (.live (.ready snapshot))) clock =
      .done (c.adoptSnapshot hash snapshot generation clock) := by
  simp [Controller.applyLive, hcurrent, Controller.takePendingLiveSensor, hloud]

theorem applyLive_error (hcurrent : ¬ generation < c.conversations.liveRequestedGeneration)
    (hloud : c.isPendingSensor generation = false) (message : String) :
    c.applyLive hash generation (.success (.live (.error message))) clock =
      .done (c.dropLive ("Herdr: " ++ message) generation) := by
  simp [Controller.applyLive, hcurrent, Controller.takePendingLiveSensor, hloud]

end

theorem isPendingSensor_asked (c : Controller) (page live generation : Nat) :
    (c.asked page live).isPendingSensor generation = false := by
  cases hsensor : c.liveSensor <;>
    simp [Controller.isPendingSensor, Controller.asked, Controller.markLoading,
      Controller.forgetPending, Controller.setLiveLoading, Controller.setLiveGenerations,
      Controller.setLoading, Controller.setGenerations, hsensor]

theorem sample_started : Started ⟨Controller.new sampleRoot none (some sampleRoot),
    restingRuntime {.new .config sampleRoot} (configLatest sampleRoot) ∅ [configJob sampleRoot] [] [],
    .ready⟩ := started_resting sampleRoot sampleRoot

/-- The first poll is shown. -/
theorem sample_shown {cond : AppState → AppEvent → Prop}
    (hworkers : ∀ app, cond app ⟨.workers, [.silent]⟩)
    (hother : ∀ app done events, done.key.kind ≠ .conversationLive →
      cond app ⟨.result done, events⟩)
    (hanswer : ∀ s, cond ⟨samplePaged, s⟩
      ⟨.result ⟨.new .conversationLive sampleRoot, 1, .success (.live (.ready samplePoll))⟩,
        [.delivered ⟨.new .conversationLive sampleRoot, 1,
          .success (.live (.ready samplePoll))⟩]⟩) :
    Reaches hash cond
      ⟨Controller.new sampleRoot none (some sampleRoot),
        restingRuntime {.new .config sampleRoot} (configLatest sampleRoot) ∅ [configJob sampleRoot]
          [] [], .ready⟩
      ⟨sampleShown hash, restingRuntime ∅ (loadedLatest sampleRoot) ∅ [] [] [], .ready⟩ := by
  refine (reaches_loaded sampleRoot sampleRoot (some (1, 2)) 0 sampleFileSystem hworkers hother
    rfl).trans ?_
  exact reaches_round sampleFileSystem 0 hworkers hother rfl hanswer lookup_loadedLatest_page
    (Finmap.lookup_insert _) rfl (applyLive_ready (Nat.lt_irrefl 1) rfl samplePoll)

/-- What is no explicit refresh and no result of a poll keeps the baseline. -/
theorem keepsBaseline_of_still {app : AppState} {event : AppEvent}
    (hrefresh : event.cause ≠ .refresh)
    (hresult : ∀ done, event.cause = .result done → done.key ≠ app.controller.liveKey) :
    KeepsBaseline hash app event where
  refused := fun _ hcause => absurd hcause hrefresh
  failed := fun _ done hcause hkey => absurd hkey (hresult done hcause)
  same := by
    rintro snapshot ⟨done, hcause, hkey, -⟩
    exact absurd hkey (hresult done hcause)

theorem live_baseline_sample : ∃ (app : AppState) (sensor : LiveSensor),
    app.controller.liveSensor = some sensor ∧
      sensor.fingerprint = some (fingerprint (fun _ => 0) samplePoll.sessions) ∧
      app.controller.Baseline fun _ => 0 := by
  have hother : ∀ app done events, done.key.kind ≠ .conversationLive →
      KeepsBaseline (fun _ => 0) app ⟨.result done, events⟩ := by
    intro app done events hkind
    refine keepsBaseline_of_still (by simp) fun other hcause hkey => ?_
    cases hcause
    exact hkind (hkey ▸ rfl)
  have hanswer : ∀ s, KeepsBaseline (fun _ => 0) ⟨samplePaged, s⟩
      ⟨.result ⟨.new .conversationLive sampleRoot, 1, .success (.live (.ready samplePoll))⟩,
        [.delivered ⟨.new .conversationLive sampleRoot, 1,
          .success (.live (.ready samplePoll))⟩]⟩ := by
    refine fun s => ⟨by simp, fun _ done hcause _ _ => ?_, ?_⟩
    · cases hcause
      exact Or.inl ⟨samplePoll, rfl⟩
    · rintro snapshot ⟨done, hcause, -, hpending, -⟩
      cases hcause
      contradiction
  have hworkers : ∀ app, KeepsBaseline (fun _ => 0) app ⟨.workers, [.silent]⟩ :=
    fun app => keepsBaseline_of_still (by simp) (by simp)
  obtain ⟨events, run⟩ := sample_shown hworkers hother hanswer
  exact ⟨_, _, rfl, rfl, (live_baseline sample_started run).1⟩

/-- The refresh that fails, when its page has ended. -/
def sampleRefreshed (hash : List FingerprintInput → UInt64) : Controller :=
  ((({ sampleShown hash with activeView := .conversations } : Controller).asked 2 2).setGenerations 2
    2).setLoading .ready

theorem sample_failed (hash : List FingerprintInput → UInt64) :
    Reaches hash (fun _ _ => True)
      ⟨Controller.new sampleRoot none (some sampleRoot),
        restingRuntime {.new .config sampleRoot} (configLatest sampleRoot) ∅ [configJob sampleRoot]
          [] [], .ready⟩
      ⟨((sampleRefreshed hash).dropLive ("Herdr: " ++ "refused") 2).1,
        restingRuntime ∅ (((loadedLatest sampleRoot).insert (.new .conversationDiscovery sampleRoot)
          2).insert (.new .conversationLive sampleRoot) 2) ∅ [] [] [], .ready⟩ := by
  have hshown : Reaches hash (fun _ _ => True) _
      ⟨sampleShown hash, restingRuntime ∅ (loadedLatest sampleRoot) ∅ [] [] [], .ready⟩ :=
    sample_shown (fun _ => trivial) (fun _ _ _ _ => trivial) fun _ => trivial
  have hviewed := hshown.trans (.single (.switchView .conversations) trivial)
  generalize hviewing : ({ sampleShown hash with activeView := .conversations } : Controller) = viewed
    at hviewed
  have hhost : viewed.hostBinary = some sampleRoot := hviewing ▸ rfl
  have hpage : viewed.conversations.requestedGeneration = 1 := hviewing ▸ rfl
  have hlive : viewed.conversations.liveRequestedGeneration = 1 := hviewing ▸ rfl
  have hroot : viewed.root = sampleRoot := hviewing ▸ rfl
  have htwo : WorkerRuntime.saturatingAdd 1 1 = 2 := by decide
  generalize hpaged : ((viewed.asked 2 2).setGenerations 2 2).setLoading .ready = paged
  have hcurrent : ¬ 2 < paged.conversations.liveRequestedGeneration := hpaged ▸ Nat.lt_irrefl 2
  have hloud : paged.isPendingSensor 2 = false := hpaged ▸ isPendingSensor_asked viewed 2 2 2
  have happly : paged.applyLive hash 2 (.success (.live (.error "refused"))) 0 =
      .done ((paged.dropLive ("Herdr: " ++ "refused") 2).1,
        (paged.dropLive ("Herdr: " ++ "refused") 2).2) := applyLive_error hcurrent hloud "refused"
  have hrefreshed : Reaches hash (fun _ _ => True)
      ⟨viewed, restingRuntime ∅ (loadedLatest sampleRoot) ∅ [] [] [], .ready⟩
      ⟨(paged.dropLive ("Herdr: " ++ "refused") 2).1,
        restingRuntime ∅ (((loadedLatest sampleRoot).insert viewed.pageKey 2).insert viewed.liveKey 2)
          ∅ [] [] [], .ready⟩ := by
    refine reaches_refreshed sampleFileSystem 0 (fun _ _ => trivial) (hviewing ▸ rfl) (by simp [hhost])
      (hpage ▸ htwo) (hlive ▸ htwo) ?_ ?_ hpaged happly
    · rw [Controller.pageKey, hroot, lookup_loadedLatest_page]
      simp
    · rw [Controller.liveKey, hroot, loadedLatest, Finmap.lookup_insert]
      simp
  rw [Controller.pageKey, Controller.liveKey, hroot] at hrefreshed
  rw [sampleRefreshed, hviewing, hpaged]
  exact hviewed.trans hrefreshed

theorem baseline_lost : ¬ ∀ (hash : List FingerprintInput → UInt64) (start app : AppState)
    (events : List AppEvent), Started start → Run (Step hash) start events app →
      app.controller.Baseline hash := by
  intro h
  obtain ⟨events, run⟩ := sample_failed fun _ => 0
  have hbaseline := h _ _ _ events sample_started (run.imp fun hstep => hstep.1)
  obtain ⟨⟨shown, hshown, -⟩, -⟩ := hbaseline _ _ rfl rfl
  contradiction

end HerdrContext.App
