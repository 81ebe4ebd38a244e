import HerdrContext.App.Controller
import HerdrContext.App.LiveRefresh

/-! The main loop: one handler after another over a runtime whose threads never
wait for it, and what the handlers do to the live rows. -/
namespace HerdrContext.App

open Library Live Worker

structure AppState where
  controller : Controller
  workers : System Output

/-- What a step of the main loop is about. -/
inductive Cause where
  /-- the threads, a receiving call, or a job of another part of the program -/
  | workers
  | refresh
  | switchView
  | navigate
  | notice
  | tick
  | result (done : CompletedJob Output)

structure AppEvent where
  cause : Cause
  events : List (Event Output)

variable (hash : List FingerprintInput → UInt64)

inductive Step : AppState → AppEvent → AppState → Prop where
  | workers {c : Controller} {s s' : System Output} (step : Worker.Step s .silent s')
    (running : s'.runtime.shuttingDown = false) : Step ⟨c, s⟩ ⟨.workers, [.silent]⟩ ⟨c, s'⟩
  | submitted {c : Controller} {s s' : System Output} {job : Job Output} {event : Event Output}
    {status : SubmitStatus} (live : job.key.kind ≠ .conversationLive)
    (page : job.key.kind ≠ .conversationDiscovery) (answer : Answers s job event status s') :
    Step ⟨c, s⟩ ⟨.workers, [event]⟩ ⟨c, s'⟩
  | refresh {c c' : Controller} {s s' : System Output} {events : List (Event Output)} {clock : Nat}
    (view : c.activeView = .conversations) (ready : s.caller = .ready)
    (runs : (c.scheduleConversations clock).Runs Answers Moves s events c' s') :
    Step ⟨c, s⟩ ⟨.refresh, events⟩ ⟨c', s'⟩
  | switchView {c : Controller} {s : System Output} (view : View) :
    Step ⟨c, s⟩ ⟨.switchView, []⟩ ⟨{ c with activeView := view }, s⟩
  -- the intents of the view itself move its selection
  | navigate {c : Controller} {s : System Output} (selection : Option SessionReference)
    (selectedProvider : Option String) :
    Step ⟨c, s⟩ ⟨.navigate, []⟩
      ⟨{ c with conversations := { c.conversations with selection, selectedProvider } }, s⟩
  -- of a launch, the error it leaves
  | notice {c : Controller} {s : System Output} (error : Option String) :
    Step ⟨c, s⟩ ⟨.notice, []⟩ ⟨{ c with conversations := c.conversations.setLaunchError error }, s⟩
  | tick {c c' : Controller} {s s' : System Output} {events : List (Event Output)}
    {now clock : Nat} (ready : s.caller = .ready)
    (runs : (c.tickLiveSensor now clock).Runs Answers Moves s events c' s') :
    Step ⟨c, s⟩ ⟨.tick, events⟩ ⟨c', s'⟩
  | result {c c' : Controller} {s s' s'' : System Output} {done : CompletedJob Output}
    {events : List (Event Output)} {dirty : Bool} {fs : FileSystem} {clock : Nat}
    (delivered : Worker.Step s (.delivered done) s')
    (runs : (c.applyResult hash fs done clock).Runs Answers Moves s' events (c', dirty) s'') :
    Step ⟨c, s⟩ ⟨.result done, .delivered done :: events⟩ ⟨c', s''⟩

/-- The app as the main loop finds it, behind `start`. -/
def Started (app : AppState) : Prop :=
  ∃ cwd foregroundCwd hostBinary configRoot clock highCapacity lowCapacity events,
    ((Controller.new cwd foregroundCwd hostBinary).start configRoot clock).Runs Answers Moves
      (System.initial highCapacity lowCapacity) events app.controller app.workers

end HerdrContext.App
