import HerdrContext.App.ConversationsView
import HerdrContext.Library.Requests
import HerdrContext.Worker.Awaited

/-! The controller between the Conversations view and the background jobs. A
handler is a program that submits jobs. -/
namespace HerdrContext.App

open Library Live Worker

/-! ## Jobs and their results -/

structure LiveSnapshot where
  project : ProjectIdentity
  sessions : LiveConversationSnapshot
  observedAt : SystemTime

inductive ConversationJobResult where
  | ready (project : ProjectIdentity) (conversations : FilesystemConversationSnapshot)
    (hasMore : Bool) (sourceErrors : List VisibleError) (resetSourceErrors : Bool)
  | cancelled
  | error (message : String)

inductive LiveConversationJobResult where
  | ready (snapshot : LiveSnapshot)
  | cancelled
  | error (message : String)

/-- What a job returns. `other` stands for the results that do not reach the
state modelled here. -/
inductive Output where
  | config (adaptive : Option (Nat × Nat))
  | conversations (result : ConversationJobResult)
  | live (result : LiveConversationJobResult)
  | launch (error : Option String)
  | other

abbrev Handler := Program (Job Output) SubmitStatus

/-- The answer to a submission. -/
def submit (job : Job Output) : Handler SubmitStatus := .ask job .done

/-! ## The sensor -/

/-- Durations and instants are nanoseconds. -/
structure LiveSensor where
  minimum : Nat
  maximum : Nat
  interval : Nat
  nextTick : Nat
  fingerprint : Option UInt64
  references : Finmap fun _ : String => String
  pendingGeneration : Option Nat

namespace LiveSensor

def new (minimum maximum now : Nat) : LiveSensor where
  minimum
  maximum
  interval := minimum
  nextTick := now + minimum
  fingerprint := none
  references := ∅
  pendingGeneration := none

def armReset (sensor : LiveSensor) (now : Nat) : LiveSensor :=
  { sensor with interval := sensor.minimum, nextTick := now + sensor.minimum }

/-- The largest `Duration`. -/
def durationMax : Nat := 2 ^ 64 * nanosPerSecond - 1

def armBackoff (sensor : LiveSensor) (now : Nat) : LiveSensor :=
  let interval := min (max (min (sensor.interval * 2) durationMax) sensor.minimum) sensor.maximum
  { sensor with interval, nextTick := now + interval }

end LiveSensor

inductive View where
  | files | conversations
  deriving DecidableEq

/-- `View::next`, which is also `View::previous`. -/
def View.next : View → View
  | .files => .conversations
  | .conversations => .files

structure Controller where
  cwd : PathBuf
  foregroundCwd : Option PathBuf
  activeView : View
  conversations : ConversationsViewState
  hostBinary : Option PathBuf
  filesystemConversations : Option FilesystemConversationSnapshot
  conversationProject : Option ProjectIdentity
  liveSnapshot : Option LiveSnapshot
  liveSensor : Option LiveSensor
  subsystemsStarted : Bool

namespace Controller

def new (cwd : PathBuf) (foregroundCwd hostBinary : Option PathBuf) : Controller where
  cwd
  foregroundCwd
  activeView := .files
  conversations := .initial
  hostBinary
  filesystemConversations := none
  conversationProject := none
  liveSnapshot := none
  liveSensor := none
  subsystemsStarted := false

def root (c : Controller) : PathBuf := c.foregroundCwd.getD c.cwd

def liveKey (c : Controller) : JobKey := .new .conversationLive c.root

def pageKey (c : Controller) : JobKey := .new .conversationDiscovery c.root

/-- What the tasks find is open, and so is whether they panic. -/
def liveJob (c : Controller) (generation : Nat) : Job Output :=
  ⟨c.liveKey, generation, .low, fun _ => True⟩

def pageJob (c : Controller) (generation : Nat) : Job Output :=
  ⟨c.pageKey, generation, .low, fun _ => True⟩

def mergedConversations (c : Controller) : List Conversation :=
  match c.filesystemConversations, c.conversationProject with
  | some filesystem, some project =>
    match c.liveSnapshot.filter (·.project = project) with
    | some live => mergePreparedLiveSessions filesystem project live.observedAt live.sessions
    | none => filesystem.conversations
  | _, _ => []

def setGenerations (c : Controller) (requested applied : Nat) : Controller :=
  { c with conversations :=
    { c.conversations with requestedGeneration := requested, appliedGeneration := applied } }

def setLiveGenerations (c : Controller) (requested applied : Nat) : Controller :=
  { c with conversations :=
    { c.conversations with
      liveRequestedGeneration := requested
      liveAppliedGeneration := applied } }

def setLoading (c : Controller) (loading : LoadingState) : Controller :=
  { c with conversations := { c.conversations with loading } }

def setLiveLoading (c : Controller) (loading : Bool) : Controller :=
  { c with conversations := { c.conversations with liveLoading := loading } }

def setLiveError (c : Controller) (error : Option String) : Controller :=
  { c with conversations := c.conversations.setLiveError error }

def forgetPending (c : Controller) : Controller :=
  { c with liveSensor := c.liveSensor.map fun sensor => { sensor with pendingGeneration := none } }

/-- The merge shown as the live rows of a generation. -/
def showLive (c : Controller) (generation : Nat) : Controller × Bool :=
  let shown := c.conversations.replaceLiveItems c.mergedConversations generation
  ({ c with conversations := shown.1 }, shown.2)

/-- Without a live snapshot, and with the reason. -/
def dropLive (c : Controller) (reason : String) (generation : Nat) : Controller × Bool :=
  ({ c with liveSnapshot := none }.setLiveError (some reason)).showLive generation

/-! ## Scheduling -/

def scheduleConversationPage (c : Controller) (showLoading : Bool) : Handler Controller :=
  let generation := WorkerRuntime.saturatingAdd c.conversations.requestedGeneration 1
  let requested := c.setGenerations generation c.conversations.appliedGeneration
  let shown := if showLoading then requested.setLoading .loading else requested
  (submit (shown.pageJob generation)).bind fun status => .done <|
    if status.accepted then shown
    else shown.setLoading (.error "background conversation queue is unavailable")

def syncAndBackOff (c : Controller) (requested generation clock : Nat) : Controller :=
  { c.setLiveGenerations requested generation with
    liveSensor := c.liveSensor.map (·.armBackoff clock) }

def armQuiet (c : Controller) (sensor : LiveSensor) (generation clock : Nat) : Controller :=
  { c.setLiveGenerations generation c.conversations.liveAppliedGeneration with
    liveSensor := some { sensor with
      pendingGeneration := some generation
      nextTick := clock + sensor.interval } }

/-- The quiet half of `schedule_live_poll`. -/
def askQuiet (c : Controller) (sensor : LiveSensor) (generation clock : Nat) : Handler Controller :=
  let armed := c.armQuiet sensor generation clock
  (submit (armed.liveJob generation)).bind fun status => .done <|
    if status.accepted then armed else armed.syncAndBackOff generation generation clock

def markLoading (c : Controller) (generation : Nat) : Controller :=
  ((c.setLiveGenerations generation c.conversations.liveAppliedGeneration).setLiveLoading true)
    |>.forgetPending

/-- The half of `schedule_live_poll` that shows what it does. -/
def askLoud (c : Controller) (generation : Nat) : Handler Controller :=
  (submit ((c.markLoading generation).liveJob generation)).bind fun status => .done <|
    if status.accepted then c.markLoading generation
    else ((c.markLoading generation).dropLive "Herdr live session queue is unavailable"
      generation).1

/-- `schedule_live_poll`; `clock` is what `Instant::now()` shows. -/
def scheduleLivePoll (c : Controller) (quiet : Bool) (clock : Nat) : Handler Controller :=
  match c.hostBinary with
  | none => .done (if quiet then c else c.setLiveLoading false)
  | some _ =>
    let generation := WorkerRuntime.saturatingAdd c.conversations.liveRequestedGeneration 1
    if quiet then
      match c.liveSensor with
      | none => .done (c.setLiveGenerations generation c.conversations.liveAppliedGeneration)
      | some sensor => c.askQuiet sensor generation clock
    else c.askLoud generation

def scheduleConversations (c : Controller) (clock : Nat) : Handler Controller :=
  (c.scheduleConversationPage true).bind fun c => c.scheduleLivePoll false clock

/-- The bootstrap job is a submission that does not reach this state. -/
def startSubsystems (c : Controller) (clock : Nat) : Handler Controller :=
  if c.subsystemsStarted then .done c
  else ({ c with subsystemsStarted := true }).scheduleConversations clock

/-- `adaptive` is the live cadence of the loaded configuration. -/
def applyConfigLoad (c : Controller) (adaptive : Option (Nat × Nat)) (clock : Nat) :
    Handler Controller :=
  ({ c with liveSensor := adaptive.map fun (minimum, maximum) => .new minimum maximum clock })
    |>.startSubsystems clock

/-- `start`, under the root of the configuration. -/
def start (c : Controller) (configRoot : PathBuf) (clock : Nat) : Handler Controller :=
  (submit ⟨.new .config configRoot, 1, .high, fun _ => True⟩).bind fun status =>
    if status.accepted then .done c else c.applyConfigLoad none clock

/-! ## Results -/

def isPendingSensor (c : Controller) (generation : Nat) : Bool :=
  c.liveSensor.any (·.pendingGeneration = some generation)

/-- `take_pending_live_sensor`: whether the sensor asked for the generation. -/
def takePendingLiveSensor (c : Controller) (generation : Nat) : Controller × Bool :=
  if c.isPendingSensor generation then (c.forgetPending, true) else (c, false)

section

variable (hash : List FingerprintInput → UInt64)

def seedLiveBaseline (c : Controller) (snapshot : LiveSnapshot) (clock : Nat) : Controller :=
  { c with liveSensor := c.liveSensor.map fun sensor =>
    { sensor with
      fingerprint := some (fingerprint hash snapshot.sessions)
      references := paneReferences snapshot.sessions }.armReset clock }

def isUnchanged (c : Controller) (snapshot : LiveSnapshot) : Bool :=
  c.liveSensor.any (·.fingerprint = some (fingerprint hash snapshot.sessions))

/-- A pane shows a session the sensor has not seen there. -/
def referenceChanged (c : Controller) (snapshot : LiveSnapshot) : Bool :=
  c.liveSensor.any fun sensor => snapshot.sessions.any fun session =>
    let pane := session.paneId.text
    sensor.references.lookup pane ≠ (paneReferences snapshot.sessions).lookup pane

/-- One successful poll becomes the baseline of the sensor and is shown. -/
def adoptSnapshot (c : Controller) (snapshot : LiveSnapshot) (generation clock : Nat) :
    Controller × Bool :=
  ({ c.seedLiveBaseline hash snapshot clock with liveSnapshot := some snapshot }.setLiveError none)
    |>.showLive generation

def applySensorSnapshot (c : Controller) (snapshot : LiveSnapshot)
    (generation requested clock : Nat) : Handler (Controller × Bool) :=
  if c.isUnchanged hash snapshot then
    .done ((c.setLiveLoading false).syncAndBackOff requested generation clock, false)
  else
    let adopted := c.adoptSnapshot hash snapshot generation clock
    if c.referenceChanged snapshot then
      (adopted.1.scheduleConversationPage false).bind fun scheduled =>
        .done (scheduled, adopted.2)
    else .done adopted

/-- A result of `load_live_conversations`, of any type or a panic. -/
def applyLive (c : Controller) (generation : Nat) (completion : Completion Output) (clock : Nat) :
    Handler (Controller × Bool) :=
  let requested := c.conversations.liveRequestedGeneration
  if generation < requested then .done (c, false)
  else
    let quiet := (c.takePendingLiveSensor generation).2
    let taken := (c.takePendingLiveSensor generation).1
    let backOff (dirty : Bool) : Handler (Controller × Bool) :=
      .done (taken.syncAndBackOff requested generation clock, dirty)
    match completion with
    | .panicked =>
      if quiet then backOff true
      else .done ((taken.dropLive "Herdr live session worker stopped unexpectedly" generation).1,
        true)
    | .success (.live (.ready snapshot)) =>
      if quiet then taken.applySensorSnapshot hash snapshot generation requested clock
      else .done (taken.adoptSnapshot hash snapshot generation clock)
    | .success (.live .cancelled) =>
      if quiet then backOff false
      else .done ((taken.setLiveGenerations requested generation).setLiveLoading false, true)
    | .success (.live (.error message)) =>
      if quiet then backOff false
      else .done (taken.dropLive ("Herdr: " ++ message) generation)
    | .success _ =>
      if quiet then backOff false
      else .done ((taken.dropLive "invalid live conversation worker result" generation).1, true)

/-- The cache is out of use, and what was shown before stays. -/
def isDegraded (sourceErrors : List VisibleError) : Bool :=
  sourceErrors.any fun error =>
    "Cache: metadata index is unavailable".toList.isPrefixOf error.message.toList

/-- A result of `load_conversations`. The list of notices the source builds from
it is not stored anywhere. -/
def applyConversations (fs : FileSystem) (c : Controller) (generation : Nat)
    (completion : Completion Output) : Handler (Controller × Bool) :=
  let requested := c.conversations.requestedGeneration
  match completion with
  | .panicked =>
    .done (c.setLoading (.error "background worker stopped unexpectedly"), true)
  | .success output =>
    if generation < requested then .done (c, false)
    else match output with
      | .conversations (.ready project conversations hasMore sourceErrors _) =>
        let merged :=
          match isDegraded sourceErrors, c.filesystemConversations with
          | true, some previous => mergeFilesystemSnapshots fs previous conversations
          | _, _ => conversations
        let stored := { c with
          conversationProject := some project
          filesystemConversations := some merged }
        let shown := stored.conversations.replaceItems stored.mergedConversations generation
        let c := { stored with conversations := shown.1 }
        if hasMore then
          (c.scheduleConversationPage false).bind fun scheduled => .done (scheduled, shown.2)
        else .done (c, shown.2)
      | .conversations .cancelled =>
        .done ((c.setGenerations requested generation).setLoading .ready, true)
      | .conversations (.error message) => .done (c.setLoading (.error message), true)
      | _ => .done (c.setLoading (.error "invalid conversation worker result"), true)

def applyLaunch (c : Controller) (completion : Completion Output) : Controller :=
  let error :=
    match completion with
    | .panicked => some "Herdr conversation launch worker stopped unexpectedly"
    | .success (.launch error) => error.map ("cannot open conversation: " ++ ·)
    | .success _ => some "invalid Herdr conversation launch worker result"
  { c with conversations := c.conversations.setLaunchError error }

/-- The cadence in a result of the configuration job; the defaults are manual. -/
def loadedCadence : Completion Output → Option (Nat × Nat)
  | .success (.config adaptive) => adaptive
  | _ => none

/-- `apply_result`. Results of other kinds do not reach this state. -/
def applyResult (fs : FileSystem) (c : Controller) (result : CompletedJob Output) (clock : Nat) :
    Handler (Controller × Bool) :=
  match result.key.kind with
  | .config =>
    (c.applyConfigLoad (loadedCadence result.completion) clock).bind fun c => .done (c, true)
  | .conversationDiscovery => c.applyConversations fs result.generation result.completion
  | .conversationLive => c.applyLive hash result.generation result.completion clock
  | .conversationLaunch => .done (c.applyLaunch result.completion, true)
  | _ => .done (c, true)

end

/-! ## Ticks -/

def isDue (c : Controller) (now : Nat) : Bool :=
  c.activeView = .conversations && c.hostBinary.isSome && c.liveSensor.any (·.nextTick ≤ now)

def tickLiveSensor (c : Controller) (now clock : Nat) : Handler Controller :=
  if c.isDue now then c.scheduleLivePoll true clock else .done c

end Controller

end HerdrContext.App
