import HerdrContext.Worker.Awaited
import HerdrContext.Worker.Beginnings

/-! File references on their way to the pane that had the focus: a queue in the
controller, and one background job at a time that types into the pane. -/
namespace HerdrContext.App

open Library Worker

/-- `PaneInputResult` with the text of its error, and results of other types. -/
inductive PaneOutput where
  | paneInput (error : Option String)
  | other

/-- A job with the reference its task types. -/
structure PaneJob where
  reference : String
  job : Job PaneOutput

abbrev PaneHandler := Program PaneJob SubmitStatus

def maxPendingPaneInputs : Nat := 16

/-- The part of the controller that sends references. Of the Files runtime, once
it is there, it has the notice; the focused pane stands for the root of its key. -/
structure PaneInput where
  hostBinary : Option PathBuf
  focusedPane : PathBuf
  files : Option (Option String)
  generation : Nat
  queue : List String
  running : Bool

namespace PaneInput

def new (hostBinary : Option PathBuf) (focusedPane : PathBuf) : PaneInput where
  hostBinary
  focusedPane
  files := none
  generation := 0
  queue := []
  running := false

variable (pane : PaneInput)

def key : JobKey := .new .paneInput pane.focusedPane

/-- The outcome of the task is the host's. -/
def job (generation : Nat) : Job PaneOutput := ⟨pane.key, generation, .high, fun _ => True⟩

/-- `set_pane_input_notice` on the Files runtime, if it is there: whether the notice changed. -/
def setNotice (notice : Option String) : PaneInput × Bool :=
  match pane.files with
  | none => (pane, false)
  | some shown => ({ pane with files := some notice }, decide (shown ≠ notice))

def startNext : PaneHandler (PaneInput × Bool) :=
  if pane.running then .done (pane, false)
  else
    match pane.queue with
    | [] => .done (pane, false)
    | reference :: rest =>
      match pane.hostBinary with
      | none => .done ({ pane with queue := [] }.setNotice (some "Herdr pane input is unavailable"))
      | some _ =>
        let asking := { pane with
          generation := WorkerRuntime.saturatingAdd pane.generation 1
          queue := rest }
        .ask ⟨reference, asking.job asking.generation⟩ fun status => .done <|
          if status.accepted then ({ asking with running := true }, false)
          else { asking with queue := [] }.setNotice
            (some "Herdr pane input queue is unavailable")

/-- The queue takes the reference. -/
def accepts : Bool := pane.queue.length < maxPendingPaneInputs

def sendFileReference (reference : String) : PaneHandler (PaneInput × Bool) :=
  if pane.accepts then ({ pane with queue := pane.queue ++ [reference] } : PaneInput).startNext
  else .done (pane.setNotice (some "Herdr pane input queue is full"))

/-- The notice of a result. -/
def resultNotice : PaneOutput → Option String
  | .paneInput error => error.map ("cannot insert file reference: " ++ ·)
  | .other => some "invalid Herdr pane input worker result"

/-- `apply_result` for a pane input job. -/
def applyResult : Completion PaneOutput → PaneHandler (PaneInput × Bool)
  | .panicked =>
    let stopped := ({ pane with running := false } : PaneInput).setNotice
      (some "Herdr pane input worker stopped unexpectedly")
    stopped.1.startNext.bind fun next => .done (next.1, true)
  | .success output =>
    let stopped := ({ pane with running := false } : PaneInput).setNotice (resultNotice output)
    stopped.1.startNext.bind fun next => .done (next.1, next.2 || stopped.2)

end PaneInput

/-! ## Runs -/

/-- The runtime, the references in the tasks of accepted pane input jobs by
generation, and the generations whose task a thread has begun. -/
structure PaneWorkers where
  system : System PaneOutput
  tasks : List (Nat × String)
  typed : List Nat

def IsPaneTag (tag : JobKey × Nat) : Prop := tag.1.kind = .paneInput

instance : DecidablePred IsPaneTag := fun tag => inferInstanceAs (Decidable (tag.1.kind = _))

namespace PaneWorkers

/-- The system moves on. -/
def advance (w : PaneWorkers) (system : System PaneOutput) : PaneWorkers :=
  { w with
    system
    typed := w.typed ++
      ((w.system.runtime.begun system.runtime).filter IsPaneTag).map Prod.snd }

/-- An accepted job has its task. -/
def record (w : PaneWorkers) (request : PaneJob) (status : SubmitStatus) : PaneWorkers :=
  if status.accepted then
    { w with tasks := w.tasks ++ [(request.job.generation, request.reference)] }
  else w

/-- References in the tasks, in the order of their submission. -/
def references (w : PaneWorkers) : List String := w.tasks.map Prod.snd

end PaneWorkers

inductive PaneMoves : PaneWorkers → Event PaneOutput → PaneWorkers → Prop where
  | lane {w : PaneWorkers} {event : Event PaneOutput} {s' : System PaneOutput}
    (moves : Moves w.system event s') : PaneMoves w event (w.advance s')

inductive PaneAnswers :
    PaneWorkers → PaneJob → Event PaneOutput → SubmitStatus → PaneWorkers → Prop where
  | submit {w : PaneWorkers} {request : PaneJob} {event : Event PaneOutput}
    {status : SubmitStatus} {s' : System PaneOutput}
    (answers : Answers w.system request.job event status s') :
    PaneAnswers w request event status ((w.advance s').record request status)

structure PaneApp where
  pane : PaneInput
  workers : PaneWorkers

inductive PaneCause where
  /-- the threads, a receiving call, or another part of the program -/
  | workers
  /-- the Files runtime starts, or has something else to say -/
  | files
  /-- `send_file_reference`, and whether the queue took the reference -/
  | send (reference : String) (accepted : Bool)
  | result (completion : Completion PaneOutput)

structure PaneEvent where
  cause : PaneCause
  events : List (Event PaneOutput)

/-- One handler after the other, over a runtime whose threads do not wait. -/
inductive PaneStep : PaneApp → PaneEvent → PaneApp → Prop where
  | workers {pane : PaneInput} {w : PaneWorkers} {s' : System PaneOutput}
    (step : Worker.Step w.system .silent s') (running : s'.runtime.shuttingDown = false) :
    PaneStep ⟨pane, w⟩ ⟨.workers, [.silent]⟩ ⟨pane, w.advance s'⟩
  | submitted {pane : PaneInput} {w : PaneWorkers} {s' : System PaneOutput}
    {job : Job PaneOutput} {event : Event PaneOutput} {status : SubmitStatus}
    (other : job.key.kind ≠ .paneInput) (answers : Answers w.system job event status s') :
    PaneStep ⟨pane, w⟩ ⟨.workers, [event]⟩ ⟨pane, w.advance s'⟩
  | delivered {pane : PaneInput} {w : PaneWorkers} {s' : System PaneOutput}
    {done : CompletedJob PaneOutput} (other : done.key.kind ≠ .paneInput)
    (step : Worker.Step w.system (.delivered done) s') :
    PaneStep ⟨pane, w⟩ ⟨.workers, [.delivered done]⟩ ⟨pane, w.advance s'⟩
  | bootstrap {pane : PaneInput} {w : PaneWorkers} :
    PaneStep ⟨pane, w⟩ ⟨.files, []⟩ ⟨{ pane with files := some none }, w⟩
  | notice {pane : PaneInput} {w : PaneWorkers} (message : String) :
    PaneStep ⟨pane, w⟩ ⟨.files, []⟩ ⟨(pane.setNotice (some message)).1, w⟩
  -- the reference is that of a file shown by the Files runtime
  | send {pane pane' : PaneInput} {w w' : PaneWorkers} {reference : String} {dirty : Bool}
    {events : List (Event PaneOutput)} (files : pane.files ≠ none)
    (ready : w.system.caller = .ready)
    (runs : (pane.sendFileReference reference).Runs PaneAnswers PaneMoves w events (pane', dirty)
      w') :
    PaneStep ⟨pane, w⟩ ⟨.send reference pane.accepts, events⟩ ⟨pane', w'⟩
  | result {pane pane' : PaneInput} {w w' : PaneWorkers} {s' : System PaneOutput}
    {done : CompletedJob PaneOutput} {dirty : Bool} {events : List (Event PaneOutput)}
    (kind : done.key.kind = .paneInput) (step : Worker.Step w.system (.delivered done) s')
    (runs : (pane.applyResult done.completion).Runs PaneAnswers PaneMoves (w.advance s') events
      (pane', dirty) w') :
    PaneStep ⟨pane, w⟩ ⟨.result done.completion, .delivered done :: events⟩ ⟨pane', w'⟩

def PaneApp.initial (hostBinary : Option PathBuf) (focusedPane : PathBuf)
    (highCapacity lowCapacity : Nat) : PaneApp where
  pane := .new hostBinary focusedPane
  workers := ⟨.initial highCapacity lowCapacity, [], []⟩

end HerdrContext.App
