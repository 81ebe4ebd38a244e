import HerdrContext.Platform
import HerdrContext.Library.Transition
import Mathlib.Data.Finmap

/-! Bounded background execution with keyed, latest-wins jobs: the calls of the
owner, the two lane threads, and what their interleavings can do. -/
namespace HerdrContext.Worker

inductive JobKind where
  | config | bootstrap | filesystem | fileSearch | fileSearchProjection | vcs
  | conversationDiscovery | conversationLive | conversationLaunch | paneInput | process
  deriving DecidableEq, Repr

/-- `JobKey`. Two roots are the same key when their components are, so the key
keeps these. -/
structure JobKey where
  kind : JobKind
  absolute : Bool
  root : List OsString
  deriving DecidableEq

/-- A leading `.` of a relative path is a component. -/
def JobKey.new (kind : JobKind) (root : PathBuf) : JobKey where
  kind := kind
  absolute := root.isAbsolute
  root :=
    if (PathBuf.segments root.bytes).head? = some [46] then [46] :: root.components
    else root.components

inductive Priority where
  | high | low
  deriving DecidableEq, Repr

inductive SubmitStatus where
  | queued | coalesced | rejectedStale | backpressure | shuttingDown
  deriving DecidableEq, Repr

section Model

variable {Output : Type}

inductive Completion (Output : Type) where
  | success (output : Output)
  | panicked

/-- A job; of its task only the outcomes it may have matter. -/
structure Job (Output : Type) where
  key : JobKey
  generation : Nat
  priority : Priority
  task : Completion Output → Prop

structure RawCompletion (Output : Type) where
  key : JobKey
  generation : Nat
  completion : Completion Output

structure CompletedJob (Output : Type) where
  key : JobKey
  generation : Nat
  completion : Completion Output

/-- Where a lane thread is in `run_lane`. -/
inductive LanePhase (Output : Type) where
  /-- about to call `recv` -/
  | between
  /-- blocked in `recv` -/
  | waiting
  /-- `recv` returned the job, the flag is not read yet -/
  | received (job : Job Output)
  | running (job : Job Output)
  /-- in the blocking send of the result -/
  | sending (result : RawCompletion Output)
  | stopped

/-- A lane's channel and its thread. -/
structure Lane (Output : Type) where
  capacity : Nat
  queue : List (Job Output)
  sender : Bool
  phase : LanePhase Output

namespace Lane

def spawn (capacity : Nat) : Lane Output := ⟨capacity, [], true, .between⟩

/-- `Lane::try_send`: `none` hands the job back. A channel of capacity zero
takes a job only for a thread already waiting for one. -/
def trySend (lane : Lane Output) (job : Job Output) : Option (Lane Output) :=
  if lane.sender = false then none
  else match lane.capacity, lane.phase with
    | _, .stopped => none
    | 0, .waiting => some { lane with phase := .received job }
    | 0, _ => none
    | capacity + 1, _ =>
      if lane.queue.length ≤ capacity then some { lane with queue := lane.queue ++ [job] }
      else none

end Lane

/-- The bounded channel both lanes send their results to. -/
structure ResultChannel (Output : Type) where
  capacity : Nat
  queue : List (RawCompletion Output)

structure WorkerRuntime (Output : Type) where
  high : Lane Output
  low : Lane Output
  results : ResultChannel Output
  cancelled : Bool
  active : Finset JobKey
  latest : Finmap fun _ : JobKey => Nat
  pending : Finmap fun _ : JobKey => Job Output
  outstandingCapacity : Nat
  shuttingDown : Bool

namespace WorkerRuntime

/-- `usize::MAX` on the 64-bit targets. -/
def usizeMax : Nat := 2 ^ 64 - 1

def saturatingAdd (left right : Nat) : Nat := min (left + right) usizeMax

theorem le_saturatingAdd {count : Nat} (h : count ≤ usizeMax) : count ≤ saturatingAdd count 1 := by
  unfold saturatingAdd
  omega

def withCapacities (highCapacity lowCapacity : Nat) : WorkerRuntime Output :=
  let resultCapacity := max (saturatingAdd (saturatingAdd highCapacity lowCapacity) 2) 2
  { high := Lane.spawn highCapacity
    low := Lane.spawn lowCapacity
    results := ⟨resultCapacity, []⟩
    cancelled := false
    active := ∅
    latest := ∅
    pending := ∅
    outstandingCapacity := resultCapacity
    shuttingDown := false }

/-- `WorkerRuntime::new`. -/
def new : WorkerRuntime Output := withCapacities 8 4

def lane (w : WorkerRuntime Output) : Priority → Lane Output
  | .high => w.high
  | .low => w.low

def setLane (w : WorkerRuntime Output) (priority : Priority) (lane : Lane Output) :
    WorkerRuntime Output :=
  match priority with
  | .high => { w with high := lane }
  | .low => { w with low := lane }

def outstandingLen (w : WorkerRuntime Output) : Nat :=
  w.active.card + (w.pending.keys.filter (· ∉ w.active)).card

def queueNew (w : WorkerRuntime Output) (job : Job Output) :
    WorkerRuntime Output × SubmitStatus :=
  if w.outstandingLen ≥ w.outstandingCapacity then (w, .backpressure)
  else match (w.lane job.priority).trySend job with
    | none => (w, .backpressure)
    | some lane =>
      ({ w.setLane job.priority lane with
          latest := w.latest.insert job.key job.generation
          active := insert job.key w.active }, .queued)

def submit (w : WorkerRuntime Output) (job : Job Output) :
    WorkerRuntime Output × SubmitStatus :=
  if w.shuttingDown then (w, .shuttingDown)
  else if (w.latest.lookup job.key).any (fun generation => job.generation ≤ generation) then
    (w, .rejectedStale)
  else if job.key ∈ w.active ∨ job.key ∈ w.pending then
    ({ w with
        latest := w.latest.insert job.key job.generation
        pending := w.pending.insert job.key job }, .coalesced)
  else w.queueNew job

def pumpKey (w : WorkerRuntime Output) (key : JobKey) : WorkerRuntime Output :=
  match w.pending.lookup key with
  | none => w
  | some job =>
    match (w.lane job.priority).trySend job with
    | some lane =>
      { w.setLane job.priority lane with
        active := insert key w.active
        pending := w.pending.erase key }
    | none => w

def acceptCompletion (w : WorkerRuntime Output) (result : RawCompletion Output) :
    WorkerRuntime Output × Option (CompletedJob Output) :=
  let pumped := { w with active := w.active.erase result.key }.pumpKey result.key
  (pumped,
    if pumped.latest.lookup result.key = some result.generation then
      some ⟨result.key, result.generation, result.completion⟩
    else none)

end WorkerRuntime

/-! ## Interleavings -/

/-- One step of a lane thread, on its lane and the result channel. The runtime
holds the receiving end of the channel, so a send never fails. -/
inductive LaneStep (cancelled : Bool) :
    Lane Output → ResultChannel Output → Lane Output → ResultChannel Output → Prop where
  | wait {lane : Lane Output} {results : ResultChannel Output} (phase : lane.phase = .between)
    (empty : lane.queue = []) (connected : lane.sender = true) :
    LaneStep cancelled lane results { lane with phase := .waiting } results
  | recv {lane : Lane Output} {results : ResultChannel Output} {job : Job Output}
    {rest : List (Job Output)} (phase : lane.phase = .between ∨ lane.phase = .waiting)
    (queue : lane.queue = job :: rest) :
    LaneStep cancelled lane results { lane with queue := rest, phase := .received job } results
  | disconnected {lane : Lane Output} {results : ResultChannel Output}
    (phase : lane.phase = .between ∨ lane.phase = .waiting) (empty : lane.queue = [])
    (dropped : lane.sender = false) :
    LaneStep cancelled lane results { lane with phase := .stopped } results
  | skip {lane : Lane Output} {results : ResultChannel Output} {job : Job Output}
    (phase : lane.phase = .received job) (flag : cancelled = true) :
    LaneStep cancelled lane results { lane with phase := .between } results
  -- the load is relaxed: a thread may still read the flag as it was before
  | start {lane : Lane Output} {results : ResultChannel Output} {job : Job Output}
    (phase : lane.phase = .received job) :
    LaneStep cancelled lane results { lane with phase := .running job } results
  | finish {lane : Lane Output} {results : ResultChannel Output} {job : Job Output}
    {completion : Completion Output} (phase : lane.phase = .running job)
    (outcome : job.task completion) :
    LaneStep cancelled lane results
      { lane with phase := .sending ⟨job.key, job.generation, completion⟩ } results
  | send {lane : Lane Output} {results : ResultChannel Output} {result : RawCompletion Output}
    (phase : lane.phase = .sending result) (room : results.queue.length < results.capacity) :
    LaneStep cancelled lane results { lane with phase := .between }
      { results with queue := results.queue ++ [result] }

/-- The loop a receiving call is in: that of `try_recv`, called by itself or
from `recv_timeout`, or that of `recv_timeout`. -/
inductive Receiving where
  | tryRecv
  | polling
  | waiting
  deriving DecidableEq

/-- Where the owner of the runtime is. -/
inductive Caller (Output : Type) where
  | ready
  | receiving (loop : Receiving)
  /-- the result is out of the channel, `accept_completion` is next -/
  | accepting (result : RawCompletion Output) (loop : Receiving)
  /-- in `pump_pending`, with the keys still to visit -/
  | pumping (keys : List JobKey) (loop : Receiving)
  /-- in `shutdown`, about to stop the lane -/
  | stopping (priority : Priority)
  | joining (priority : Priority)
  /-- both threads have ended, results are thrown away -/
  | discarding

/-- What the owner sees of a step. -/
inductive Event (Output : Type) where
  | silent
  | submitted (key : JobKey) (generation : Nat) (status : SubmitStatus)
  | delivered (done : CompletedJob Output)

structure System (Output : Type) where
  runtime : WorkerRuntime Output
  caller : Caller Output

def System.initial (highCapacity lowCapacity : Nat) : System Output :=
  ⟨.withCapacities highCapacity lowCapacity, .ready⟩

/-- The owner makes one call at a time; the lane threads move in between, also
between two channel operations of one call. -/
inductive Step : System Output → Event Output → System Output → Prop where
  | lane {w : WorkerRuntime Output} {caller : Caller Output} {priority : Priority}
    {lane : Lane Output} {results : ResultChannel Output}
    (step : LaneStep w.cancelled (w.lane priority) w.results lane results) :
    Step ⟨w, caller⟩ .silent ⟨{ w.setLane priority lane with results := results }, caller⟩
  | submit {w : WorkerRuntime Output} {job : Job Output} :
    Step ⟨w, .ready⟩ (.submitted job.key job.generation (w.submit job).2)
      ⟨(w.submit job).1, .ready⟩
  | tryRecv {w : WorkerRuntime Output} : Step ⟨w, .ready⟩ .silent ⟨w, .receiving .tryRecv⟩
  | recvTimeout {w : WorkerRuntime Output} : Step ⟨w, .ready⟩ .silent ⟨w, .receiving .polling⟩
  | receive {w : WorkerRuntime Output} {loop : Receiving} {result : RawCompletion Output}
    {rest : List (RawCompletion Output)} (queue : w.results.queue = result :: rest) :
    Step ⟨w, .receiving loop⟩ .silent
      ⟨{ w with results := { w.results with queue := rest } }, .accepting result loop⟩
  | accept {w : WorkerRuntime Output} {loop : Receiving} {result : RawCompletion Output}
    {done : CompletedJob Output} (accepted : (w.acceptCompletion result).2 = some done) :
    Step ⟨w, .accepting result loop⟩ (.delivered done) ⟨(w.acceptCompletion result).1, .ready⟩
  | discard {w : WorkerRuntime Output} {loop : Receiving} {result : RawCompletion Output}
    (stale : (w.acceptCompletion result).2 = none) :
    Step ⟨w, .accepting result loop⟩ .silent ⟨(w.acceptCompletion result).1, .receiving loop⟩
  -- the map's keys come in some order
  | pumpPending {w : WorkerRuntime Output} {loop : Receiving} {keys : List JobKey}
    (called : loop ≠ .waiting) (empty : w.results.queue = []) (nodup : keys.Nodup)
    (enumerates : keys.toFinset = w.pending.keys) :
    Step ⟨w, .receiving loop⟩ .silent ⟨w, .pumping keys loop⟩
  | pump {w : WorkerRuntime Output} {loop : Receiving} {key : JobKey} {keys : List JobKey} :
    Step ⟨w, .pumping (key :: keys) loop⟩ .silent
      ⟨if key ∈ w.active then w else w.pumpKey key, .pumping keys loop⟩
  | pumped {w : WorkerRuntime Output} {loop : Receiving} :
    Step ⟨w, .pumping [] loop⟩ .silent
      ⟨w, if loop = .tryRecv then .ready else .receiving .waiting⟩
  | timeout {w : WorkerRuntime Output} : Step ⟨w, .receiving .waiting⟩ .silent ⟨w, .ready⟩
  | shutdown {w : WorkerRuntime Output} (first : w.shuttingDown = false) :
    Step ⟨w, .ready⟩ .silent
      ⟨{ w with shuttingDown := true, cancelled := true, pending := ∅ }, .stopping .high⟩
  | stop {w : WorkerRuntime Output} {priority : Priority} :
    Step ⟨w, .stopping priority⟩ .silent
      ⟨w.setLane priority { w.lane priority with sender := false }, .joining priority⟩
  | joined {w : WorkerRuntime Output} {priority : Priority}
    (ended : (w.lane priority).phase = .stopped) :
    Step ⟨w, .joining priority⟩ .silent
      ⟨w, match priority with | .high => .stopping .low | .low => .discarding⟩
  | throwAway {w : WorkerRuntime Output} {result : RawCompletion Output}
    {rest : List (RawCompletion Output)} (queue : w.results.queue = result :: rest) :
    Step ⟨w, .discarding⟩ .silent
      ⟨{ w with results := { w.results with queue := rest } }, .discarding⟩
  | clear {w : WorkerRuntime Output} (empty : w.results.queue = []) :
    Step ⟨w, .discarding⟩ .silent ⟨{ w with active := ∅, latest := ∅ }, .ready⟩

/-- Every order of calls and thread steps from a new runtime. -/
def Reaches (highCapacity lowCapacity : Nat) (events : List (Event Output))
    (s : System Output) : Prop :=
  Library.Run Step (System.initial highCapacity lowCapacity) events s

end Model

end HerdrContext.Worker
