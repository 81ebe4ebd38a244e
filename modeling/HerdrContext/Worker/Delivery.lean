import HerdrContext.Worker.Protocol

/-! What the owner of the runtime can rely on: results in order, nothing lost
before a shutdown, and no thread blocked on the result channel. -/
namespace HerdrContext.Worker

open Library

variable {Output : Type}

/-- The submission with which the owner got a generation accepted. -/
def Event.accepts (key : JobKey) (generation : Nat) : Event Output → Prop
  | .submitted other otherGeneration status =>
    other = key ∧ otherGeneration = generation ∧ (status = .queued ∨ status = .coalesced)
  | _ => False

/-- The generations of a key handed to the caller, in order. -/
def deliveredGenerations (key : JobKey) (events : List (Event Output)) : List Nat :=
  events.filterMap fun
    | .delivered done => if done.key = key then some done.generation else none
    | _ => none

namespace System

def inPending (s : System Output) (key : JobKey) (generation : Nat) : Nat :=
  if (s.runtime.pending.lookup key).map Job.generation = some generation then 1 else 0

def inLanes (s : System Output) (key : JobKey) (generation : Nat) : Nat :=
  s.runtime.queued.count (key, generation)

def inThreads (s : System Output) (key : JobKey) (generation : Nat) : Nat :=
  s.runtime.running.count (key, generation)

/-- In the result channel, or just taken from it by the call that hands it on. -/
def inResults (s : System Output) (key : JobKey) (generation : Nat) : Nat :=
  s.runtime.results.tags.count (key, generation) + s.caller.inHand.count (key, generation)

end System

theorem WorkerRuntime.carried_eq (w : WorkerRuntime Output) :
    w.carried = w.queued + w.running + w.results.tags := by
  simp only [carried, queued, running, Lane.carried]
  ac_rfl

theorem places_eq (s : System Output) (key : JobKey) (generation : Nat) :
    s.inPending key generation + s.inLanes key generation + s.inThreads key generation +
        s.inResults key generation =
      s.ledger.carried.count (key, generation) +
        (if s.ledger.held key = some generation then 1 else 0) := by
  simp only [System.ledger, WorkerRuntime.ledger, WorkerRuntime.carried_eq, Multiset.count_add,
    System.inPending, System.inLanes, System.inThreads, System.inResults]
  omega

theorem mem_actions_accepted {events : List (Event Output)} {key : JobKey} {generation : Nat} :
    .accepted key generation ∈ actions events ↔ ∃ event ∈ events, event.accepts key generation := by
  simp only [actions, List.mem_filterMap]
  refine exists_congr fun event => and_congr_right fun _ => ?_
  cases event with
  | silent => simp [Event.action, Event.accepts]
  | submitted other otherGeneration status =>
    cases status <;> simp [Event.action, Event.accepts]
  | delivered done => simp [Event.action, Event.accepts]

theorem mem_actions_delivered {events : List (Event Output)} {key : JobKey} {generation : Nat} :
    .delivered key generation ∈ actions events ↔ generation ∈ deliveredGenerations key events := by
  simp only [actions, deliveredGenerations, List.mem_filterMap]
  refine exists_congr fun event => and_congr_right fun _ => ?_
  cases event with
  | silent => simp [Event.action]
  | submitted other otherGeneration status => cases status <;> simp [Event.action]
  | delivered done => simp [Event.action]

theorem deliveredGenerations_pairwise {events : List (Event Output)}
    (h : (actions events).Pairwise Ledger.Precedes) (key : JobKey) :
    (deliveredGenerations key events).Pairwise (· < ·) := by
  rw [actions, List.pairwise_filterMap] at h
  refine h.filterMap _ fun earlier later hprecedes old hold new hnew => ?_
  have hdelivered : ∀ {event : Event Output} {generation : Nat},
      (match event with
        | .delivered done => if done.key = key then some done.generation else none
        | _ => none) = some generation → event.action = some (.delivered key generation) := by
    intro event generation hevent
    cases event with
    | silent => contradiction
    | submitted => contradiction
    | delivered done =>
      obtain ⟨hkey, hgeneration⟩ := Option.ite_none_right_eq_some.mp hevent
      rw [Event.action, hkey, Option.some.inj hgeneration]
  exact (hprecedes _ (hdelivered hold) _ (hdelivered hnew) key old new).2.2 rfl rfl

/-- What was accepted before a delivery is not newer than it. -/
theorem accepted_le_delivered {events before after : List (Event Output)} {done : CompletedJob Output}
    (h : (actions events).Pairwise Ledger.Precedes) (split : events = before ++ .delivered done :: after)
    {event : Event Output} (hmem : event ∈ before) {generation : Nat}
    (accepts : event.accepts done.key generation) : generation ≤ done.generation := by
  have haccepted : .accepted done.key generation ∈ actions before :=
    mem_actions_accepted.mpr ⟨event, hmem, accepts⟩
  have hdelivered : .delivered done.key done.generation ∈ actions (.delivered done :: after) := by
    rw [actions, List.filterMap_cons]
    simp [Event.action]
  rw [split, actions, List.filterMap_append, List.pairwise_append] at h
  exact (h.2.2 _ haccepted _ hdelivered done.key generation done.generation).2.1 rfl rfl

section

variable {highCapacity lowCapacity : Nat} {events : List (Event Output)} {s : System Output}

theorem ordered_of_reaches (h : Reaches highCapacity lowCapacity events s) :
    (actions events).Pairwise Ledger.Precedes := by
  rcases (reaches_inv h).2 with hopen | hclosing
  · exact hopen.tracks.traced.ordered
  · obtain ⟨ledger, htraced⟩ := hclosing.history
    exact htraced.ordered

/-- Everything under way is in the books, once. -/
theorem tracked_of_reaches (h : Reaches highCapacity lowCapacity events s) :
    ((s.runtime.carried + s.caller.inHand).map Prod.fst).Nodup ∧
      ∀ key, key ∈ (s.runtime.carried + s.caller.inHand).map Prod.fst → key ∈ s.runtime.active := by
  rcases (reaches_inv h).2 with hopen | hclosing
  · exact ⟨hopen.tracks.traced.valid.nodup, fun key => (hopen.tracks.active key).mpr⟩
  · rw [hclosing.inHand, add_zero]
    exact ⟨hclosing.nodup, hclosing.tracked⟩

/-- A refused submission changes nothing. -/
theorem submit_refused (w : WorkerRuntime Output) (job : Job Output)
    (h : (w.submit job).2 = .backpressure ∨ (w.submit job).2 = .rejectedStale ∨
      (w.submit job).2 = .shuttingDown) : (w.submit job).1 = w := by
  rcases WorkerRuntime.submit_cases w job with ⟨hsame, -⟩ | ⟨-, -, ⟨-, hafter⟩ | ⟨-, -, -, lane, -, hafter⟩⟩
  · exact hsame
  · simp [hafter] at h
  · simp [hafter] at h

/-- **Delivery protocol.** After any run of calls and thread steps: one job of a
key is in a lane or on a thread; a key's results came in increasing generations,
none behind the acceptance of a newer one; before a shutdown the newest accepted
generation of a key is delivered or in exactly one place; and a refused
submission leaves the books as they were. -/
theorem delivery_protocol (run : Reaches highCapacity lowCapacity events s) :
    ((s.runtime.queued + s.runtime.running).map Prod.fst).Nodup ∧
    (∀ key, (deliveredGenerations key events).Pairwise (· < ·)) ∧
    (∀ before after done, events = before ++ .delivered done :: after →
      ∀ event ∈ before, ∀ generation, event.accepts done.key generation →
        generation ≤ done.generation) ∧
    (s.runtime.shuttingDown = false → ∀ key generation,
      (∃ event ∈ events, event.accepts key generation) →
      (∀ event ∈ events, ∀ other, event.accepts key other → other ≤ generation) →
      generation ∉ deliveredGenerations key events →
      s.inPending key generation + s.inLanes key generation + s.inThreads key generation +
        s.inResults key generation = 1) ∧
    (∀ job : Job Output,
      (s.runtime.submit job).2 = .backpressure ∨ (s.runtime.submit job).2 = .rejectedStale ∨
        (s.runtime.submit job).2 = .shuttingDown →
      (s.runtime.submit job).1.active = s.runtime.active ∧
        (s.runtime.submit job).1.pending = s.runtime.pending ∧
        (s.runtime.submit job).1.latest = s.runtime.latest) := by
  have hordered := ordered_of_reaches run
  refine ⟨?_, deliveredGenerations_pairwise hordered, ?_, ?_, ?_⟩
  · have hnodup := (tracked_of_reaches run).1
    rw [WorkerRuntime.carried_eq, add_assoc, Multiset.map_add] at hnodup
    exact Multiset.nodup_of_le (Multiset.le_add_right _ _) hnodup
  · intro before after done hsplit event hmem generation haccepts
    exact accepted_le_delivered hordered hsplit hmem haccepts
  · intro haccepting key generation haccepted hnewest hundelivered
    have hopen : Open (actions events) s := by
      refine (reaches_inv run).2.resolve_right fun hclosing => ?_
      rw [hclosing.refusing] at haccepting
      contradiction
    rw [places_eq]
    refine hopen.tracks.traced.one_place (mem_actions_accepted.mpr haccepted) ?_ ?_
    · intro other hother
      obtain ⟨event, hmem, haccepts⟩ := mem_actions_accepted.mp hother
      exact hnewest event hmem other haccepts
    · exact fun hmem => hundelivered (mem_actions_delivered.mp hmem)
  · intro job hrefused
    rw [submit_refused s.runtime job hrefused]
    exact ⟨rfl, rfl, rfl⟩

end

/-! A job superseded while it runs: its result is thrown away and the newer one
is started and delivered. -/

def sampleKey : JobKey := .new .vcs ⟨[slash]⟩

def sampleJob (generation : Nat) : Job Unit := ⟨sampleKey, generation, .high, fun _ => True⟩

/-- A runtime that has accepted generations of the sample key up to the newest. -/
def sampleRuntime (newest : Nat) (pending : Finmap fun _ : JobKey => Job Unit)
    (queue : List (Job Unit)) (phase : LanePhase Unit) (results : List (RawCompletion Unit)) :
    WorkerRuntime Unit where
  high := ⟨1, queue, true, phase⟩
  low := Lane.spawn 1
  results := ⟨4, results⟩
  cancelled := false
  active := {sampleKey}
  latest := Finmap.singleton sampleKey newest
  pending := pending
  outstandingCapacity := 4
  shuttingDown := false

def sampleResult (generation : Nat) : RawCompletion Unit := ⟨sampleKey, generation, .success ()⟩

/-- What the thread does with a queued job. -/
theorem sample_thread (newest generation : Nat) (pending : Finmap fun _ : JobKey => Job Unit)
    (caller : Caller Unit) :
    Run Step ⟨sampleRuntime newest pending [sampleJob generation] .between [], caller⟩
      [.silent, .silent, .silent, .silent]
      ⟨sampleRuntime newest pending [] .between [sampleResult generation], caller⟩ := by
  have received : Run Step ⟨sampleRuntime newest pending [sampleJob generation] .between [], caller⟩
      [.silent] ⟨sampleRuntime newest pending [] (.received (sampleJob generation)) [], caller⟩ :=
    Run.single (@Step.lane Unit _ _ .high _ _ (.recv (Or.inl rfl) rfl))
  have running : Run Step ⟨sampleRuntime newest pending [sampleJob generation] .between [], caller⟩
      [.silent, .silent]
      ⟨sampleRuntime newest pending [] (.running (sampleJob generation)) [], caller⟩ :=
    received.step (@Step.lane Unit _ _ .high _ _ (.start rfl))
  have sending : Run Step ⟨sampleRuntime newest pending [sampleJob generation] .between [], caller⟩
      [.silent, .silent, .silent]
      ⟨sampleRuntime newest pending [] (.sending (sampleResult generation)) [], caller⟩ :=
    running.step (@Step.lane Unit _ _ .high _ _
      (@LaneStep.finish Unit false ⟨1, [], true, .running (sampleJob generation)⟩ ⟨4, []⟩
        (sampleJob generation) (.success ()) rfl trivial))
  exact sending.step (@Step.lane Unit _ _ .high _ _ (.send rfl (Nat.zero_lt_succ 3)))

theorem superseded_run : ∃ (events : List (Event Unit)) (s : System Unit),
    Reaches 1 1 events s ∧
    deliveredGenerations sampleKey events = [2] := by
  have first : Reaches 1 1 [.submitted sampleKey 1 .queued]
      ⟨sampleRuntime 1 ∅ [sampleJob 1] .between [], .ready⟩ :=
    Run.single (@Step.submit Unit (.withCapacities 1 1) (sampleJob 1))
  have second : Reaches 1 1 [.submitted sampleKey 1 .queued, .submitted sampleKey 2 .coalesced]
      ⟨sampleRuntime 2 (Finmap.singleton sampleKey (sampleJob 2)) [sampleJob 1] .between [], .ready⟩ :=
    first.step (@Step.submit Unit _ (sampleJob 2))
  have sent := second.trans (sample_thread 2 1 _ .ready)
  have taken := (sent.step Step.tryRecv).step (@Step.receive Unit _ _ (sampleResult 1) [] rfl)
  have restarted : Reaches 1 1 _ ⟨sampleRuntime 2 ∅ [sampleJob 2] .between [], .receiving .tryRecv⟩ :=
    taken.step (@Step.discard Unit _ .tryRecv (sampleResult 1) (by decide))
  have again := restarted.trans (sample_thread 2 2 ∅ _)
  have delivered := (again.step (@Step.receive Unit _ _ (sampleResult 2) [] rfl)).step
    (@Step.accept Unit _ .tryRecv (sampleResult 2) ⟨sampleKey, 2, .success ()⟩ rfl)
  exact ⟨_, _, delivered, by decide⟩

theorem delivery_protocol_superseded : ∃ (events : List (Event Unit)) (s : System Unit),
    Reaches 1 1 events s ∧ deliveredGenerations sampleKey events = [2] ∧
      (deliveredGenerations sampleKey events).Pairwise (· < ·) ∧
      ((s.runtime.queued + s.runtime.running).map Prod.fst).Nodup := by
  obtain ⟨events, s, run, hdelivered⟩ := superseded_run
  have hprotocol := delivery_protocol run
  exact ⟨events, s, run, hdelivered, hprotocol.2.1 sampleKey, hprotocol.1⟩

/-! ## Room for every result -/

section

variable {highCapacity lowCapacity : Nat} {events : List (Event Output)} {s : System Output}

theorem exact_of_reaches (h : Reaches highCapacity lowCapacity events s)
    (outside : s.caller.inShutdown = false) :
    (s.runtime.carried + s.caller.inHand).map Prod.fst = s.runtime.active.val := by
  obtain ⟨hnodup, htracked⟩ := tracked_of_reaches h
  rw [Multiset.Nodup.ext hnodup s.runtime.active.nodup]
  refine fun key => ⟨htracked key, fun hactive => ?_⟩
  obtain ⟨hsound, hopen | hclosing⟩ := reaches_inv h
  · exact (hopen.tracks.active key).mp hactive
  · have hstage := hclosing.stage
    have hempty : s.runtime.active = ∅ := by
      cases hcaller : s.caller <;> rw [hcaller] at hstage outside
      case accepting => exact absurd hstage id
      case ready | receiving | pumping => exact hstage.2.2.2
      all_goals contradiction
    rw [hempty] at hactive
    contradiction

theorem outstandingLen_le_of_reaches (h : Reaches highCapacity lowCapacity events s) :
    s.runtime.outstandingLen ≤ s.runtime.outstandingCapacity := by
  rw [WorkerRuntime.outstandingLen_eq]
  exact (reaches_inv h).1.bounded

/-- A thread that sends a result finds room for it. -/
theorem room_of_sending (h : Reaches highCapacity lowCapacity events s) {priority : Priority}
    {result : RawCompletion Output} (sending : (s.runtime.lane priority).phase = .sending result) :
    s.runtime.results.queue.length < s.runtime.results.capacity := by
  obtain ⟨hnodup, htracked⟩ := tracked_of_reaches h
  have hsound := (reaches_inv h).1
  have hcarried : s.runtime.results.queue.length + 1 ≤
      ((s.runtime.carried + s.caller.inHand).map Prod.fst).card := by
    have hone : 1 ≤ (s.runtime.lane priority).carried.card := by
      simp [Lane.carried, sending, LanePhase.executing]
    have hlane : (s.runtime.lane priority).carried.card ≤
        s.runtime.high.carried.card + s.runtime.low.carried.card := by
      cases priority <;> simp [WorkerRuntime.lane]
    simp only [Multiset.card_map, WorkerRuntime.carried, Multiset.card_add, ResultChannel.tags,
      Multiset.coe_card, List.length_map]
    omega
  have hactive : ((s.runtime.carried + s.caller.inHand).map Prod.fst).card ≤
      s.runtime.active.card :=
    Multiset.card_le_card ((Multiset.le_iff_subset hnodup).mpr htracked)
  have hunion : s.runtime.active.card ≤ (s.runtime.active ∪ s.runtime.pending.keys).card :=
    Finset.card_le_card Finset.subset_union_left
  have hbounded := hsound.bounded
  rw [hsound.capacity]
  omega

/-- While `shutdown` waits for a thread, the thread can move unless it is inside
a task. -/
theorem step_of_joining (h : Reaches highCapacity lowCapacity events s) {priority : Priority}
    (joining : s.caller = .joining priority)
    (running : (s.runtime.lane priority).phase ≠ .stopped)
    (returns : ∀ job, (s.runtime.lane priority).phase = .running job →
      ∃ completion, job.task completion) :
    ∃ lane results, LaneStep s.runtime.cancelled (s.runtime.lane priority) s.runtime.results
      lane results := by
  have hsender : (s.runtime.lane priority).sender = false := by
    rcases (reaches_inv h).2 with hopen | hclosing
    · have houtside := hopen.outside
      rw [joining] at houtside
      contradiction
    · have hstage := hclosing.stage
      rw [joining] at hstage
      cases priority with
      | high => exact hstage
      | low => exact hstage.2
  have hrecv : (s.runtime.lane priority).phase = .between ∨
      (s.runtime.lane priority).phase = .waiting →
      ∃ lane results, LaneStep s.runtime.cancelled (s.runtime.lane priority) s.runtime.results
        lane results := by
    intro hphase
    cases hqueue : (s.runtime.lane priority).queue with
    | nil => exact ⟨_, _, .disconnected hphase hqueue hsender⟩
    | cons job rest => exact ⟨_, _, .recv hphase hqueue⟩
  cases hphase : (s.runtime.lane priority).phase with
  | between => exact hrecv (Or.inl hphase)
  | waiting => exact hrecv (Or.inr hphase)
  | received job => exact ⟨_, _, .start hphase⟩
  | running job =>
    obtain ⟨completion, houtcome⟩ := returns job hphase
    exact ⟨_, _, .finish hphase houtcome⟩
  | sending result => exact ⟨_, _, .send hphase (room_of_sending h hphase)⟩
  | stopped => exact absurd hphase running

/-- **Capacity.** Outside `shutdown` the keys in the books are one to one those of
the jobs in lanes, on threads and in the result channel; inside, they cover them.
The books never exceed the channel's capacity, so a send finds room and a join
never waits for a blocked thread. -/
theorem capacity_invariant (run : Reaches highCapacity lowCapacity events s) :
    (s.caller.inShutdown = false →
      (s.runtime.carried + s.caller.inHand).map Prod.fst = s.runtime.active.val) ∧
    ((s.runtime.carried + s.caller.inHand).map Prod.fst ≤ s.runtime.active.val) ∧
    s.runtime.outstandingLen ≤ s.runtime.outstandingCapacity ∧
    s.runtime.outstandingCapacity = s.runtime.results.capacity ∧
    (∀ priority result, (s.runtime.lane priority).phase = .sending result →
      s.runtime.results.queue.length < s.runtime.results.capacity) ∧
    (∀ priority, s.caller = .joining priority → (s.runtime.lane priority).phase ≠ .stopped →
      (∀ job, (s.runtime.lane priority).phase = .running job → ∃ completion, job.task completion) →
      ∃ lane results, LaneStep s.runtime.cancelled (s.runtime.lane priority) s.runtime.results
        lane results) := by
  obtain ⟨hnodup, htracked⟩ := tracked_of_reaches run
  refine ⟨exact_of_reaches run, (Multiset.le_iff_subset hnodup).mpr htracked,
    outstandingLen_le_of_reaches run, (reaches_inv run).1.capacity.symm, ?_, ?_⟩
  · exact fun priority result sending => room_of_sending run sending
  · exact fun priority joining running returns => step_of_joining run joining running returns

end

/-- A job dropped by a thread after the flag is set stays in the books until
`shutdown` has joined both threads. -/
theorem dropped_run : ∃ (events : List (Event Unit)) (s : System Unit),
    Reaches 1 1 events s ∧
    s.runtime.carried + s.caller.inHand = 0 ∧ s.runtime.active = {sampleKey} := by
  have accepted : Reaches 1 1 [.submitted sampleKey 1 .queued]
      ⟨sampleRuntime 1 ∅ [sampleJob 1] .between [], .ready⟩ :=
    Run.single (@Step.submit Unit (.withCapacities 1 1) (sampleJob 1))
  have stopping := accepted.step (Step.shutdown rfl)
  have received := stopping.step (@Step.lane Unit _ _ .high _ _ (.recv (Or.inl rfl) rfl))
  have dropped := received.step (@Step.lane Unit _ _ .high _ _ (.skip rfl rfl))
  exact ⟨_, _, dropped, by decide, rfl⟩

theorem books_not_exact : ¬ ∀ (events : List (Event Unit)) (s : System Unit),
    Reaches 1 1 events s →
      (s.runtime.carried + s.caller.inHand).map Prod.fst = s.runtime.active.val := by
  intro h
  obtain ⟨events, s, run, hcarried, hactive⟩ := dropped_run
  have hexact := h events s run
  rw [hcarried, hactive] at hexact
  simp at hexact

theorem capacity_invariant_dropped : ∃ (events : List (Event Unit)) (s : System Unit),
    Reaches 1 1 events s ∧ s.runtime.active = {sampleKey} ∧
      s.runtime.outstandingLen ≤ s.runtime.outstandingCapacity := by
  obtain ⟨events, s, run, -, hactive⟩ := dropped_run
  exact ⟨events, s, run, hactive, (capacity_invariant run).2.2.1⟩

end HerdrContext.Worker
