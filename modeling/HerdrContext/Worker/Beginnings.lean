import HerdrContext.Worker.Delivery

/-! Which jobs the threads begin: a job that waits in a lane leaves it only to
begin, and comes into it by a submission or from behind work of its key. -/
namespace HerdrContext.Worker

variable {Output : Type}

/-- The job whose task a thread begins between two phases. -/
def LanePhase.begun : LanePhase Output → LanePhase Output → List (JobKey × Nat)
  | .received job, .running _ => [job.tag]
  | _, _ => []

@[simp] theorem LanePhase.begun_self (phase : LanePhase Output) : phase.begun phase = [] := by
  cases phase <;> rfl

namespace Lane

variable {lane next : Lane Output} {job : Job Output}

/-- Jobs come into the lane from `added`, and leave it to begin. -/
def Flows (lane next : Lane Output) (added : Multiset (JobKey × Nat)) : Prop :=
  next.queued + (lane.phase.begun next.phase : Multiset (JobKey × Nat)) = lane.queued + added

theorem flows_self (lane : Lane Output) : lane.Flows lane 0 := by
  rw [Flows, LanePhase.begun_self, Multiset.coe_nil]

theorem flows_trySend (h : lane.trySend job = some next) : lane.Flows next {job.tag} := by
  unfold trySend at h
  split at h
  next => contradiction
  next =>
    split at h
    next => contradiction
    next _ _ _ hphase =>
      cases h
      simp [Flows, queued, hphase, LanePhase.taken, LanePhase.begun]
    next => contradiction
    next =>
      split at h
      next =>
        cases h
        rw [Flows, LanePhase.begun_self, queued, coe_map_concat, queued, Multiset.coe_nil,
          ← Multiset.singleton_add, add_zero]
        ac_rfl
      next => contradiction

end Lane

theorem LaneStep.flows {lane next : Lane Output} {results after : ResultChannel Output}
    (step : LaneStep false lane results next after) : lane.Flows next 0 := by
  cases step with
  | wait phase empty connected =>
    simp [Lane.Flows, Lane.queued, phase, LanePhase.taken, LanePhase.begun]
  | recv phase queue =>
    rcases phase with phase | phase
    all_goals
      simp only [Lane.Flows, Lane.queued, phase, queue, LanePhase.taken, LanePhase.begun,
        List.map_cons, ← Multiset.cons_coe, Multiset.coe_nil, add_zero]
      rw [← Multiset.singleton_add, add_comm]
  | disconnected phase empty dropped =>
    rcases phase with phase | phase <;>
      simp [Lane.Flows, Lane.queued, phase, LanePhase.taken, LanePhase.begun]
  | skip phase flag => contradiction
  | start phase => simp [Lane.Flows, Lane.queued, phase, LanePhase.taken, LanePhase.begun]
  | finish phase outcome => simp [Lane.Flows, Lane.queued, phase, LanePhase.taken, LanePhase.begun]
  | send phase room => simp [Lane.Flows, Lane.queued, phase, LanePhase.taken, LanePhase.begun]

namespace WorkerRuntime

variable {w w' : WorkerRuntime Output} {added : Multiset (JobKey × Nat)}

def begun (w w' : WorkerRuntime Output) : List (JobKey × Nat) :=
  w.high.phase.begun w'.high.phase ++ w.low.phase.begun w'.low.phase

def Flows (w w' : WorkerRuntime Output) (added : Multiset (JobKey × Nat)) : Prop :=
  w'.queued + (w.begun w' : Multiset (JobKey × Nat)) = w.queued + added

theorem flows_of_lanes (priority : Priority)
    (hlane : (w.lane priority).Flows (w'.lane priority) added)
    (hother : ∀ other, other ≠ priority → w'.lane other = w.lane other) : w.Flows w' added := by
  have hsum : w'.queued + (w.begun w' : Multiset (JobKey × Nat)) =
      (w'.high.queued + (w.high.phase.begun w'.high.phase : Multiset (JobKey × Nat))) +
        (w'.low.queued + (w.low.phase.begun w'.low.phase : Multiset (JobKey × Nat))) := by
    rw [queued, begun, ← Multiset.coe_add]
    ac_rfl
  rw [Flows, hsum, queued]
  cases priority with
  | high =>
    have hlow : w'.low = w.low := hother .low (by simp)
    have hhigh : w'.high.queued + (w.high.phase.begun w'.high.phase : Multiset (JobKey × Nat)) =
        w.high.queued + added := hlane
    rw [hhigh, hlow, LanePhase.begun_self, Multiset.coe_nil, add_zero]
    ac_rfl
  | low =>
    have hhigh : w'.high = w.high := hother .high (by simp)
    have hlow : w'.low.queued + (w.low.phase.begun w'.low.phase : Multiset (JobKey × Nat)) =
        w.low.queued + added := hlane
    rw [hlow, hhigh, LanePhase.begun_self, Multiset.coe_nil, add_zero]
    ac_rfl

theorem flows_same (hhigh : w'.high = w.high) (hlow : w'.low = w.low) : w.Flows w' 0 := by
  rw [Flows, begun, hhigh, hlow, queued, queued, hhigh, hlow, LanePhase.begun_self,
    LanePhase.begun_self, List.append_nil, Multiset.coe_nil]

/-- The lane of the priority is replaced, with whatever else. -/
theorem flows_setLane {priority : Priority} {lane : Lane Output}
    (hlane : (w.lane priority).Flows lane added)
    (hhigh : w'.high = (w.setLane priority lane).high)
    (hlow : w'.low = (w.setLane priority lane).low) : w.Flows w' added := by
  have hlanes (other : Priority) : w'.lane other = (w.setLane priority lane).lane other := by
    cases other
    · exact hhigh
    · exact hlow
  apply flows_of_lanes priority
  · rwa [hlanes, lane_setLane, if_pos rfl]
  · intro other hother
    rw [hlanes, lane_setLane, if_neg hother.symm]

theorem flows_pumpKey (w : WorkerRuntime Output) (key : JobKey) :
    ∃ added, w.Flows (w.pumpKey key) added ∧
      ∀ tag ∈ added, ∃ job, w.pending.lookup key = some job ∧ tag = job.tag := by
  rcases pumpKey_cases w key with h | ⟨job, lane, hlookup, hsend, h⟩
  · rw [h]
    exact ⟨0, flows_same rfl rfl, by simp⟩
  · rw [h]
    refine ⟨{job.tag}, flows_setLane (Lane.flows_trySend hsend) rfl rfl, fun tag htag => ?_⟩
    exact ⟨job, hlookup, Multiset.mem_singleton.mp htag⟩

theorem lookup_pumpKey {key other : JobKey} {job : Job Output}
    (h : (w.pumpKey key).pending.lookup other = some job) : w.pending.lookup other = some job := by
  rcases pumpKey_cases w key with hsame | ⟨_, _, _, _, hpumped⟩
  · rwa [hsame] at h
  · rw [hpumped] at h
    by_cases heq : other = key
    · rw [heq, Finmap.lookup_erase] at h
      contradiction
    · rwa [Finmap.lookup_erase_ne heq] at h

end WorkerRuntime

open WorkerRuntime

/-- What comes into the lanes in a step, and what comes to wait behind its key. -/
structure Feeds (w w' : WorkerRuntime Output) (event : Event Output) : Prop where
  flows : ∃ added, w.Flows w' added ∧ ∀ tag ∈ added,
    (∃ key job, w.pending.lookup key = some job ∧ tag = job.tag) ∨
      event = .submitted tag.1 tag.2 .queued
  pending : ∀ key job, w'.pending.lookup key = some job → w.pending.lookup key = some job ∨
    event = .submitted key job.generation .coalesced

variable {w w' : WorkerRuntime Output} {event : Event Output}

theorem feeds_same (hhigh : w'.high = w.high) (hlow : w'.low = w.low)
    (hpending : w'.pending = w.pending) : Feeds w w' event where
  flows := ⟨0, flows_same hhigh hlow, by simp⟩
  pending key job h := Or.inl (hpending ▸ h)

theorem feeds_pumpKey (w : WorkerRuntime Output) (key : JobKey) : Feeds w (w.pumpKey key) event where
  flows := by
    have ⟨added, hflows, hadded⟩ := flows_pumpKey w key
    exact ⟨added, hflows, fun tag htag => Or.inl ⟨key, hadded tag htag⟩⟩
  pending _ _ h := Or.inl (lookup_pumpKey h)

theorem feeds_acceptCompletion (w : WorkerRuntime Output) (result : RawCompletion Output) :
    Feeds w (w.acceptCompletion result).1 event := by
  have ⟨hflows, hpending⟩ : Feeds { w with active := w.active.erase result.key }
      (w.acceptCompletion result).1 event := feeds_pumpKey _ _
  exact ⟨hflows, hpending⟩

theorem feeds_submit (job : Job Output) :
    Feeds w (w.submit job).1 (.submitted job.key job.generation (w.submit job).2) := by
  rcases submit_cases w job with ⟨hsame, _⟩ | ⟨_, _, ⟨_, hsubmit⟩ | ⟨_, _, _, lane, hsend, hsubmit⟩⟩
  · rw [hsame]
    exact feeds_same rfl rfl rfl
  · rw [hsubmit]
    refine ⟨⟨0, flows_same rfl rfl, by simp⟩, fun key other h => ?_⟩
    by_cases heq : key = job.key
    · rw [heq, Finmap.lookup_insert] at h
      rw [heq, ← Option.some.inj h]
      exact Or.inr rfl
    · rw [Finmap.lookup_insert_of_ne _ heq] at h
      exact Or.inl h
  · rw [hsubmit]
    refine ⟨⟨{job.tag}, flows_setLane (Lane.flows_trySend hsend) rfl rfl, fun tag htag => ?_⟩,
      fun key other h => Or.inl (by simpa using h)⟩
    rw [Multiset.mem_singleton.mp htag]
    exact Or.inr rfl

/-- Until the flag is set, a waiting job is not lost. -/
theorem Step.feeds {s s' : System Output} (uncancelled : s.runtime.cancelled = false)
    (step : Step s event s') : Feeds s.runtime s'.runtime event := by
  cases step with
  | @lane w caller priority lane results step =>
    simp only at uncancelled
    rw [uncancelled] at step
    refine ⟨⟨0, flows_setLane step.flows rfl rfl, by simp⟩, fun key job h => Or.inl ?_⟩
    simpa using h
  | submit => exact feeds_submit _
  | accept | discard => exact feeds_acceptCompletion _ _
  | pump =>
    simp only
    split
    · exact feeds_same rfl rfl rfl
    · exact feeds_pumpKey _ _
  | shutdown =>
    refine ⟨⟨0, flows_same rfl rfl, by simp⟩, fun key job h => ?_⟩
    simp at h
  | @stop w priority =>
    have hlane : (w.lane priority).Flows { w.lane priority with sender := false } 0 :=
      Lane.flows_self (w.lane priority)
    refine ⟨⟨0, flows_setLane hlane rfl rfl, by simp⟩, fun key job h => Or.inl ?_⟩
    simpa using h
  | tryRecv | recvTimeout | receive | pumpPending | pumped | timeout | joined | throwAway | clear =>
    exact feeds_same rfl rfl rfl

end HerdrContext.Worker
