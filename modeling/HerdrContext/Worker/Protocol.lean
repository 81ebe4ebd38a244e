import HerdrContext.Library.LatestWins
import HerdrContext.Worker.Runtime

/-! Where every accepted job is, and what of it reaches the owner: the runtime
keeps a latest-wins ledger spread over its lanes, channel and maps. -/
namespace HerdrContext.Worker

open Library

variable {Output : Type}

/-! ## Jobs under way -/

def Job.tag (job : Job Output) : JobKey × Nat := (job.key, job.generation)

def RawCompletion.tag (result : RawCompletion Output) : JobKey × Nat :=
  (result.key, result.generation)

/-- Received by the thread, the flag not yet read. -/
def LanePhase.taken : LanePhase Output → Multiset (JobKey × Nat)
  | .received job => {job.tag}
  | _ => 0

/-- Run by the thread, the result not yet in the channel. -/
def LanePhase.executing : LanePhase Output → Multiset (JobKey × Nat)
  | .running job => {job.tag}
  | .sending result => {result.tag}
  | _ => 0

def Lane.queued (lane : Lane Output) : Multiset (JobKey × Nat) :=
  (lane.queue.map Job.tag : Multiset (JobKey × Nat)) + lane.phase.taken

def Lane.carried (lane : Lane Output) : Multiset (JobKey × Nat) :=
  lane.queued + lane.phase.executing

def ResultChannel.tags (results : ResultChannel Output) : Multiset (JobKey × Nat) :=
  (results.queue.map RawCompletion.tag : Multiset (JobKey × Nat))

/-- The result a receiving call has in hand. -/
def Caller.inHand : Caller Output → Multiset (JobKey × Nat)
  | .accepting result _ => {result.tag}
  | _ => 0

namespace WorkerRuntime

def queued (w : WorkerRuntime Output) : Multiset (JobKey × Nat) := w.high.queued + w.low.queued

def running (w : WorkerRuntime Output) : Multiset (JobKey × Nat) :=
  w.high.phase.executing + w.low.phase.executing

def carried (w : WorkerRuntime Output) : Multiset (JobKey × Nat) :=
  w.high.carried + w.low.carried + w.results.tags

/-- The ledger the runtime keeps, with what its caller has in hand. -/
def ledger (w : WorkerRuntime Output) (inHand : Multiset (JobKey × Nat)) : Ledger JobKey Nat where
  carried := w.carried + inHand
  held := fun key => (w.pending.lookup key).map Job.generation
  latest := fun key => w.latest.lookup key

end WorkerRuntime

def System.ledger (s : System Output) : Ledger JobKey Nat := s.runtime.ledger s.caller.inHand

def Event.action : Event Output → Option (Action JobKey Nat)
  | .submitted key generation .queued => some (.accepted key generation)
  | .submitted key generation .coalesced => some (.accepted key generation)
  | .delivered done => some (.delivered done.key done.generation)
  | _ => none

def actions (events : List (Event Output)) : List (Action JobKey Nat) :=
  events.filterMap Event.action

/-! ## Lanes -/

theorem coe_map_concat {α β : Type} (f : α → β) (values : List α) (value : α) :
    ((values ++ [value]).map f : Multiset β) = f value ::ₘ (values.map f : Multiset β) := by
  rw [List.map_append, ← Multiset.coe_add, add_comm]
  rfl

namespace Lane

variable {lane next : Lane Output} {job : Job Output}

/-- A lane that takes a job is open and running, and carries it from then on. -/
theorem trySend_eq_some (h : lane.trySend job = some next) :
    next.carried = job.tag ::ₘ lane.carried ∧ next.phase ≠ .stopped := by
  unfold trySend at h
  split at h
  next => contradiction
  next =>
    split at h
    next => contradiction
    next _ _ _ hphase =>
      cases h
      constructor
      · simp only [carried, queued, hphase, LanePhase.taken, LanePhase.executing]
        simp only [zero_add, ← Multiset.singleton_add, add_comm]
      · simp
    next => contradiction
    next hstopped =>
      split at h
      next =>
        cases h
        constructor
        · simp only [carried, queued, coe_map_concat, Multiset.cons_add]
        · simpa using hstopped
      next => contradiction

end Lane

namespace LaneStep

variable {cancelled : Bool} {lane next : Lane Output} {results after : ResultChannel Output}

/-- A thread moves a job on, or drops it once the flag is set. -/
theorem carried (step : LaneStep cancelled lane results next after) :
    next.carried + after.tags = lane.carried + results.tags ∨
      cancelled = true ∧ ∃ tag, lane.carried + results.tags = tag ::ₘ (next.carried + after.tags) := by
  cases step with
  | wait phase empty connected =>
    left
    simp [Lane.carried, Lane.queued, phase, LanePhase.taken, LanePhase.executing]
  | recv phase queue =>
    left
    rcases phase with phase | phase <;>
      simp only [Lane.carried, Lane.queued, phase, queue, LanePhase.taken, LanePhase.executing,
        List.map_cons, ← Multiset.cons_coe, add_zero, ← Multiset.singleton_add] <;>
      ac_rfl
  | disconnected phase empty dropped =>
    left
    rcases phase with phase | phase <;>
      simp [Lane.carried, Lane.queued, phase, LanePhase.taken, LanePhase.executing]
  | @skip job phase flag =>
    right
    refine ⟨flag, job.tag, ?_⟩
    simp only [Lane.carried, Lane.queued, phase, LanePhase.taken, LanePhase.executing,
      ← Multiset.singleton_add]
    ac_rfl
  | start phase =>
    left
    simp [Lane.carried, Lane.queued, phase, LanePhase.taken, LanePhase.executing]
  | finish phase outcome =>
    left
    simp [Lane.carried, Lane.queued, phase, LanePhase.taken, LanePhase.executing, Job.tag,
      RawCompletion.tag]
  | send phase room =>
    left
    simp only [Lane.carried, Lane.queued, phase, LanePhase.taken, LanePhase.executing,
      ResultChannel.tags, coe_map_concat, ← Multiset.singleton_add]
    ac_rfl

theorem capacity (step : LaneStep cancelled lane results next after) :
    after.capacity = results.capacity := by
  cases step <;> rfl

theorem not_stopped (step : LaneStep cancelled lane results next after) :
    lane.phase ≠ .stopped := by
  cases step <;> simp_all
  all_goals grind

theorem ended (step : LaneStep cancelled lane results next after) (h : next.phase = .stopped) :
    next.queue = [] ∧ next.sender = false := by
  cases step <;> simp_all

theorem sender (step : LaneStep cancelled lane results next after) :
    next.sender = lane.sender := by
  cases step <;> rfl

end LaneStep

/-! ## What a call does -/

namespace WorkerRuntime

variable {w : WorkerRuntime Output} {job : Job Output} {key : JobKey}

theorem carried_setLane {priority : Priority} {lane : Lane Output} {tag : JobKey × Nat}
    (h : lane.carried = tag ::ₘ (w.lane priority).carried) :
    (w.setLane priority lane).carried = tag ::ₘ w.carried := by
  cases priority <;>
    simp only [setLane, WorkerRuntime.lane, carried] at h ⊢ <;>
    simp only [h, Multiset.cons_add, Multiset.add_cons]

@[simp] theorem setLane_results (priority : Priority) (lane : Lane Output) :
    (w.setLane priority lane).results = w.results := by
  cases priority <;> rfl

@[simp] theorem setLane_active (priority : Priority) (lane : Lane Output) :
    (w.setLane priority lane).active = w.active := by
  cases priority <;> rfl

@[simp] theorem setLane_pending (priority : Priority) (lane : Lane Output) :
    (w.setLane priority lane).pending = w.pending := by
  cases priority <;> rfl

@[simp] theorem setLane_latest (priority : Priority) (lane : Lane Output) :
    (w.setLane priority lane).latest = w.latest := by
  cases priority <;> rfl

@[simp] theorem setLane_outstandingCapacity (priority : Priority) (lane : Lane Output) :
    (w.setLane priority lane).outstandingCapacity = w.outstandingCapacity := by
  cases priority <;> rfl

@[simp] theorem setLane_shuttingDown (priority : Priority) (lane : Lane Output) :
    (w.setLane priority lane).shuttingDown = w.shuttingDown := by
  cases priority <;> rfl

@[simp] theorem setLane_cancelled (priority : Priority) (lane : Lane Output) :
    (w.setLane priority lane).cancelled = w.cancelled := by
  cases priority <;> rfl

theorem lane_setLane (priority other : Priority) (lane : Lane Output) :
    (w.setLane priority lane).lane other = if priority = other then lane else w.lane other := by
  cases priority <;> cases other <;> rfl

/-- The keys with work under way or waiting. -/
theorem outstandingLen_eq : w.outstandingLen = (w.active ∪ w.pending.keys).card := by
  have hunion : w.active ∪ w.pending.keys = w.active ∪ w.pending.keys.filter (· ∉ w.active) := by
    ext key
    simp only [Finset.mem_union, Finset.mem_filter]
    tauto
  have hdisjoint : Disjoint w.active (w.pending.keys.filter (· ∉ w.active)) :=
    Finset.disjoint_left.mpr fun key hactive hmem => (Finset.mem_filter.mp hmem).2 hactive
  rw [hunion, Finset.card_union_of_disjoint hdisjoint, outstandingLen]

/-- What `submit` can do. -/
theorem submit_cases (w : WorkerRuntime Output) (job : Job Output) :
    ((w.submit job).1 = w ∧
      ((w.submit job).2 = .shuttingDown ∨ (w.submit job).2 = .rejectedStale ∨
        (w.submit job).2 = .backpressure)) ∨
    (w.shuttingDown = false ∧ (∀ last, w.latest.lookup job.key = some last → last < job.generation) ∧
      (((job.key ∈ w.active ∨ job.key ∈ w.pending) ∧
        w.submit job = ({ w with
          latest := w.latest.insert job.key job.generation
          pending := w.pending.insert job.key job }, .coalesced)) ∨
      (job.key ∉ w.active ∧ job.key ∉ w.pending ∧ w.outstandingLen < w.outstandingCapacity ∧
        ∃ lane, (w.lane job.priority).trySend job = some lane ∧
          w.submit job = ({ w.setLane job.priority lane with
            latest := w.latest.insert job.key job.generation
            active := insert job.key w.active }, .queued)))) := by
  unfold submit
  split
  next => exact Or.inl ⟨rfl, Or.inl rfl⟩
  next hopen =>
    split
    next => exact Or.inl ⟨rfl, Or.inr (Or.inl rfl)⟩
    next hnewer =>
      have hopen' : w.shuttingDown = false := Bool.eq_false_iff.mpr hopen
      have hnewer' : ∀ last, w.latest.lookup job.key = some last → last < job.generation := by
        intro last hlast
        simpa [hlast] using hnewer
      split
      next hbusy => exact Or.inr ⟨hopen', hnewer', Or.inl ⟨hbusy, rfl⟩⟩
      next hidle =>
        unfold queueNew
        split
        next => exact Or.inl ⟨rfl, Or.inr (Or.inr rfl)⟩
        next hroom =>
          split
          next => exact Or.inl ⟨rfl, Or.inr (Or.inr rfl)⟩
          next lane hlane =>
            refine Or.inr ⟨hopen', hnewer', Or.inr ⟨?_, ?_, ?_, lane, hlane, rfl⟩⟩
            · exact fun h => hidle (Or.inl h)
            · exact fun h => hidle (Or.inr h)
            · omega

/-- What `pump_key` can do. -/
theorem pumpKey_cases (w : WorkerRuntime Output) (key : JobKey) :
    w.pumpKey key = w ∨
      ∃ job lane, w.pending.lookup key = some job ∧ (w.lane job.priority).trySend job = some lane ∧
        w.pumpKey key = { w.setLane job.priority lane with
          active := insert key w.active
          pending := w.pending.erase key } := by
  unfold pumpKey
  split
  next => exact Or.inl rfl
  next job hjob =>
    split
    next lane hlane => exact Or.inr ⟨job, lane, hjob, hlane, rfl⟩
    next => exact Or.inl rfl

@[simp] theorem pumpKey_latest (w : WorkerRuntime Output) (key : JobKey) :
    (w.pumpKey key).latest = w.latest := by
  rcases pumpKey_cases w key with h | ⟨job, lane, -, -, h⟩ <;> simp [h]

@[simp] theorem pumpKey_shuttingDown (w : WorkerRuntime Output) (key : JobKey) :
    (w.pumpKey key).shuttingDown = w.shuttingDown := by
  rcases pumpKey_cases w key with h | ⟨job, lane, -, -, h⟩ <;> simp [h]

@[simp] theorem pumpKey_cancelled (w : WorkerRuntime Output) (key : JobKey) :
    (w.pumpKey key).cancelled = w.cancelled := by
  rcases pumpKey_cases w key with h | ⟨job, lane, -, -, h⟩ <;> simp [h]

/-! ## Bounds that hold whatever the caller does -/

structure Sound (w : WorkerRuntime Output) : Prop where
  capacity : w.results.capacity = w.outstandingCapacity
  bounded : (w.active ∪ w.pending.keys).card ≤ w.outstandingCapacity
  keyed : ∀ key job, w.pending.lookup key = some job → job.key = key
  ended : ∀ priority, (w.lane priority).phase = .stopped → (w.lane priority).queue = []

theorem sound_withCapacities (highCapacity lowCapacity : Nat) :
    (withCapacities highCapacity lowCapacity : WorkerRuntime Output).Sound := by
  refine ⟨rfl, Nat.zero_le _, ?_, ?_⟩
  · intro key job h
    simp [withCapacities] at h
  · intro priority _
    cases priority <;> rfl

theorem Sound.lane_queue {lane : Lane Output} (sound : w.Sound) {priority other : Priority}
    (hended : lane.phase = .stopped → lane.queue = [])
    (h : ((w.setLane priority lane).lane other).phase = .stopped) :
    ((w.setLane priority lane).lane other).queue = [] := by
  rw [lane_setLane] at h ⊢
  split at h
  next heq =>
    rw [if_pos heq]
    exact hended h
  next hne =>
    rw [if_neg hne]
    exact sound.ended other h

theorem Sound.pumpKey (sound : w.Sound) (key : JobKey) : (w.pumpKey key).Sound := by
  rcases pumpKey_cases w key with h | ⟨job, lane, hlookup, hsend, h⟩
  · rw [h]
    exact sound
  · have hrunning := (Lane.trySend_eq_some hsend).2
    rw [h]
    refine ⟨?_, ?_, ?_, ?_⟩
    · simpa using sound.capacity
    · refine le_trans (Finset.card_le_card ?_) (by simpa using sound.bounded)
      intro other hother
      have hkey : key ∈ w.pending := Finmap.mem_of_lookup_eq_some hlookup
      simp only [Finset.mem_union, Finset.mem_insert, Finmap.mem_keys, Finmap.mem_erase] at hother ⊢
      grind
    · intro other job' hother
      refine sound.keyed other job' ?_
      by_cases hkey : other = key
      · dsimp only at hother
        rw [hkey, Finmap.lookup_erase] at hother
        contradiction
      · simpa [Finmap.lookup_erase_ne hkey] using hother
    · exact fun _ => sound.lane_queue fun hstopped => absurd hstopped hrunning

theorem Sound.submit (sound : w.Sound) (job : Job Output) : (w.submit job).1.Sound := by
  rcases submit_cases w job with ⟨h, -⟩ | ⟨-, -, ⟨hbusy, h⟩ | ⟨-, -, hroom, lane, hsend, h⟩⟩
  · rw [h]
    exact sound
  · rw [h]
    refine ⟨sound.capacity, ?_, ?_, sound.ended⟩
    · refine le_trans (Finset.card_le_card ?_) sound.bounded
      intro other hother
      simp only [Finset.mem_union, Finmap.mem_keys, Finmap.mem_insert] at hother ⊢
      grind
    · intro other job' hother
      by_cases hkey : other = job.key
      · subst hkey
        rw [Finmap.lookup_insert] at hother
        cases hother
        rfl
      · rw [Finmap.lookup_insert_of_ne _ hkey] at hother
        exact sound.keyed other job' hother
  · have hrunning := (Lane.trySend_eq_some hsend).2
    rw [outstandingLen_eq] at hroom
    rw [h]
    refine ⟨by simpa using sound.capacity, ?_, by simpa using sound.keyed, ?_⟩
    · simp only [setLane_pending, setLane_outstandingCapacity, Finset.insert_union]
      exact (Finset.card_insert_le _ _).trans hroom
    · exact fun _ => sound.lane_queue fun hstopped => absurd hstopped hrunning

/-- Work leaves the books. -/
theorem Sound.shrink (sound : w.Sound) {active : Finset JobKey} (h : active ⊆ w.active) :
    ({ w with active := active } : WorkerRuntime Output).Sound :=
  ⟨sound.capacity,
    (Finset.card_le_card (Finset.union_subset_union_left h)).trans sound.bounded,
    sound.keyed, sound.ended⟩

theorem Sound.acceptCompletion (sound : w.Sound) (result : RawCompletion Output) :
    (w.acceptCompletion result).1.Sound :=
  (sound.shrink (Finset.erase_subset _ _)).pumpKey result.key

end WorkerRuntime

/-- The bounds hold after every step. -/
theorem Step.sound {s s' : System Output} {event : Event Output} (step : Step s event s')
    (sound : s.runtime.Sound) : s'.runtime.Sound := by
  cases step with
  | @lane w caller priority lane results step =>
    refine ⟨?_, by simpa using sound.bounded, by simpa using sound.keyed, ?_⟩
    · simpa [step.capacity] using sound.capacity
    · exact fun _ => sound.lane_queue fun hstopped => (step.ended hstopped).1
  | submit => exact sound.submit _
  | tryRecv => exact sound
  | recvTimeout => exact sound
  | receive queue => exact ⟨sound.capacity, sound.bounded, sound.keyed, sound.ended⟩
  | accept => exact sound.acceptCompletion _
  | discard => exact sound.acceptCompletion _
  | pumpPending => exact sound
  | pump =>
    dsimp only
    split
    next => exact sound
    next => exact sound.pumpKey _
  | pumped => exact sound
  | timeout => exact sound
  | shutdown first =>
    refine ⟨sound.capacity, ?_, by simp, sound.ended⟩
    exact (Finset.card_le_card (by simp)).trans sound.bounded
  | stop =>
    refine ⟨by simpa using sound.capacity, by simpa using sound.bounded,
      by simpa using sound.keyed, ?_⟩
    exact fun _ => sound.lane_queue fun hstopped => sound.ended _ hstopped
  | joined ended => exact sound
  | throwAway queue => exact ⟨sound.capacity, sound.bounded, sound.keyed, sound.ended⟩
  | @clear w empty =>
    have hcleared := sound.shrink (Finset.empty_subset w.active)
    exact ⟨hcleared.capacity, hcleared.bounded, hcleared.keyed, hcleared.ended⟩

/-! ## The ledger -/

section

variable {α β : Type} {key : JobKey}

theorem map_lookup_insert (f : α → β) (map : Finmap fun _ : JobKey => α) (value : α) :
    (fun other => ((map.insert key value).lookup other).map f) =
      Function.update (fun other => (map.lookup other).map f) key (some (f value)) := by
  funext other
  by_cases hother : other = key
  · rw [hother, Function.update_self, Finmap.lookup_insert, Option.map_some]
  · rw [Function.update_of_ne hother, Finmap.lookup_insert_of_ne _ hother]

theorem lookup_insert (map : Finmap fun _ : JobKey => α) (value : α) :
    (fun other => (map.insert key value).lookup other) =
      Function.update (fun other => map.lookup other) key (some value) := by
  simpa using map_lookup_insert id map value

theorem map_lookup_erase (f : α → β) (map : Finmap fun _ : JobKey => α) :
    (fun other => ((map.erase key).lookup other).map f) =
      Function.update (fun other => (map.lookup other).map f) key none := by
  funext other
  by_cases hother : other = key
  · rw [hother, Function.update_self, Finmap.lookup_erase, Option.map_none]
  · rw [Function.update_of_ne hother, Finmap.lookup_erase_ne hother]

end

/-- The books agree with the work under way, and with what has happened so far. -/
structure Tracks (history : List (Action JobKey Nat)) (w : WorkerRuntime Output)
    (inHand : Multiset (JobKey × Nat)) : Prop where
  active : ∀ key, key ∈ w.active ↔ key ∈ (w.ledger inHand).keys
  traced : Ledger.Traced history (w.ledger inHand)

namespace Tracks

open WorkerRuntime

variable {history : List (Action JobKey Nat)} {w : WorkerRuntime Output}
  {inHand : Multiset (JobKey × Nat)}

/-- A job waiting for its key to become idle is sent to its lane. -/
theorem pumpKey (tracks : Tracks history w inHand) (sound : w.Sound) {key : JobKey}
    (idle : key ∉ w.active) : Tracks history (w.pumpKey key) inHand := by
  rcases pumpKey_cases w key with h | ⟨job, lane, hlookup, hsend, h⟩
  · rw [h]
    exact tracks
  · have hcarried : (w.setLane job.priority lane).carried = (key, job.generation) ::ₘ w.carried := by
      rw [carried_setLane (Lane.trySend_eq_some hsend).1, Job.tag, sound.keyed key job hlookup]
    have hledger : (w.pumpKey key).ledger inHand =
        { w.ledger inHand with
          carried := (key, job.generation) ::ₘ (w.ledger inHand).carried
          held := Function.update (w.ledger inHand).held key none } := by
      rw [h, ledger, map_lookup_erase, setLane_latest, ledger, ← Multiset.cons_add, ← hcarried]
      rfl
    have hheld : (w.ledger inHand).held key = some job.generation := by
      simp [ledger, hlookup]
    have hidle : key ∉ (w.ledger inHand).keys := fun hmem => idle ((tracks.active key).mpr hmem)
    have hstep := tracks.traced.step (Ledger.Step.start hheld hidle)
    rw [Option.toList_none, List.append_nil, ← hledger] at hstep
    refine ⟨fun other => ?_, hstep⟩
    rw [hledger, h, Ledger.keys, Multiset.map_cons, Multiset.mem_cons, Finset.mem_insert]
    exact or_congr_right (tracks.active other)

/-- A submission is answered without effect, or accepted into the ledger. -/
theorem submit (tracks : Tracks history w inHand) (job : Job Output) :
    Tracks (history ++ (Event.submitted job.key job.generation (w.submit job).2 :
      Event Output).action.toList) (w.submit job).1 inHand := by
  rcases submit_cases w job with ⟨h, hstatus⟩ |
    ⟨-, hnewer, ⟨hbusy, h⟩ | ⟨hactive, hpending, -, lane, hsend, h⟩⟩
  · have haction : (Event.submitted job.key job.generation (w.submit job).2 :
        Event Output).action = none := by
      rcases hstatus with hstatus | hstatus | hstatus <;> rw [hstatus] <;> rfl
    rw [h, haction, Option.toList_none, List.append_nil]
    exact tracks
  · have hledger : (w.submit job).1.ledger inHand =
        { w.ledger inHand with
          held := Function.update (w.ledger inHand).held job.key (some job.generation)
          latest := Function.update (w.ledger inHand).latest job.key (some job.generation) } := by
      rw [h, ledger, map_lookup_insert, lookup_insert]
      rfl
    have hbusy' : job.key ∈ (w.ledger inHand).keys ∨ (w.ledger inHand).held job.key ≠ none := by
      refine hbusy.imp (tracks.active job.key).mp fun hpending => ?_
      obtain ⟨waiting, hwaiting⟩ := Finmap.mem_iff.mp hpending
      simp [ledger, hwaiting]
    have hstep := tracks.traced.step (Ledger.Step.supersede hnewer hbusy')
    rw [← hledger] at hstep
    refine ⟨fun other => ?_, ?_⟩
    · rw [hledger, h]
      exact tracks.active other
    · rw [h] at hstep ⊢
      exact hstep
  · have hledger : (w.submit job).1.ledger inHand =
        { w.ledger inHand with
          carried := (job.key, job.generation) ::ₘ (w.ledger inHand).carried
          latest := Function.update (w.ledger inHand).latest job.key (some job.generation) } := by
      have hcarried := carried_setLane (Lane.trySend_eq_some hsend).1
      rw [Job.tag] at hcarried
      rw [h, ledger, lookup_insert, setLane_pending, ledger, ← Multiset.cons_add, ← hcarried]
      rfl
    have hidle : job.key ∉ (w.ledger inHand).keys :=
      fun hmem => hactive ((tracks.active job.key).mpr hmem)
    have hunheld : (w.ledger inHand).held job.key = none := by
      simp [ledger, Finmap.lookup_eq_none.mpr hpending]
    have hstep := tracks.traced.step (Ledger.Step.accept hnewer hidle hunheld)
    rw [← hledger] at hstep
    refine ⟨fun other => ?_, ?_⟩
    · rw [hledger, h, Ledger.keys, Multiset.map_cons, Multiset.mem_cons, Finset.mem_insert]
      exact or_congr_right (tracks.active other)
    · rw [h] at hstep ⊢
      exact hstep

/-- A completion leaves the ledger, delivered if it is the newest of its key. -/
theorem acceptCompletion {result : RawCompletion Output} (tracks : Tracks history w {result.tag})
    (sound : w.Sound) :
    Tracks (history ++ ((w.acceptCompletion result).2.map fun done =>
      Action.delivered done.key done.generation).toList) (w.acceptCompletion result).1 0 := by
  have hcarried : (w.ledger {result.tag}).carried =
      (result.key, result.generation) ::ₘ w.carried := by
    rw [ledger, ← Multiset.singleton_add, add_comm]
    rfl
  have hrest : ({ w.ledger {result.tag} with carried := w.carried } : Ledger JobKey Nat) =
      ({ w with active := w.active.erase result.key } : WorkerRuntime Output).ledger 0 := by
    rw [ledger, ledger, add_zero]
    rfl
  have hactive : ∀ key, key ∈ w.active.erase result.key ↔
      key ∈ ({ w.ledger {result.tag} with carried := w.carried } : Ledger JobKey Nat).keys := by
    intro key
    have hnodup := tracks.traced.valid.nodup
    rw [Ledger.keys, hcarried, Multiset.map_cons, Multiset.nodup_cons] at hnodup
    rw [Finset.mem_erase, tracks.active key, Ledger.keys, hcarried, Multiset.map_cons,
      Multiset.mem_cons]
    constructor
    · exact fun h => h.2.resolve_left h.1
    · intro hmem
      exact ⟨fun heq => hnodup.1 (heq ▸ hmem), Or.inr hmem⟩
  have hpump : ∀ after, Ledger.Traced after
      ({ w.ledger {result.tag} with carried := w.carried } : Ledger JobKey Nat) →
      Tracks after (w.acceptCompletion result).1 0 := by
    intro after htraced
    refine Tracks.pumpKey ⟨?_, hrest ▸ htraced⟩ (sound.shrink (Finset.erase_subset _ _)) ?_
    · rw [← hrest]
      exact hactive
    · simp
  apply hpump
  by_cases hlatest : w.latest.lookup result.key = some result.generation
  · have hdone : (w.acceptCompletion result).2 =
        some ⟨result.key, result.generation, result.completion⟩ := by
      simp [WorkerRuntime.acceptCompletion, hlatest]
    rw [hdone]
    exact tracks.traced.step (Ledger.Step.deliver hcarried hlatest)
  · have hdone : (w.acceptCompletion result).2 = none := by
      simp [WorkerRuntime.acceptCompletion, hlatest]
    rw [hdone]
    exact tracks.traced.step (Ledger.Step.drop hcarried hlatest)

end Tracks

/-! ## Runs -/

theorem actions_concat (events : List (Event Output)) (event : Event Output) :
    actions (events ++ [event]) = actions events ++ event.action.toList := by
  rw [actions, List.filterMap_append, actions]
  cases h : event.action <;> simp [List.filterMap, h]

@[simp] theorem silent_action : (Event.silent : Event Output).action = none := rfl

def Caller.inShutdown : Caller Output → Bool
  | .stopping _ | .joining _ | .discarding => true
  | _ => false

/-- Before a shutdown the books are exact. -/
structure Open (history : List (Action JobKey Nat)) (s : System Output) : Prop where
  accepting : s.runtime.shuttingDown = false
  uncancelled : s.runtime.cancelled = false
  outside : s.caller.inShutdown = false
  tracks : Tracks history s.runtime s.caller.inHand

/-- How far a shutdown has come. -/
def Stage (w : WorkerRuntime Output) : Caller Output → Prop
  | .stopping .high => True
  | .joining .high => w.high.sender = false
  | .stopping .low => w.high.phase = .stopped
  | .joining .low => w.high.phase = .stopped ∧ w.low.sender = false
  | .discarding => w.high.phase = .stopped ∧ w.low.phase = .stopped
  | .accepting _ _ => False
  | _ => w.high.phase = .stopped ∧ w.low.phase = .stopped ∧ w.results.queue = [] ∧ w.active = ∅

/-- From a shutdown on, jobs are dropped behind the books' back and the history
stands still. -/
structure Closing (history : List (Action JobKey Nat)) (s : System Output) : Prop where
  refusing : s.runtime.shuttingDown = true
  unheld : s.runtime.pending = ∅
  nodup : (s.runtime.carried.map Prod.fst).Nodup
  tracked : ∀ key, key ∈ s.runtime.carried.map Prod.fst → key ∈ s.runtime.active
  stage : Stage s.runtime s.caller
  history : ∃ ledger, Ledger.Traced history ledger

namespace WorkerRuntime

variable {w : WorkerRuntime Output}

theorem carried_lane {priority : Priority} {lane : Lane Output} {results : ResultChannel Output}
    (step : LaneStep w.cancelled (w.lane priority) w.results lane results) :
    ({ w.setLane priority lane with results := results } : WorkerRuntime Output).carried =
        w.carried ∨
      w.cancelled = true ∧ ∃ tag, w.carried = tag ::ₘ
        ({ w.setLane priority lane with results := results } : WorkerRuntime Output).carried := by
  have hsplit : ∀ (lane : Lane Output) (results : ResultChannel Output),
      ({ w.setLane priority lane with results := results } : WorkerRuntime Output).carried =
        (if priority = .high then w.low else w.high).carried +
          (lane.carried + results.tags) := by
    intro lane results
    cases priority <;> simp only [carried, setLane, reduceCtorEq, if_true, if_false] <;> ac_rfl
  have hself : w.carried = (if priority = .high then w.low else w.high).carried +
      ((w.lane priority).carried + w.results.tags) := by
    cases priority <;> simp only [carried, WorkerRuntime.lane, reduceCtorEq, if_true, if_false] <;> ac_rfl
  rw [hsplit, hself]
  rcases step.carried with h | ⟨hflag, tag, h⟩
  · exact Or.inl (by rw [h])
  · exact Or.inr ⟨hflag, tag, by rw [h, Multiset.add_cons]⟩

theorem carried_receive {result : RawCompletion Output} {rest : List (RawCompletion Output)}
    (queue : w.results.queue = result :: rest) :
    w.carried = result.tag ::ₘ
      ({ w with results := { w.results with queue := rest } } : WorkerRuntime Output).carried := by
  simp only [carried, ResultChannel.tags, queue, List.map_cons, ← Multiset.cons_coe,
    Multiset.add_cons]

theorem submit_shuttingDown (w : WorkerRuntime Output) (job : Job Output) :
    (w.submit job).1.shuttingDown = w.shuttingDown ∧ (w.submit job).1.cancelled = w.cancelled := by
  rcases submit_cases w job with ⟨h, -⟩ | ⟨-, -, ⟨-, h⟩ | ⟨-, -, -, lane, -, h⟩⟩ <;> simp [h]

end WorkerRuntime

open WorkerRuntime

section

variable {history : List (Action JobKey Nat)} {s s' : System Output} {event : Event Output}

/-- A step before the shutdown, or the one that begins it. -/
theorem Open.step (hopen : Open history s) (sound : s.runtime.Sound) (step : Step s event s') :
    Open (history ++ event.action.toList) s' ∨ Closing (history ++ event.action.toList) s' := by
  obtain ⟨haccepting, huncancelled, houtside, htracks⟩ := hopen
  cases step with
  | @lane w caller priority lane results step =>
    left
    have hcarried := (carried_lane step).resolve_right fun h => by
      rw [huncancelled] at h
      exact absurd h.1 Bool.false_ne_true
    have hledger : ({ w.setLane priority lane with results := results } :
        WorkerRuntime Output).ledger caller.inHand = w.ledger caller.inHand := by
      rw [ledger, hcarried, ledger]
      simp
    refine ⟨by simpa using haccepting, by simpa using huncancelled, houtside, ?_, ?_⟩
    · intro key
      rw [hledger]
      simpa using htracks.active key
    · rw [hledger]
      simpa using htracks.traced
  | @submit w job =>
    left
    have hflags := submit_shuttingDown w job
    exact ⟨hflags.1.trans haccepting, hflags.2.trans huncancelled, rfl, htracks.submit job⟩
  | tryRecv | recvTimeout | pumpPending | timeout =>
    left
    rw [silent_action, Option.toList_none, List.append_nil]
    exact ⟨haccepting, huncancelled, rfl, htracks⟩
  | @receive w loop result rest queue =>
    left
    have hledger : ({ w with results := { w.results with queue := rest } } :
        WorkerRuntime Output).ledger {result.tag} = w.ledger 0 := by
      rw [ledger, ledger, carried_receive queue, add_zero, add_comm, Multiset.singleton_add]
    refine ⟨haccepting, huncancelled, rfl, fun key => ?_, ?_⟩
    · simp only [Caller.inHand, hledger]
      exact htracks.active key
    · simpa only [Caller.inHand, hledger, silent_action, Option.toList_none, List.append_nil]
        using htracks.traced
  | @accept w loop result done accepted =>
    left
    have hafter := htracks.acceptCompletion sound
    rw [accepted] at hafter
    exact ⟨by simpa [acceptCompletion] using haccepting,
      by simpa [acceptCompletion] using huncancelled, rfl, hafter⟩
  | @discard w loop result stale =>
    left
    have hafter := htracks.acceptCompletion sound
    rw [stale] at hafter
    exact ⟨by simpa [acceptCompletion] using haccepting,
      by simpa [acceptCompletion] using huncancelled, rfl, hafter⟩
  | @pump w loop key keys =>
    left
    rw [silent_action, Option.toList_none, List.append_nil]
    by_cases hactive : key ∈ w.active
    · rw [if_pos hactive]
      exact ⟨haccepting, huncancelled, rfl, htracks⟩
    · rw [if_neg hactive]
      exact ⟨by simpa using haccepting, by simpa using huncancelled, rfl,
        htracks.pumpKey sound hactive⟩
  | @pumped w loop =>
    left
    rw [silent_action, Option.toList_none, List.append_nil]
    cases loop <;> exact ⟨haccepting, huncancelled, rfl, htracks⟩
  | @shutdown w first =>
    right
    rw [silent_action, Option.toList_none, List.append_nil]
    have hnodup := htracks.traced.valid.nodup
    have hactive := htracks.active
    simp only [ledger, Ledger.keys, Caller.inHand, add_zero] at hnodup hactive
    exact ⟨rfl, rfl, hnodup, fun key hmem => (hactive key).mpr hmem, trivial, _, htracks.traced⟩
  | stop => exact absurd houtside (by simp [Caller.inShutdown])
  | joined => exact absurd houtside (by simp [Caller.inShutdown])
  | throwAway => exact absurd houtside (by simp [Caller.inShutdown])
  | clear => exact absurd houtside (by simp [Caller.inShutdown])

/-- An ended thread takes no step, so a shutdown does not fall back. -/
theorem Stage.lane {w : WorkerRuntime Output} {caller : Caller Output} {priority : Priority}
    {lane : Lane Output} {results : ResultChannel Output} (stage : Stage w caller)
    (step : LaneStep w.cancelled (w.lane priority) w.results lane results) :
    Stage { w.setLane priority lane with results := results } caller := by
  have hhigh : w.high.phase = .stopped → (w.setLane priority lane).high.phase = .stopped := by
    intro h
    cases priority with
    | high => exact absurd h step.not_stopped
    | low => exact h
  have hboth : w.high.phase = .stopped → w.low.phase ≠ .stopped := by
    intro h hlow
    cases priority with
    | high => exact absurd h step.not_stopped
    | low => exact absurd hlow step.not_stopped
  have hsender : ∀ other, (w.lane other).sender = false →
      ((w.setLane priority lane).lane other).sender = false := by
    intro other h
    rw [lane_setLane]
    split
    next heq =>
      subst heq
      exact step.sender.trans h
    next => exact h
  cases caller with
  | stopping other =>
    cases other with
    | high => trivial
    | low => exact hhigh stage
  | joining other =>
    cases other with
    | high => exact hsender .high stage
    | low => exact ⟨hhigh stage.1, hsender .low stage.2⟩
  | discarding => exact absurd stage.2 (hboth stage.1)
  | accepting => exact stage
  | ready => exact absurd stage.2.1 (hboth stage.1)
  | receiving => exact absurd stage.2.1 (hboth stage.1)
  | pumping => exact absurd stage.2.1 (hboth stage.1)

theorem carried_of_stopped {w : WorkerRuntime Output} (sound : w.Sound)
    (high : w.high.phase = .stopped) (low : w.low.phase = .stopped) (empty : w.results.queue = []) :
    w.carried = 0 := by
  have hhigh : w.high.queue = [] := sound.ended .high high
  have hlow : w.low.queue = [] := sound.ended .low low
  simp [carried, Lane.carried, Lane.queued, ResultChannel.tags, high, low, empty, hhigh, hlow,
    LanePhase.taken, LanePhase.executing]

theorem Closing.inHand (closing : Closing history s) : s.caller.inHand = 0 := by
  have hstage := closing.stage
  cases hcaller : s.caller <;> rw [hcaller] at hstage
  case accepting => exact absurd hstage id
  all_goals rfl

theorem Closing.step (closing : Closing history s) (sound : s.runtime.Sound)
    (step : Step s event s') : Closing (history ++ event.action.toList) s' := by
  obtain ⟨hrefusing, hunheld, hnodup, htracked, hstage, hhistory⟩ := closing
  cases step with
  | @lane w caller priority lane results step =>
    rw [silent_action, Option.toList_none, List.append_nil]
    have hle : ({ w.setLane priority lane with results := results } :
        WorkerRuntime Output).carried ≤ w.carried := by
      rcases carried_lane step with h | ⟨-, tag, h⟩
      · exact h.le
      · rw [h]
        exact Multiset.le_cons_self _ _
    have hmap := Multiset.map_le_map (f := Prod.fst) hle
    refine ⟨by simpa using hrefusing, by simpa using hunheld, Multiset.nodup_of_le hmap hnodup,
      fun key hmem => ?_, hstage.lane step, hhistory⟩
    simpa using htracked key (Multiset.mem_of_le hmap hmem)
  | @submit w job =>
    have hsame : w.submit job = (w, .shuttingDown) := by
      rw [submit, if_pos hrefusing]
    have hsilent : (Event.submitted job.key job.generation (w.submit job).2 :
        Event Output).action = none := by
      rw [hsame]
      rfl
    rw [hsilent, Option.toList_none, List.append_nil, hsame]
    exact ⟨hrefusing, hunheld, hnodup, htracked, hstage, hhistory⟩
  | tryRecv | recvTimeout | pumpPending | timeout =>
    rw [silent_action, Option.toList_none, List.append_nil]
    exact ⟨hrefusing, hunheld, hnodup, htracked, hstage, hhistory⟩
  | receive queue =>
    obtain ⟨-, -, hempty, -⟩ := hstage
    rw [queue] at hempty
    contradiction
  | accept | discard => exact absurd hstage id
  | @pump w loop key keys =>
    have hsame : w.pumpKey key = w := by
      rcases pumpKey_cases w key with h | ⟨job, lane, hlookup, -⟩
      · exact h
      · rw [hunheld, Finmap.lookup_empty] at hlookup
        contradiction
    rw [silent_action, Option.toList_none, List.append_nil, hsame, ite_self]
    exact ⟨hrefusing, hunheld, hnodup, htracked, hstage, hhistory⟩
  | @pumped w loop =>
    rw [silent_action, Option.toList_none, List.append_nil]
    cases loop <;> exact ⟨hrefusing, hunheld, hnodup, htracked, hstage, hhistory⟩
  | shutdown first =>
    rw [first] at hrefusing
    contradiction
  | @stop w priority =>
    rw [silent_action, Option.toList_none, List.append_nil]
    cases priority with
    | high => exact ⟨hrefusing, hunheld, hnodup, htracked, rfl, hhistory⟩
    | low => exact ⟨hrefusing, hunheld, hnodup, htracked, ⟨hstage, rfl⟩, hhistory⟩
  | @joined w priority ended =>
    rw [silent_action, Option.toList_none, List.append_nil]
    refine ⟨hrefusing, hunheld, hnodup, htracked, ?_, hhistory⟩
    cases priority with
    | high => exact ended
    | low => exact ⟨hstage.1, ended⟩
  | @throwAway w result rest queue =>
    rw [silent_action, Option.toList_none, List.append_nil]
    have hcarried := carried_receive queue
    rw [hcarried, Multiset.map_cons, Multiset.nodup_cons] at hnodup
    refine ⟨hrefusing, hunheld, hnodup.2, fun key hmem => htracked key ?_, hstage, hhistory⟩
    rw [hcarried, Multiset.map_cons]
    exact Multiset.mem_cons_of_mem hmem
  | @clear w empty =>
    rw [silent_action, Option.toList_none, List.append_nil]
    have hzero : w.carried = 0 := carried_of_stopped sound hstage.1 hstage.2 empty
    have hcarried : ({ w with active := ∅, latest := ∅ } : WorkerRuntime Output).carried = 0 :=
      hzero
    refine ⟨hrefusing, hunheld, ?_, ?_, ⟨hstage.1, hstage.2, empty, rfl⟩, hhistory⟩
    · rw [hcarried]
      simp
    · rw [hcarried]
      simp

end

/-- What holds after every run of the runtime. -/
theorem reaches_inv {highCapacity lowCapacity : Nat} {events : List (Event Output)}
    {s : System Output} (h : Reaches highCapacity lowCapacity events s) :
    s.runtime.Sound ∧ (Open (actions events) s ∨ Closing (actions events) s) := by
  refine h.history (fun events s => s.runtime.Sound ∧
    (Open (actions events) s ∨ Closing (actions events) s)) ?_ ?_
  · refine ⟨sound_withCapacities highCapacity lowCapacity, Or.inl ⟨rfl, rfl, rfl, ?_, ?_⟩⟩
    · intro key
      simp [System.initial, withCapacities, Caller.inHand, ledger, Ledger.keys, carried,
        Lane.spawn, Lane.carried, Lane.queued, LanePhase.taken, LanePhase.executing,
        ResultChannel.tags]
    · exact Ledger.traced_empty
  · intro events s event s' hinv hstep
    rw [actions_concat]
    refine ⟨hstep.sound hinv.1, ?_⟩
    rcases hinv.2 with hopen | hclosing
    · exact hopen.step hinv.1 hstep
    · exact Or.inr (hclosing.step hinv.1 hstep)

end HerdrContext.Worker
