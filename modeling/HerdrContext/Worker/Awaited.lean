import HerdrContext.Library.Requests
import HerdrContext.Worker.Protocol

/-! The runtime as a handler sees it, which submits jobs while the lane threads
go on: which answers it gets, and which result it may still expect. -/
namespace HerdrContext.Worker

open Library

variable {Output : Type}

/-- `accepted`, of `controller.rs`. -/
def SubmitStatus.accepted : SubmitStatus → Bool
  | .queued | .coalesced => true
  | _ => false

/-- A submission by the owner. -/
inductive Answers : System Output → Job Output → Event Output → SubmitStatus → System Output → Prop
  | submit {w : WorkerRuntime Output} {job : Job Output} :
    Answers ⟨w, .ready⟩ job (.submitted job.key job.generation (w.submit job).2) (w.submit job).2
      ⟨(w.submit job).1, .ready⟩

/-- A step of a lane thread while the owner makes no call. -/
inductive Moves : System Output → Event Output → System Output → Prop
  | lane {w : WorkerRuntime Output} {priority : Priority} {lane : Lane Output}
    {results : ResultChannel Output}
    (step : LaneStep w.cancelled (w.lane priority) w.results lane results) :
    Moves ⟨w, .ready⟩ .silent ⟨{ w.setLane priority lane with results := results }, .ready⟩

theorem Answers.step {s s' : System Output} {job : Job Output} {event : Event Output}
    {status : SubmitStatus} (h : Answers s job event status s') : Step s event s' := by
  cases h
  exact .submit

theorem Moves.step {s s' : System Output} {event : Event Output} (h : Moves s event s') :
    Step s event s' := by
  cases h with
  | lane step => exact .lane step

/-- The newest generation accepted for a key, its result not handed over yet. -/
structure Awaited (history : List (Action JobKey Nat)) (key : JobKey) (generation : Nat) : Prop where
  accepted : .accepted key generation ∈ history
  newest : ∀ other, .accepted key other ∈ history → other ≤ generation
  undelivered : .delivered key generation ∉ history

/-- Between two calls of the owner, before a shutdown. -/
structure Idle (history : List (Action JobKey Nat)) (s : System Output) : Prop where
  sound : s.runtime.Sound
  books : Open history s
  ready : s.caller = .ready

/-- The answers a history allows: behind a result still awaited a newer job is
never refused, and only newer jobs are accepted. -/
structure Allowed (history : List (Action JobKey Nat)) (job : Job Output) (event : Event Output)
    (status : SubmitStatus) : Prop where
  submitted : event = .submitted job.key job.generation status
  coalesced : ∀ generation, Awaited history job.key generation → generation < job.generation →
    status = .coalesced
  newer : status.accepted = true → ∀ other, .accepted job.key other ∈ history →
    other < job.generation
  fresh : status.accepted = true → .delivered job.key job.generation ∉ history

theorem idle_initial (highCapacity lowCapacity : Nat) :
    Idle [] (System.initial highCapacity lowCapacity : System Output) := by
  obtain ⟨hsound, hopen | hclosing⟩ := reaches_inv (Library.Run.refl :
    Reaches highCapacity lowCapacity [] (System.initial highCapacity lowCapacity : System Output))
  · exact ⟨hsound, hopen, rfl⟩
  · exact absurd hclosing.refusing Bool.false_ne_true

/-- What happened to the books in an event. -/
def Event.actions (event : Event Output) : List (Action JobKey Nat) := event.action.toList

theorem flatMap_actions (events : List (Event Output)) :
    events.flatMap Event.actions = Worker.actions events := by
  induction events with
  | nil => rfl
  | cons event events ih =>
    rw [List.flatMap_cons, ih, Event.actions, Worker.actions, Worker.actions, List.filterMap_cons]
    cases event.action <;> rfl

section

variable {history : List (Action JobKey Nat)} {s s' : System Output}

theorem Moves.idle {event : Event Output} (idle : Idle history s) (h : Moves s event s') :
    event.actions = [] ∧ Idle history s' := by
  cases h with
  | @lane w priority lane results step =>
    have hstep : Step ⟨w, .ready⟩ .silent
        ⟨{ w.setLane priority lane with results := results }, .ready⟩ := .lane step
    have hopen := idle.books.step idle.sound hstep
    rw [silent_action, Option.toList_none, List.append_nil] at hopen
    have haccepting : ({ w.setLane priority lane with results := results } :
        WorkerRuntime Output).shuttingDown = w.shuttingDown := by
      cases priority <;> rfl
    refine ⟨rfl, hstep.sound idle.sound, hopen.resolve_right fun hclosing => ?_, rfl⟩
    have hrefusing := hclosing.refusing
    rw [haccepting, idle.books.accepting] at hrefusing
    contradiction

/-- Where the result of an accepted job still is. -/
theorem Awaited.held (books : Open history s) {key : JobKey} {generation : Nat}
    (h : Awaited history key generation) :
    key ∈ s.runtime.active ∨ key ∈ s.runtime.pending := by
  have htraced := books.tracks.traced
  obtain ⟨newest, hnewest, hle⟩ := htraced.accepted_le h.accepted
  have heq : newest = generation := le_antisymm (h.newest _ (htraced.latest_accepted hnewest)) hle
  rw [heq] at hnewest
  rcases htraced.kept hnewest with hdelivered | hcarried | hheld
  · exact absurd hdelivered h.undelivered
  · exact Or.inl ((books.tracks.active key).mpr (Ledger.mem_keys.mpr ⟨generation, hcarried⟩))
  · right
    rw [← Finmap.lookup_isSome, ← Option.isSome_map]
    exact Option.isSome_iff_exists.mpr ⟨generation, hheld⟩

theorem Answers.allowed {job : Job Output} {event : Event Output} {status : SubmitStatus}
    (idle : Idle history s) (h : Answers s job event status s') :
    Allowed history job event status ∧ Idle (history ++ event.actions) s' := by
  cases h with
  | @submit w =>
    have hstep : Step ⟨w, .ready⟩ (.submitted job.key job.generation (w.submit job).2)
        ⟨(w.submit job).1, .ready⟩ := .submit
    have hopen := (idle.books.step idle.sound hstep).resolve_right fun hclosing => by
      have hrefusing := hclosing.refusing
      rw [(WorkerRuntime.submit_shuttingDown w job).1, idle.books.accepting] at hrefusing
      contradiction
    have htraced := idle.books.tracks.traced
    have hnewer : (w.submit job).2.accepted = true → ∀ other, .accepted job.key other ∈ history →
        other < job.generation := by
      intro haccepted other hother
      obtain ⟨newest, hnewest, hle⟩ := htraced.accepted_le hother
      rcases WorkerRuntime.submit_cases w job with ⟨-, hrefused⟩ | ⟨-, hlatest, -⟩
      · rcases hrefused with hrefused | hrefused | hrefused <;> rw [hrefused] at haccepted <;>
          contradiction
      · exact hle.trans_lt (hlatest newest hnewest)
    refine ⟨⟨rfl, ?_, hnewer, ?_⟩, hstep.sound idle.sound, hopen, rfl⟩
    · intro generation hawaited hlt
      have hbusy := hawaited.held idle.books
      rcases WorkerRuntime.submit_cases w job with
        ⟨-, hrefused⟩ | ⟨-, -, ⟨-, hcoalesced⟩ | ⟨hactive, hpending, -⟩⟩
      · have hlatest : ∀ last, w.latest.lookup job.key = some last → last < job.generation :=
          fun last hlast => (hawaited.newest last (htraced.latest_accepted hlast)).trans_lt hlt
        have hany : ¬ (w.latest.lookup job.key).any (fun last => job.generation ≤ last) = true := by
          cases hlookup : w.latest.lookup job.key with
          | none => simp
          | some last => simpa using hlatest last hlookup
        have haccepting : ¬ w.shuttingDown = true := by
          rw [idle.books.accepting]
          simp
        have hsubmit : (w.submit job).2 = .coalesced := by
          rw [WorkerRuntime.submit, if_neg haccepting, if_neg hany, if_pos hbusy]
        exact hsubmit
      · rw [hcoalesced]
      · exact absurd hbusy (not_or.mpr ⟨hactive, hpending⟩)
    · intro haccepted hdelivered
      exact lt_irrefl _ (hnewer haccepted _ (htraced.delivered_accepted hdelivered))

theorem acceptCompletion_kept (w : WorkerRuntime Output) (result : RawCompletion Output) :
    (w.acceptCompletion result).1.latest = w.latest ∧
      (w.acceptCompletion result).1.shuttingDown = w.shuttingDown := by
  rcases WorkerRuntime.pumpKey_cases { w with active := w.active.erase result.key } result.key
    with hpumped | ⟨job, lane, -, -, hpumped⟩
  · rw [WorkerRuntime.acceptCompletion, hpumped]
    exact ⟨rfl, rfl⟩
  · rw [WorkerRuntime.acceptCompletion, hpumped]
    cases job.priority <;> exact ⟨rfl, rfl⟩

/-- What is handed over was awaited. -/
theorem awaited_of_delivered {done : CompletedJob Output} (books : Open history s)
    (h : Step s (.delivered done) s') : Awaited history done.key done.generation := by
  have htraced := books.tracks.traced
  cases h with
  | @accept w loop result done accepted =>
    have hcurrent : w.latest.lookup result.key = some result.generation ∧
        done = ⟨result.key, result.generation, result.completion⟩ := by
      obtain ⟨hlookup, hdone⟩ := Option.ite_none_right_eq_some.mp accepted
      rw [← (acceptCompletion_kept w result).1]
      exact ⟨hlookup, (Option.some.inj hdone).symm⟩
    obtain ⟨hlookup, rfl⟩ := hcurrent
    have hcarried : (result.key, result.generation) ∈
        (w.ledger (Caller.inHand (.accepting result loop))).carried := by
      simp [WorkerRuntime.ledger, Caller.inHand, RawCompletion.tag]
    refine ⟨htraced.latest_accepted hlookup, fun other hother => ?_, fun hdelivered =>
      (htraced.delivered_gone hdelivered).1 hcarried⟩
    obtain ⟨newest, hnewest, hle⟩ := htraced.accepted_le hother
    exact hle.trans (Option.some.inj (hlookup.symm.trans hnewest)).ge

/-- The owner is back from the call that hands a result over. -/
theorem idle_of_delivered {done : CompletedJob Output} (sound : s.runtime.Sound)
    (books : Open history s) (h : Step s (.delivered done) s') :
    Idle (history ++ [.delivered done.key done.generation]) s' := by
  refine ⟨h.sound sound, (books.step sound h).resolve_right fun hclosing => ?_, ?_⟩
  · have hrefusing := hclosing.refusing
    have haccepting := books.accepting
    cases h with
    | @accept w loop result done accepted =>
      rw [(acceptCompletion_kept w result).2, haccepting] at hrefusing
      contradiction
  · cases h
    rfl

end

end HerdrContext.Worker
