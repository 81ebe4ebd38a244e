import HerdrContext.App.PaneInput

/-! What the pane input queue keeps over every run: one job at a time, its
references in order, and no reference lost without a word. -/
namespace HerdrContext.App

open Library Worker

/-! ## The jobs in the runtime -/

/-- One of at most one is split off. -/
theorem split_of_length_le_one {α : Type} {all begun : List α} {rest : Multiset α}
    (hall : all.length ≤ 1) (h : rest + (begun : Multiset α) = (all : Multiset α)) :
    ∃ left, all = begun ++ left ∧ rest = (left : Multiset α) := by
  have hcard := congrArg Multiset.card h
  rw [Multiset.card_add, Multiset.coe_card, Multiset.coe_card] at hcard
  cases begun with
  | nil => exact ⟨all, rfl, by simpa using h⟩
  | cons first begun =>
    rw [List.length_cons] at hcard
    have hbegun : begun = [] := List.length_eq_zero_iff.mp (by omega)
    have hrest : rest = 0 := Multiset.card_eq_zero.mp (by omega)
    rw [hbegun, hrest, zero_add] at h
    refine ⟨[], ?_, hrest⟩
    rw [List.append_nil, hbegun]
    exact List.perm_singleton.mp (Multiset.coe_eq_coe.mp h).symm

variable {key : JobKey} {history : List (Action JobKey Nat)} {w w' : PaneWorkers}

theorem begun_of_flows {untyped : List Nat} {queued : Multiset (JobKey × Nat)}
    {begun : List (JobKey × Nat)} (hlength : untyped.length ≤ 1)
    (h : queued + (begun : Multiset (JobKey × Nat)) =
      (untyped.map fun generation => (key, generation) : List (JobKey × Nat))) :
    ∃ later, untyped = begun.map Prod.snd ++ later ∧
      queued = (later.map fun generation => (key, generation) : List (JobKey × Nat)) := by
  have ⟨left, hall, hrest⟩ := split_of_length_le_one (by rwa [List.length_map]) h
  have ⟨first, later, huntyped, hbegun, hlater⟩ := List.map_eq_append_iff.mp hall
  refine ⟨later, ?_, ?_⟩
  · rw [huntyped, ← hbegun, List.map_map]
    simp
  · rw [hrest, hlater]

/-- The pane input jobs of a history and where their tasks are. -/
structure Typing (key : JobKey) (history : List (Action JobKey Nat)) (w : PaneWorkers) : Prop where
  sound : w.system.runtime.Sound
  books : Open history w.system
  accepted : ∀ other generation, .accepted other generation ∈ history → other.kind = .paneInput →
    other = key ∧ generation ∈ w.tasks.map Prod.fst
  tasked : ∀ generation ∈ w.tasks.map Prod.fst, .accepted key generation ∈ history
  sorted : (w.tasks.map Prod.fst).Pairwise (· < ·)
  unheld : ∀ other job, w.system.runtime.pending.lookup other = some job → other.kind ≠ .paneInput
  waiting : ∃ untyped, w.tasks.map Prod.fst = w.typed ++ untyped ∧
    w.system.runtime.queued.filter IsPaneTag =
      (untyped.map fun generation => (key, generation) : List (JobKey × Nat))

theorem answers_eq {Output : Type} {s s' : System Output} {job : Job Output}
    {event : Event Output} {status : SubmitStatus} (h : Answers s job event status s') :
    s.caller = .ready ∧ s' = ⟨(s.runtime.submit job).1, .ready⟩ ∧
      event = .submitted job.key job.generation status ∧ status = (s.runtime.submit job).2 := by
  cases h
  exact ⟨rfl, rfl, rfl, rfl⟩

theorem record_system (w : PaneWorkers) (s' : System PaneOutput) (request : PaneJob)
    (status : SubmitStatus) : ((w.advance s').record request status).system = s' := by
  unfold PaneWorkers.record
  split <;> rfl

namespace Typing

theorem length_untyped_le (typing : Typing key history w) {untyped : List Nat}
    (h : w.system.runtime.queued.filter IsPaneTag =
      (untyped.map fun generation => (key, generation) : List (JobKey × Nat))) :
    untyped.length ≤ 1 := by
  have hle : w.system.runtime.queued ≤ w.system.ledger.carried := by
    simp only [System.ledger, WorkerRuntime.ledger, WorkerRuntime.carried_eq, add_assoc]
    exact Multiset.le_add_right _ _
  have hnodup : (w.system.ledger.carried.map Prod.fst).Nodup := typing.books.tracks.traced.valid.nodup
  have hkeys := Multiset.nodup_of_le
    (Multiset.map_le_map ((Multiset.filter_le IsPaneTag _).trans hle)) hnodup
  rw [h, Multiset.map_coe, Multiset.coe_nodup, List.map_map] at hkeys
  have hreplicate : untyped.map (Prod.fst ∘ fun generation => (key, generation)) =
      List.replicate untyped.length key := by
    rw [List.eq_replicate_iff]
    simp
  rw [hreplicate] at hkeys
  exact List.nodup_replicate.mp hkeys

/-- The runtime goes on, without another pane input job. -/
theorem advance (typing : Typing key history w) {event : Event PaneOutput}
    {s' : System PaneOutput} (step : Worker.Step w.system event s')
    (running : s'.runtime.shuttingDown = false)
    (other : ∀ key generation status, event = .submitted key generation status →
      key.kind ≠ .paneInput) :
    Typing key (history ++ event.actions) (w.advance s') := by
  have hfeeds := step.feeds typing.books.uncancelled
  have hbooks : Open (history ++ event.actions) s' := by
    apply (typing.books.step typing.sound step).resolve_right
    intro hclosing
    have hrefusing := hclosing.refusing
    rw [running] at hrefusing
    contradiction
  have hforeign : ∀ key generation, .accepted key generation ∈ event.actions →
      key.kind ≠ .paneInput := by
    intro key generation hmem
    cases event with
    | silent => simp [Event.actions, Event.action] at hmem
    | delivered done => simp [Event.actions, Event.action] at hmem
    | submitted submitted submittedGeneration status =>
      have hkind := other _ _ _ rfl
      cases status <;> simp [Event.actions, Event.action] at hmem
      all_goals rwa [hmem.1]
  constructor
  case sound => exact step.sound typing.sound
  case books => exact hbooks
  case accepted =>
    intro other generation hmem hkind
    rcases List.mem_append.mp hmem with hmem | hmem
    · exact typing.accepted other generation hmem hkind
    · exact absurd hkind (hforeign other generation hmem)
  case tasked =>
    exact fun generation hmem => List.mem_append_left _ (typing.tasked generation hmem)
  case sorted => exact typing.sorted
  case unheld =>
    intro held job hlookup
    rcases hfeeds.pending held job hlookup with hbefore | hevent
    · exact typing.unheld held job hbefore
    · exact other _ _ _ hevent
  case waiting =>
    obtain ⟨untyped, htasks, hqueued⟩ := typing.waiting
    obtain ⟨added, hflows, hadded⟩ := hfeeds.flows
    have hnone : added.filter IsPaneTag = 0 := by
      rw [Multiset.filter_eq_nil]
      intro tag htag hpane
      rcases hadded tag htag with ⟨held, job, hlookup, heq⟩ | hevent
      · rw [heq] at hpane
        apply typing.unheld held job hlookup
        rwa [← typing.sound.keyed held job hlookup]
      · exact other _ _ _ hevent hpane
    have hsplit := congrArg (Multiset.filter IsPaneTag) hflows
    rw [Multiset.filter_add, Multiset.filter_add, hnone, add_zero, hqueued, Multiset.filter_coe]
      at hsplit
    obtain ⟨later, huntyped, hlater⟩ := begun_of_flows (typing.length_untyped_le hqueued) hsplit
    refine ⟨later, ?_, hlater⟩
    change w.tasks.map Prod.fst = w.typed ++ _ ++ later
    rw [htasks, huntyped, List.append_assoc]

/-- Without a job that is awaited, the key is idle. -/
theorem idle (typing : Typing key history w) (hkind : key.kind = .paneInput)
    (settled : ∀ generation, .accepted key generation ∈ history →
      .delivered key generation ∈ history) :
    key ∉ w.system.runtime.active ∧ key ∉ w.system.runtime.pending := by
  have htraced := typing.books.tracks.traced
  constructor
  · intro hactive
    have ⟨generation, hcarried⟩ := Ledger.mem_keys.mp ((typing.books.tracks.active key).mp hactive)
    exact (htraced.delivered_gone (settled generation (htraced.carried_accepted hcarried))).1 hcarried
  · intro hpending
    have ⟨job, hlookup⟩ := Finmap.mem_iff.mp hpending
    exact typing.unheld key job hlookup hkind

/-- With an idle key, no pane input job waits. -/
theorem untyped_of_idle (typing : Typing key history w) (hactive : key ∉ w.system.runtime.active)
    {untyped : List Nat} (h : w.system.runtime.queued.filter IsPaneTag =
      (untyped.map fun generation => (key, generation) : List (JobKey × Nat))) : untyped = [] := by
  apply List.eq_nil_iff_forall_not_mem.mpr
  intro generation hmem
  have hqueued : (key, generation) ∈ w.system.runtime.queued := by
    apply Multiset.mem_of_mem_filter (p := IsPaneTag)
    rw [h, Multiset.mem_coe]
    exact List.mem_map_of_mem hmem
  apply hactive
  rw [typing.books.tracks.active]
  apply Ledger.mem_keys.mpr ⟨generation, ?_⟩
  simp only [WorkerRuntime.ledger, WorkerRuntime.carried_eq, Multiset.mem_add]
  exact Or.inl (Or.inl (Or.inl hqueued))

/-- A job for an idle key is refused, or waits in its lane. -/
theorem submit (typing : Typing key history w) {request : PaneJob}
    (hkey : request.job.key = key) (hkind : key.kind = .paneInput)
    (settled : ∀ generation, .accepted key generation ∈ history →
      .delivered key generation ∈ history)
    {event : Event PaneOutput} {status : SubmitStatus} {s' : System PaneOutput}
    (answers : Answers w.system request.job event status s') :
    Typing key (history ++ event.actions) ((w.advance s').record request status) ∧
      (event.actions = if status.accepted then [.accepted key request.job.generation] else []) ∧
      (status.accepted = true → .delivered key request.job.generation ∉ history) := by
  obtain ⟨hactive, hpending⟩ := typing.idle hkind settled
  obtain ⟨hready, hs', hevent, hstatus⟩ := answers_eq answers
  obtain ⟨hallowed, hidle⟩ := answers.allowed ⟨typing.sound, typing.books, hready⟩
  rcases WorkerRuntime.submit_cases w.system.runtime request.job with
    ⟨hsame, hrefused⟩ | ⟨_, _, ⟨hbusy, _⟩ | ⟨_, _, _, lane, hsend, hqueued⟩⟩
  · have hrejected : status.accepted = false ∧ event.actions = [] := by
      rw [hevent, hstatus]
      rcases hrefused with h | h | h <;> rw [h] <;> exact ⟨rfl, rfl⟩
    have hsystem : s' = w.system := by
      rw [hs', hsame, ← hready]
    have hworkers : (w.advance s').record request status = w := by
      rw [PaneWorkers.record, hrejected.1, hsystem]
      simp [PaneWorkers.advance, WorkerRuntime.begun]
    rw [hworkers, hrejected.1, hrejected.2, List.append_nil]
    exact ⟨typing, rfl, fun h => absurd h Bool.false_ne_true⟩
  · rw [hkey] at hbusy
    exact absurd hbusy (not_or.mpr ⟨hactive, hpending⟩)
  · have haccepted : status = .queued := by rw [hstatus, hqueued]
    have hactions : event.actions = [.accepted key request.job.generation] := by
      rw [hevent, haccepted, ← hkey]
      rfl
    rw [hactions] at hidle ⊢
    rw [haccepted] at hallowed ⊢
    refine ⟨?_, rfl, fun h => hkey ▸ hallowed.fresh h⟩
    constructor
    case sound => exact hidle.sound
    case books => exact hidle.books
    case accepted =>
      intro other generation hmem hpane
      simp only [PaneWorkers.record, PaneWorkers.advance, SubmitStatus.accepted, if_true,
        List.map_append, List.mem_append]
      rcases List.mem_append.mp hmem with hmem | hmem
      · obtain ⟨hother, htask⟩ := typing.accepted other generation hmem hpane
        exact ⟨hother, Or.inl htask⟩
      · cases List.mem_singleton.mp hmem
        exact ⟨rfl, Or.inr (List.mem_singleton_self _)⟩
    case tasked =>
      intro generation hmem
      rcases List.mem_append.mp (List.map_append ▸ hmem) with hmem | hmem
      · exact List.mem_append_left _ (typing.tasked generation hmem)
      · rw [List.mem_singleton.mp hmem]
        exact List.mem_append_right _ (List.mem_singleton_self _)
    case sorted =>
      change ((w.tasks ++ [_]).map Prod.fst).Pairwise (· < ·)
      rw [List.map_append, List.pairwise_append]
      refine ⟨typing.sorted, List.pairwise_singleton _ _, fun old hold new hnew => ?_⟩
      rw [List.mem_singleton.mp hnew]
      apply hallowed.newer rfl
      rw [hkey]
      exact typing.tasked old hold
    case unheld =>
      intro held job hlookup
      apply typing.unheld held job
      change s'.runtime.pending.lookup held = some job at hlookup
      rw [hs', hqueued] at hlookup
      simpa using hlookup
    case waiting =>
      obtain ⟨untyped, htasks, hbefore⟩ := typing.waiting
      rw [typing.untyped_of_idle hactive hbefore, List.append_nil] at htasks
      rw [typing.untyped_of_idle hactive hbefore] at hbefore
      have hflows : w.system.runtime.Flows s'.runtime {request.job.tag} := by
        rw [hs', hqueued]
        exact WorkerRuntime.flows_setLane (Lane.flows_trySend hsend) rfl rfl
      have hpane : IsPaneTag request.job.tag := by
        rw [IsPaneTag, Job.tag, hkey, hkind]
      have hsplit := congrArg (Multiset.filter IsPaneTag) hflows
      rw [Multiset.filter_add, Multiset.filter_add, hbefore, Multiset.filter_singleton,
        if_pos hpane, Multiset.filter_coe, List.map_nil, Multiset.coe_nil, zero_add, Job.tag, hkey]
        at hsplit
      obtain ⟨later, huntyped, hlater⟩ : ∃ later, [request.job.generation] = _ ++ later ∧ _ :=
        begun_of_flows (by simp) hsplit
      refine ⟨later, ?_, hlater⟩
      change (w.tasks ++ [_]).map Prod.fst = w.typed ++ _ ++ later
      rw [List.map_append, htasks, List.append_assoc]
      exact congrArg (w.typed ++ ·) huntyped

/-- The threads move on while a handler runs. -/
theorem moves (typing : Typing key history w) (ready : w.system.caller = .ready)
    {events : List (Event PaneOutput)} (run : Run PaneMoves w events w') :
    Typing key history w' ∧ w'.system.caller = .ready ∧ events.flatMap Event.actions = [] ∧
      w'.tasks = w.tasks := by
  induction run with
  | refl => exact ⟨typing, ready, rfl, rfl⟩
  | @step events w w' event run last ih =>
    have ⟨typing, ready, hactions, htasks⟩ := ih
    cases last with
    | lane hmoves =>
      have ⟨hsilent, hidle⟩ := hmoves.idle ⟨typing.sound, typing.books, ready⟩
      have hevent : event = .silent := by
        generalize w.system = s at hmoves
        cases hmoves
        rfl
      have hadvanced := typing.advance hmoves.step hidle.books.accepting (by simp [hevent])
      rw [hsilent, List.append_nil] at hadvanced
      refine ⟨hadvanced, hidle.ready, ?_, htasks⟩
      rw [List.flatMap_append, hactions, List.flatMap_singleton, hsilent, List.append_nil]

end Typing

/-! ## The queue -/

/-- References that are accepted and not thrown away, in order. -/
def PaneApp.kept (app : PaneApp) : List String := app.workers.references ++ app.pane.queue

/-- Something is said below the tree of files. -/
def PaneInput.Noticed (pane : PaneInput) : Prop := ∃ message, pane.files = some (some message)

/-- The queue and its job, also while a handler starts the next one. -/
structure Feeding (history : List (Action JobKey Nat)) (app : PaneApp) : Prop where
  typing : Typing app.pane.key history app.workers
  unseen : app.pane.files = none → app.pane.queue = [] ∧ app.pane.running = false
  short : app.pane.queue.length ≤ maxPendingPaneInputs
  outstanding : app.pane.running = true → .accepted app.pane.key app.pane.generation ∈ history ∧
    .delivered app.pane.key app.pane.generation ∉ history
  settled : ∀ generation, .accepted app.pane.key generation ∈ history →
    .delivered app.pane.key generation ∈ history ∨
      app.pane.running = true ∧ generation = app.pane.generation
  newest : ∀ generation, .accepted app.pane.key generation ∈ history →
    generation ≤ app.pane.generation
  bounded : app.pane.generation ≤ WorkerRuntime.usizeMax

/-- Nothing waits without a job. -/
def Fed (history : List (Action JobKey Nat)) (app : PaneApp) : Prop :=
  Feeding history app ∧ (app.pane.queue ≠ [] → app.pane.running = true)

/-- References stay in order, or the queue is cleared with a notice. -/
def Keeps (before : List String) (app : PaneApp) : Prop :=
  app.kept = before ∨ app.pane.queue = [] ∧ app.kept <+: before ∧ app.pane.Noticed

theorem setNotice_fst (pane : PaneInput) (notice : Option String) :
    (pane.setNotice notice).1 = { pane with files := pane.files.map fun _ => notice } := by
  unfold PaneInput.setNotice
  cases pane with
  | mk _ _ files _ _ _ => cases files <;> rfl

variable {pane pane' : PaneInput} {dirty : Bool} {events : List (Event PaneOutput)}

theorem Feeding.onto (feeding : Feeding history ⟨pane, w⟩)
    (typing : Typing pane.key history w') : Feeding history ⟨pane, w'⟩ := { feeding with typing }

/-- Without a job, the queue may be cleared with a notice. -/
theorem Feeding.clear (feeding : Feeding history ⟨pane, w⟩) (stopped : pane.running = false)
    (files : pane.files ≠ none) {generation : Nat} (hle : pane.generation ≤ generation)
    (bounded : generation ≤ WorkerRuntime.usizeMax) (message : String) :
    Fed history ⟨({ pane with generation, queue := [] }.setNotice (some message)).1, w⟩ ∧
      ({ pane with generation, queue := [] }.setNotice (some message)).1.Noticed := by
  rw [setNotice_fst]
  have ⟨shown, hshown⟩ := Option.ne_none_iff_exists'.mp files
  refine ⟨⟨?_, fun hne => absurd rfl hne⟩, message, by rw [hshown]; rfl⟩
  constructor
  case typing => exact feeding.typing
  case unseen => exact fun _ => ⟨rfl, stopped⟩
  case short => exact Nat.zero_le _
  case outstanding => exact fun hrunning => absurd (stopped.symm.trans hrunning) Bool.false_ne_true
  case settled =>
    intro old hold
    rcases feeding.settled old hold with hdelivered | ⟨hrunning, _⟩
    · exact Or.inl hdelivered
    · exact absurd (stopped.symm.trans hrunning) Bool.false_ne_true
  case newest => exact fun old hold => (feeding.newest old hold).trans hle
  case bounded => exact bounded

/-- The job of the first reference is accepted. -/
theorem Feeding.ask (feeding : Feeding history ⟨pane, w⟩) (stopped : pane.running = false)
    {reference : String} {rest : List String} (hqueue : pane.queue = reference :: rest)
    {generation : Nat} (hle : pane.generation ≤ generation)
    (bounded : generation ≤ WorkerRuntime.usizeMax)
    (typing : Typing pane.key (history ++ [.accepted pane.key generation]) w')
    (fresh : .delivered pane.key generation ∉ history) :
    Fed (history ++ [.accepted pane.key generation])
      ⟨{ pane with generation, queue := rest, running := true }, w'⟩ := by
  have hfiles : pane.files ≠ none := by
    intro hnone
    have hempty : pane.queue = [] := (feeding.unseen hnone).1
    rw [hqueue] at hempty
    contradiction
  refine ⟨?_, fun _ => rfl⟩
  constructor
  case typing => exact typing
  case unseen => exact fun hnone => absurd hnone hfiles
  case short =>
    have hshort : pane.queue.length ≤ maxPendingPaneInputs := feeding.short
    rw [hqueue, List.length_cons] at hshort
    exact Nat.le_of_succ_le hshort
  case outstanding =>
    refine fun _ => ⟨List.mem_append_right _ (List.mem_singleton_self _), fun hmem => ?_⟩
    rcases List.mem_append.mp hmem with hmem | hmem
    · exact fresh hmem
    · cases List.mem_singleton.mp hmem
  case settled =>
    intro old hold
    rcases List.mem_append.mp hold with hold | hold
    · rcases feeding.settled old hold with hdelivered | ⟨hrunning, _⟩
      · exact Or.inl (List.mem_append_left _ hdelivered)
      · exact absurd (stopped.symm.trans hrunning) Bool.false_ne_true
    · cases List.mem_singleton.mp hold
      exact Or.inr ⟨rfl, rfl⟩
  case newest =>
    intro old hold
    rcases List.mem_append.mp hold with hold | hold
    · exact (feeding.newest old hold).trans hle
    · cases List.mem_singleton.mp hold
      exact le_refl _
  case bounded => exact bounded

theorem kept_of_tasks (h : w'.tasks = w.tasks) (pane : PaneInput) :
    PaneApp.kept ⟨pane, w'⟩ = PaneApp.kept ⟨pane, w⟩ := by
  simp only [PaneApp.kept, PaneWorkers.references, h]

theorem cleared_queue (pane : PaneInput) (generation : Nat) (notice : Option String) :
    ({ pane with generation, queue := [] }.setNotice notice).1.queue = [] := by
  rw [setNotice_fst]

/-- References in tasks stay where they are when the queue is cleared. -/
theorem cleared_kept (h : w'.tasks = w.tasks) (pane : PaneInput) (generation : Nat)
    (notice : Option String) :
    PaneApp.kept ⟨({ pane with generation, queue := [] }.setNotice notice).1, w'⟩ <+:
      PaneApp.kept ⟨pane, w⟩ := by
  rw [PaneApp.kept, cleared_queue, List.append_nil, PaneApp.kept, PaneWorkers.references, h]
  exact List.prefix_append _ _

theorem Feeding.startNext (feeding : Feeding history ⟨pane, w⟩) (ready : w.system.caller = .ready)
    (runs : pane.startNext.Runs PaneAnswers PaneMoves w events (pane', dirty) w') :
    Fed (history ++ events.flatMap Event.actions) ⟨pane', w'⟩ ∧
      Keeps (PaneApp.kept ⟨pane, w⟩) ⟨pane', w'⟩ ∧ (pane.Noticed → pane'.Noticed) ∧
      w'.system.caller = .ready := by
  unfold PaneInput.startNext at runs
  split at runs
  next hrunning =>
    have ⟨hresult, hmoves⟩ := runs.of_done
    cases hresult
    have ⟨typing, hready, hactions, htasks⟩ := feeding.typing.moves ready hmoves
    rw [hactions, List.append_nil]
    exact ⟨⟨feeding.onto typing, fun _ => hrunning⟩, Or.inl (kept_of_tasks htasks pane), id,
      hready⟩
  next hstopped =>
    have stopped : pane.running = false := Bool.eq_false_iff.mpr hstopped
    split at runs
    next hempty =>
      have ⟨hresult, hmoves⟩ := runs.of_done
      cases hresult
      have ⟨typing, hready, hactions, htasks⟩ := feeding.typing.moves ready hmoves
      rw [hactions, List.append_nil]
      exact ⟨⟨feeding.onto typing, fun hne => absurd hempty hne⟩,
        Or.inl (kept_of_tasks htasks pane), id,
      hready⟩
    next reference rest hqueue =>
      have hfiles : pane.files ≠ none := by
        intro hnone
        have hempty : pane.queue = [] := (feeding.unseen hnone).1
        rw [hqueue] at hempty
        contradiction
      split at runs
      next =>
        have ⟨hresult, hmoves⟩ := runs.of_done
        have ⟨typing, hready, hactions, htasks⟩ := feeding.typing.moves ready hmoves
        have ⟨hfed, hnoticed⟩ := (feeding.onto typing).clear stopped hfiles (le_refl _)
          feeding.bounded "Herdr pane input is unavailable"
        rw [hactions, List.append_nil]
        have hpane : pane' = ({ pane with queue := [] }.setNotice
            (some "Herdr pane input is unavailable")).1 := congrArg Prod.fst hresult
        rw [hpane]
        exact ⟨hfed, Or.inr ⟨cleared_queue _ _ _, cleared_kept htasks _ _ _, hnoticed⟩,
          fun _ => hnoticed, hready⟩
      next =>
        have ⟨before, event, after, reply, asked, answered, hevents, hbefore, hanswer, hrest⟩ :=
          runs.of_ask
        have ⟨hresult, hafter⟩ := hrest.of_done
        have ⟨typing, hready, hactions, htasks⟩ := feeding.typing.moves ready hbefore
        have settled : ∀ generation, .accepted pane.key generation ∈ history →
            .delivered pane.key generation ∈ history := by
          intro generation haccepted
          rcases feeding.settled generation haccepted with hdelivered | ⟨hrunning, _⟩
          · exact hdelivered
          · exact absurd (stopped.symm.trans hrunning) Bool.false_ne_true
        cases hanswer with
        | @submit s' answers =>
          have ⟨hsubmitted, hevent, hfresh⟩ := typing.submit rfl rfl settled answers
          have ⟨_, hs', _, _⟩ := answers_eq answers
          have ⟨typing, hready, hsilent, hrecorded⟩ :=
            hsubmitted.moves (by rw [record_system, hs']) hafter
          have hall : events.flatMap Event.actions = event.actions := by
            rw [hevents, List.flatMap_append, List.flatMap_cons, hactions, hsilent,
              List.nil_append, List.append_nil]
          have hle := WorkerRuntime.le_saturatingAdd feeding.bounded
          rw [hall]
          cases haccepted : reply.accepted with
          | true =>
            rw [haccepted] at hresult hevent
            cases hresult
            rw [if_pos rfl] at hevent
            rw [hevent] at typing ⊢
            refine ⟨feeding.ask stopped hqueue hle (Nat.min_le_right _ _) typing
              (hfresh haccepted), Or.inl ?_, id, hready⟩
            have hjobs : w'.tasks = w.tasks ++
                [(WorkerRuntime.saturatingAdd pane.generation 1, reference)] := by
              rw [hrecorded, PaneWorkers.record, if_pos haccepted, ← htasks]
              rfl
            simp only [PaneApp.kept, PaneWorkers.references, hjobs, hqueue, List.map_append,
              List.map_singleton, List.append_assoc, List.singleton_append]
          | false =>
            rw [haccepted] at hresult hevent
            rw [if_neg Bool.false_ne_true] at hevent
            rw [hevent, List.append_nil] at typing ⊢
            have ⟨hfed, hnoticed⟩ := (feeding.onto typing).clear stopped hfiles hle
              (Nat.min_le_right _ _) "Herdr pane input queue is unavailable"
            have hsame : w'.tasks = w.tasks := by
              rw [hrecorded, PaneWorkers.record, haccepted, if_neg Bool.false_ne_true, ← htasks]
              rfl
            have hpane := congrArg Prod.fst hresult
            simp only at hpane
            rw [hpane]
            exact ⟨hfed, Or.inr ⟨cleared_queue _ _ _, cleared_kept hsame _ _ _, hnoticed⟩,
              fun _ => hnoticed, hready⟩

theorem Fed.moves (fed : Fed history ⟨pane, w⟩) (ready : w.system.caller = .ready)
    (run : Run PaneMoves w events w') :
    Fed (history ++ events.flatMap Event.actions) ⟨pane, w'⟩ ∧
      PaneApp.kept ⟨pane, w'⟩ = PaneApp.kept ⟨pane, w⟩ := by
  have ⟨typing, _, hactions, htasks⟩ := fed.1.typing.moves ready run
  rw [hactions, List.append_nil]
  exact ⟨⟨fed.1.onto typing, fed.2⟩, kept_of_tasks htasks pane⟩

theorem Feeding.notice (feeding : Feeding history ⟨pane, w⟩) (notice : Option String) :
    Feeding history ⟨(pane.setNotice notice).1, w⟩ := by
  rw [setNotice_fst]
  exact { feeding with unseen := fun hnone => feeding.unseen (Option.map_eq_none_iff.mp hnone) }

theorem Fed.send (fed : Fed history ⟨pane, w⟩) (files : pane.files ≠ none)
    (ready : w.system.caller = .ready) {reference : String}
    (runs : (pane.sendFileReference reference).Runs PaneAnswers PaneMoves w events (pane', dirty)
      w') :
    Fed (history ++ events.flatMap Event.actions) ⟨pane', w'⟩ ∧
      Keeps (PaneApp.kept ⟨pane, w⟩ ++ if pane.accepts then [reference] else []) ⟨pane', w'⟩ := by
  unfold PaneInput.sendFileReference at runs
  split at runs
  next haccepts =>
    rw [if_pos haccepts]
    have hroom : pane.queue.length < maxPendingPaneInputs := of_decide_eq_true haccepts
    have hpushed : Feeding history ⟨{ pane with queue := pane.queue ++ [reference] }, w⟩ := {
      fed.1 with
      unseen := fun hnone => absurd hnone files
      short := by
        rw [List.length_append]
        exact hroom }
    have ⟨hfed, hkeeps, _, _⟩ := hpushed.startNext ready runs
    refine ⟨hfed, ?_⟩
    rwa [PaneApp.kept, ← List.append_assoc] at hkeeps
  next hfull =>
    rw [if_neg hfull, List.append_nil]
    have ⟨hresult, hmoves⟩ := runs.of_done
    have hpane := congrArg Prod.fst hresult
    simp only at hpane
    rw [hpane]
    have hnoticed : Fed history ⟨(pane.setNotice (some "Herdr pane input queue is full")).1, w⟩ := by
      refine ⟨fed.1.notice _, ?_⟩
      rw [setNotice_fst]
      exact fed.2
    have ⟨hfed, hkept⟩ := hnoticed.moves ready hmoves
    refine ⟨hfed, Or.inl ?_⟩
    rw [hkept, setNotice_fst]
    rfl

/-- The history goes on without pane input jobs. -/
theorem Fed.append (fed : Fed history ⟨pane, w⟩) {actions : List (Action JobKey Nat)}
    (typing : Typing pane.key (history ++ actions) w') (htasks : w'.tasks = w.tasks)
    (haccepted : ∀ generation, .accepted pane.key generation ∉ actions)
    (hdelivered : ∀ generation, .delivered pane.key generation ∉ actions) :
    Fed (history ++ actions) ⟨pane, w'⟩ ∧ PaneApp.kept ⟨pane, w'⟩ = PaneApp.kept ⟨pane, w⟩ := by
  refine ⟨⟨?_, fed.2⟩, kept_of_tasks htasks pane⟩
  have hold : ∀ generation, .accepted pane.key generation ∈ history ++ actions →
      .accepted pane.key generation ∈ history := by
    intro generation hmem
    exact (List.mem_append.mp hmem).resolve_right (haccepted generation)
  constructor
  case typing => exact typing
  case unseen => exact fed.1.unseen
  case short => exact fed.1.short
  case outstanding =>
    intro hrunning
    have ⟨haccepted, hundelivered⟩ := fed.1.outstanding hrunning
    refine ⟨List.mem_append_left _ haccepted, fun hmem => ?_⟩
    rcases List.mem_append.mp hmem with hmem | hmem
    · exact hundelivered hmem
    · exact hdelivered _ hmem
  case settled =>
    exact fun generation hmem =>
      (fed.1.settled generation (hold generation hmem)).imp_left (List.mem_append_left _)
  case newest => exact fun generation hmem => fed.1.newest generation (hold generation hmem)
  case bounded => exact fed.1.bounded

/-- A result of a pane input job is that of the job that is awaited. -/
theorem Fed.awaited (fed : Fed history ⟨pane, w⟩) {done : CompletedJob PaneOutput}
    {s' : System PaneOutput} (kind : done.key.kind = .paneInput)
    (step : Worker.Step w.system (.delivered done) s') :
    pane.running = true ∧ done.key = pane.key ∧ done.generation = pane.generation := by
  have hawaited := awaited_of_delivered fed.1.typing.books step
  have hkey : done.key = pane.key := (fed.1.typing.accepted _ _ hawaited.accepted kind).1
  have hundelivered := hawaited.undelivered
  have haccepted := hawaited.accepted
  rw [hkey] at hundelivered haccepted
  have ⟨hrunning, hgeneration⟩ := (fed.1.settled _ haccepted).resolve_left hundelivered
  exact ⟨hrunning, hkey, hgeneration⟩

/-- Behind a result the next reference can start. -/
theorem Fed.stopped (fed : Fed history ⟨pane, w⟩) {done : CompletedJob PaneOutput}
    {s' : System PaneOutput} (kind : done.key.kind = .paneInput)
    (step : Worker.Step w.system (.delivered done) s') (notice : Option String) :
    Feeding (history ++ [.delivered done.key done.generation])
        ⟨(({ pane with running := false } : PaneInput).setNotice notice).1, w.advance s'⟩ ∧
      s'.caller = .ready ∧ pane.files ≠ none := by
  have ⟨hrunning, hkey, hgeneration⟩ := fed.awaited kind step
  have hidle := idle_of_delivered fed.1.typing.sound fed.1.typing.books step
  have hfiles : pane.files ≠ none := by
    intro hnone
    have hstopped : pane.running = false := (fed.1.unseen hnone).2
    rw [hrunning] at hstopped
    contradiction
  refine ⟨Feeding.notice ?_ notice, hidle.ready, hfiles⟩
  have htyping := fed.1.typing.advance step hidle.books.accepting (by simp)
  have hold : ∀ generation, .accepted pane.key generation ∈
      history ++ [.delivered done.key done.generation] →
      .accepted pane.key generation ∈ history := by
    intro generation hmem
    apply (List.mem_append.mp hmem).resolve_right
    simp
  constructor
  case typing => exact htyping
  case unseen => exact fun hnone => absurd hnone hfiles
  case short => exact fed.1.short
  case outstanding => exact fun h => absurd h Bool.false_ne_true
  case settled =>
    intro generation hmem
    left
    rcases fed.1.settled generation (hold generation hmem) with hdelivered | ⟨_, heq⟩
    · exact List.mem_append_left _ hdelivered
    · apply List.mem_append_right
      rw [heq, hkey, hgeneration]
      exact List.mem_singleton_self _
  case newest => exact fun generation hmem => fed.1.newest generation (hold generation hmem)
  case bounded => exact fed.1.bounded

theorem noticed_setNotice (pane : PaneInput) (files : pane.files ≠ none) (message : String) :
    (pane.setNotice (some message)).1.Noticed := by
  have ⟨shown, hshown⟩ := Option.ne_none_iff_exists'.mp files
  rw [setNotice_fst, hshown]
  exact ⟨message, rfl⟩

/-- A notice for the result, and the next reference. -/
theorem Fed.resume (fed : Fed history ⟨pane, w⟩) {done : CompletedJob PaneOutput}
    {s' : System PaneOutput} (kind : done.key.kind = .paneInput)
    (step : Worker.Step w.system (.delivered done) s') {notice : Option String}
    {dirties : PaneInput × Bool → Bool}
    (runs : ((({ pane with running := false } : PaneInput).setNotice notice).1.startNext.bind
      fun next => .done (next.1, dirties next)).Runs PaneAnswers PaneMoves (w.advance s') events
        (pane', dirty) w') :
    Fed (history ++ [.delivered done.key done.generation] ++ events.flatMap Event.actions)
        ⟨pane', w'⟩ ∧
      Keeps (PaneApp.kept ⟨pane, w⟩) ⟨pane', w'⟩ ∧
      (∀ message, notice = some message → pane'.Noticed) := by
  have ⟨hfeeding, hready, hfiles⟩ := fed.stopped kind step notice
  have ⟨before, after, next, middle, hevents, hfirst, hlast⟩ := runs.of_bind
  have ⟨hresult, hmoves⟩ := hlast.of_done
  have ⟨hfed, hkeeps, hnoticed, hready⟩ := hfeeding.startNext hready hfirst
  have hpane : pane' = next.1 := congrArg Prod.fst hresult
  have ⟨hmoved, hkept⟩ := hfed.moves hready hmoves
  rw [hpane, hevents, List.flatMap_append, ← List.append_assoc]
  refine ⟨hmoved, ?_, fun message hnotice => hnoticed ?_⟩
  · have hbefore : PaneApp.kept
        ⟨(({ pane with running := false } : PaneInput).setNotice notice).1, w.advance s'⟩ =
          PaneApp.kept ⟨pane, w⟩ := by
      rw [setNotice_fst]
      rfl
    rw [hbefore] at hkeeps
    unfold Keeps
    rw [hkept]
    exact hkeeps
  · rw [hnotice]
    exact noticed_setNotice { pane with running := false } hfiles message

theorem Fed.result (fed : Fed history ⟨pane, w⟩) {done : CompletedJob PaneOutput}
    {s' : System PaneOutput} (kind : done.key.kind = .paneInput)
    (step : Worker.Step w.system (.delivered done) s')
    (runs : (pane.applyResult done.completion).Runs PaneAnswers PaneMoves (w.advance s') events
      (pane', dirty) w') :
    Fed (history ++ [.delivered done.key done.generation] ++ events.flatMap Event.actions)
        ⟨pane', w'⟩ ∧
      Keeps (PaneApp.kept ⟨pane, w⟩) ⟨pane', w'⟩ ∧
      (done.completion = .panicked → pane'.Noticed) := by
  cases hcompletion : done.completion with
  | panicked =>
    rw [hcompletion, PaneInput.applyResult] at runs
    have ⟨hfed, hkeeps, hnoticed⟩ := fed.resume kind step runs
    exact ⟨hfed, hkeeps, fun _ => hnoticed _ rfl⟩
  | success output =>
    rw [hcompletion, PaneInput.applyResult] at runs
    have ⟨hfed, hkeeps, _⟩ := fed.resume kind step runs
    exact ⟨hfed, hkeeps, fun h => nomatch h⟩

/-! ## Runs -/

/-- References the queue takes in a step. -/
def PaneEvent.taken (event : PaneEvent) : List String :=
  match event.cause with
  | .send reference true => [reference]
  | _ => []

/-- What one step does to the accepted references: they stay in order, or the
queue is cleared with a notice; and the panic of a job is told. -/
structure PaneStepLaw (app : PaneApp) (event : PaneEvent) (app' : PaneApp) : Prop where
  keeps : Keeps (app.kept ++ event.taken) app'
  panicked : event.cause = .result .panicked → app'.pane.Noticed

theorem Fed.step {app app' : PaneApp} {event : PaneEvent} (fed : Fed history app)
    (h : PaneStep app event app') :
    Fed (history ++ event.events.flatMap Event.actions) app' ∧ PaneStepLaw app event app' := by
  cases h with
  | @workers pane w s' step running =>
    have htyping := fed.1.typing.advance step running (by simp)
    obtain ⟨hfed, hkept⟩ := fed.append htyping rfl (by simp [Event.actions, Event.action])
      (by simp [Event.actions, Event.action])
    refine ⟨by rwa [List.flatMap_singleton], Or.inl ?_, fun h => by cases h⟩
    rw [hkept]
    exact (List.append_nil _).symm
  | @submitted pane w s' job event status other answers =>
    obtain ⟨hready, _, hevent, _⟩ := answers_eq answers
    obtain ⟨_, hidle⟩ := answers.allowed ⟨fed.1.typing.sound, fed.1.typing.books, hready⟩
    have htyping := fed.1.typing.advance answers.step hidle.books.accepting (by
      intro key generation status heq
      rw [hevent] at heq
      cases heq
      exact other)
    obtain ⟨hfed, hkept⟩ := fed.append htyping rfl
      (fun generation hmem => by
        rw [hevent] at hmem
        cases status <;> simp [Event.actions, Event.action] at hmem
        all_goals exact other (hmem.1 ▸ rfl))
      (fun generation hmem => by
        rw [hevent] at hmem
        cases status <;> simp [Event.actions, Event.action] at hmem)
    refine ⟨by rwa [List.flatMap_singleton], Or.inl ?_, fun h => by cases h⟩
    rw [hkept]
    exact (List.append_nil _).symm
  | @delivered pane w s' done other step =>
    have hidle := idle_of_delivered fed.1.typing.sound fed.1.typing.books step
    have htyping := fed.1.typing.advance step hidle.books.accepting (by simp)
    obtain ⟨hfed, hkept⟩ := fed.append htyping rfl (by simp [Event.actions, Event.action])
      (fun generation hmem => by
        simp only [Event.actions, Event.action, Option.toList_some, List.mem_singleton,
          Action.delivered.injEq] at hmem
        exact other (hmem.1 ▸ rfl))
    refine ⟨by rwa [List.flatMap_singleton], Or.inl ?_, fun h => by cases h⟩
    rw [hkept]
    exact (List.append_nil _).symm
  | bootstrap =>
    rw [List.flatMap_nil, List.append_nil]
    exact ⟨⟨{ fed.1 with unseen := fun hnone => by cases hnone }, fed.2⟩,
      Or.inl (List.append_nil _).symm, fun h => by cases h⟩
  | @notice pane w message =>
    rw [List.flatMap_nil, List.append_nil]
    refine ⟨⟨fed.1.notice _, ?_⟩, Or.inl ?_, fun h => by cases h⟩
    · rw [setNotice_fst]
      exact fed.2
    · rw [setNotice_fst]
      exact (List.append_nil _).symm
  | @send pane pane' w w' reference dirty events files ready runs =>
    obtain ⟨hfed, hkeeps⟩ := fed.send files ready runs
    refine ⟨hfed, ?_, fun h => by cases h⟩
    cases haccepts : pane.accepts <;> rw [haccepts] at hkeeps <;> exact hkeeps
  | result kind step runs =>
    obtain ⟨hfed, hkeeps, hnoticed⟩ := fed.result kind step runs
    rw [List.append_assoc] at hfed
    refine ⟨hfed, ?_, fun h => hnoticed (PaneCause.result.inj h)⟩
    rwa [← List.append_nil (PaneApp.kept _)] at hkeeps

/-- The pane input jobs in the runtime, on whatever way or behind their key. -/
def PaneWorkers.outstanding (w : PaneWorkers) : Nat :=
  (w.system.ledger.carried.filter IsPaneTag).card +
    (w.system.runtime.pending.keys.filter (·.kind = .paneInput)).card

/-- The references typed into the pane, in the order in which threads began to. -/
def PaneWorkers.reached (w : PaneWorkers) : List String :=
  w.typed.filterMap fun generation => w.tasks.lookup generation

/-- What holds after these events. -/
structure PaneLaw (events : List PaneEvent) (app : PaneApp) : Prop where
  outstanding : app.workers.outstanding = if app.pane.running then 1 else 0
  short : app.pane.queue.length ≤ maxPendingPaneInputs
  once : app.workers.typed.Nodup ∧ app.workers.reached.length = app.workers.typed.length
  order : app.workers.reached <+: app.kept ∧ app.kept.Sublist (events.flatMap PaneEvent.taken)
  waiting : ∀ task ∈ app.workers.tasks, task.1 ∈ app.workers.typed ∨
    (app.pane.key, task.1) ∈ app.workers.system.runtime.queued
  busy : app.pane.queue ≠ [] → app.pane.running = true

theorem Fed.outstanding (fed : Fed history ⟨pane, w⟩) :
    w.outstanding = if pane.running then 1 else 0 := by
  have htraced := fed.1.typing.books.tracks.traced
  have hheld : w.system.runtime.pending.keys.filter (·.kind = .paneInput) = ∅ := by
    rw [Finset.filter_eq_empty_iff]
    intro other hmem
    have ⟨job, hlookup⟩ := Finmap.mem_iff.mp (Finmap.mem_keys.mp hmem)
    exact fed.1.typing.unheld other job hlookup
  rw [PaneWorkers.outstanding, hheld, Finset.card_empty, add_zero]
  have hsettled : ∀ tag ∈ w.system.ledger.carried.filter IsPaneTag,
      pane.running = true ∧ tag = (pane.key, pane.generation) := by
    intro tag htag
    have ⟨hcarried, hpane⟩ := Multiset.mem_filter.mp htag
    have haccepted := htraced.carried_accepted hcarried
    have ⟨hkey, _⟩ := fed.1.typing.accepted _ _ haccepted hpane
    rw [hkey] at haccepted
    rcases fed.1.settled _ haccepted with hdelivered | ⟨hrunning, hgeneration⟩
    · rw [← hkey] at hdelivered
      exact absurd hcarried (htraced.delivered_gone hdelivered).1
    · exact ⟨hrunning, Prod.ext hkey hgeneration⟩
  cases hrunning : pane.running with
  | false =>
    rw [if_neg Bool.false_ne_true, Multiset.card_eq_zero]
    apply Multiset.eq_zero_of_forall_notMem
    intro tag htag
    have ⟨hbusy, _⟩ := hsettled tag htag
    rw [hrunning] at hbusy
    contradiction
  | true =>
    have ⟨haccepted, hundelivered⟩ := fed.1.outstanding hrunning
    have hplace := htraced.one_place haccepted fed.1.newest hundelivered
    have hunheld : ¬ (w.system.ledger.held pane.key = some pane.generation) := by
      intro hsome
      have ⟨job, hlookup, _⟩ := Option.map_eq_some_iff.mp hsome
      exact fed.1.typing.unheld _ _ hlookup rfl
    change w.system.ledger.carried.count (pane.key, pane.generation) +
      (if w.system.ledger.held pane.key = some pane.generation then 1 else 0) = 1 at hplace
    rw [if_neg hunheld, add_zero] at hplace
    have hcount : (w.system.ledger.carried.filter IsPaneTag).count (pane.key, pane.generation) = 1 := by
      rw [Multiset.count_filter_of_pos (show IsPaneTag (pane.key, pane.generation) from rfl), hplace]
    have hall := Multiset.eq_replicate_card.mpr fun tag htag => (hsettled tag htag).2
    rw [hall, Multiset.count_replicate_self] at hcount
    rw [if_pos rfl, hcount]

/-- The task of a generation is found under it. -/
theorem lookup_of_nodup {tasks : List (Nat × String)} (h : (tasks.map Prod.fst).Nodup) :
    ∀ task ∈ tasks, tasks.lookup task.1 = some task.2 := by
  induction tasks with
  | nil => simp
  | cons first rest ih =>
    rw [List.map_cons, List.nodup_cons] at h
    intro task hmem
    rcases List.mem_cons.mp hmem with heq | hmem
    · rw [heq, List.lookup_cons_self]
    · have hne : task.1 ≠ first.1 := fun heq => h.1 (heq ▸ List.mem_map_of_mem hmem)
      rw [List.lookup_cons, beq_eq_false_iff_ne.mpr hne]
      exact ih h.2 task hmem

theorem Typing.reached (typing : Typing key history w) :
    w.reached = (w.tasks.take w.typed.length).map Prod.snd ∧
      w.typed = (w.tasks.take w.typed.length).map Prod.fst := by
  have hnodup : (w.tasks.map Prod.fst).Nodup := typing.sorted.imp fun h => h.ne
  have ⟨untyped, htasks, _⟩ := typing.waiting
  have htyped : w.typed = (w.tasks.take w.typed.length).map Prod.fst := by
    rw [List.map_take, htasks, List.take_left]
  refine ⟨?_, htyped⟩
  calc w.typed.filterMap (fun generation => w.tasks.lookup generation)
      = ((w.tasks.take w.typed.length).map Prod.fst).filterMap fun generation =>
          w.tasks.lookup generation := congrArg _ htyped
    _ = (w.tasks.take w.typed.length).filterMap fun task => w.tasks.lookup task.1 :=
        List.filterMap_map ..
    _ = (w.tasks.take w.typed.length).filterMap fun task => some task.2 :=
        List.filterMap_congr fun task hmem => lookup_of_nodup hnodup task (List.mem_of_mem_take hmem)
    _ = (w.tasks.take w.typed.length).map Prod.snd := congrFun List.filterMap_eq_map' _

theorem Fed.law (fed : Fed history ⟨pane, w⟩) {events : List PaneEvent}
    (hkept : (PaneApp.kept ⟨pane, w⟩).Sublist (events.flatMap PaneEvent.taken)) :
    PaneLaw events ⟨pane, w⟩ := by
  have ⟨hreached, htyped⟩ := fed.1.typing.reached
  have ⟨untyped, htasks, hqueued⟩ := fed.1.typing.waiting
  have hnodup : (w.tasks.map Prod.fst).Nodup := fed.1.typing.sorted.imp fun h => h.ne
  constructor
  case outstanding => exact fed.outstanding
  case short => exact fed.1.short
  case once =>
    constructor
    · rw [htasks] at hnodup
      exact hnodup.of_append_left
    · have hlength := congrArg List.length htyped
      rw [List.length_map] at hlength
      rw [hreached, List.length_map, ← hlength]
  case order =>
    refine ⟨?_, hkept⟩
    rw [hreached, List.map_take]
    exact (List.take_prefix _ _).trans (List.prefix_append _ _)
  case waiting =>
    intro task hmem
    have htask : task.1 ∈ w.typed ++ untyped := htasks ▸ List.mem_map_of_mem hmem
    refine (List.mem_append.mp htask).imp_right fun huntyped => ?_
    apply Multiset.mem_of_mem_filter (p := IsPaneTag)
    rw [hqueued, Multiset.mem_coe]
    exact List.mem_map_of_mem huntyped
  case busy => exact fed.2

theorem Keeps.sublist {before : List String} {app : PaneApp} (h : Keeps before app) :
    app.kept.Sublist before := by
  rcases h with heq | ⟨_, hprefix, _⟩
  · rw [heq]
  · exact hprefix.sublist

section

variable {hostBinary : Option PathBuf} {focusedPane : PathBuf} {highCapacity lowCapacity : Nat}
  {events : List PaneEvent} {app : PaneApp}

theorem fed_initial :
    Fed [] (PaneApp.initial hostBinary focusedPane highCapacity lowCapacity) := by
  have hidle : Idle [] (System.initial highCapacity lowCapacity : System PaneOutput) :=
    idle_initial highCapacity lowCapacity
  refine ⟨?_, fun h => absurd rfl h⟩
  constructor
  case typing =>
    constructor
    case sound => exact hidle.sound
    case books => exact hidle.books
    case accepted => exact fun _ _ hmem => absurd hmem List.not_mem_nil
    case tasked => exact fun _ hmem => absurd hmem List.not_mem_nil
    case sorted => exact List.Pairwise.nil
    case unheld => exact fun _ _ hlookup => nomatch hlookup
    case waiting => exact ⟨[], rfl, rfl⟩
  case unseen => exact fun _ => ⟨rfl, rfl⟩
  case short => exact Nat.zero_le _
  case outstanding => exact fun h => absurd h Bool.false_ne_true
  case settled => exact fun _ hmem => absurd hmem List.not_mem_nil
  case newest => exact fun _ hmem => absurd hmem List.not_mem_nil
  case bounded => exact Nat.zero_le _

theorem fed_of_run
    (run : Run PaneStep (.initial hostBinary focusedPane highCapacity lowCapacity) events app) :
    (∃ history, Fed history app) ∧ app.kept.Sublist (events.flatMap PaneEvent.taken) := by
  induction run with
  | refl => exact ⟨⟨[], fed_initial⟩, List.Sublist.refl _⟩
  | @step events app app' event run last ih =>
    have ⟨⟨history, fed⟩, hkept⟩ := ih
    have ⟨hfed, hlaw⟩ := fed.step last
    refine ⟨⟨_, hfed⟩, hlaw.keeps.sublist.trans ?_⟩
    rw [List.flatMap_append, List.flatMap_singleton]
    exact hkept.append (List.Sublist.refl _)

/-- One pane input job at a time, and a queue that is bounded, keeps its order and
does not stall; a reference gets lost only in a step that clears the queue and
says so. -/
theorem pane_input_queue
    (run : Run PaneStep (.initial hostBinary focusedPane highCapacity lowCapacity) events app) :
    PaneLaw events app ∧
      ∀ event app', PaneStep app event app' → PaneStepLaw app event app' := by
  have ⟨⟨history, fed⟩, hkept⟩ := fed_of_run run
  exact ⟨fed.law hkept, fun event app' step => (fed.step step).2⟩

/-- A reference whose job is submitted. -/
theorem pane_input_queue_sent : ∃ events app,
    Run PaneStep (.initial (some ⟨[slash]⟩) ⟨[slash]⟩ 8 4) events app ∧
      events.flatMap PaneEvent.taken = ["@a "] ∧ PaneLaw events app := by
  have hloaded : Run PaneStep (.initial (some ⟨[slash]⟩) ⟨[slash]⟩ 8 4) [⟨.files, []⟩]
      ⟨{ PaneInput.new (some ⟨[slash]⟩) ⟨[slash]⟩ with files := some none },
        ⟨.initial 8 4, [], []⟩⟩ := .single .bootstrap
  have hsent := hloaded.step
    (@PaneStep.send _ _ _ _ "@a " _ _ (by simp) rfl (.answer (.submit .submit) .done))
  exact ⟨_, _, hsent, rfl, (pane_input_queue hsent).1⟩

end

end HerdrContext.App
