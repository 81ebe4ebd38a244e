import HerdrContext.Library.Transition

/-! Programs that make requests to a system, go on with its answers, and are
overtaken by what the system does by itself. -/
namespace HerdrContext.Library

/-- A computation that ends in a value, or asks and resumes with the answer. -/
inductive Program (ρ θ α : Type) where
  | done (value : α)
  | ask (request : ρ) (resume : θ → Program ρ θ α)

namespace Program

variable {ρ θ α β σ ε η : Type}

def bind (program : Program ρ θ α) (next : α → Program ρ θ β) : Program ρ θ β :=
  match program with
  | .done value => next value
  | .ask request resume => .ask request fun answer => (resume answer).bind next

/-- A program runs to its end; the system moves as it likes in between. -/
inductive Runs (answers : σ → ρ → ε → θ → σ → Prop) (moves : σ → ε → σ → Prop) :
    Program ρ θ α → σ → List ε → α → σ → Prop where
  | done {value : α} {s : σ} : Runs answers moves (.done value) s [] value s
  | move {program : Program ρ θ α} {s s' s'' : σ} {event : ε} {events : List ε} {value : α}
    (move : moves s event s') (rest : Runs answers moves program s' events value s'') :
    Runs answers moves program s (event :: events) value s''
  | answer {request : ρ} {resume : θ → Program ρ θ α} {s s' s'' : σ} {event : ε} {reply : θ}
    {events : List ε} {value : α} (answer : answers s request event reply s')
    (rest : Runs answers moves (resume reply) s' events value s'') :
    Runs answers moves (.ask request resume) s (event :: events) value s''

section

variable {answers : σ → ρ → ε → θ → σ → Prop} {moves : σ → ε → σ → Prop} {s s' : σ}
  {events : List ε}

/-- The run of a program is a run of the system. -/
theorem Runs.run {step : σ → ε → σ → Prop} {program : Program ρ θ α} {value : α}
    (h : Runs answers moves program s events value s')
    (hmoves : ∀ {s event s'}, moves s event s' → step s event s')
    (hanswers : ∀ {s request event reply s'}, answers s request event reply s' →
      step s event s') : Run step s events s' := by
  induction h with
  | done => exact .refl
  | move move _ ih => exact (Run.single (hmoves move)).trans ih
  | answer answer _ ih => exact (Run.single (hanswers answer)).trans ih

/-- A program that has ended is overtaken by moves. -/
theorem Runs.of_done {value result : α}
    (h : Runs answers moves (.done value : Program ρ θ α) s events result s') :
    result = value ∧ Run moves s events s' := by
  generalize hprogram : (.done value : Program ρ θ α) = program at h
  induction h with
  | done =>
    cases hprogram
    exact ⟨rfl, .refl⟩
  | move move _ ih =>
    have ⟨hresult, hrun⟩ := ih hprogram
    exact ⟨hresult, (Run.single move).trans hrun⟩
  | answer => contradiction

/-- A program that asks is answered behind some moves. -/
theorem Runs.of_ask {request : ρ} {resume : θ → Program ρ θ α} {result : α}
    (h : Runs answers moves (.ask request resume) s events result s') :
    ∃ before event after reply asked answered, events = before ++ event :: after ∧
      Run moves s before asked ∧ answers asked request event reply answered ∧
      Runs answers moves (resume reply) answered after result s' := by
  generalize hprogram : Program.ask request resume = program at h
  induction h with
  | done => contradiction
  | @move _ s _ _ event _ _ move _ ih =>
    have ⟨before, asking, after, reply, asked, answered, hevents, hrun, hanswer, hrest⟩ :=
      ih hprogram
    exact ⟨event :: before, asking, after, reply, asked, answered, by rw [hevents]; rfl,
      (Run.single move).trans hrun, hanswer, hrest⟩
  | @answer _ _ s answered _ event reply after _ answer rest =>
    cases hprogram
    exact ⟨[], event, after, reply, s, answered, rfl, .refl, answer, rest⟩

theorem Runs.behind {program : Program ρ θ α} {value : α} {s'' : σ} {later : List ε}
    (first : Run moves s events s') (h : Runs answers moves program s' later value s'') :
    Runs answers moves program s (events ++ later) value s'' := by
  induction first generalizing later with
  | refl => exact h
  | @step events s s' event first last ih =>
    rw [List.append_assoc]
    exact ih (.move last h)

/-- A run of two programs passes the end of the first. -/
theorem Runs.of_bind {program : Program ρ θ α} {next : α → Program ρ θ β} {result : β}
    (h : Runs answers moves (program.bind next) s events result s') :
    ∃ before after value middle, events = before ++ after ∧
      Runs answers moves program s before value middle ∧
      Runs answers moves (next value) middle after result s' := by
  induction program generalizing s events with
  | done value => exact ⟨[], events, value, s, rfl, .done, h⟩
  | ask request resume ih =>
    have ⟨moved, event, rest, reply, asked, answered, hevents, hmoved, hanswer, hrest⟩ := h.of_ask
    have ⟨before, after, value, middle, hsplit, hfirst, hnext⟩ := ih reply hrest
    refine ⟨moved ++ event :: before, after, value, middle, ?_, .behind hmoved (.answer hanswer hfirst),
      hnext⟩
    rw [hevents, hsplit, List.append_assoc, List.cons_append]

/-- One program after the other. -/
theorem Runs.bind {program : Program ρ θ α} {next : α → Program ρ θ β} {value : α} {result : β}
    {s'' : σ} {later : List ε} (h : Runs answers moves program s events value s')
    (hnext : Runs answers moves (next value) s' later result s'') :
    Runs answers moves (program.bind next) s (events ++ later) result s'' := by
  induction h with
  | done => exact hnext
  | move move _ ih => exact .move move (ih hnext)
  | answer answer _ ih => exact .answer answer (ih hnext)

/-- Answers that are all of one kind. -/
theorem Runs.restrict {only : ε → Prop} {program : Program ρ θ α} {value : α}
    (h : Runs answers moves program s events value s') (honly : ∀ event ∈ events, only event) :
    Runs (fun s request event reply s' => answers s request event reply s' ∧ only event) moves
      program s events value s' := by
  induction h with
  | done => exact .done
  | move move _ ih => exact .move move (ih fun event hmem => honly event (List.mem_cons_of_mem _ hmem))
  | answer answer _ ih =>
    exact .answer ⟨answer, honly _ (List.mem_cons_self)⟩
      (ih fun event hmem => honly event (List.mem_cons_of_mem _ hmem))

/-- The value the program ends in, whatever it is answered. -/
def Yields (post : α → Prop) : Program ρ θ α → Prop
  | .done value => post value
  | .ask _ resume => ∀ reply, (resume reply).Yields post

theorem yields_bind {post : β → Prop} (program : Program ρ θ α) (next : α → Program ρ θ β) :
    (program.bind next).Yields post ↔ program.Yields fun value => (next value).Yields post := by
  induction program with
  | done value => exact Iff.rfl
  | ask request resume ih => exact forall_congr' ih

theorem Yields.imp {post post' : α → Prop} {program : Program ρ θ α} (h : program.Yields post)
    (himp : ∀ value, post value → post' value) : program.Yields post' := by
  induction program with
  | done value => exact himp value h
  | ask request resume ih => exact fun reply => ih reply (h reply)

theorem Runs.yields {post : α → Prop} {program : Program ρ θ α} {value : α}
    (h : Runs answers moves program s events value s') (hyields : program.Yields post) :
    post value := by
  induction h with
  | done => exact hyields
  | move _ _ ih => exact ih hyields
  | answer _ _ ih => exact ih (hyields _)

/-! ## Postconditions

A program is judged by the answers a history of actions allows. Moves of the
system are no actions. -/

/-- Whatever allowed answers it gets, the program ends in the postcondition. -/
def Ensures (actions : ε → List η) (allowed : List η → ρ → ε → θ → Prop)
    (post : α → List η → Prop) : Program ρ θ α → List η → Prop
  | .done value, history => post value history
  | .ask request resume, history => ∀ event reply, allowed history request event reply →
    (resume reply).Ensures actions allowed post (history ++ actions event)

variable {actions : ε → List η} {allowed : List η → ρ → ε → θ → Prop}

theorem ensures_bind {post : β → List η → Prop} (program : Program ρ θ α)
    (next : α → Program ρ θ β) (history : List η) :
    (program.bind next).Ensures actions allowed post history ↔
      program.Ensures actions allowed
        (fun value history => (next value).Ensures actions allowed post history) history := by
  induction program generalizing history with
  | done value => exact Iff.rfl
  | ask request resume ih =>
    simp only [bind, Ensures]
    exact forall_congr' fun event => forall_congr' fun reply => imp_congr_right fun _ => ih reply _

theorem Ensures.imp {post post' : α → List η → Prop} {program : Program ρ θ α} {history : List η}
    (h : program.Ensures actions allowed post history)
    (himp : ∀ value history, post value history → post' value history) :
    program.Ensures actions allowed post' history := by
  induction program generalizing history with
  | done value => exact himp value history h
  | ask request resume ih => exact fun event reply hallowed => ih reply (h event reply hallowed)

/-- What a program ensures holds after its runs in a system that answers as
allowed. -/
theorem Runs.ensures {world : List η → σ → Prop} {post : α → List η → Prop}
    (hmoves : ∀ {history s event s'}, world history s → moves s event s' →
      actions event = [] ∧ world history s')
    (hanswers : ∀ {history s request event reply s'}, world history s →
      answers s request event reply s' →
      allowed history request event reply ∧ world (history ++ actions event) s')
    {program : Program ρ θ α} {value : α} {history : List η}
    (h : Runs answers moves program s events value s') (hworld : world history s)
    (hensures : program.Ensures actions allowed post history) :
    post value (history ++ events.flatMap actions) ∧
      world (history ++ events.flatMap actions) s' := by
  induction h generalizing history with
  | done =>
    rw [List.flatMap_nil, List.append_nil]
    exact ⟨hensures, hworld⟩
  | move move _ ih =>
    obtain ⟨hsilent, hworld'⟩ := hmoves hworld move
    rw [List.flatMap_cons, hsilent, List.nil_append]
    exact ih hworld' hensures
  | answer answer _ ih =>
    obtain ⟨hallowed, hworld'⟩ := hanswers hworld answer
    rw [List.flatMap_cons, ← List.append_assoc]
    exact ih hworld' (hensures _ _ hallowed)

end

end Program

end HerdrContext.Library
