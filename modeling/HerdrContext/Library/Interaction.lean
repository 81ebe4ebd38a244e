import Mathlib.Data.List.Basic

/-! Programs that call an environment. Each call has a reply type of its own,
and a program is judged by what it may call and what it ends in, whatever an
environment replies. -/
namespace HerdrContext.Library

/-- A computation that ends in a value, or calls and resumes with the reply. -/
inductive Interaction (ρ : Type) (θ : ρ → Type) (α : Type) where
  | done (value : α)
  | call (request : ρ) (resume : θ request → Interaction ρ θ α)

namespace Interaction

variable {ρ : Type} {θ : ρ → Type} {α β ε δ σ : Type}

def bind : Interaction ρ θ α → (α → Interaction ρ θ β) → Interaction ρ θ β
  | .done value, next => next value
  | .call request resume, next => .call request fun reply => (resume reply).bind next

instance : Monad (Interaction ρ θ) where
  pure := .done
  bind := bind

/-- One call, with its reply for a value. -/
def request (request : ρ) : Interaction ρ θ (θ request) := .call request .done

/-- A call that may fail. -/
def attempt (program : Interaction ρ θ (Except ε α)) : ExceptT ε (Interaction ρ θ) α := .mk program

/-- What an environment may be asked in a state, and how it may reply. -/
structure Environment (ρ : Type) (θ : ρ → Type) (σ : Type) where
  permits : σ → ρ → Prop
  replies : σ → (request : ρ) → θ request → σ → Prop

/-- A run to the end, with the calls and the states they are made in. -/
inductive Runs (replies : σ → (request : ρ) → θ request → σ → Prop) :
    Interaction ρ θ α → σ → List (σ × ρ) → α → σ → Prop where
  | done {value : α} {s : σ} : Runs replies (.done value) s [] value s
  | call {request : ρ} {resume : θ request → Interaction ρ θ α} {s s' s'' : σ}
    {reply : θ request} {calls : List (σ × ρ)} {value : α} (replied : replies s request reply s')
    (rest : Runs replies (resume reply) s' calls value s'') :
    Runs replies (.call request resume) s ((s, request) :: calls) value s''

/-- Every call is permitted, and the program ends in the postcondition. -/
def Ensures (environment : Environment ρ θ σ) (post : α → σ → Prop) :
    Interaction ρ θ α → σ → Prop
  | .done value, s => post value s
  | .call request resume, s => environment.permits s request ∧
    ∀ reply s', environment.replies s request reply s' → (resume reply).Ensures environment post s'

variable {environment : Environment ρ θ σ} {s s' : σ}

@[simp] theorem ensures_pure {post : α → σ → Prop} {value : α} :
    (pure value : Interaction ρ θ α).Ensures environment post s ↔ post value s := Iff.rfl

@[simp] theorem ensures_request {request : ρ} {post : θ request → σ → Prop} :
    (Interaction.request request).Ensures environment post s ↔ environment.permits s request ∧
      ∀ reply s', environment.replies s request reply s' → post reply s' := Iff.rfl

theorem ensures_bind {post : β → σ → Prop} (program : Interaction ρ θ α)
    (next : α → Interaction ρ θ β) : (program >>= next).Ensures environment post s ↔
      program.Ensures environment (fun value s => (next value).Ensures environment post s) s := by
  induction program generalizing s with
  | done value => exact Iff.rfl
  | call request resume ih =>
    exact and_congr_right fun _ => forall_congr' fun reply => forall_congr' fun _ =>
      imp_congr_right fun _ => ih reply

theorem Ensures.imp {post post' : α → σ → Prop} {program : Interaction ρ θ α}
    (h : program.Ensures environment post s) (himp : ∀ value s, post value s → post' value s) :
    program.Ensures environment post' s := by
  induction program generalizing s with
  | done value => exact himp value s h
  | call request resume ih =>
    exact ⟨h.1, fun reply s' hreply => ih reply (h.2 reply s' hreply)⟩

theorem Ensures.and {post post' : α → σ → Prop} {program : Interaction ρ θ α}
    (h : program.Ensures environment post s) (h' : program.Ensures environment post' s) :
    program.Ensures environment (fun value s => post value s ∧ post' value s) s := by
  induction program generalizing s with
  | done value => exact ⟨h, h'⟩
  | call request resume ih =>
    exact ⟨h.1, fun reply s' hreply => ih reply (h.2 reply s' hreply) (h'.2 reply s' hreply)⟩

/-- What a program ensures holds of its runs. -/
theorem Ensures.run {post : α → σ → Prop} {program : Interaction ρ θ α} {calls : List (σ × ρ)}
    {value : α} (hensures : program.Ensures environment post s)
    (h : Runs environment.replies program s calls value s') :
    post value s' ∧ ∀ call ∈ calls, environment.permits call.1 call.2 := by
  induction h with
  | done => exact ⟨hensures, by simp⟩
  | call replied _ ih =>
    have ⟨hpost, hcalls⟩ := ih (hensures.2 _ _ replied)
    exact ⟨hpost, List.forall_mem_cons.mpr ⟨hensures.1, hcalls⟩⟩

/-- A run that makes calls of one kind only. -/
theorem Runs.restrict (only : ρ → Prop) {replies : σ → (request : ρ) → θ request → σ → Prop}
    {program : Interaction ρ θ α} {calls : List (σ × ρ)} {value : α}
    (h : Runs replies program s calls value s') (honly : ∀ call ∈ calls, only call.2) :
    Runs (fun s request reply s' => only request ∧ replies s request reply s') program s calls value
      s' := by
  induction h with
  | done => exact .done
  | call replied _ ih =>
    obtain ⟨hrequest, hcalls⟩ := List.forall_mem_cons.mp honly
    exact .call ⟨hrequest, replied⟩ (ih hcalls)

/-- The run in an environment that answers every call in one way. -/
def simulate (answer : σ → (request : ρ) → θ request × σ) :
    Interaction ρ θ α → σ → List (σ × ρ) × α × σ
  | .done value, s => ([], value, s)
  | .call request resume, s =>
    let rest := (resume (answer s request).1).simulate answer (answer s request).2
    ((s, request) :: rest.1, rest.2)

theorem runs_simulate {replies : σ → (request : ρ) → θ request → σ → Prop}
    {answer : σ → (request : ρ) → θ request × σ}
    (h : ∀ s request, replies s request (answer s request).1 (answer s request).2)
    (program : Interaction ρ θ α) (s : σ) :
    Runs replies program s (program.simulate answer s).1 (program.simulate answer s).2.1
      (program.simulate answer s).2.2 := by
  induction program generalizing s with
  | done value => exact .done
  | call request resume ih => exact .call (h s request) (ih _ _)

/-- An invariant of every permitted call holds throughout. -/
theorem Ensures.keeps {inv : σ → Prop} {post : α → σ → Prop} {program : Interaction ρ θ α}
    (h : program.Ensures environment post s) (hinv : inv s)
    (hstep : ∀ s request reply s', inv s → environment.permits s request →
      environment.replies s request reply s' → inv s') :
    program.Ensures environment (fun value s => post value s ∧ inv s) s := by
  induction program generalizing s with
  | done value => exact ⟨h, hinv⟩
  | call request resume ih =>
    exact ⟨h.1, fun reply s' hreply =>
      ih reply (h.2 reply s' hreply) (hstep s request reply s' hinv h.1 hreply)⟩

/-! ## Programs that fail -/

variable {post : Except ε α → σ → Prop}

@[simp] theorem ensures_run_pure {value : α} :
    Ensures environment post (pure value : ExceptT ε (Interaction ρ θ) α).run s ↔
      post (.ok value) s := Iff.rfl

@[simp] theorem ensures_run_throw {error : ε} :
    Ensures environment post (throw error : ExceptT ε (Interaction ρ θ) α).run s ↔
      post (.error error) s := Iff.rfl

@[simp] theorem ensures_run_attempt {program : Interaction ρ θ (Except ε α)} :
    Ensures environment post (attempt program).run s ↔ program.Ensures environment post s :=
  Iff.rfl

@[simp] theorem ensures_run_lift {program : Interaction ρ θ α} :
    Ensures environment post (liftM program : ExceptT ε (Interaction ρ θ) α).run s ↔
      program.Ensures environment (fun value s => post (.ok value) s) s := by
  change Ensures environment post (program >>= fun value => pure (.ok value)) s ↔ _
  rw [ensures_bind]
  rfl

/-- A failure ends the program. -/
theorem ensures_run_bind {post : Except ε β → σ → Prop} (program : ExceptT ε (Interaction ρ θ) α)
    (next : α → ExceptT ε (Interaction ρ θ) β) :
    Ensures environment post (program >>= next).run s ↔
      program.run.Ensures environment (fun result s => match result with
        | .ok value => (next value).run.Ensures environment post s
        | .error error => post (.error error) s) s := by
  change Ensures environment post (program.run >>= ExceptT.bindCont next) s ↔ _
  rw [ensures_bind]
  apply iff_of_eq
  congr 1
  funext result s
  cases result <;> rfl

theorem ensures_run_adapt (program : ExceptT δ (Interaction ρ θ) α) (f : δ → ε) :
    Ensures environment post (program.adapt f).run s ↔
      program.run.Ensures environment (fun result s => post (result.mapError f) s) s := by
  change Ensures environment post (program.run >>= fun result => pure (result.mapError f)) s ↔ _
  rw [ensures_bind]
  rfl

theorem ensures_run_adapt_bind {post : Except ε β → σ → Prop}
    (program : ExceptT δ (Interaction ρ θ) α) (f : δ → ε)
    (next : α → ExceptT ε (Interaction ρ θ) β) :
    Ensures environment post (program.adapt f >>= next).run s ↔
      program.run.Ensures environment (fun result s => match result with
        | .ok value => (next value).run.Ensures environment post s
        | .error error => post (.error (f error)) s) s := by
  rw [ensures_run_bind, ensures_run_adapt]
  apply iff_of_eq
  congr 1
  funext result s
  cases result <;> rfl

/-- A loop that fails where its body fails keeps what its body keeps. -/
theorem ensures_run_forM (inv : List β → σ → Prop) (failed : ε → σ → Prop)
    {body : β → ExceptT ε (Interaction ρ θ) PUnit} {items : List β} (h : inv items s)
    (hbody : ∀ item rest s, inv (item :: rest) s → (body item).run.Ensures environment
      (fun result s => match result with
        | .ok _ => inv rest s
        | .error error => failed error s) s) :
    Ensures environment (fun result s => match result with
      | .ok _ => inv [] s
      | .error error => failed error s) (forM items body).run s := by
  induction items generalizing s with
  | nil => exact h
  | cons item rest ih =>
    rw [List.forM_cons, ensures_run_bind]
    refine (hbody item rest s h).imp fun result s hresult => ?_
    cases result with
    | ok => exact ih hresult
    | error error => exact hresult

end Interaction

end HerdrContext.Library
