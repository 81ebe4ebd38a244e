import Mathlib.Data.List.Forall2

/-! Fallible computations: what a sequence of checks and steps that succeeded
says about each of them. -/
namespace HerdrContext.Library

variable {ε δ α β : Type}

/-- Fail when the condition holds. -/
def rejectIf (condition : Prop) [Decidable condition] (error : ε) : Except ε Unit :=
  if condition then .error error else .ok ()

theorem rejectIf_of_not {condition : Prop} [Decidable condition] (h : ¬ condition) (error : ε) :
    rejectIf condition error = .ok () := if_neg h

@[simp] theorem rejectIf_eq_ok_iff {condition : Prop} [Decidable condition] {error : ε} {u : Unit} :
    rejectIf condition error = .ok u ↔ ¬ condition := by
  unfold rejectIf
  split <;> simp_all

theorem bind_eq_ok_iff {x : Except ε α} {f : α → Except ε β} {b : β} :
    (x >>= f) = .ok b ↔ ∃ a, x = .ok a ∧ f a = .ok b := by
  cases x with
  | error e => simp [bind, Except.bind]
  | ok a => simp [bind, Except.bind]

@[simp] theorem ok_bind (a : α) (f : α → Except ε β) : ((.ok a : Except ε α) >>= f) = f a := rfl

@[simp] theorem pure_eq_ok (a : α) : (pure a : Except ε α) = .ok a := rfl

/-- `map_err`. -/
def mapError (f : ε → δ) : Except ε α → Except δ α
  | .ok a => .ok a
  | .error e => .error (f e)

@[simp] theorem mapError_eq_ok_iff {f : ε → δ} {x : Except ε α} {a : α} :
    mapError f x = .ok a ↔ x = .ok a := by
  cases x <;> simp [mapError]

/-- `ok_or`. -/
def okOr (error : ε) : Option α → Except ε α
  | none => .error error
  | some a => .ok a

@[simp] theorem okOr_eq_ok_iff {error : ε} {value : Option α} {a : α} :
    okOr error value = .ok a ↔ value = some a := by
  cases value <;> simp [okOr]

/-- `transpose`: run a step on the value that is there. -/
def onSome (f : α → Except ε β) : Option α → Except ε (Option β)
  | none => .ok none
  | some a => do
    let b ← f a
    return some b

@[simp] theorem onSome_none (f : α → Except ε β) : onSome f none = .ok none := rfl

theorem onSome_some_eq_ok_iff {f : α → Except ε β} {a : α} {b : Option β} :
    onSome f (some a) = .ok b ↔ ∃ b', f a = .ok b' ∧ b = some b' := by
  simp only [onSome, bind_eq_ok_iff, pure_eq_ok, Except.ok.injEq]
  exact exists_congr fun b' => and_congr_right fun _ => eq_comm

/-! ## What a computation can fail with -/

/-- Every error the computation can end with satisfies the condition. -/
def FailsOnly (condition : ε → Prop) (x : Except ε α) : Prop :=
  ∀ error, x = .error error → condition error

section

variable {condition : ε → Prop}

theorem failsOnly_ok (a : α) : FailsOnly condition (.ok a) := by
  intro error h
  contradiction

theorem failsOnly_error {error : ε} (h : condition error) :
    FailsOnly condition (.error error : Except ε α) := by
  intro other hother
  cases hother
  exact h

theorem FailsOnly.bind {x : Except ε α} {f : α → Except ε β} (hx : FailsOnly condition x)
    (hf : ∀ a, x = .ok a → FailsOnly condition (f a)) : FailsOnly condition (x >>= f) := by
  cases x with
  | error error => exact failsOnly_error (hx error rfl)
  | ok a => exact hf a rfl

theorem failsOnly_rejectIf {reject : Prop} [Decidable reject] {error : ε} (h : condition error) :
    FailsOnly condition (rejectIf reject error) := by
  unfold rejectIf
  split
  next => exact failsOnly_error h
  next => exact failsOnly_ok ()

theorem failsOnly_mapError {f : δ → ε} {x : Except δ α}
    (h : ∀ error, x = .error error → condition (f error)) :
    FailsOnly condition (mapError f x) := by
  cases x with
  | error error => exact failsOnly_error (h error rfl)
  | ok a => exact failsOnly_ok a

theorem failsOnly_okOr {error : ε} (h : condition error) (value : Option α) :
    FailsOnly condition (okOr error value) := by
  cases value with
  | none => exact failsOnly_error h
  | some a => exact failsOnly_ok a

@[simp] theorem failsOnly_ok_iff (a : α) : FailsOnly condition (.ok a) ↔ True :=
  iff_true_intro (failsOnly_ok a)

@[simp] theorem failsOnly_error_iff {error : ε} :
    FailsOnly condition (.error error : Except ε α) ↔ condition error :=
  ⟨fun h => h error rfl, failsOnly_error⟩

@[simp] theorem failsOnly_bind_iff {x : Except ε α} {f : α → Except ε β} :
    FailsOnly condition (x >>= f) ↔
      FailsOnly condition x ∧ ∀ a, x = .ok a → FailsOnly condition (f a) := by
  cases x with
  | error error => simp [bind, Except.bind]
  | ok a => simp

@[simp] theorem failsOnly_rejectIf_iff {reject : Prop} [Decidable reject] {error : ε} :
    FailsOnly condition (rejectIf reject error) ↔ (reject → condition error) := by
  unfold rejectIf
  split <;> simp_all

@[simp] theorem failsOnly_okOr_iff {error : ε} {value : Option α} :
    FailsOnly condition (okOr error value) ↔ (value = none → condition error) := by
  cases value <;> simp [okOr]

@[simp] theorem failsOnly_onSome_iff {f : α → Except ε β} {value : Option α} :
    FailsOnly condition (onSome f value) ↔ ∀ a ∈ value, FailsOnly condition (f a) := by
  cases value with
  | none => simp
  | some a => simp [onSome]

theorem failsOnly_mapM {f : α → Except ε β} {values : List α}
    (h : ∀ a ∈ values, FailsOnly condition (f a)) : FailsOnly condition (values.mapM f) := by
  induction values with
  | nil => exact failsOnly_ok []
  | cons a values ih =>
    rw [List.mapM_cons]
    refine (h a (by simp)).bind fun b _ => ?_
    refine (ih fun a ha => h a (by simp [ha])).bind fun bs _ => ?_
    exact failsOnly_ok (b :: bs)

end

/-- A mapped list holds the results one by one. -/
theorem forall₂_of_mapM_eq_ok {f : α → Except ε β} {values : List α} {results : List β}
    (h : values.mapM f = .ok results) :
    List.Forall₂ (fun a b => f a = .ok b) values results := by
  induction values generalizing results with
  | nil =>
    cases h
    exact List.Forall₂.nil
  | cons a values ih =>
    rw [List.mapM_cons] at h
    obtain ⟨b, hb, h⟩ := bind_eq_ok_iff.mp h
    obtain ⟨rest, hrest, h⟩ := bind_eq_ok_iff.mp h
    cases h
    exact List.Forall₂.cons hb (ih hrest)

theorem mem_of_mapM_eq_ok {f : α → Except ε β} {values : List α} {results : List β}
    (h : values.mapM f = .ok results) {b : β} (hb : b ∈ results) :
    ∃ a ∈ values, f a = .ok b := by
  have hall := forall₂_of_mapM_eq_ok h
  clear h
  induction hall with
  | nil => contradiction
  | @cons a first values results hfirst _ ih =>
    rcases List.mem_cons.mp hb with rfl | hmem
    · exact ⟨a, by simp, hfirst⟩
    · obtain ⟨other, hother, hf⟩ := ih hmem
      exact ⟨other, by simp [hother], hf⟩

end HerdrContext.Library
