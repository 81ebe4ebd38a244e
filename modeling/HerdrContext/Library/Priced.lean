import HerdrContext.Library.Outcome

/-! Fallible computations that name what they take from a budget. Without a
budget nothing is paid; with one every charge is paid in turn, before what comes
behind it. -/
namespace HerdrContext.Library

structure Priced (κ ε α : Type) where
  charges : List κ
  result : Except ε α

namespace Priced

variable {κ ε α β σ : Type}

def andThen (first : Priced κ ε α) (next : α → Priced κ ε β) : Priced κ ε β :=
  match first.result with
  | .error error => ⟨first.charges, .error error⟩
  | .ok a => ⟨first.charges ++ (next a).charges, (next a).result⟩

instance : Monad (Priced κ ε) where
  pure a := ⟨[], .ok a⟩
  bind := andThen

instance : MonadLift (Except ε) (Priced κ ε) where
  monadLift result := ⟨[], result⟩

def charge (item : κ) : Priced κ ε Unit := ⟨[item], .ok ()⟩

def fail (error : ε) : Priced κ ε α := ⟨[], .error error⟩

/-- The run that pays from what `meter` has left. -/
def metered (pay : σ → κ → Except ε σ) (computation : Priced κ ε α) (meter : σ) :
    Except ε (α × σ) := do
  let meter ← computation.charges.foldlM pay meter
  let a ← computation.result
  return (a, meter)

/-! ## The meter is passed along -/

variable {pay : σ → κ → Except ε σ} {meter : σ}

theorem metered_pure (a : α) : (pure a : Priced κ ε α).metered pay meter = .ok (a, meter) := rfl

theorem metered_lift (result : Except ε α) :
    (liftM result : Priced κ ε α).metered pay meter = result.map fun a => (a, meter) := by
  cases result with
  | error error => rfl
  | ok a => rfl

theorem metered_charge (item : κ) :
    (charge item : Priced κ ε Unit).metered pay meter =
      (pay meter item).map fun meter => ((), meter) := by
  unfold metered charge
  rw [List.foldlM_cons]
  cases pay meter item with
  | error error => rfl
  | ok meter => rfl

theorem metered_bind (first : Priced κ ε α) (next : α → Priced κ ε β) :
    (first >>= next).metered pay meter =
      first.metered pay meter >>= fun (a, meter) => (next a).metered pay meter := by
  have ⟨charges, result⟩ := first
  change metered pay (andThen _ _) meter = _
  unfold andThen metered
  cases result with
  | error error =>
    cases List.foldlM pay meter charges with
    | error error => rfl
    | ok meter => rfl
  | ok a =>
    dsimp only
    rw [List.foldlM_append]
    cases List.foldlM pay meter charges with
    | error error => rfl
    | ok meter => rfl

/-- A metered run ends well if everything is paid and the computation ends well
without a meter. -/
theorem metered_eq_ok_iff {computation : Priced κ ε α} {a : α} {meter' : σ} :
    computation.metered pay meter = .ok (a, meter') ↔
      computation.charges.foldlM pay meter = .ok meter' ∧ computation.result = .ok a := by
  unfold metered
  cases computation.charges.foldlM pay meter with
  | error error => simp [bind, Except.bind]
  | ok paid =>
    cases computation.result with
    | error error => simp [bind, Except.bind]
    | ok b => simp [and_comm]

end Priced

end HerdrContext.Library
