import Mathlib.Logic.Function.Iterate
import Mathlib.Order.Basic

/-! Repeating one step until a goal holds. -/
namespace HerdrContext.Library

variable {σ : Type}

/-- The goal holds after some number of steps, at least one. -/
def Reaches (step : σ → σ) (goal : σ → Prop) (s : σ) : Prop := ∃ n, goal (step^[n + 1] s)

namespace Reaches

variable {step : σ → σ} {goal : σ → Prop} {s : σ}

theorem of_goal (h : goal (step s)) : Reaches step goal s := ⟨0, h⟩

theorem of_step (h : Reaches step goal (step s)) : Reaches step goal s := by
  have ⟨n, hn⟩ := h
  exact ⟨n + 1, hn⟩

/-- What always decreases ends, unless the goal is reached before. -/
theorem of_measure (inv : σ → Prop) (measure : σ → Nat)
    (h : ∀ s, inv s → Reaches step goal s ∨ (inv (step s) ∧ measure (step s) < measure s))
    (hs : inv s) : Reaches step goal s := by
  have hbelow (bound : Nat) : ∀ s, inv s → measure s < bound → Reaches step goal s := by
    induction bound with
    | zero => exact fun s _ hlt => absurd hlt (Nat.not_lt_zero _)
    | succ bound ih =>
      intro s hs hlt
      rcases h s hs with hreached | ⟨hnext, hless⟩
      · exact hreached
      · exact of_step (ih (step s) hnext (by omega))
  exact hbelow (measure s + 1) s hs (Nat.lt_succ_self _)

end Reaches

end HerdrContext.Library
