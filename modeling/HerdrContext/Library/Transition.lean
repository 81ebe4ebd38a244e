import Mathlib.Data.List.Induction

/-! Runs of a labelled transition system and the induction rules over them. -/
namespace HerdrContext.Library

variable {σ ε : Type}

/-- The labels of a run in order, and the state it ends in. -/
inductive Run (step : σ → ε → σ → Prop) (start : σ) : List ε → σ → Prop where
  | refl : Run step start [] start
  | step {events : List ε} {s s' : σ} {event : ε} (run : Run step start events s)
    (last : step s event s') : Run step start (events ++ [event]) s'

namespace Run

variable {step : σ → ε → σ → Prop} {start s s' : σ} {events : List ε}

/-- What holds at the start and is kept by every step holds in every state reached. -/
theorem invariant (inv : σ → Prop) (run : Run step start events s) (initial : inv start)
    (preserved : ∀ {s event s'}, inv s → step s event s' → inv s') : inv s := by
  induction run with
  | refl => exact initial
  | step _ last ih => exact preserved ih last

/-- The same for what relates the state to the labels so far. -/
theorem history (inv : List ε → σ → Prop) (run : Run step start events s)
    (initial : inv [] start)
    (preserved : ∀ {events s event s'}, inv events s → step s event s' →
      inv (events ++ [event]) s') : inv events s := by
  induction run with
  | refl => exact initial
  | step _ last ih => exact preserved ih last

theorem single {event : ε} (h : step start event s) : Run step start [event] s :=
  Run.step Run.refl h

theorem trans {later : List ε} (first : Run step start events s) (second : Run step s later s') :
    Run step start (events ++ later) s' := by
  induction second with
  | refl =>
    rw [List.append_nil]
    exact first
  | step _ last ih =>
    rw [← List.append_assoc]
    exact Run.step ih last

theorem imp {step' : σ → ε → σ → Prop} (run : Run step start events s)
    (himp : ∀ {s event s'}, step s event s' → step' s event s') : Run step' start events s := by
  induction run with
  | refl => exact .refl
  | step _ last ih => exact ih.step (himp last)

theorem nil (run : Run step start [] s) : s = start := by
  generalize hlabels : ([] : List ε) = labels at run
  cases run with
  | refl => rfl
  | step => simp at hlabels

theorem head {event : ε} (run : Run step start (event :: events) s) :
    ∃ middle, step start event middle ∧ Run step middle events s := by
  generalize hlabels : event :: events = labels at run
  induction run generalizing events with
  | refl => contradiction
  | @step labels middle s' other run last ih =>
    cases labels with
    | nil =>
      obtain rfl := run.nil
      cases hlabels
      exact ⟨s', last, .refl⟩
    | cons first labels =>
      cases hlabels
      obtain ⟨second, hsecond, hrest⟩ := ih rfl
      exact ⟨second, hsecond, hrest.step last⟩

/-- A run passes a state wherever its labels are cut. -/
theorem split {later : List ε} (run : Run step start (events ++ later) s) :
    ∃ middle, Run step start events middle ∧ Run step middle later s := by
  induction later using List.reverseRecOn generalizing s with
  | nil =>
    rw [List.append_nil] at run
    exact ⟨s, run, .refl⟩
  | append_singleton later event ih =>
    rw [← List.append_assoc] at run
    generalize hlabels : events ++ later ++ [event] = labels at run
    cases run with
    | refl => simp at hlabels
    | step before last =>
      have ⟨hearlier, hevent⟩ := List.append_inj' hlabels rfl
      cases hevent
      have ⟨middle, first, second⟩ := ih (hearlier ▸ before)
      exact ⟨middle, first, second.step last⟩

theorem of_single {event : ε} (run : Run step start [event] s) : step start event s := by
  obtain ⟨middle, first, rest⟩ := run.head
  rw [rest.nil]
  exact first

end Run

end HerdrContext.Library
