import Mathlib.Data.List.Basic

/-! Chunks that are put together as long as they fit a limit. -/
namespace HerdrContext.Library

variable {α : Type}

/-- What is held with all chunks behind it, if no chunk goes beyond the limit. -/
def gather (limit : Nat) : (held : List α) → List (List α) → Option (List α)
  | held, [] => some held
  | held, chunk :: rest =>
    if limit - held.length < chunk.length then none else gather limit (held ++ chunk) rest

@[simp] theorem gather_nil (limit : Nat) (held : List α) : gather limit held [] = some held := rfl

theorem gather_cons_of_lt {limit : Nat} {held chunk : List α}
    (h : limit - held.length < chunk.length) (rest : List (List α)) :
    gather limit held (chunk :: rest) = none := if_pos h

theorem gather_cons_of_not_lt {limit : Nat} {held chunk : List α}
    (h : ¬ limit - held.length < chunk.length) (rest : List (List α)) :
    gather limit held (chunk :: rest) = gather limit (held ++ chunk) rest := if_neg h

@[simp] theorem gather_nil_cons (limit : Nat) (held : List α) (rest : List (List α)) :
    gather limit held ([] :: rest) = gather limit held rest := by
  rw [gather_cons_of_not_lt (Nat.not_lt_zero _), List.append_nil]

/-- All chunks come together exactly if their total fits. -/
theorem gather_eq {limit : Nat} {held : List α} (h : held.length ≤ limit) (chunks : List (List α)) :
    gather limit held chunks =
      if (held ++ chunks.flatten).length ≤ limit then some (held ++ chunks.flatten) else none := by
  induction chunks generalizing held with
  | nil => simp [h]
  | cons chunk rest ih =>
    by_cases hfits : limit - held.length < chunk.length
    · rw [gather_cons_of_lt hfits, if_neg]
      simp only [List.flatten_cons, List.length_append]
      omega
    · have hnext : (held ++ chunk).length ≤ limit := by
        rw [List.length_append]
        omega
      rw [gather_cons_of_not_lt hfits, ih hnext, List.flatten_cons, List.append_assoc]

end HerdrContext.Library
