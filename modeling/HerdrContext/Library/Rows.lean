import Mathlib.Data.List.Basic
import Mathlib.Data.List.Nodup

/-! Rows numbered on a walk along the values they belong to, and a window of
them. A walk stops at the first row that answers. -/
namespace HerdrContext.Library

variable {α β ρ : Type}

/-- From number `row` on: the answer at the first row to stop at, or the number
of the next row. -/
def walkRows (stop : Nat → ρ → Prop) [∀ row r, Decidable (stop row r)] (answer : Nat → ρ → β)
    (rows : List ρ) (row : Nat) : Except β Nat :=
  rows.foldlM (fun row r => if stop row r then .error (answer row r) else .ok (row + 1)) row

def answered : Except β Nat → Option β
  | .error b => some b
  | .ok _ => none

variable {stop : Nat → ρ → Prop} [∀ row r, Decidable (stop row r)] {answer : Nat → ρ → β}

theorem walkRows_cons {r : ρ} {rows : List ρ} {row : Nat} :
    walkRows stop answer (r :: rows) row =
      if stop row r then .error (answer row r) else walkRows stop answer rows (row + 1) := by
  rw [walkRows, List.foldlM_cons]
  by_cases h : stop row r
  · rw [if_pos h, if_pos h]
    rfl
  · rw [if_neg h, if_neg h]
    rfl

/-- A walk along values that each stand for rows of their own is a walk along
all those rows. -/
theorem foldlM_eq_walkRows {step : Nat → α → Except β Nat} {rowsOf : α → List ρ}
    (h : ∀ row a, step row a = walkRows stop answer (rowsOf a) row) (all : List α) (row : Nat) :
    all.foldlM step row = walkRows stop answer (all.flatMap rowsOf) row := by
  induction all generalizing row with
  | nil => rfl
  | cons a all ih =>
    rw [List.foldlM_cons, List.flatMap_cons, walkRows, List.foldlM_append, h]
    apply congrArg
    funext next
    exact ih next

/-- The walk that waits for a number finds the row there. -/
theorem walkRows_number (rows : List ρ) (target row : Nat) (h : row ≤ target) :
    answered (walkRows (fun row _ => row = target) (fun _ r => r) rows row) =
      rows[target - row]? := by
  induction rows generalizing row with
  | nil => rfl
  | cons r rows ih =>
    rw [walkRows_cons]
    by_cases hrow : row = target
    · rw [if_pos hrow, hrow, Nat.sub_self]
      rfl
    · have hsub : target - row = target - (row + 1) + 1 := by omega
      rw [if_neg hrow, hsub, List.getElem?_cons_succ]
      exact ih (row + 1) (by omega)

/-- The walk that waits for a row finds its number. -/
theorem walkRows_row [DecidableEq ρ] (rows : List ρ) (selected : ρ) (row : Nat) :
    answered (walkRows (fun _ r => r = selected) (fun row _ => row) rows row) =
      (rows.idxOf? selected).map (row + ·) := by
  induction rows generalizing row with
  | nil => rfl
  | cons r rows ih =>
    rw [walkRows_cons, List.idxOf?_cons]
    by_cases hr : r = selected
    · simp [hr, answered]
    · rw [if_neg hr, if_neg (by simpa using hr), Option.map_map, ih (row + 1)]
      congr
      funext n
      simp only [Function.comp_apply]
      omega

/-- Different rows have different numbers. -/
theorem idxOf?_eq_some_of_nodup [DecidableEq ρ] {rows : List ρ} (h : rows.Nodup) {i : Nat} {r : ρ}
    (hr : rows[i]? = some r) : rows.idxOf? r = some i := by
  have ⟨hi, hget⟩ := List.getElem?_eq_some_iff.mp hr
  rw [List.idxOf?_eq_some_iff]
  exists hi, hget
  intro j hj hsame
  have hij := (List.Nodup.getElem_inj_iff h).mp (hsame.trans hget.symm)
  omega

/-! ## Windows -/

/-- The nearest place of a window of `height` rows that shows `row`. -/
def followRow (row height scroll : Nat) : Nat :=
  if row < scroll then row
  else if height ≠ 0 ∧ scroll + height ≤ row then row + 1 - height
  else scroll

theorem followRow_shows {row height scroll count : Nat} (hrow : row < count) (hheight : 0 < height) :
    min (followRow row height scroll) (count - height) ≤ row ∧
      row < min (followRow row height scroll) (count - height) + height := by
  unfold followRow
  split
  next => omega
  next habove =>
    split
    next => omega
    next hbelow => omega

end HerdrContext.Library
