import Mathlib.Data.List.Infix

/-! A listing that keeps some of its items and stops at bounds. -/
namespace HerdrContext.Library

variable {α β : Type}

/-- `stopped` is what the look before the item of each number finds. -/
structure Bounds where
  maxEntries : Nat
  maxExamined : Nat
  stopped : Nat → Bool

structure Batch (β : Type) where
  entries : List β
  examined : Nat
  truncated : Bool

def enumerateWithin (keep : α → Option β) (bounds : Option Bounds) :
    (examined : Nat) → (entries : List β) → List α → Batch β
  | examined, entries, [] => ⟨entries, examined, false⟩
  | examined, entries, item :: rest =>
    if bounds.any (·.maxExamined ≤ examined) then ⟨entries, examined, true⟩
    else if bounds.any (·.stopped examined) then ⟨entries, examined, false⟩
    else match keep item with
      | none => enumerateWithin keep bounds (examined + 1) entries rest
      | some entry =>
        if bounds.any (·.maxEntries ≤ entries.length) then ⟨entries, examined + 1, true⟩
        else enumerateWithin keep bounds (examined + 1) (entries ++ [entry]) rest

variable {keep : α → Option β}

theorem enumerateWithin_none (examined : Nat) (entries : List β) (items : List α) :
    (enumerateWithin keep none examined entries items).entries = entries ++ items.filterMap keep := by
  induction items generalizing examined entries with
  | nil => simp [enumerateWithin]
  | cons item rest ih =>
    unfold enumerateWithin
    cases hkeep : keep item with
    | none => simp [hkeep, ih]
    | some entry => simp [hkeep, ih]

/-- What is kept under bounds is what is kept of the items before the stop. -/
theorem enumerateWithin_take (bounds : Bounds) (examined : Nat) (entries : List β) (items : List α) :
    ∃ seen, seen <+: items ∧
      (enumerateWithin keep (some bounds) examined entries items).entries =
        entries ++ seen.filterMap keep ∧
      ((enumerateWithin keep (some bounds) examined entries items).truncated = false →
        (∀ n, bounds.stopped n = false) → seen = items) := by
  induction items generalizing examined entries with
  | nil => exact ⟨[], List.prefix_rfl, by simp [enumerateWithin], fun _ _ => rfl⟩
  | cons item rest ih =>
    unfold enumerateWithin
    split
    next => exact ⟨[], List.nil_prefix, by simp, fun h => by contradiction⟩
    next =>
      split
      next hstopped => exact ⟨[], List.nil_prefix, by simp, fun _ h => by simp [h] at hstopped⟩
      next =>
        split
        next hkeep =>
          have ⟨seen, hseen, hentries, hall⟩ := ih (examined + 1) entries
          exists item :: seen, List.cons_prefix_cons.mpr ⟨rfl, hseen⟩
          constructor
          · rw [hentries, List.filterMap_cons, hkeep]
          · intro htruncated hstopped
            rw [hall htruncated hstopped]
        next entry hkeep =>
          split
          next => exact ⟨[], List.nil_prefix, by simp, fun h => by contradiction⟩
          next =>
            have ⟨seen, hseen, hentries, hall⟩ := ih (examined + 1) (entries ++ [entry])
            exists item :: seen, List.cons_prefix_cons.mpr ⟨rfl, hseen⟩
            constructor
            · rw [hentries, List.filterMap_cons, hkeep, List.append_assoc, List.singleton_append]
            · intro htruncated hstopped
              rw [hall htruncated hstopped]

theorem enumerateWithin_bounded (bounds : Bounds) {examined : Nat} {entries : List β}
    (items : List α) (hexamined : examined ≤ bounds.maxExamined) (hentries : entries.length ≤ bounds.maxEntries) :
    (enumerateWithin keep (some bounds) examined entries items).entries.length ≤ bounds.maxEntries ∧
      (enumerateWithin keep (some bounds) examined entries items).examined ≤ bounds.maxExamined := by
  induction items generalizing examined entries with
  | nil => exact ⟨hentries, hexamined⟩
  | cons item rest ih =>
    unfold enumerateWithin
    split
    next => exact ⟨hentries, hexamined⟩
    next hbelow =>
      have hnext : examined + 1 ≤ bounds.maxExamined := by
        simp only [Option.any_some, decide_eq_true_eq] at hbelow
        omega
      split
      next => exact ⟨hentries, hexamined⟩
      next =>
        split
        next => exact ih hnext hentries
        next entry _ =>
          split
          next => exact ⟨hentries, hnext⟩
          next hroom =>
            simp only [Option.any_some, decide_eq_true_eq] at hroom
            apply ih hnext
            rw [List.length_append, List.length_singleton]
            omega

end HerdrContext.Library
