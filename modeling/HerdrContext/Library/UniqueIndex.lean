import Mathlib.Data.Finmap

/-! Indexes of what a key belongs to, with keys that belong to several things
marked instead of resolved. -/
namespace HerdrContext.Library

variable {κ ι : Type} [DecidableEq κ]

/-- `none` marks a key that was inserted more than once. -/
def insertUnique (map : Finmap fun _ : κ => Option ι) (key : κ) (index : ι) :
    Finmap fun _ : κ => Option ι :=
  if key ∈ map then map.insert key none else map.insert key (some index)

def uniqueIndex (map : Finmap fun _ : κ => Option ι) (key : κ) : Option ι :=
  (map.lookup key).join

def indexUnique (pairs : List (κ × ι)) : Finmap fun _ : κ => Option ι :=
  pairs.foldl (fun map pair => insertUnique map pair.1 pair.2) ∅

theorem lookup_insertUnique (map : Finmap fun _ : κ => Option ι) (key other : κ) (index : ι) :
    (insertUnique map key index).lookup other =
      if other = key then some (if key ∈ map then none else some index)
      else map.lookup other := by
  unfold insertUnique
  by_cases hother : other = key
  · subst hother
    rw [if_pos rfl]
    split
    next => exact Finmap.lookup_insert map
    next => exact Finmap.lookup_insert map
  · rw [if_neg hother]
    split
    next => exact Finmap.lookup_insert_of_ne map hother
    next => exact Finmap.lookup_insert_of_ne map hother

/-- What an index says of a key, from the pairs that have it. -/
def resolve : List (κ × ι) → Option (Option ι)
  | [] => none
  | [pair] => some (some pair.2)
  | _ :: _ :: _ => some none

omit [DecidableEq κ] in
theorem resolve_concat (pairs : List (κ × ι)) (pair : κ × ι) :
    resolve (pairs ++ [pair]) = some (if pairs = [] then some pair.2 else none) := by
  match pairs with
  | [] => rfl
  | [_] => rfl
  | _ :: _ :: _ => rfl

theorem lookup_indexUnique (pairs : List (κ × ι)) (key : κ) :
    (indexUnique pairs).lookup key = resolve (pairs.filter fun pair => pair.1 = key) := by
  induction pairs using List.reverseRecOn with
  | nil => rfl
  | append_singleton pairs pair ih =>
    have hfold : indexUnique (pairs ++ [pair]) =
        insertUnique (indexUnique pairs) pair.1 pair.2 := by
      rw [indexUnique, List.foldl_append]
      rfl
    have hmem : pair.1 ∈ indexUnique pairs ↔
        (indexUnique pairs).lookup pair.1 ≠ none := by
      rw [Ne, Finmap.lookup_eq_none, not_not]
    rw [hfold, lookup_insertUnique, List.filter_append]
    by_cases hkey : key = pair.1
    · subst hkey
      rw [if_pos rfl, List.filter_singleton, decide_eq_true rfl, cond_true, resolve_concat]
      congr 1
      rw [ih] at hmem
      split
      next hin =>
        rw [if_neg]
        intro hempty
        rw [hempty] at hmem
        exact hmem.mp hin rfl
      next hout =>
        rw [if_pos]
        by_contra hne
        refine hout (hmem.mpr ?_)
        cases hfilter : pairs.filter fun other => other.1 = pair.1 with
        | nil => exact absurd hfilter hne
        | cons first rest => cases rest <;> simp [resolve]
    · have hne : ¬ pair.1 = key := fun heq => hkey heq.symm
      rw [if_neg hkey, ih, List.filter_singleton, decide_eq_false hne, cond_false, List.append_nil]

/-- A key resolves exactly when one pair has it. -/
theorem uniqueIndex_eq_some_iff {pairs : List (κ × ι)} {key : κ} {index : ι} :
    uniqueIndex (indexUnique pairs) key = some index ↔
      pairs.filter (fun pair => pair.1 = key) = [(key, index)] := by
  rw [uniqueIndex, lookup_indexUnique]
  cases hfilter : pairs.filter fun pair => pair.1 = key with
  | nil => simp [resolve]
  | cons first rest =>
    have hkey : first.1 = key := by
      have hmem : first ∈ pairs.filter fun pair => pair.1 = key := by simp [hfilter]
      simpa using (List.mem_filter.mp hmem).2
    cases rest with
    | nil =>
      simp only [resolve, Option.join_some, Option.some.injEq, List.cons.injEq, and_true]
      constructor
      · rintro rfl
        rw [← hkey]
      · rintro rfl
        rfl
    | cons second rest => simp [resolve]

/-- Without repetition a key resolves to what it was inserted with. -/
theorem uniqueIndex_of_unique {pairs : List (κ × ι)} (h : (pairs.map Prod.fst).Nodup) {key : κ}
    {index : ι} : uniqueIndex (indexUnique pairs) key = some index ↔ (key, index) ∈ pairs := by
  rw [uniqueIndex_eq_some_iff]
  constructor
  · intro hfilter
    have hmem : (key, index) ∈ pairs.filter fun pair => pair.1 = key := by simp [hfilter]
    exact (List.mem_filter.mp hmem).1
  · intro hmem
    induction pairs with
    | nil => contradiction
    | cons pair pairs ih =>
      rw [List.map_cons, List.nodup_cons] at h
      rcases List.mem_cons.mp hmem with rfl | hrest
      · have hnone : pairs.filter (fun pair => pair.1 = key) = [] := by
          rw [List.filter_eq_nil_iff]
          intro other hother
          simp only [decide_eq_true_eq]
          exact fun heq => h.1 (List.mem_map.mpr ⟨other, hother, heq⟩)
        simp [hnone]
      · have hne : ¬ pair.1 = key := by
          rintro rfl
          exact h.1 (List.mem_map.mpr ⟨_, hrest, rfl⟩)
        rw [List.filter_cons_of_neg (by simpa using hne)]
        exact ih h.2 hrest

end HerdrContext.Library
