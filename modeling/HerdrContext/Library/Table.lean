import Std.Data.ExtTreeMap
import Mathlib.Data.List.Basic

/-! Finite tables whose values carry their own key. -/
namespace HerdrContext.Library

/-- A map in which every value is stored under its own key. -/
structure Table (κ : Type) {α : Type} [Ord κ] [Std.TransOrd κ] (key : α → κ) where
  map : Std.ExtTreeMap κ α compare
  keyed : ∀ k a, map[k]? = some a → key a = k

namespace Table

variable {κ α : Type} [Ord κ] [Std.TransOrd κ] {key : α → κ}

def get? (table : Table κ key) (k : κ) : Option α := table.map[k]?

theorem key_of_get? {table : Table κ key} {k : κ} {a : α} (h : table.get? k = some a) :
    key a = k :=
  table.keyed k a h

def empty : Table κ key := ⟨∅, by simp⟩

instance : EmptyCollection (Table κ key) := ⟨empty⟩

@[simp] theorem get?_empty (k : κ) : (∅ : Table κ key).get? k = none :=
  Std.ExtTreeMap.getElem?_empty

/-- Values in key order. -/
def values (table : Table κ key) : List α := table.map.toList.map (·.2)

def size (table : Table κ key) : Nat := table.map.size

@[simp] theorem size_empty : (∅ : Table κ key).size = 0 :=
  Std.ExtTreeMap.size_empty

@[simp] theorem length_values (table : Table κ key) : table.values.length = table.size := by
  simp [values, size]

variable [Std.LawfulEqOrd κ]

@[ext] theorem ext {left right : Table κ key} (h : ∀ k, left.get? k = right.get? k) :
    left = right := by
  cases left
  cases right
  congr
  exact Std.ExtTreeMap.ext_getElem? h

def insert (table : Table κ key) (a : α) : Table κ key where
  map := table.map.insert (key a) a
  keyed := by
    intro k b h
    rw [Std.ExtTreeMap.getElem?_insert] at h
    split at h
    next heq =>
      cases Option.some.inj h
      exact Std.LawfulEqCmp.eq_of_compare heq
    next => exact table.keyed k b h

def erase (table : Table κ key) (k : κ) : Table κ key where
  map := table.map.erase k
  keyed := by
    intro l b h
    rw [Std.ExtTreeMap.getElem?_erase] at h
    split at h
    next => contradiction
    next => exact table.keyed l b h

/-- `retain`. -/
def filter (table : Table κ key) (p : α → Bool) : Table κ key where
  map := table.map.filter fun _ a => p a
  keyed := by
    intro k b h
    rw [Std.ExtTreeMap.getElem?_filter'] at h
    exact table.keyed k b (Option.filter_eq_some_iff.mp h).1

/-- Change the values in place. -/
def mapValues (table : Table κ key) (f : α → α) (hkey : ∀ a, key (f a) = key a) : Table κ key where
  map := table.map.map fun _ a => f a
  keyed := by
    intro k b h
    rw [Std.ExtTreeMap.getElem?_map, Option.map_eq_some_iff] at h
    have ⟨a, ha, hb⟩ := h
    rw [← hb, hkey]
    exact table.keyed k a ha

theorem get?_mapValues (table : Table κ key) (f : α → α) (hkey : ∀ a, key (f a) = key a) (k : κ) :
    (table.mapValues f hkey).get? k = (table.get? k).map f := by
  simp only [get?, mapValues, Std.ExtTreeMap.getElem?_map]

theorem get?_insert (table : Table κ key) (a : α) (k : κ) [DecidableEq κ] :
    (table.insert a).get? k = if key a = k then some a else table.get? k := by
  simp only [get?, insert, Std.ExtTreeMap.getElem?_insert, Std.LawfulEqCmp.compare_eq_iff_eq]

theorem get?_erase (table : Table κ key) (k l : κ) [DecidableEq κ] :
    (table.erase k).get? l = if k = l then none else table.get? l := by
  simp only [get?, erase, Std.ExtTreeMap.getElem?_erase, Std.LawfulEqCmp.compare_eq_iff_eq]

theorem get?_filter (table : Table κ key) (p : α → Bool) (k : κ) :
    (table.filter p).get? k = (table.get? k).filter p := by
  simp only [get?, filter, Std.ExtTreeMap.getElem?_filter']

/-- `extend`: of several values for a key the last one stays. -/
theorem get?_foldl_insert (values : List α) (table : Table κ key) (k : κ) [DecidableEq κ] :
    (values.foldl insert table).get? k =
      (values.reverse.find? fun a => key a = k).or (table.get? k) := by
  induction values generalizing table with
  | nil => simp
  | cons a rest ih =>
    rw [List.foldl_cons, ih, get?_insert, List.reverse_cons, List.find?_append]
    cases List.find? (fun a => decide (key a = k)) rest.reverse with
    | some _ => simp
    | none => by_cases hkey : key a = k <;> simp [hkey]

theorem mem_values {table : Table κ key} {a : α} :
    a ∈ table.values ↔ table.get? (key a) = some a := by
  simp only [values, List.mem_map, Prod.exists, exists_eq_right,
    Std.ExtTreeMap.mem_toList_iff_getElem?_eq_some]
  constructor
  · rintro ⟨k, hk⟩
    rw [table.keyed k a hk]
    exact hk
  · exact fun h => ⟨key a, h⟩

theorem keys_values (table : Table κ key) : table.values.map key = table.map.keys := by
  rw [← Std.ExtTreeMap.map_fst_toList_eq_keys, values, List.map_map]
  refine List.map_congr_left fun entry hmem => ?_
  exact table.keyed entry.1 entry.2
    (Std.ExtTreeMap.mem_toList_iff_getElem?_eq_some.mp hmem)

theorem nodup_keys_values (table : Table κ key) : (table.values.map key).Nodup := by
  have := Std.ExtTreeMap.distinct_keys (t := table.map)
  rw [keys_values]
  exact this.imp fun hne heq => hne (by rw [heq]; exact Std.ReflCmp.compare_self)

theorem size_filter_le (table : Table κ key) (p : α → Bool) :
    (table.filter p).size ≤ table.size :=
  Std.ExtTreeMap.size_filter_le_size

/-! ## Loading -/

section
variable {ε β : Type}

/-- Read stored values one after another; a second value for a key is an error. -/
def load (read : β → Except ε α) (duplicate : ε) :
    List β → Table κ key → Except ε (Table κ key)
  | [], table => .ok table
  | stored :: rest, table =>
    match read stored with
    | .error error => .error error
    | .ok a =>
      if (table.get? (key a)).isSome then .error duplicate
      else load read duplicate rest (table.insert a)

variable [DecidableEq κ] {read : β → Except ε α} {duplicate : ε}

theorem load_of_fresh {stored : List β} {values : List α} {table : Table κ key}
    (hread : List.Forall₂ (fun b a => read b = .ok a) stored values)
    (hnodup : (values.map key).Nodup) (hfresh : ∀ a ∈ values, table.get? (key a) = none) :
    ∃ result, load read duplicate stored table = .ok result ∧
      ∀ k, result.get? k = (table.get? k).or (values.find? fun a => key a = k) := by
  induction hread generalizing table with
  | nil => exact ⟨table, rfl, fun k => by simp⟩
  | @cons b a stored values hba _ ih =>
    rw [List.map_cons, List.nodup_cons] at hnodup
    have hfresh' : ∀ c ∈ values, (table.insert a).get? (key c) = none := by
      intro c hc
      have hne : key a ≠ key c := fun heq => hnodup.1 (heq ▸ List.mem_map_of_mem hc)
      rw [get?_insert, if_neg hne]
      exact hfresh c (by simp [hc])
    obtain ⟨result, hresult, hget⟩ := ih hnodup.2 hfresh'
    refine ⟨result, ?_, fun k => ?_⟩
    · simp only [load, hba, hfresh a (by simp), Option.isSome_none, Bool.false_eq_true, if_false]
      exact hresult
    · rw [hget k, get?_insert, List.find?_cons]
      by_cases hk : key a = k
      · subst hk
        simp [hfresh a (by simp)]
      · simp [hk]

theorem find?_values {table : Table κ key} {values : List α}
    (h : values.Perm table.values) (k : κ) :
    (values.find? fun a => key a = k) = table.get? k := by
  cases hk : table.get? k with
  | none =>
    rw [List.find?_eq_none]
    intro a ha
    have := mem_values.mp (h.mem_iff.mp ha)
    simp only [decide_eq_true_eq]
    rintro rfl
    rw [hk] at this
    contradiction
  | some a =>
    have hkey : key a = k := key_of_get? hk
    have ha : a ∈ values := h.mem_iff.mpr (mem_values.mpr (hkey ▸ hk))
    have hfind : (values.find? fun b => key b = k).isSome :=
      List.find?_isSome.mpr ⟨a, ha, by simpa using hkey⟩
    obtain ⟨b, hb⟩ := Option.isSome_iff_exists.mp hfind
    have hbkey : key b = k := by simpa using List.find?_some hb
    have hbget := mem_values.mp (h.mem_iff.mp (List.mem_of_find?_eq_some hb))
    rw [hbkey, hk] at hbget
    rw [hb, hbget]

/-- A table is rebuilt from its values, in whatever order they are stored. -/
theorem load_of_perm {table : Table κ key} {stored : List β} {values : List α}
    (hread : List.Forall₂ (fun b a => read b = .ok a) stored values)
    (h : values.Perm table.values) : load read duplicate stored ∅ = .ok table := by
  have hnodup : (values.map key).Nodup := (h.map key).nodup_iff.mpr table.nodup_keys_values
  obtain ⟨result, hresult, hget⟩ := load_of_fresh hread hnodup fun a _ => get?_empty (key a)
  rw [hresult]
  congr
  ext1 k
  rw [hget k, get?_empty, Option.none_or, find?_values h]

/-- Every value of a loaded table was read from the store. -/
theorem of_load_eq_ok {stored : List β} {table result : Table κ key}
    (h : load read duplicate stored table = .ok result) {k : κ} {a : α}
    (hk : result.get? k = some a) : table.get? k = some a ∨ ∃ b ∈ stored, read b = .ok a := by
  induction stored generalizing table with
  | nil =>
    cases Except.ok.inj h
    exact Or.inl hk
  | cons b stored ih =>
    unfold load at h
    split at h
    next => contradiction
    next c hc =>
      split at h
      next => contradiction
      next =>
        rcases ih h with hget | ⟨d, hd, hread⟩
        · rw [get?_insert] at hget
          split at hget
          next =>
            cases Option.some.inj hget
            exact Or.inr ⟨b, by simp, hc⟩
          next => exact Or.inl hget
        · exact Or.inr ⟨d, by simp [hd], hread⟩

end

end Table

end HerdrContext.Library
