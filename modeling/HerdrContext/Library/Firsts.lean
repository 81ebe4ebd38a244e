import Mathlib.Algebra.GroupWithZero.Nat
import Mathlib.Data.List.Dedup
import Mathlib.Data.List.Sort

/-! The first value of each key in an order, and the pages such a list is cut
into. -/
namespace HerdrContext.Library

variable {α κ : Type} {before : α → α → Prop} {key : α → κ} {all rows rows' : List α}

/-- The rows in order, one for each key: the first of the values that have it. -/
structure Firsts (before : α → α → Prop) (key : α → κ) (all rows : List α) : Prop where
  sorted : rows.Pairwise before
  distinct : (rows.map key).Nodup
  subset : ∀ a ∈ rows, a ∈ all
  first : ∀ a ∈ all, ∃ b ∈ rows, key b = key a ∧ before b a

namespace Firsts

theorem mem_iff (h : Firsts before key all rows)
    (antisymm : ∀ a ∈ all, ∀ b ∈ all, before a b → before b a → a = b) {a : α} :
    a ∈ rows ↔ a ∈ all ∧ ∀ b ∈ all, key b = key a → before a b := by
  constructor
  · intro ha
    constructor
    · exact h.subset a ha
    · intro b hb hkey
      have ⟨c, hc, hsame, hbefore⟩ := h.first b hb
      have hca : c = a := List.inj_on_of_nodup_map h.distinct hc ha (hsame.trans hkey)
      rwa [hca] at hbefore
  · intro ⟨ha, hfirst⟩
    have ⟨b, hb, hkey, hbefore⟩ := h.first a ha
    have hab := antisymm a ha b (h.subset b hb) (hfirst b (h.subset b hb) hkey) hbefore
    rwa [hab]

/-- There is one such list where no two values come before each other. -/
theorem unique (h : Firsts before key all rows) (h' : Firsts before key all rows')
    (antisymm : ∀ a ∈ all, ∀ b ∈ all, before a b → before b a → a = b) : rows = rows' := by
  have hperm : rows.Perm rows' := by
    apply (List.perm_ext_iff_of_nodup h.distinct.of_map h'.distinct.of_map).mpr
    intro a
    rw [h.mem_iff antisymm, h'.mem_iff antisymm]
  apply hperm.eq_of_pairwise _ h.sorted h'.sorted
  intro a b ha hb
  exact antisymm a (h.subset a ha) b (h'.subset b hb)

/-- As many rows as there are keys. -/
theorem length_eq [DecidableEq κ] (h : Firsts before key all rows) :
    rows.length = (all.map key).dedup.length := by
  rw [← List.length_map (f := key)]
  apply List.Perm.length_eq
  apply (List.perm_ext_iff_of_nodup h.distinct (List.nodup_dedup _)).mpr
  intro k
  rw [List.mem_dedup, List.mem_map, List.mem_map]
  constructor
  · intro ⟨a, ha, hkey⟩
    exact ⟨a, h.subset a ha, hkey⟩
  · intro ⟨a, ha, hkey⟩
    have ⟨b, hb, hsame, _⟩ := h.first a ha
    exact ⟨b, hb, hsame.trans hkey⟩

end Firsts

/-! ## Pages -/

/-- What pages of the given lengths show of a list from an offset on. -/
def pagesFrom (rows : List α) : Nat → List Nat → List (List α)
  | _, [] => []
  | offset, limit :: rest => (rows.drop offset).take limit :: pagesFrom rows (offset + limit) rest

/-- Pages after one another show the list without loss or repetition. -/
theorem flatten_pagesFrom (rows : List α) (offset : Nat) (limits : List Nat) :
    (pagesFrom rows offset limits).flatten = (rows.drop offset).take limits.sum := by
  induction limits generalizing offset with
  | nil => simp [pagesFrom]
  | cons limit rest ih =>
    rw [pagesFrom, List.flatten_cons, ih, List.sum_cons, List.take_add, List.drop_drop]

end HerdrContext.Library
