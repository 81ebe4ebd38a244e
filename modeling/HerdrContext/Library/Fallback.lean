import Mathlib.Data.Finset.Card
import Mathlib.Logic.Function.Iterate

/-! Owners that hold keys of their own until one of these is held twice, and
default ones from then on. -/
namespace HerdrContext.Library

/-- A map that only removes elements reaches a fixed point within as many steps
as there are elements. -/
theorem iterate_shrinking {ι : Type} {shrink : Finset ι → Finset ι}
    (hsubset : ∀ kept, shrink kept ⊆ kept) (kept : Finset ι) :
    ∃ rounds ≤ kept.card, shrink (shrink^[rounds] kept) = shrink^[rounds] kept := by
  induction hcard : kept.card using Nat.strong_induction_on generalizing kept with
  | _ size ih =>
    by_cases hfixed : shrink kept = kept
    · exact ⟨0, Nat.zero_le _, hfixed⟩
    · have hsmaller : (shrink kept).card < size := by
        rw [← hcard]
        apply Finset.card_lt_card
        exact Finset.ssubset_iff_subset_ne.mpr ⟨hsubset kept, hfixed⟩
      have ⟨rounds, hrounds, hdone⟩ := ih _ hsmaller _ rfl
      exact ⟨rounds + 1, by omega, hdone⟩

structure Fallback (ι κ : Type) where
  own : ι → Set κ
  default : ι → Set κ

namespace Fallback

variable {ι κ : Type} (fallback : Fallback ι κ) {kept : Finset ι} {owner other : ι} {key : κ}

/-- What an owner holds when the owners in `kept` hold keys of their own. -/
def held (kept : Finset ι) (owner : ι) : Set κ :=
  {key | (owner ∈ kept → key ∈ fallback.own owner) ∧ (owner ∉ kept → key ∈ fallback.default owner)}

theorem held_of_mem (howner : owner ∈ kept) : fallback.held kept owner = fallback.own owner := by
  ext key
  simp [held, howner]

theorem held_of_not_mem (howner : owner ∉ kept) :
    fallback.held kept owner = fallback.default owner := by
  ext key
  simp [held, howner]

/-- Another owner holds one of the owner's keys. -/
def Contested (kept : Finset ι) (owner : ι) : Prop :=
  ∃ key ∈ fallback.held kept owner, ∃ other, other ≠ owner ∧ key ∈ fallback.held kept other

/-- Where no owner that kept its keys shares one, and no two owners have a
default key in common, no key is held twice. -/
theorem unshared (hdefault : ∀ owner other key, key ∈ fallback.default owner →
      key ∈ fallback.default other → owner = other)
    (hkept : ∀ owner ∈ kept, ¬ fallback.Contested kept owner)
    (howner : key ∈ fallback.held kept owner) (hother : key ∈ fallback.held kept other) :
    owner = other := by
  by_contra hne
  by_cases hmem : owner ∈ kept
  · exact hkept owner hmem ⟨key, howner, other, fun h => hne h.symm, hother⟩
  · by_cases hmemOther : other ∈ kept
    · exact hkept other hmemOther ⟨key, hother, owner, hne, howner⟩
    · rw [held_of_not_mem _ hmem] at howner
      rw [held_of_not_mem _ hmemOther] at hother
      exact hne (hdefault owner other key howner hother)

/-- The owners whose keys nobody else holds. -/
noncomputable def settle (kept : Finset ι) : Finset ι :=
  open Classical in kept.filter fun owner => ¬ fallback.Contested kept owner

@[simp] theorem mem_settle :
    owner ∈ fallback.settle kept ↔ owner ∈ kept ∧ ¬ fallback.Contested kept owner := by
  simp [settle]

theorem settle_subset (kept : Finset ι) : fallback.settle kept ⊆ kept := by
  intro owner howner
  exact ((mem_settle fallback).mp howner).1

theorem settle_eq_self :
    fallback.settle kept = kept ↔ ∀ owner ∈ kept, ¬ fallback.Contested kept owner := by
  rw [Finset.ext_iff]
  apply forall_congr'
  intro owner
  rw [mem_settle, and_iff_left_iff_imp]

end Fallback

end HerdrContext.Library
