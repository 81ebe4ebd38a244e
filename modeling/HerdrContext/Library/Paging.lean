import HerdrContext.Library.Transition
import Std.Data.ExtTreeMap
import Mathlib

/-! A record of items that is brought up to date in pages. A page tells the
items that have changed since they were recorded, then those that are gone, but no
more than its limit; what it tells is recorded, and the rest waits. -/
namespace HerdrContext.Library

variable {κ ν : Type} {cmp : κ → κ → Ordering} [Std.TransCmp cmp] [Std.LawfulEqCmp cmp]
  [DecidableEq κ] [DecidableEq ν]

namespace Paging

abbrev Recorded (κ ν : Type) (cmp : κ → κ → Ordering) [Std.TransCmp cmp] := Std.ExtTreeMap κ ν cmp

section
variable (recorded : Recorded κ ν cmp) (items : List (κ × ν))

/-- The items that are not recorded as they are. -/
def changes : List (κ × ν) := items.filter fun item => decide (recorded[item.1]? ≠ some item.2)

/-- What is recorded but not among the items. -/
def gone : List κ := recorded.keys.filter fun key => decide (key ∉ items.map Prod.fst)

/-- How much is left to tell. -/
def pending : Nat := (changes recorded items).length + (gone recorded items).length

end

/-- What one page tells. -/
structure Page (κ ν : Type) where
  limit : Nat
  told : List (κ × ν)
  dropped : List κ
  more : Bool

/-- A page from one record to the next. -/
structure Turns (items : List (κ × ν)) (before : Recorded κ ν cmp) (page : Page κ ν)
    (after : Recorded κ ν cmp) : Prop where
  told : page.told = (changes before items).take page.limit
  dropped : page.dropped = (gone before items).take (page.limit - page.told.length)
  more : page.more = decide (page.limit < pending before items)
  recorded : ∀ item ∈ items, after[item.1]? =
    if item ∈ (changes before items).drop page.limit then before[item.1]? else some item.2
  kept : ∀ key, key ∉ items.map Prod.fst → after[key]? =
    if key ∈ (gone before items).drop (page.limit - page.told.length) then before[key]? else none

theorem filter_mem_sublist {α : Type} [DecidableEq α] {part whole : List α}
    (h : part.Sublist whole) (hnodup : whole.Nodup) :
    whole.filter (fun item => decide (item ∈ part)) = part := by
  induction h with
  | slnil => rfl
  | @cons part whole item hrest ih =>
    obtain ⟨hitem, hnodup⟩ := List.nodup_cons.mp hnodup
    rw [List.filter_cons_of_neg, ih hnodup]
    simpa using fun hmem => hitem (hrest.subset hmem)
  | @cons_cons part whole item hrest ih =>
    obtain ⟨hitem, hnodup⟩ := List.nodup_cons.mp hnodup
    rw [List.filter_cons_of_pos (by simp)]
    refine congrArg _ (Eq.trans (List.filter_congr fun other hother => ?_) (ih hnodup))
    have hne : other ≠ item := by
      rintro rfl
      exact hitem hother
    simp [hne]

section
variable {items : List (κ × ν)} {before after : Recorded κ ν cmp} {page : Page κ ν}

omit [Std.LawfulEqCmp cmp] [DecidableEq κ] in
theorem mem_changes {item : κ × ν} :
    item ∈ changes before items ↔ item ∈ items ∧ before[item.1]? ≠ some item.2 := by
  simp [changes]

omit [DecidableEq ν] in
theorem mem_gone {key : κ} : key ∈ gone before items ↔ key ∈ before ∧ key ∉ items.map Prod.fst := by
  simp only [gone, List.mem_filter, Std.ExtTreeMap.mem_keys, decide_eq_true_eq]

omit [Std.LawfulEqCmp cmp] [DecidableEq ν] in
theorem sorted_gone : (gone before items).Pairwise fun left right => cmp left right = .lt :=
  Std.ExtTreeMap.ordered_keys.sublist List.filter_sublist

omit [Std.LawfulEqCmp cmp] in
/-- What is left of the changes is what the page has not told. -/
theorem Turns.changes_eq (h : Turns items before page after) (hitems : (items.map Prod.fst).Nodup) :
    changes after items = (changes before items).drop page.limit := by
  have hsublist : ((changes before items).drop page.limit).Sublist items :=
    (List.drop_sublist _ _).trans List.filter_sublist
  rw [← filter_mem_sublist hsublist hitems.of_map]
  refine List.filter_congr fun item hitem => decide_eq_decide.mpr ?_
  rw [h.recorded item hitem]
  split
  next hleft =>
    simp only [hleft, iff_true]
    exact (mem_changes.mp (List.drop_subset _ _ hleft)).2
  next hleft => simp [hleft]

theorem Turns.gone_eq (h : Turns items before page after) :
    gone after items = (gone before items).drop (page.limit - page.told.length) := by
  have hsorted : ((gone before items).drop (page.limit - page.told.length)).Pairwise
      fun left right => cmp left right = .lt :=
    sorted_gone.sublist (List.drop_sublist _ _)
  refine List.Perm.eq_of_pairwise ?_ sorted_gone hsorted ?_
  · intro left right _ _ hlt hgt
    have hswap : cmp right left = (cmp left right).swap := Std.OrientedCmp.eq_swap
    rw [hswap, hlt] at hgt
    contradiction
  · have hirrefl : ∀ {keys : List κ}, keys.Pairwise (fun left right => cmp left right = .lt) →
        keys.Nodup := by
      intro keys hkeys
      refine hkeys.imp ?_
      rintro left right hlt rfl
      have hsame : cmp left left = .eq := Std.ReflCmp.compare_self
      rw [hsame] at hlt
      contradiction
    refine (List.perm_ext_iff_of_nodup (hirrefl sorted_gone) (hirrefl hsorted)).mpr fun key => ?_
    rw [mem_gone, Std.ExtTreeMap.mem_iff_isSome_getElem?]
    constructor
    · rintro ⟨hkey, hitems⟩
      rw [h.kept key hitems] at hkey
      split at hkey
      next hleft => exact hleft
      next => contradiction
    · intro hleft
      obtain ⟨hkey, hitems⟩ := mem_gone.mp (List.drop_subset _ _ hleft)
      rw [h.kept key hitems, if_pos hleft]
      exact ⟨Std.ExtTreeMap.mem_iff_isSome_getElem?.mp hkey, hitems⟩

omit [Std.LawfulEqCmp cmp] in
theorem Turns.length_le (h : Turns items before page after) :
    page.told.length + page.dropped.length ≤ page.limit := by
  rw [h.dropped, h.told, List.length_take, List.length_take]
  omega

theorem Turns.pending_eq (h : Turns items before page after) (hitems : (items.map Prod.fst).Nodup) :
    pending after items = pending before items - page.limit := by
  rw [pending, pending, h.changes_eq hitems, h.gone_eq, h.told, List.length_drop, List.length_drop,
    List.length_take]
  omega

theorem pending_eq_zero_iff :
    pending before items = 0 ↔ ∀ key value, before[key]? = some value ↔ (key, value) ∈ items := by
  rw [pending, Nat.add_eq_zero_iff, List.length_eq_zero_iff, List.length_eq_zero_iff,
    List.eq_nil_iff_forall_not_mem, List.eq_nil_iff_forall_not_mem]
  constructor
  · rintro ⟨hchanges, hgone⟩ key value
    constructor
    · intro hvalue
      by_cases hkey : key ∈ items.map Prod.fst
      · obtain ⟨⟨_, other⟩, hother, rfl⟩ := List.mem_map.mp hkey
        have hrecorded := not_not.mp fun hne => hchanges _ (mem_changes.mpr ⟨hother, hne⟩)
        cases hvalue.symm.trans hrecorded
        exact hother
      · have hmem : key ∈ before :=
          Std.ExtTreeMap.mem_iff_isSome_getElem?.mpr (Option.isSome_of_eq_some hvalue)
        exact absurd (mem_gone.mpr ⟨hmem, hkey⟩) (hgone key)
    · intro hitem
      exact not_not.mp fun hne => hchanges _ (mem_changes.mpr ⟨hitem, hne⟩)
  · intro hall
    constructor
    · intro item hitem
      obtain ⟨hitem, hne⟩ := mem_changes.mp hitem
      exact hne ((hall _ _).mpr hitem)
    · intro key hkey
      obtain ⟨hmem, hkey⟩ := mem_gone.mp hkey
      obtain ⟨value, hvalue⟩ :=
        Option.isSome_iff_exists.mp (Std.ExtTreeMap.mem_iff_isSome_getElem?.mp hmem)
      exact hkey (List.mem_map_of_mem ((hall _ _).mp hvalue))

/-- With nothing left to tell a page tells nothing. -/
theorem turns_settled (h : pending before items = 0) (limit : Nat) :
    Turns items before ⟨limit, [], [], false⟩ before := by
  have hrecorded := pending_eq_zero_iff.mp h
  rw [pending, Nat.add_eq_zero_iff, List.length_eq_zero_iff, List.length_eq_zero_iff] at h
  constructor
  case told => simp [h.1]
  case dropped => simp [h.2]
  case more => simp [pending, h.1, h.2]
  case recorded =>
    intro item hitem
    rw [h.1, List.drop_nil, if_neg List.not_mem_nil]
    exact (hrecorded item.1 item.2).mpr hitem
  case kept =>
    intro key hkey
    rw [h.2, List.drop_nil, if_neg List.not_mem_nil]
    cases hvalue : before[key]? with
    | none => rfl
    | some value => exact absurd (List.mem_map_of_mem ((hrecorded key value).mp hvalue)) hkey

/-! ## Runs of pages -/

variable {pages : List (Page κ ν)}

/-- What a run has told and what it has left are what there was to tell. -/
theorem run_told (h : Run (Turns items) before pages after) (hitems : (items.map Prod.fst).Nodup) :
    pages.flatMap Page.told ++ changes after items = changes before items ∧
      pages.flatMap Page.dropped ++ gone after items = gone before items := by
  refine h.history (fun pages after =>
    pages.flatMap Page.told ++ changes after items = changes before items ∧
      pages.flatMap Page.dropped ++ gone after items = gone before items) ⟨rfl, rfl⟩ ?_
  rintro pages after page later ⟨htold, hdropped⟩ hpage
  rw [List.flatMap_append, List.flatMap_append, List.append_assoc, List.append_assoc,
    List.flatMap_singleton, List.flatMap_singleton, hpage.changes_eq hitems, hpage.gone_eq,
    ← htold, ← hdropped]
  refine ⟨congrArg _ ?_, congrArg _ ?_⟩
  · rw [hpage.told, List.take_append_drop]
  · rw [hpage.dropped, List.take_append_drop]

theorem run_pending (h : Run (Turns items) before pages after)
    (hitems : (items.map Prod.fst).Nodup) :
    pending after items = pending before items - (pages.map Page.limit).sum := by
  refine h.history (fun pages after =>
    pending after items = pending before items - (pages.map Page.limit).sum) rfl ?_
  intro pages after page later hpending hpage
  rw [hpage.pending_eq hitems, hpending, List.map_append, List.sum_append, List.map_singleton,
    List.sum_singleton]
  omega

/-- A page announces another one exactly if something is left to tell. -/
theorem Turns.more_iff (h : Turns items before page after) (hitems : (items.map Prod.fst).Nodup) :
    page.more = true ↔ pending after items ≠ 0 := by
  rw [h.more, h.pending_eq hitems, decide_eq_true_eq]
  omega

end

end Paging

end HerdrContext.Library
