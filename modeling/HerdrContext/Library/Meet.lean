import Std.Data.ExtTreeMap
import Mathlib.Data.Set.Finite.Lemmas
import Mathlib.Order.Bounds.Lattice
import Mathlib.Order.Bounds.Image

/-! Tables that keep the meet of everything entered under a key. -/
namespace HerdrContext.Library

section
variable {ω : Type} [SemilatticeInf ω]

/-- What a table holds for a set of values: their meet, or nothing for none. -/
def MeetOf (values : Set ω) : Option ω → Prop
  | none => values = ∅
  | some value => values.Nonempty ∧ IsGLB values value

theorem MeetOf.unique {values : Set ω} {left right : Option ω} (hleft : MeetOf values left)
    (hright : MeetOf values right) : left = right := by
  cases left with
  | none =>
    cases right with
    | none => rfl
    | some _ => exact absurd hleft hright.1.ne_empty
  | some left =>
    cases right with
    | none => exact absurd hright hleft.1.ne_empty
    | some right => exact congrArg some (hleft.2.unique hright.2)

theorem MeetOf.isSome_iff {values : Set ω} {kept : Option ω} (h : MeetOf values kept) :
    kept.isSome ↔ values.Nonempty := by
  cases kept with
  | none =>
    rw [show values = ∅ from h]
    simp
  | some _ => simpa using h.1

/-- Values that a smaller one of the set speaks for may be left out. -/
theorem MeetOf.of_dominated {values all : Set ω} {kept : Option ω} (h : MeetOf values kept)
    (hsub : values ⊆ all) (hdominated : ∀ value ∈ all, ∃ least ∈ values, least ≤ value) :
    MeetOf all kept := by
  cases kept with
  | none =>
    rw [show values = ∅ from h] at hdominated
    apply Set.eq_empty_of_forall_notMem
    intro value hvalue
    have ⟨least, hleast, _⟩ := hdominated value hvalue
    exact hleast
  | some value =>
    refine ⟨h.1.mono hsub, fun other hother => ?_, fun bound hbound => ?_⟩
    · have ⟨least, hleast, hle⟩ := hdominated other hother
      exact (h.2.1 hleast).trans hle
    · exact h.2.2 fun least hleast => hbound (hsub hleast)

/-- One more value under the key. -/
def meetWith (value : ω) : Option ω → ω
  | none => value
  | some current => current ⊓ value

theorem MeetOf.meetWith {values : Set ω} {kept : Option ω} (h : MeetOf values kept) (value : ω) :
    MeetOf (values ∪ {value}) (some (meetWith value kept)) := by
  refine ⟨⟨value, Set.mem_union_right _ rfl⟩, ?_⟩
  cases kept with
  | none =>
    rw [show values = ∅ from h, Set.empty_union]
    exact isGLB_singleton
  | some current => exact h.2.union isGLB_singleton

section
variable {χ : Type} [SemilatticeInf χ] {values : Set (ω × χ)} {kept : Option (ω × χ)}

theorem MeetOf.map_fst (h : MeetOf values kept) : MeetOf (Prod.fst '' values) (kept.map Prod.fst) := by
  cases kept with
  | none =>
    rw [show values = ∅ from h, Set.image_empty]
    rfl
  | some value => exact ⟨h.1.image _, (isGLB_prod.mp h.2).1⟩

theorem MeetOf.map_snd (h : MeetOf values kept) : MeetOf (Prod.snd '' values) (kept.map Prod.snd) := by
  cases kept with
  | none =>
    rw [show values = ∅ from h, Set.image_empty]
    rfl
  | some value => exact ⟨h.1.image _, (isGLB_prod.mp h.2).2⟩

end

end

/-- In a linear order the meet of finitely many values is the least of them. -/
theorem MeetOf.isLeast {ω : Type} [LinearOrder ω] {values : Set ω} (hfinite : values.Finite)
    {value : ω} (h : MeetOf values (some value)) : IsLeast values value := by
  obtain ⟨least, hmem, hle⟩ := Set.exists_min_image values id hfinite h.1
  have hleast : IsLeast values least := ⟨hmem, hle⟩
  rw [h.2.unique hleast.isGLB]
  exact hleast

section
variable {κ ω : Type} [Ord κ] [Std.TransOrd κ] [Std.LawfulEqOrd κ] [SemilatticeInf ω]

abbrev MeetTable (κ ω : Type) [Ord κ] := Std.ExtTreeMap κ ω compare

/-- Enter a value under a key. -/
def meetInto (table : MeetTable κ ω) (entry : κ × ω) : MeetTable κ ω :=
  table.alter entry.1 fun kept => some (meetWith entry.2 kept)

/-- The values listed under a key. -/
def valuesAt (entries : List (κ × ω)) (k : κ) : Set ω := {value | (k, value) ∈ entries}

omit [Ord κ] [Std.TransOrd κ] [Std.LawfulEqOrd κ] [SemilatticeInf ω] in
theorem finite_valuesAt (entries : List (κ × ω)) (k : κ) : (valuesAt entries k).Finite := by
  apply (entries.map Prod.snd).finite_toSet.subset
  intro value hvalue
  exact List.mem_map.mpr ⟨(k, value), hvalue, rfl⟩

theorem meetOf_foldl {before : κ → Set ω} (entries : List (κ × ω)) (table : MeetTable κ ω)
    (h : ∀ k, MeetOf (before k) table[k]?) (k : κ) :
    MeetOf (before k ∪ valuesAt entries k) (entries.foldl meetInto table)[k]? := by
  induction entries generalizing table before with
  | nil =>
    have hnone : valuesAt ([] : List (κ × ω)) k = ∅ := by
      simp [valuesAt]
    rw [hnone, Set.union_empty]
    exact h k
  | cons entry rest ih =>
    have hstep : ∀ l, MeetOf (before l ∪ valuesAt [entry] l) (meetInto table entry)[l]? := by
      intro l
      unfold meetInto
      rw [Std.ExtTreeMap.getElem?_alter]
      split
      next heq =>
        have hkey : entry.1 = l := Std.LawfulEqCmp.eq_of_compare heq
        subst hkey
        have hone : valuesAt [entry] entry.1 = {entry.2} := by
          ext value
          simp [valuesAt, Prod.ext_iff]
        rw [hone]
        exact (h entry.1).meetWith entry.2
      next hne =>
        have hkey : l ≠ entry.1 := fun heq => hne (heq ▸ Std.ReflCmp.compare_self)
        have hnone : valuesAt [entry] l = ∅ := by
          ext value
          simp [valuesAt, Prod.ext_iff, hkey]
        rw [hnone, Set.union_empty]
        exact h l
    have hrest := ih (meetInto table entry) hstep
    have hsplit : valuesAt (entry :: rest) k = valuesAt [entry] k ∪ valuesAt rest k := by
      ext value
      simp [valuesAt]
    rw [hsplit, ← Set.union_assoc]
    exact hrest

/-- A table built from nothing holds the meet of the values entered. -/
theorem meetOf_meetInto (entries : List (κ × ω)) (k : κ) :
    MeetOf (valuesAt entries k) (entries.foldl meetInto (∅ : MeetTable κ ω))[k]? := by
  have hempty : ∀ l : κ, MeetOf (∅ : Set ω) (∅ : MeetTable κ ω)[l]? := by
    intro l
    rw [Std.ExtTreeMap.getElem?_empty]
    rfl
  have h := meetOf_foldl entries ∅ hempty k
  rwa [Set.empty_union] at h

/-- Only which values were entered counts, not their order. -/
theorem foldl_meetInto_congr {entries entries' : List (κ × ω)}
    (h : ∀ entry, entry ∈ entries ↔ entry ∈ entries') :
    entries.foldl meetInto (∅ : MeetTable κ ω) = entries'.foldl meetInto ∅ := by
  apply Std.ExtTreeMap.ext_getElem?
  intro k
  have hvalues : valuesAt entries k = valuesAt entries' k := by
    ext value
    exact h (k, value)
  have hright := meetOf_meetInto entries' k
  rw [← hvalues] at hright
  exact (meetOf_meetInto entries k).unique hright

end

end HerdrContext.Library
