import Mathlib.Data.Multiset.Basic
import Mathlib.Data.Multiset.MapFold
import Mathlib.Data.Multiset.ZeroCons
import Mathlib.Data.Multiset.Count
import Mathlib.Data.Multiset.UnionInter
import Mathlib.Data.Multiset.Dedup
import Mathlib.Order.Defs.LinearOrder
import Mathlib.Logic.Function.Basic

/-! Keyed work in which only the newest request of a key counts: one unit of a
key is under way at a time, and a newer request waits beside it. -/
namespace HerdrContext.Library

variable {κ γ : Type}

/-- Work under way, work waiting behind work of its own key, and the newest
generation accepted for each key. -/
structure Ledger (κ γ : Type) where
  carried : Multiset (κ × γ)
  held : κ → Option γ
  latest : κ → Option γ

inductive Action (κ γ : Type) where
  | accepted (key : κ) (generation : γ)
  | delivered (key : κ) (generation : γ)

namespace Ledger

def empty : Ledger κ γ := ⟨0, fun _ => none, fun _ => none⟩

def keys (ledger : Ledger κ γ) : Multiset κ := ledger.carried.map Prod.fst

theorem mem_keys {ledger : Ledger κ γ} {key : κ} :
    key ∈ ledger.keys ↔ ∃ generation, (key, generation) ∈ ledger.carried := by
  simp [keys]

variable [DecidableEq κ] [LinearOrder γ]

inductive Step : Ledger κ γ → Option (Action κ γ) → Ledger κ γ → Prop where
  | accept {ledger : Ledger κ γ} {key : κ} {generation : γ}
    (newer : ∀ last, ledger.latest key = some last → last < generation)
    (idle : key ∉ ledger.keys) (unheld : ledger.held key = none) :
    Step ledger (some (.accepted key generation))
      { ledger with
        carried := (key, generation) ::ₘ ledger.carried
        latest := Function.update ledger.latest key (some generation) }
  | supersede {ledger : Ledger κ γ} {key : κ} {generation : γ}
    (newer : ∀ last, ledger.latest key = some last → last < generation)
    (busy : key ∈ ledger.keys ∨ ledger.held key ≠ none) :
    Step ledger (some (.accepted key generation))
      { ledger with
        held := Function.update ledger.held key (some generation)
        latest := Function.update ledger.latest key (some generation) }
  | start {ledger : Ledger κ γ} {key : κ} {generation : γ}
    (held : ledger.held key = some generation) (idle : key ∉ ledger.keys) :
    Step ledger none
      { ledger with
        carried := (key, generation) ::ₘ ledger.carried
        held := Function.update ledger.held key none }
  | deliver {ledger : Ledger κ γ} {key : κ} {generation : γ} {rest : Multiset (κ × γ)}
    (carried : ledger.carried = (key, generation) ::ₘ rest)
    (current : ledger.latest key = some generation) :
    Step ledger (some (.delivered key generation)) { ledger with carried := rest }
  | drop {ledger : Ledger κ γ} {key : κ} {generation : γ} {rest : Multiset (κ × γ)}
    (carried : ledger.carried = (key, generation) ::ₘ rest)
    (stale : ledger.latest key ≠ some generation) :
    Step ledger none { ledger with carried := rest }

/-! ## Where the newest request of a key is -/

/-- One unit of a key at a time; what is under way is the newest request of its
key, or a newer one waits. -/
structure Valid (ledger : Ledger κ γ) : Prop where
  nodup : ledger.keys.Nodup
  held_latest : ∀ {key generation}, ledger.held key = some generation →
    ledger.latest key = some generation
  current : ∀ {key generation}, (key, generation) ∈ ledger.carried →
    ledger.latest key = some generation ∧ ledger.held key = none ∨
      ∃ newest, generation < newest ∧ ledger.held key = some newest

omit [DecidableEq κ] in
theorem valid_empty : (empty : Ledger κ γ).Valid := by
  constructor <;> simp [empty, keys]

omit [DecidableEq κ] in
/-- Taking one unit out keeps the ledger valid. -/
theorem Valid.remove {ledger : Ledger κ γ} (valid : ledger.Valid) {unit : κ × γ}
    {rest : Multiset (κ × γ)} (carried : ledger.carried = unit ::ₘ rest) :
    ({ ledger with carried := rest } : Ledger κ γ).Valid := by
  have hnodup := valid.nodup
  rw [keys, carried, Multiset.map_cons, Multiset.nodup_cons] at hnodup
  have hcurrent := @valid.current
  rw [carried] at hcurrent
  exact ⟨hnodup.2, valid.held_latest, fun hmem => hcurrent (Multiset.mem_cons_of_mem hmem)⟩

omit [DecidableEq κ] in
theorem Valid.notMem_rest {ledger : Ledger κ γ} (valid : ledger.Valid) {key : κ} {generation : γ}
    {rest : Multiset (κ × γ)} (carried : ledger.carried = (key, generation) ::ₘ rest) (other : γ) :
    (key, other) ∉ rest := by
  have hnodup := valid.nodup
  rw [keys, carried, Multiset.map_cons, Multiset.nodup_cons] at hnodup
  exact fun hmem => hnodup.1 (Multiset.mem_map.mpr ⟨(key, other), hmem, rfl⟩)

theorem Valid.step {ledger next : Ledger κ γ} {label : Option (Action κ γ)}
    (valid : ledger.Valid) (step : Step ledger label next) : next.Valid := by
  have hheld := @valid.held_latest
  have hcurrent := @valid.current
  cases step with
  | @accept key generation newer idle unheld =>
    have hfresh : ∀ g, (key, g) ∉ ledger.carried := fun g h => idle (mem_keys.mpr ⟨g, h⟩)
    refine ⟨?_, ?_, ?_⟩
    · rw [keys, Multiset.map_cons, Multiset.nodup_cons]
      exact ⟨idle, valid.nodup⟩
    · grind [Function.update_apply]
    · grind [Function.update_apply]
  | @supersede key generation newer busy =>
    refine ⟨valid.nodup, ?_, ?_⟩
    · grind [Function.update_apply]
    · intro other older hmem
      have hlt : ∀ last, ledger.held other = some last → other = key → last < generation :=
        fun last hlast hkey => newer last (hkey ▸ hheld hlast)
      grind [Function.update_apply]
  | @start key generation held idle =>
    have hfresh : ∀ g, (key, g) ∉ ledger.carried := fun g h => idle (mem_keys.mpr ⟨g, h⟩)
    refine ⟨?_, ?_, ?_⟩
    · rw [keys, Multiset.map_cons, Multiset.nodup_cons]
      exact ⟨idle, valid.nodup⟩
    · grind [Function.update_apply]
    · grind [Function.update_apply]
  | deliver carried _ => exact valid.remove carried
  | drop carried _ => exact valid.remove carried

/-! ## What a run has delivered -/

/-- In a history, a key's generations are accepted and delivered in increasing
order, and nothing is delivered behind the acceptance of something newer. -/
def Precedes (earlier later : Action κ γ) : Prop :=
  ∀ key old new,
    (earlier = .accepted key old → later = .accepted key new → old < new) ∧
    (earlier = .accepted key old → later = .delivered key new → old ≤ new) ∧
    (earlier = .delivered key old → later = .delivered key new → old < new)

/-- What the history of a run says about the ledger it ends in. -/
structure Traced (history : List (Action κ γ)) (ledger : Ledger κ γ) : Prop where
  valid : ledger.Valid
  accepted_le : ∀ {key generation}, .accepted key generation ∈ history →
    ∃ newest, ledger.latest key = some newest ∧ generation ≤ newest
  latest_accepted : ∀ {key generation}, ledger.latest key = some generation →
    .accepted key generation ∈ history
  carried_accepted : ∀ {key generation}, (key, generation) ∈ ledger.carried →
    .accepted key generation ∈ history
  delivered_accepted : ∀ {key generation}, .delivered key generation ∈ history →
    .accepted key generation ∈ history
  delivered_gone : ∀ {key generation}, .delivered key generation ∈ history →
    (key, generation) ∉ ledger.carried ∧ ledger.held key ≠ some generation
  kept : ∀ {key generation}, ledger.latest key = some generation →
    .delivered key generation ∈ history ∨ (key, generation) ∈ ledger.carried ∨
      ledger.held key = some generation
  ordered : history.Pairwise Precedes

omit [DecidableEq κ] in
theorem traced_empty : Traced [] (empty : Ledger κ γ) := by
  constructor
  case valid => exact valid_empty
  all_goals simp [empty]

section

variable {history : List (Action κ γ)} {ledger next : Ledger κ γ}
  {label : Option (Action κ γ)}

theorem Traced.precedes (traced : Traced history ledger) (step : Step ledger label next) :
    ∀ earlier ∈ history, ∀ later ∈ label, Precedes earlier later := by
  have haccepted := @traced.accepted_le
  intro earlier hmem later hlater key old new
  rw [Option.mem_def] at hlater
  subst hlater
  refine ⟨?_, ?_, ?_⟩
  · rintro rfl rfl
    have hnewer : ∀ last, ledger.latest key = some last → last < new := by
      cases step <;> assumption
    obtain ⟨newest, hnewest, hle⟩ := haccepted hmem
    exact hle.trans_lt (hnewer newest hnewest)
  · rintro rfl rfl
    obtain ⟨newest, hnewest, hle⟩ := haccepted hmem
    cases step with
    | deliver _ current =>
      rw [current] at hnewest
      exact hle.trans (Option.some.inj hnewest).ge
  · rintro rfl rfl
    obtain ⟨newest, hnewest, hle⟩ := haccepted (traced.delivered_accepted hmem)
    cases step with
    | deliver carried current =>
      rw [current] at hnewest
      cases hnewest
      refine lt_of_le_of_ne hle fun heq => ?_
      subst heq
      exact (traced.delivered_gone hmem).1 (carried ▸ Multiset.mem_cons_self _ _)

theorem Traced.step (traced : Traced history ledger) (step : Step ledger label next) :
    Traced (history ++ label.toList) next := by
  have hvalid := traced.valid.step step
  have hordered : (history ++ label.toList).Pairwise Precedes := by
    rw [List.pairwise_append]
    refine ⟨traced.ordered, ?_, fun earlier hmem later hlater => ?_⟩
    · cases label <;> simp
    · exact traced.precedes step earlier hmem later (Option.mem_toList.mp hlater)
  have haccepted := @traced.accepted_le
  have hlatest := @traced.latest_accepted
  have hcarried := @traced.carried_accepted
  have hdelivered := @traced.delivered_accepted
  have hgone := @traced.delivered_gone
  have hkept := @traced.kept
  have hheld := @traced.valid.held_latest
  have hcurrent := @traced.valid.current
  -- what is left are statements about one key, read off the step
  cases step with
  | accept newer idle unheld =>
    refine ⟨hvalid, ?_, ?_, ?_, ?_, ?_, ?_, hordered⟩ <;> clear hvalid hordered <;>
      grind [Function.update_apply, Option.toList]
  | supersede newer busy =>
    refine ⟨hvalid, ?_, ?_, ?_, ?_, ?_, ?_, hordered⟩ <;> clear hvalid hordered <;>
      grind [Function.update_apply, Option.toList]
  | start held idle =>
    refine ⟨hvalid, ?_, ?_, ?_, ?_, ?_, ?_, hordered⟩ <;> clear hvalid hordered <;>
      grind [Function.update_apply, Option.toList]
  | deliver carried current =>
    have hrest := traced.valid.notMem_rest carried
    refine ⟨hvalid, ?_, ?_, ?_, ?_, ?_, ?_, hordered⟩ <;> clear hvalid hordered <;>
      grind [Function.update_apply, Option.toList]
  | drop carried stale =>
    refine ⟨hvalid, ?_, ?_, ?_, ?_, ?_, ?_, hordered⟩ <;> clear hvalid hordered <;>
      grind [Function.update_apply, Option.toList]

/-- The newest request of a key, as long as it is not delivered, is in one place:
under way, or waiting behind older work of its key. -/
theorem Traced.one_place (traced : Traced history ledger) {key : κ} {generation : γ}
    (accepted : .accepted key generation ∈ history)
    (newest : ∀ other, .accepted key other ∈ history → other ≤ generation)
    (undelivered : .delivered key generation ∉ history) :
    ledger.carried.count (key, generation) + (if ledger.held key = some generation then 1 else 0)
      = 1 := by
  have hlatest : ledger.latest key = some generation := by
    obtain ⟨last, hlast, hle⟩ := traced.accepted_le accepted
    rw [hlast, le_antisymm (newest last (traced.latest_accepted hlast)) hle]
  have hnodup : ledger.carried.Nodup := Multiset.Nodup.of_map Prod.fst traced.valid.nodup
  rcases (traced.kept hlatest).resolve_left undelivered with hcarried | hheld
  · have hheld : ledger.held key ≠ some generation := by
      rcases traced.valid.current hcarried with ⟨-, hnone⟩ | ⟨later, hlt, hlater⟩
      · simp [hnone]
      · rw [hlater]
        exact fun heq => hlt.ne (Option.some.inj heq).symm
    rw [if_neg hheld, Multiset.count_eq_one_of_mem hnodup hcarried]
  · have hcarried : (key, generation) ∉ ledger.carried := by
      intro hcarried
      rcases traced.valid.current hcarried with ⟨-, hnone⟩ | ⟨later, hlt, hlater⟩
      · rw [hheld] at hnone
        contradiction
      · rw [hheld] at hlater
        exact hlt.ne (Option.some.inj hlater)
    rw [if_pos hheld, Multiset.count_eq_zero_of_notMem hcarried]

end

end Ledger

end HerdrContext.Library
