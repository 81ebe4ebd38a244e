import HerdrContext.Files.IgnoreRules
import HerdrContext.Library.Enumerate

/-! The visible entries of a directory with and without the bounds of a search. -/
namespace HerdrContext.Files.Enumeration

open Library
open Worker (IoError)

structure VisibleEntry where
  path : RelativePath
  kind : VisibleEntryKind
  ignored : Bool
  deriving DecidableEq

structure EnumerationBounds where
  maxEntries : Nat
  maxExamined : Nat
  cancelled : Nat → Bool

section
variable {δ β γ : Type} (disk : Disk δ) (gitignores : Gitignore β γ) (policy : IgnorePolicy δ)

/-- What the loop over a directory makes of one entry. -/
def visibleEntry (directory : δ) (matchers : List γ) (relativeDirectory : RelativePath)
    (item : Except IoError FileName) : Option VisibleEntry :=
  match item with
  | .error _ => none
  | .ok fileName =>
    let relative := relativeDirectory ++ [fileName]
    if !policy.isVisible relative then none
    else match disk.symlinkMetadata directory fileName with
      | .error _ => none
      | .ok metadata =>
        let kind : VisibleEntryKind :=
          if metadata.isSymlink then .symlink
          else if metadata.isDir then .directory
          else .file
        let ignored :=
          isIgnored gitignores matchers (policy.rootPath.join relative) (kind = .directory)
        if ignored && !policy.showIgnored then none else some ⟨relative, kind, ignored⟩

/-- The entries of an open directory under its matchers; the looks at the flags
follow those of the budget. -/
def entriesUnder (path : List Component) (found : δ × List γ × Bool)
    (bounds : Option EnumerationBounds) (loads : Nat) : Except IoError (Batch VisibleEntry) := do
  let (directory, matchers, ancestorIgnored) := found
  let relativeDirectory ← validateRelativeDirectory path
  if ancestorIgnored && !policy.showIgnored then return ⟨[], 0, false⟩
  let items ← disk.entries directory
  let batch := enumerateWithin (visibleEntry disk gitignores policy directory matchers relativeDirectory)
    (bounds.map fun bounds =>
      ⟨bounds.maxEntries, bounds.maxExamined, fun n => bounds.cancelled (loads + n)⟩) 0 [] items
  return { batch with entries := batch.entries.insertionSort fun left right =>
    left.path ≤ right.path }

def visibleEntriesWithBounds (path : List Component) (bounds : Option EnumerationBounds) :
    Except IoError (Batch VisibleEntry) :=
  match bounds with
  | none => do
    let found ← (openDirectoryWithMatchers disk gitignores policy path).result
    entriesUnder disk gitignores policy path found none 0
  | some bounds => do
    let (found, budget) ← (openDirectoryWithMatchers disk gitignores policy path).metered
      (MatcherBudget.pay bounds.cancelled) .new
    entriesUnder disk gitignores policy path found (some bounds) budget.loads

def visibleEntries (path : List Component) : Except IoError (List VisibleEntry) := do
  let batch ← visibleEntriesWithBounds disk gitignores policy path none
  return batch.entries

def visibleEntriesBounded (path : List Component) (maxEntries maxExamined : Nat)
    (cancelled : Nat → Bool) : Except IoError (Batch VisibleEntry) :=
  visibleEntriesWithBounds disk gitignores policy path
    (some ⟨max maxEntries 1, max maxExamined 1, cancelled⟩)

end

/-! ## Paying -/

namespace Charge

def components : Charge → Nat
  | .component => 1
  | _ => 0

def bytes : Charge → Nat
  | .matcher bytes _ => bytes
  | _ => 0

def rules : Charge → Nat
  | .matcher _ rules => rules
  | _ => 0

end Charge

/-- A budget has enough left for the charges. -/
structure MatcherBudget.Covers (budget : MatcherBudget) (charges : List Charge) : Prop where
  components : (charges.map Charge.components).sum ≤ budget.remainingComponents
  bytes : (charges.map Charge.bytes).sum ≤ budget.remainingBytes
  rules : (charges.map Charge.rules).sum ≤ budget.remainingRules

section
variable {cancelled : Nat → Bool} {budget budget' : MatcherBudget} {charge : Charge}
  {charges : List Charge}

/-- The budget after a charge that was paid. -/
def MatcherBudget.after (budget : MatcherBudget) (charge : Charge) : MatcherBudget where
  remainingComponents := budget.remainingComponents - charge.components
  remainingBytes := budget.remainingBytes - charge.bytes
  remainingRules := budget.remainingRules - charge.rules
  loads := budget.loads + 1

theorem pay_eq_ok (h : budget.pay cancelled charge = .ok budget') :
    budget.Covers [charge] ∧ budget' = budget.after charge := by
  cases charge with
  | checkpoint =>
    have ⟨_, _, hpaid⟩ := bind_eq_ok_iff.mp h
    cases hpaid
    exact ⟨⟨Nat.zero_le _, Nat.zero_le _, Nat.zero_le _⟩, rfl⟩
  | component =>
    have ⟨_, hcheckpoint, h⟩ := bind_eq_ok_iff.mp h
    have ⟨_, _, hpaid⟩ := bind_eq_ok_iff.mp hcheckpoint
    cases hpaid
    have ⟨_, hleft, hpaid⟩ := bind_eq_ok_iff.mp h
    cases hpaid
    rw [rejectIf_eq_ok_iff] at hleft
    exact ⟨⟨Nat.pos_of_ne_zero hleft, Nat.zero_le _, Nat.zero_le _⟩, rfl⟩
  | matcher bytes rules =>
    have ⟨_, hcheckpoint, h⟩ := bind_eq_ok_iff.mp h
    have ⟨_, _, hpaid⟩ := bind_eq_ok_iff.mp hcheckpoint
    cases hpaid
    have ⟨_, hleft, hpaid⟩ := bind_eq_ok_iff.mp h
    cases hpaid
    rw [rejectIf_eq_ok_iff, not_or, Nat.not_lt, Nat.not_lt] at hleft
    exact ⟨⟨Nat.zero_le _, hleft.1, hleft.2⟩, rfl⟩

theorem pay_of_covers (hcancelled : cancelled budget.loads = false) (h : budget.Covers [charge]) :
    budget.pay cancelled charge = .ok (budget.after charge) := by
  have hcheckpoint : budget.checkpoint cancelled = .ok { budget with loads := budget.loads + 1 } := by
    rw [MatcherBudget.checkpoint, rejectIf_of_not (by simp [hcancelled])]
    rfl
  cases charge with
  | checkpoint => exact hcheckpoint
  | component =>
    have hleft : budget.remainingComponents ≠ 0 := Nat.pos_iff_ne_zero.mp h.components
    rw [MatcherBudget.pay, MatcherBudget.consumeComponent, hcheckpoint, ok_bind,
      rejectIf_of_not hleft]
    rfl
  | matcher bytes rules =>
    have hleft : ¬(budget.remainingBytes < bytes ∨ budget.remainingRules < rules) := by
      rw [not_or, Nat.not_lt, Nat.not_lt]
      exact ⟨h.bytes, h.rules⟩
    rw [MatcherBudget.pay, MatcherBudget.consumeMatcher, hcheckpoint, ok_bind,
      rejectIf_of_not hleft]
    rfl

theorem pay_of_cancelled (hcancelled : cancelled budget.loads = true) :
    budget.pay cancelled charge = .error searchCancelled := by
  have hcheckpoint : budget.checkpoint cancelled = .error searchCancelled := by
    rw [MatcherBudget.checkpoint, rejectIf, if_pos hcancelled]
    rfl
  cases charge with
  | checkpoint => exact hcheckpoint
  | component =>
    rw [MatcherBudget.pay, MatcherBudget.consumeComponent, hcheckpoint]
    rfl
  | matcher bytes rules =>
    rw [MatcherBudget.pay, MatcherBudget.consumeMatcher, hcheckpoint]
    rfl

/-- A charge is refused only to a budget that is used up or a search that is over. -/
theorem pay_failsOnly (budget : MatcherBudget) (charge : Charge) :
    FailsOnly (fun error => error = searchBudgetExhausted ∨ error = searchCancelled)
      (budget.pay cancelled charge) := by
  cases charge with
  | checkpoint => simp [MatcherBudget.pay, MatcherBudget.checkpoint]
  | component => simp [MatcherBudget.pay, MatcherBudget.consumeComponent, MatcherBudget.checkpoint]
  | matcher bytes rules =>
    simp [MatcherBudget.pay, MatcherBudget.consumeMatcher, MatcherBudget.checkpoint]

theorem covers_cons : budget.Covers (charge :: charges) ↔
    budget.Covers [charge] ∧ (budget.after charge).Covers charges := by
  constructor
  · intro h
    have hcomponents := h.components
    have hbytes := h.bytes
    have hrules := h.rules
    simp only [List.map_cons, List.sum_cons] at hcomponents hbytes hrules
    constructor
    · constructor <;> simp only [List.map_cons, List.sum_cons, List.map_nil, List.sum_nil] <;> omega
    · constructor <;> simp only [MatcherBudget.after] <;> omega
  · intro ⟨hfirst, hrest⟩
    have hcomponents := hfirst.components
    have hbytes := hfirst.bytes
    have hrules := hfirst.rules
    have hcomponents' := hrest.components
    have hbytes' := hrest.bytes
    have hrules' := hrest.rules
    simp only [List.map_cons, List.sum_cons, List.map_nil, List.sum_nil,
      MatcherBudget.after] at hcomponents hbytes hrules hcomponents' hbytes' hrules'
    constructor <;> simp only [List.map_cons, List.sum_cons] <;> omega

theorem covers_of_paid (h : charges.foldlM (MatcherBudget.pay cancelled) budget = .ok budget') :
    budget.Covers charges := by
  induction charges generalizing budget with
  | nil => exact ⟨Nat.zero_le _, Nat.zero_le _, Nat.zero_le _⟩
  | cons charge charges ih =>
    rw [List.foldlM_cons] at h
    have ⟨middle, hpaid, hrest⟩ := bind_eq_ok_iff.mp h
    have ⟨hcovers, hafter⟩ := pay_eq_ok hpaid
    rw [hafter] at hrest
    exact covers_cons.mpr ⟨hcovers, ih hrest⟩

theorem paid_of_covers (hcancelled : ∀ n, cancelled n = false) (h : budget.Covers charges) :
    ∃ budget', charges.foldlM (MatcherBudget.pay cancelled) budget = .ok budget' := by
  induction charges generalizing budget with
  | nil => exact ⟨budget, rfl⟩
  | cons charge charges ih =>
    have ⟨hfirst, hrest⟩ := covers_cons.mp h
    rw [List.foldlM_cons, pay_of_covers (hcancelled _) hfirst, ok_bind]
    exact ih hrest

/-- The budget is used up only by charges that it does not cover. -/
theorem paid_error {error : IoError}
    (h : charges.foldlM (MatcherBudget.pay cancelled) budget = .error error) :
    error = searchBudgetExhausted ∧ ¬budget.Covers charges ∨ error = searchCancelled := by
  induction charges generalizing budget with
  | nil => contradiction
  | cons charge charges ih =>
    rw [List.foldlM_cons] at h
    rw [covers_cons]
    cases hpaid : budget.pay cancelled charge with
    | ok middle =>
      rw [hpaid, ok_bind] at h
      have ⟨_, hafter⟩ := pay_eq_ok hpaid
      rw [hafter] at h
      rcases ih h with ⟨hexhausted, hcovers⟩ | hcancelled
      · exact .inl ⟨hexhausted, fun h => hcovers h.2⟩
      · exact .inr hcancelled
    | error first =>
      rw [hpaid] at h
      cases h
      rcases pay_failsOnly budget charge error hpaid with hexhausted | hcancelled
      · left
        exists hexhausted
        intro ⟨hcovers, _⟩
        cases hcancelled : cancelled budget.loads with
        | false =>
          rw [pay_of_covers hcancelled hcovers] at hpaid
          contradiction
        | true =>
          have hstopped : budget.pay cancelled charge = _ := pay_of_cancelled hcancelled
          rw [hpaid, hexhausted] at hstopped
          simp [searchBudgetExhausted, searchCancelled] at hstopped
      · exact .inr hcancelled

end

/-! ## Agreement -/

/-- More is needed for the charges than a new budget has. -/
def Exhausts (charges : List Charge) : Prop :=
  maxSearchMatcherComponents < (charges.map Charge.components).sum ∨
    maxSearchIgnoreBytes < (charges.map Charge.bytes).sum ∨
    maxSearchIgnoreRules < (charges.map Charge.rules).sum

theorem covers_new_iff {charges : List Charge} :
    MatcherBudget.new.Covers charges ↔ ¬Exhausts charges := by
  unfold Exhausts
  rw [not_or, not_or, Nat.not_lt, Nat.not_lt, Nat.not_lt]
  constructor
  · intro h
    exact ⟨h.components, h.bytes, h.rules⟩
  · intro ⟨hcomponents, hbytes, hrules⟩
    exact ⟨hcomponents, hbytes, hrules⟩

/-- A batch within bounds against all entries. -/
structure Within (maxEntries maxExamined : Nat) (cancelled : Nat → Bool)
    (batch : Batch VisibleEntry) (entries : List VisibleEntry) : Prop where
  complete : batch.truncated = false → (∀ n, cancelled n = false) → batch.entries = entries
  subset : batch.entries.Subperm entries
  entries : batch.entries.length ≤ maxEntries
  examined : batch.examined ≤ maxExamined

section
variable {δ β γ : Type} {disk : Disk δ} {gitignores : Gitignore β γ} {policy : IgnorePolicy δ}
  {path : List Component} {found : δ × List γ × Bool}

/-- Under the same matchers the bounds only cut the listing short. -/
theorem entriesUnder_within {bounds : EnumerationBounds} {loads : Nat} {batch : Batch VisibleEntry}
    (h : entriesUnder disk gitignores policy path found (some bounds) loads = .ok batch) :
    ∃ all, entriesUnder disk gitignores policy path found none 0 = .ok all ∧
      Within bounds.maxEntries bounds.maxExamined bounds.cancelled batch all.entries := by
  have ⟨directory, matchers, ancestorIgnored⟩ := found
  unfold entriesUnder at h ⊢
  have ⟨relative, hrelative, h⟩ := bind_eq_ok_iff.mp h
  dsimp only
  rw [hrelative, ok_bind]
  split at h
  next hignored =>
    cases h
    rw [if_pos hignored]
    exact ⟨_, rfl, fun _ _ => rfl, List.Subperm.refl _, Nat.zero_le _, Nat.zero_le _⟩
  next hignored =>
    have ⟨items, hitems, h⟩ := bind_eq_ok_iff.mp h
    cases h
    rw [if_neg hignored, hitems, ok_bind]
    generalize visibleEntry disk gitignores policy directory matchers relative = keep
    dsimp only [Option.map_some, Option.map_none]
    generalize hlooks : Bounds.mk bounds.maxEntries bounds.maxExamined
      (fun n => bounds.cancelled (loads + n)) = looks
    have ⟨seen, hseen, hkept, hall⟩ := @enumerateWithin_take _ _ keep looks 0 [] items
    have hwithin := @enumerateWithin_bounded _ _ keep looks 0 [] items (Nat.zero_le _)
      (Nat.zero_le _)
    have hentries := @enumerateWithin_none _ _ keep 0 [] items
    refine ⟨_, rfl, ?_, ?_, ?_, ?_⟩
    · intro htruncated hcancelled
      dsimp only
      rw [hkept, hentries, hall htruncated fun n => hlooks ▸ hcancelled (loads + n)]
    · dsimp only
      rw [hkept, hentries]
      have hsub := (hseen.sublist.filterMap keep).subperm
      exact ((List.perm_insertionSort _ _).subperm.trans hsub).trans
        (List.perm_insertionSort _ _).symm.subperm
    · dsimp only
      rw [List.length_insertionSort]
      exact hlooks ▸ hwithin.1
    · exact hlooks ▸ hwithin.2

/-- Bounds make no listing fail. -/
theorem entriesUnder_error {error : IoError} {bounds : Option EnumerationBounds} {loads : Nat}
    (h : entriesUnder disk gitignores policy path found bounds loads = .error error) :
    entriesUnder disk gitignores policy path found none 0 = .error error := by
  have ⟨directory, matchers, ancestorIgnored⟩ := found
  unfold entriesUnder at h ⊢
  dsimp only at h ⊢
  cases hrelative : validateRelativeDirectory path with
  | error kind =>
    rw [hrelative] at h
    exact h
  | ok relative =>
    rw [hrelative, ok_bind] at h
    rw [ok_bind]
    split at h
    next => contradiction
    next hignored =>
      rw [if_neg hignored]
      cases hitems : disk.entries directory with
      | error kind =>
        rw [hitems] at h
        exact h
      | ok items =>
        rw [hitems] at h
        contradiction

/-- A bounded listing is one under all the ignore rules that the unbounded one
collects, whole unless it says that it is cut short. Where the rules cost more
than the budget there is no listing. -/
theorem bounded_entries (disk : Disk δ) (gitignores : Gitignore β γ) (policy : IgnorePolicy δ)
    (path : List Component) (maxEntries maxExamined : Nat) (cancelled : Nat → Bool) :
    (∀ batch,
      visibleEntriesBounded disk gitignores policy path maxEntries maxExamined cancelled = .ok batch →
      ∃ entries, visibleEntries disk gitignores policy path = .ok entries ∧
        Within (max maxEntries 1) (max maxExamined 1) cancelled batch entries) ∧
    (Exhausts (openDirectoryWithMatchers disk gitignores policy path).charges →
      ∃ error, visibleEntriesBounded disk gitignores policy path maxEntries maxExamined cancelled =
        .error error ∧ (error = searchBudgetExhausted ∨ error = searchCancelled)) ∧
    ∀ error,
      visibleEntriesBounded disk gitignores policy path maxEntries maxExamined cancelled =
        .error error →
      visibleEntries disk gitignores policy path = .error error ∨
        (error = searchBudgetExhausted ∧
          Exhausts (openDirectoryWithMatchers disk gitignores policy path).charges) ∨
        error = searchCancelled := by
  refine ⟨?_, ?_, ?_⟩
  · intro batch h
    have ⟨⟨found, budget⟩, hfound, hbatch⟩ := bind_eq_ok_iff.mp h
    have ⟨_, hresult⟩ := Priced.metered_eq_ok_iff.mp hfound
    have ⟨all, hall, hwithin⟩ := entriesUnder_within hbatch
    exists all.entries
    rw [visibleEntries, visibleEntriesWithBounds, hresult, ok_bind, hall]
    exact ⟨rfl, hwithin⟩
  · intro h
    unfold visibleEntriesBounded visibleEntriesWithBounds
    dsimp only
    cases hpaid : (openDirectoryWithMatchers disk gitignores policy path).charges.foldlM
        (MatcherBudget.pay cancelled) MatcherBudget.new with
    | ok budget => exact absurd h (covers_new_iff.mp (covers_of_paid hpaid))
    | error error =>
      exists error
      rw [Priced.metered, hpaid]
      exists rfl
      rcases paid_error hpaid with ⟨hexhausted, _⟩ | hcancelled
      · exact .inl hexhausted
      · exact .inr hcancelled
  · intro error h
    unfold visibleEntriesBounded visibleEntriesWithBounds at h
    dsimp only at h
    cases hpaid : (openDirectoryWithMatchers disk gitignores policy path).charges.foldlM
        (MatcherBudget.pay cancelled) MatcherBudget.new with
    | error refused =>
      rw [Priced.metered, hpaid] at h
      cases h
      rcases paid_error hpaid with ⟨hexhausted, hcovers⟩ | hcancelled
      · right
        left
        exists hexhausted
        by_contra hfits
        exact hcovers (covers_new_iff.mpr hfits)
      · exact .inr (.inr hcancelled)
    | ok budget =>
      left
      rw [Priced.metered, hpaid, ok_bind] at h
      rw [visibleEntries, visibleEntriesWithBounds]
      cases hresult : (openDirectoryWithMatchers disk gitignores policy path).result with
      | error failed =>
        rw [hresult] at h
        cases h
        rfl
      | ok found =>
        rw [hresult, ok_bind, pure_eq_ok, ok_bind] at h
        rw [ok_bind]
        rw [entriesUnder_error h]
        rfl

end

end HerdrContext.Files.Enumeration
