import HerdrContext.Library.Meet
import HerdrContext.Platform

/-! VCS status of root-relative paths, and the tables a snapshot is folded into. -/
namespace HerdrContext.Files

open Library

instance : Std.LawfulEqOrd FileName where
  eq_of_compare h := compare_eq_iff_eq.mp h

instance : Std.LawfulEqOrd RelativePath := inferInstance

inductive VcsStatusKind where
  | added | modified | deleted | renamed | copied | untracked | conflicted | typeChanged
  deriving DecidableEq, Repr

def statusOrder : VcsStatusKind → Nat
  | .conflicted => 0
  | .renamed => 1
  | .copied => 2
  | .typeChanged => 3
  | .deleted => 4
  | .added => 5
  | .modified => 6
  | .untracked => 7

theorem statusOrder_injective : Function.Injective statusOrder := by
  intro left right h
  cases left <;> cases right <;> first | rfl | contradiction

theorem statusOrder_lt (kind : VcsStatusKind) : statusOrder kind < 8 := by
  cases kind <;> decide

instance : Finite VcsStatusKind :=
  Finite.of_injective (fun kind => (⟨statusOrder kind, statusOrder_lt kind⟩ : Fin 8))
    fun _ _ h => statusOrder_injective (Fin.mk.inj h)

/-- The stronger status comes first. -/
instance : LinearOrder VcsStatusKind := LinearOrder.lift' statusOrder statusOrder_injective

theorem preferred_eq (status current : VcsStatusKind) :
    (if statusOrder status < statusOrder current then status else current) = current ⊓ status := by
  split
  next h => exact (inf_of_le_right (show status ≤ current from Nat.le_of_lt h)).symm
  next h => exact (inf_of_le_left (show current ≤ status from Nat.not_lt.mp h)).symm

/-- Root-relative normalized status entry. -/
structure VcsEntryStatus where
  path : RelativePath
  sourcePath : Option RelativePath
  kind : VcsStatusKind
  indexState : Option VcsStatusKind
  worktreeState : Option VcsStatusKind
  path_ne_nil : path ≠ []
  source_ne_nil : ∀ source ∈ sourcePath, source ≠ []
  moved_source : kind = .renamed ∨ kind = .copied → sourcePath.isSome

inductive VcsEntryStatusError where
  | emptyPath (field : String)
  | missingSourcePath (kind : VcsStatusKind)
  deriving DecidableEq

/-- `VcsEntryStatus::new` on paths of normal components. -/
def VcsEntryStatus.new (path : RelativePath) (sourcePath : Option RelativePath)
    (kind : VcsStatusKind) (indexState worktreeState : Option VcsStatusKind) :
    Except VcsEntryStatusError VcsEntryStatus :=
  if hpath : path = [] then .error (.emptyPath "path")
  else if hsource : ∃ source ∈ sourcePath, source = [] then .error (.emptyPath "source_path")
  else if hmoved : (kind = .renamed ∨ kind = .copied) ∧ sourcePath.isNone then
    .error (.missingSourcePath kind)
  else .ok {
    path, sourcePath, kind, indexState, worktreeState
    path_ne_nil := hpath
    source_ne_nil := fun source hmem heq => hsource ⟨source, hmem, heq⟩
    moved_source := fun hkind => by
      cases sourcePath with
      | none => exact absurd ⟨hkind, rfl⟩ hmoved
      | some _ => rfl }

/-- The entry or one of its two sides is a deletion. -/
def VcsEntryStatus.deletes (entry : VcsEntryStatus) : Bool :=
  entry.kind = .deleted || entry.indexState = some .deleted || entry.worktreeState = some .deleted

structure VcsStatusSnapshot where
  entries : List VcsEntryStatus
  stale : Bool

/-! ## Paths -/

def parentPath (path : RelativePath) : RelativePath := path.dropLast

/-- `Path::ancestors`: the path, then its parents up to the empty path. -/
def ancestors (path : RelativePath) : List RelativePath := path.inits.reverse

/-- `Path::strip_prefix`. -/
def stripPrefix (filesPrefix path : RelativePath) : Option RelativePath :=
  if filesPrefix.isPrefixOf path then some (path.drop filesPrefix.length) else none

theorem stripPrefix_eq_some_iff {filesPrefix path rest : RelativePath} :
    stripPrefix filesPrefix path = some rest ↔ path = filesPrefix ++ rest := by
  unfold stripPrefix
  split
  next h =>
    have ⟨tail, htail⟩ := List.isPrefixOf_iff_prefix.mp h
    subst htail
    simp
  next h =>
    simp only [reduceCtorEq, false_iff]
    intro heq
    exact h (List.isPrefixOf_iff_prefix.mpr ⟨rest, heq.symm⟩)

theorem mem_ancestors {path ancestor : RelativePath} :
    ancestor ∈ ancestors path ↔ ancestor <+: path := by
  simp [ancestors]

/-- The ancestors without the path itself. -/
theorem tail_ancestors (path : RelativePath) (name : FileName) :
    (ancestors (path ++ [name])).tail = ancestors path := by
  simp [ancestors, List.inits_append]

theorem ancestors_concat (path : RelativePath) (name : FileName) :
    ancestors (path ++ [name]) = (path ++ [name]) :: ancestors path := by
  simp [ancestors, List.inits_append]

/-! ## Statuses -/

abbrev Statuses := MeetTable RelativePath VcsStatusKind

def insertPreferredStatus (statuses : Statuses) (path : RelativePath) (status : VcsStatusKind) :
    Statuses :=
  statuses.alter path fun
    | some current => some (if statusOrder status < statusOrder current then status else current)
    | none => some status

theorem insertPreferredStatus_eq (statuses : Statuses) (path : RelativePath)
    (status : VcsStatusKind) :
    insertPreferredStatus statuses path status = meetInto statuses (path, status) := by
  unfold insertPreferredStatus meetInto
  congr 1
  funext kept
  cases kept with
  | none => rfl
  | some current => exact congrArg some (preferred_eq status current)

/-- What a status counts as on the directories above it. -/
def ancestorStatus (status : VcsStatusKind) : VcsStatusKind :=
  if status = .conflicted then .conflicted else .modified

/-- The statuses one contribution spreads. -/
def spread (path : RelativePath) (status : VcsStatusKind) : List (RelativePath × VcsStatusKind) :=
  match (ancestors path).takeWhile (· ≠ []) with
  | [] => []
  | entry :: above => (entry, status) :: above.map fun ancestor => (ancestor, ancestorStatus status)

def insertStatusWithAncestors (statuses : Statuses) (path : RelativePath)
    (status : VcsStatusKind) : Statuses :=
  match (ancestors path).takeWhile (· ≠ []) with
  | [] => statuses
  | entry :: above =>
    above.foldl (fun statuses ancestor =>
      insertPreferredStatus statuses ancestor (ancestorStatus status))
      (insertPreferredStatus statuses entry status)

theorem insertStatusWithAncestors_eq (statuses : Statuses) (path : RelativePath)
    (status : VcsStatusKind) :
    insertStatusWithAncestors statuses path status = (spread path status).foldl meetInto statuses := by
  unfold insertStatusWithAncestors spread
  split
  next h => rfl
  next entry above h =>
    simp only [List.foldl_cons, List.foldl_map, insertPreferredStatus_eq]

theorem takeWhile_ancestors (path : RelativePath) :
    (ancestors path).takeWhile (· ≠ []) = (ancestors path).filter (· ≠ []) := by
  induction path using List.reverseRecOn with
  | nil => rfl
  | append_singleton path name ih =>
    rw [ancestors_concat, List.takeWhile_cons_of_pos (by simp),
      List.filter_cons_of_pos (by simp), ih]

/-- A status reaches its own path as it is and every directory above it as `ancestorStatus`. -/
theorem mem_spread {path target : RelativePath} {status value : VcsStatusKind} :
    (target, value) ∈ spread path status ↔ target ≠ [] ∧
      (target = path ∧ value = status ∨
        target ≠ path ∧ target <+: path ∧ value = ancestorStatus status) := by
  unfold spread
  rw [takeWhile_ancestors]
  induction path using List.reverseRecOn with
  | nil =>
    simp only [ancestors, List.inits, List.reverse_singleton]
    constructor
    · simp
    · rintro ⟨hne, ⟨rfl, -⟩ | ⟨-, habove, -⟩⟩
      · contradiction
      · exact absurd (List.prefix_nil.mp habove) hne
  | append_singleton path name _ =>
    have hfilter : (ancestors (path ++ [name])).filter (· ≠ []) =
        (path ++ [name]) :: (ancestors path).filter (· ≠ []) := by
      simp [ancestors_concat]
    rw [hfilter]
    simp only [List.mem_cons, List.mem_map, List.mem_filter, mem_ancestors, Prod.mk.injEq,
      decide_eq_true_eq]
    constructor
    · rintro (⟨rfl, rfl⟩ | ⟨ancestor, ⟨habove, hne⟩, rfl, rfl⟩)
      · exact ⟨by simp, Or.inl ⟨rfl, rfl⟩⟩
      · refine ⟨hne, Or.inr ⟨?_, habove.trans (List.prefix_append _ _), rfl⟩⟩
        rintro rfl
        have := habove.length_le
        simp at this
    · rintro ⟨hne, ⟨rfl, rfl⟩ | ⟨hnot, habove, rfl⟩⟩
      · exact Or.inl ⟨rfl, rfl⟩
      · refine Or.inr ⟨target, ⟨?_, hne⟩, rfl, rfl⟩
        exact (List.prefix_concat_iff.mp habove).resolve_left hnot

/-! ## Changed paths -/

/-- The strongest kind seen at each path, and whether the path was found missing. -/
abbrev Changed := MeetTable RelativePath (VcsStatusKind × Boolᵒᵈ)

def upsertChangedFile (changed : Changed) (path : RelativePath) (status : VcsStatusKind)
    (missing : Bool) : Changed :=
  changed.alter path fun
    | some (currentKind, currentMissing) => some
      (if statusOrder status < statusOrder currentKind then status else currentKind,
        OrderDual.toDual (OrderDual.ofDual currentMissing || missing))
    | none => some (status, OrderDual.toDual missing)

theorem upsertChangedFile_eq (changed : Changed) (path : RelativePath) (status : VcsStatusKind)
    (missing : Bool) :
    upsertChangedFile changed path status missing =
      meetInto changed (path, (status, OrderDual.toDual missing)) := by
  unfold upsertChangedFile meetInto
  congr 1
  funext kept
  cases kept with
  | none => rfl
  | some current => exact congrArg some (Prod.ext (preferred_eq status current.1) rfl)

end HerdrContext.Files
