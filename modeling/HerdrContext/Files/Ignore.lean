import HerdrContext.Files.Status

/-! What the file system shows below the files root, and what of a directory is
visible under a policy. -/
namespace HerdrContext.Files

open Library

inductive VisibleEntryKind where
  | directory | file | symlink
  deriving DecidableEq, Repr

/-- What the ignore files on the way to a directory say. -/
structure IgnoreMatchers where
  isIgnored : RelativePath → Bool → Bool
  ancestorIgnored : Bool

/-- The directory tree below the files root while it does not change. `stat`
asks for a path inside its open parent and follows no link; an entry of a
listing that cannot be read is `none`. -/
structure FilesRoot where
  stat : RelativePath → Except IoErrorKind VisibleEntryKind
  openable : RelativePath → Bool
  listing : RelativePath → Except IoErrorKind (List (Option FileName))
  matchers : RelativePath → Except IoErrorKind IgnoreMatchers
  parent_directory : ∀ directory name, stat (directory ++ [name]) ≠ .error .notFound →
    directory = [] ∨ stat directory = .ok .directory

namespace FilesRoot

/-- `open_child_directory_nofollow`; a file or a link in the place is no directory. -/
def openChild (root : FilesRoot) (path : RelativePath) : Except IoErrorKind Unit :=
  match root.stat path with
  | .error kind => .error kind
  | .ok .directory => if root.openable path then .ok () else .error .permissionDenied
  | .ok _ => .error .other

/-- The components of a directory, opened one inside the other. -/
def openFrom (root : FilesRoot) : RelativePath → List FileName → Except IoErrorKind Unit
  | _, [] => .ok ()
  | parent, name :: rest => do
    root.openChild (parent ++ [name])
    root.openFrom (parent ++ [name]) rest

def openDirectory (root : FilesRoot) (directory : RelativePath) : Except IoErrorKind Unit :=
  root.openFrom [] directory

/-- `IgnorePolicy::symlink_metadata`. -/
def symlinkMetadata (root : FilesRoot) (path : RelativePath) :
    Except IoErrorKind VisibleEntryKind :=
  if path = [] then .error .invalidInput
  else do
    root.openDirectory (parentPath path)
    root.stat path

/-- Nothing is at the path, whatever stands in the way to it. -/
def Absent (root : FilesRoot) (path : RelativePath) : Prop := root.stat path = .error .notFound

end FilesRoot

structure IgnorePolicy where
  isVisible : RelativePath → Bool
  showIgnored : Bool

/-- The policy with the ignored-visibility flag set anew. -/
def IgnorePolicy.rescoped (policy : IgnorePolicy) (showIgnored : Bool) : IgnorePolicy :=
  { policy with showIgnored }

structure VisibleEntry where
  name : FileName
  kind : VisibleEntryKind
  ignored : Bool
  deriving DecidableEq

/-- `interrupted` and `cancelledAt` are the loads of the cancellation flags. -/
structure EnumerationBounds where
  maxEntries : Nat
  maxExamined : Nat
  interrupted : Bool
  cancelledAt : Nat → Bool

structure VisibleEntriesBatch where
  entries : List VisibleEntry
  examined : Nat
  truncated : Bool

section
variable (root : FilesRoot) (policy : IgnorePolicy)

/-- What the loop over a directory keeps of one entry. -/
def visibleEntry (matchers : IgnoreMatchers) (directory : RelativePath) (item : Option FileName) :
    Option VisibleEntry := do
  let name ← item
  let relative := directory ++ [name]
  if policy.isVisible relative then
    match root.stat relative with
    | .error _ => none
    | .ok kind =>
      let ignored := matchers.isIgnored relative (kind = .directory)
      if ignored && !policy.showIgnored then none else some ⟨name, kind, ignored⟩
  else none

def enumerate (matchers : IgnoreMatchers) (directory : RelativePath)
    (bounds : Option EnumerationBounds) :
    Nat → List VisibleEntry → List (Option FileName) → VisibleEntriesBatch
  | examined, entries, [] => ⟨entries, examined, false⟩
  | examined, entries, item :: rest =>
    if bounds.any (·.maxExamined ≤ examined) then ⟨entries, examined, true⟩
    else if bounds.any (·.cancelledAt examined) then ⟨entries, examined, false⟩
    else match visibleEntry root policy matchers directory item with
      | none => enumerate matchers directory bounds (examined + 1) entries rest
      | some entry =>
        if bounds.any (·.maxEntries ≤ entries.length) then ⟨entries, examined + 1, true⟩
        else enumerate matchers directory bounds (examined + 1) (entries ++ [entry]) rest

/-- `visible_entries_with_bounds`. -/
def visibleEntriesWithBounds (directory : RelativePath) (bounds : Option EnumerationBounds) :
    Except IoErrorKind VisibleEntriesBatch := do
  rejectIf (bounds.any (·.interrupted)) .other
  root.openDirectory directory
  let matchers ← root.matchers directory
  if matchers.ancestorIgnored && !policy.showIgnored then return ⟨[], 0, false⟩
  let listing ← root.listing directory
  let batch := enumerate root policy matchers directory bounds 0 [] listing
  return { batch with entries := batch.entries.insertionSort fun left right =>
    left.name ≤ right.name }

end

/-! ## Lookups -/

namespace FilesRoot

variable {root : FilesRoot}

theorem openFrom_append (parent : RelativePath) (names : List FileName) (name : FileName) :
    root.openFrom parent (names ++ [name]) =
      root.openFrom parent names >>= fun _ => root.openChild (parent ++ names ++ [name]) := by
  induction names generalizing parent with
  | nil =>
    simp only [List.nil_append, List.append_nil, openFrom, ok_bind]
    cases root.openChild (parent ++ [name]) <;> rfl
  | cons first rest ih =>
    simp only [List.cons_append, openFrom, ih]
    cases root.openChild (parent ++ [first]) with
    | error kind => rfl
    | ok _ =>
      simp only [ok_bind, List.append_assoc, List.cons_append, List.nil_append]

theorem openDirectory_append (directory : RelativePath) (name : FileName) :
    root.openDirectory (directory ++ [name]) =
      root.openDirectory directory >>= fun _ => root.openChild (directory ++ [name]) := by
  unfold openDirectory
  rw [openFrom_append, List.nil_append]

/-- What is below a path that is absent is absent. -/
theorem Absent.below {directory rest : RelativePath} (h : root.Absent directory)
    (hne : directory ≠ []) : root.Absent (directory ++ rest) := by
  induction rest using List.reverseRecOn with
  | nil =>
    rw [List.append_nil]
    exact h
  | append_singleton rest name ih =>
    by_contra hpresent
    rw [Absent, ← List.append_assoc] at hpresent
    cases root.parent_directory _ _ hpresent with
    | inl hnil => exact hne (List.append_eq_nil_iff.mp hnil).1
    | inr hdirectory =>
      rw [Absent, hdirectory] at ih
      contradiction

theorem openChild_notFound {path : RelativePath} (h : root.openChild path = .error .notFound) :
    root.Absent path := by
  unfold openChild at h
  split at h
  next kind hkind =>
    cases h
    exact hkind
  next =>
    split at h <;> contradiction
  next => contradiction

theorem absent_of_openDirectory {directory : RelativePath}
    (h : root.openDirectory directory = .error .notFound) (rest : RelativePath) :
    root.Absent (directory ++ rest) := by
  induction directory using List.reverseRecOn generalizing rest with
  | nil => contradiction
  | append_singleton directory name ih =>
    rw [openDirectory_append] at h
    cases hopen : root.openDirectory directory with
    | error kind =>
      rw [hopen] at h
      cases h
      rw [List.append_assoc]
      exact ih hopen _
    | ok _ =>
      rw [hopen] at h
      exact (openChild_notFound h).below (by simp)

/-- A lookup finds nothing only where nothing is. -/
theorem absent_of_symlinkMetadata {path : RelativePath}
    (h : root.symlinkMetadata path = .error .notFound) : root.Absent path := by
  unfold symlinkMetadata at h
  split at h
  next => contradiction
  next hne =>
    cases hopen : root.openDirectory (parentPath path) with
    | error kind =>
      rw [hopen] at h
      cases h
      have habsent := absent_of_openDirectory hopen [path.getLast hne]
      rwa [parentPath, List.dropLast_concat_getLast] at habsent
    | ok _ =>
      rw [hopen] at h
      exact h

/-- Where the directory of an absent path opens, the lookup says so. -/
theorem symlinkMetadata_of_absent {directory : RelativePath} {name : FileName}
    (hopen : root.openDirectory directory = .ok ()) (h : root.Absent (directory ++ [name])) :
    root.symlinkMetadata (directory ++ [name]) = .error .notFound := by
  have hne : directory ++ [name] ≠ [] := by simp
  rw [symlinkMetadata, if_neg hne, parentPath, List.dropLast_concat, hopen, ok_bind]
  exact h

end FilesRoot

/-! ## Listings -/

section
variable {root : FilesRoot} {policy : IgnorePolicy}

theorem visibleEntry_stat {matchers : IgnoreMatchers} {directory : RelativePath}
    {item : Option FileName} {entry : VisibleEntry}
    (h : visibleEntry root policy matchers directory item = some entry) :
    root.stat (directory ++ [entry.name]) = .ok entry.kind := by
  unfold visibleEntry at h
  cases item with
  | none => contradiction
  | some name =>
    simp only [Option.bind_eq_bind, Option.bind_some] at h
    split at h
    next =>
      split at h
      next => contradiction
      next kind hstat =>
        split at h
        next => contradiction
        next =>
          cases h
          exact hstat
    next => contradiction

theorem mem_enumerate {matchers : IgnoreMatchers} {directory : RelativePath}
    {bounds : Option EnumerationBounds} {examined : Nat} {entries : List VisibleEntry}
    {listing : List (Option FileName)} {entry : VisibleEntry}
    (h : entry ∈ (enumerate root policy matchers directory bounds examined entries listing).entries) :
    entry ∈ entries ∨ ∃ item ∈ listing, visibleEntry root policy matchers directory item = some entry := by
  induction listing generalizing examined entries with
  | nil => exact Or.inl h
  | cons item rest ih =>
    unfold enumerate at h
    split at h
    next => exact Or.inl h
    next =>
      split at h
      next => exact Or.inl h
      next =>
        split at h
        next =>
          cases ih h with
          | inl hmem => exact Or.inl hmem
          | inr hrest =>
            have ⟨later, hlater, hentry⟩ := hrest
            exact Or.inr ⟨later, List.mem_cons_of_mem _ hlater, hentry⟩
        next found hfound =>
          split at h
          next => exact Or.inl h
          next =>
            cases ih h with
            | inl hmem =>
              cases List.mem_append.mp hmem with
              | inl hold => exact Or.inl hold
              | inr hnew =>
                rw [List.mem_singleton.mp hnew]
                exact Or.inr ⟨item, List.mem_cons_self, hfound⟩
            | inr hrest =>
              have ⟨later, hlater, hentry⟩ := hrest
              exact Or.inr ⟨later, List.mem_cons_of_mem _ hlater, hentry⟩

/-- A listed entry was found in the directory, which opened. -/
theorem visibleEntriesWithBounds_stat {directory : RelativePath}
    {bounds : Option EnumerationBounds} {batch : VisibleEntriesBatch} {entry : VisibleEntry}
    (h : visibleEntriesWithBounds root policy directory bounds = .ok batch)
    (hmem : entry ∈ batch.entries) :
    root.openDirectory directory = .ok () ∧
      root.stat (directory ++ [entry.name]) = .ok entry.kind := by
  unfold visibleEntriesWithBounds at h
  simp only [bind_eq_ok_iff] at h
  have ⟨_, _, _, hopen, matchers, _, h⟩ := h
  refine ⟨hopen, ?_⟩
  split at h
  next =>
    cases h
    contradiction
  next =>
    have ⟨listing, _, hbatch⟩ := bind_eq_ok_iff.mp h
    cases hbatch
    cases mem_enumerate ((List.perm_insertionSort _ _).mem_iff.mp hmem) with
    | inl hnone => contradiction
    | inr hfound =>
      have ⟨_, _, hentry⟩ := hfound
      exact visibleEntry_stat hentry

end

end HerdrContext.Files
