import HerdrContext.Files.Model
import HerdrContext.Library.Framing

/-! Status entries from the paths a version control system prints. -/
namespace HerdrContext.Vcs

open Library
open Files (VcsEntryStatus VcsEntryStatusError VcsStatusKind VcsError)

/-- The bytes of an ASCII text. -/
def ascii (text : String) : Bytes := text.toList.map fun c => c.val.toUInt8

def maxStatusEntries : Nat := 100000

/-! ## Path components -/

inductive Component where
  | rootDir | curDir | parentDir | normal (name : OsString)
  deriving DecidableEq

/-- `Path::components`. -/
def components (path : PathBuf) : List Component :=
  (if path.isAbsolute then [.rootDir]
    else if (PathBuf.segments path.bytes).head? = some [46] then [.curDir] else []) ++
  path.components.map fun name => if name = [46, 46] then .parentDir else .normal name

/-- No name below a root has a NUL, and what is read here is split at these. -/
def Component.fileName : Component → Option FileName
  | .normal name =>
    if h : name ≠ [] ∧ name ≠ [46] ∧ name ≠ [46, 46] ∧ slash ∉ name ∧ 0 ∉ name then some ⟨name, h⟩
    else none
  | _ => none

theorem fileName_eq_some_iff {component : Component} {name : FileName} :
    component.fileName = some name ↔ component = .normal name.bytes := by
  cases component with
  | normal bytes =>
    unfold Component.fileName
    simp only [Component.normal.injEq]
    split
    next h =>
      constructor
      · intro hsome
        rw [← Option.some.inj hsome]
      · intro heq
        exact congrArg some (FileName.mk.injEq _ _ _ _ ▸ heq)
    next h =>
      simp only [reduceCtorEq, false_iff]
      intro heq
      exact h (heq ▸ name.normal)
  | rootDir => simp [Component.fileName]
  | curDir => simp [Component.fileName]
  | parentDir => simp [Component.fileName]

/-- The components are these names. -/
def Normalizes (path : PathBuf) (names : RelativePath) : Prop :=
  components path = names.map fun name => .normal name.bytes

instance (path : PathBuf) (names : RelativePath) : Decidable (Normalizes path names) :=
  inferInstanceAs (Decidable (_ = _))

theorem mapM_fileName_eq_some_iff {found : List Component} {names : RelativePath} :
    found.mapM Component.fileName = some names ↔
      found = names.map fun name => .normal name.bytes := by
  induction found generalizing names with
  | nil => cases names <;> simp
  | cons component found ih =>
    rw [List.mapM_cons]
    simp only [Option.bind_eq_bind, Option.bind_eq_some_iff, Option.pure_def, Option.some.injEq]
    cases names with
    | nil => simp
    | cons name names =>
      simp only [List.cons.injEq, List.map_cons, ← fileName_eq_some_iff, ← ih]
      constructor
      · rintro ⟨first, hfirst, rest, hrest, heq, heqs⟩
        exact ⟨heq ▸ hfirst, heqs ▸ hrest⟩
      · rintro ⟨hfirst, hrest⟩
        exact ⟨name, hfirst, names, hrest, rfl, rfl⟩

def normalizeRelativePath (path : PathBuf) (field : String) : Except String RelativePath :=
  match (components path).mapM Component.fileName with
  | none =>
    .error (field ++ " " ++ String.ofList (toStringLossy path.bytes) ++
      " must be root-relative and normalized")
  | some normalized =>
    if normalized = [] then .error (field ++ " must be non-empty") else .ok normalized

theorem normalizeRelativePath_eq_ok_iff {path : PathBuf} {field : String} {names : RelativePath} :
    normalizeRelativePath path field = .ok names ↔ Normalizes path names ∧ names ≠ [] := by
  unfold normalizeRelativePath
  rw [Normalizes, ← mapM_fileName_eq_some_iff]
  cases (components path).mapM Component.fileName with
  | none => simp
  | some normalized =>
    simp only [Option.some.injEq]
    split
    next hnil =>
      simp only [reduceCtorEq, false_iff, not_and, not_not]
      intro heq
      rw [← heq, hnil]
    next hne =>
      rw [Except.ok.injEq]
      constructor
      · intro heq
        exact ⟨heq, heq ▸ hne⟩
      · intro h
        exact h.1

theorem mem_segments {bytes : Bytes} {name : OsString} (h : name ∈ PathBuf.segments bytes) :
    slash ∉ name ∧ ∀ byte ∈ name, byte ∈ bytes := by
  induction bytes generalizing name with
  | nil =>
    rw [List.mem_singleton.mp h]
    simp
  | cons first bytes ih =>
    rw [PathBuf.segments] at h
    split at h
    next =>
      cases List.mem_cons.mp h with
      | inl hnil => simp [hnil]
      | inr hrest =>
        have ⟨hslash, hbytes⟩ := ih hrest
        exact ⟨hslash, fun byte hbyte => List.mem_cons_of_mem _ (hbytes byte hbyte)⟩
    next hne =>
      split at h
      next =>
        rw [List.mem_singleton.mp h]
        simp [Ne.symm hne]
      next head others hsegments =>
        rw [hsegments] at ih
        cases List.mem_cons.mp h with
        | inl heq =>
          have ⟨hslash, hbytes⟩ := ih List.mem_cons_self
          rw [heq]
          constructor
          · simp [Ne.symm hne, hslash]
          · intro byte hbyte
            cases List.mem_cons.mp hbyte with
            | inl hfirst => exact hfirst ▸ List.mem_cons_self
            | inr hrest => exact List.mem_cons_of_mem _ (hbytes byte hrest)
        | inr hrest =>
          have ⟨hslash, hbytes⟩ := ih (List.mem_cons_of_mem _ hrest)
          exact ⟨hslash, fun byte hbyte => List.mem_cons_of_mem _ (hbytes byte hbyte)⟩

def Component.isNormal : Component → Bool
  | .normal _ => true
  | _ => false

/-- Normal components without a NUL are names. -/
theorem exists_normalizes {path : PathBuf} (hnul : 0 ∉ path.bytes)
    (hnormal : ∀ component ∈ components path, component.isNormal) :
    ∃ names, Normalizes path names := by
  have hnames : ∀ component ∈ components path, ∃ name, component.fileName = some name := by
    intro component hmem
    have hkind := hnormal component hmem
    have hlater : component ∈ path.components.map fun name =>
        if name = [46, 46] then Component.parentDir else Component.normal name := by
      cases List.mem_append.mp hmem with
      | inl hfirst =>
        split at hfirst
        next =>
          rw [List.mem_singleton.mp hfirst] at hkind
          contradiction
        next =>
          split at hfirst
          next =>
            rw [List.mem_singleton.mp hfirst] at hkind
            contradiction
          next => contradiction
      | inr hrest => exact hrest
    have ⟨name, hname, heq⟩ := List.mem_map.mp hlater
    have ⟨hsegment, hkept⟩ := List.mem_filter.mp hname
    have ⟨hslash, hbytes⟩ := mem_segments hsegment
    have ⟨hne, hdot⟩ : name ≠ [] ∧ name ≠ [46] := by simpa using hkept
    split at heq
    next =>
      rw [← heq] at hkind
      contradiction
    next hparent =>
      refine ⟨⟨name, hne, hdot, hparent, hslash, fun hzero => hnul (hbytes 0 hzero)⟩, ?_⟩
      exact fileName_eq_some_iff.mpr heq.symm
  have ⟨names, hfound⟩ : ∃ names, (components path).mapM Component.fileName = some names := by
    generalize components path = found at hnames
    induction found with
    | nil => exact ⟨[], rfl⟩
    | cons component found ih =>
      have ⟨name, hname⟩ := hnames component List.mem_cons_self
      have ⟨names, hrest⟩ := ih fun other hother => hnames other (List.mem_cons_of_mem _ hother)
      exact ⟨name :: names, by rw [List.mapM_cons, hname, hrest]; rfl⟩
  exact ⟨names, mapM_fileName_eq_some_iff.mp hfound⟩

theorem Normalizes.isNormal {path : PathBuf} {names : RelativePath} (h : Normalizes path names) :
    ∀ component ∈ components path, component.isNormal := by
  rw [h]
  intro component hmem
  have ⟨name, _, hname⟩ := List.mem_map.mp hmem
  rw [← hname]
  rfl

/-! ## Normalized paths -/

theorem segments_append_slash {name : Bytes} (hname : slash ∉ name) (rest : Bytes) :
    PathBuf.segments (name ++ slash :: rest) = name :: PathBuf.segments rest := by
  induction name with
  | nil => simp [PathBuf.segments]
  | cons byte name ih =>
    have ⟨hne, hmem⟩ := not_or.mp (List.mem_cons.not.mp hname)
    rw [List.cons_append, PathBuf.segments, if_neg (fun h => hne h.symm), ih hmem]

theorem segments_of_notMem {name : Bytes} (hname : slash ∉ name) :
    PathBuf.segments name = [name] := by
  induction name with
  | nil => rfl
  | cons byte name ih =>
    have ⟨hne, hmem⟩ := not_or.mp (List.mem_cons.not.mp hname)
    rw [PathBuf.segments, if_neg (fun h => hne h.symm), ih hmem]

theorem segments_bytes (path : RelativePath) (hne : path ≠ []) :
    PathBuf.segments (RelativePath.bytes path) = path.map FileName.bytes := by
  induction path with
  | nil => contradiction
  | cons name path ih =>
    cases path with
    | nil => exact segments_of_notMem name.normal.2.2.2.1
    | cons next path =>
      rw [RelativePath.bytes, segments_append_slash name.normal.2.2.2.1, ih (by simp)]
      · rfl
      · simp

theorem head?_bytes (name : FileName) (path : RelativePath) :
    (RelativePath.bytes (name :: path)).head? = name.bytes.head? := by
  have ⟨byte, rest, hbytes⟩ := List.exists_cons_of_ne_nil name.normal.1
  cases path with
  | nil => rfl
  | cons next path => simp [RelativePath.bytes, hbytes]

/-- A normalized path is its own normal form. -/
theorem normalizes_bytes (path : RelativePath) (hne : path ≠ []) :
    Normalizes ⟨RelativePath.bytes path⟩ path := by
  have ⟨name, rest, hpath⟩ := List.exists_cons_of_ne_nil hne
  have hrelative : PathBuf.isAbsolute ⟨RelativePath.bytes path⟩ = false := by
    rw [PathBuf.isAbsolute, hpath, head?_bytes]
    have ⟨byte, bytes, hbytes⟩ := List.exists_cons_of_ne_nil name.normal.1
    have hslash : slash ∉ name.bytes := name.normal.2.2.2.1
    rw [hbytes] at hslash ⊢
    simp only [List.head?_cons, Option.some.injEq, decide_eq_false_iff_not]
    intro heq
    exact hslash (by simp [heq])
  have hcurrent : (PathBuf.segments (RelativePath.bytes path)).head? ≠ some [46] := by
    rw [segments_bytes path hne, hpath]
    intro heq
    exact name.normal.2.1 (Option.some.inj heq)
  have hkept : PathBuf.components ⟨RelativePath.bytes path⟩ = path.map FileName.bytes := by
    rw [PathBuf.components, segments_bytes path hne]
    apply List.filter_eq_self.mpr
    intro bytes hbytes
    have ⟨other, _, hother⟩ := List.mem_map.mp hbytes
    simp [← hother, other.normal.1, other.normal.2.1]
  rw [Normalizes, components, hrelative, if_neg (by simp), if_neg hcurrent, List.nil_append, hkept,
    List.map_map]
  apply List.map_congr_left
  intro other _
  exact if_neg other.normal.2.2.1

theorem nul_notMem_bytes (path : RelativePath) : 0 ∉ RelativePath.bytes path := by
  induction path with
  | nil => simp [RelativePath.bytes]
  | cons name path ih =>
    cases path with
    | nil => exact name.normal.2.2.2.2
    | cons next path =>
      rw [RelativePath.bytes]
      · simp only [List.mem_append, List.mem_cons, not_or]
        exact ⟨name.normal.2.2.2.2, by decide, ih⟩
      · simp

/-- A path as it is printed, and what it means. -/
structure StatusPath where
  raw : Bytes
  path : RelativePath
  nul_free : 0 ∉ raw
  path_ne_nil : path ≠ []
  normalizes : Normalizes ⟨raw⟩ path

theorem StatusPath.raw_ne_nil (path : StatusPath) : path.raw ≠ [] := by
  intro hnil
  have hnormal := path.normalizes
  rw [hnil, Normalizes] at hnormal
  have hnames : components ⟨[]⟩ = [] := by decide
  rw [hnames] at hnormal
  exact path.path_ne_nil (List.map_eq_nil_iff.mp hnormal.symm)

/-- A normalized path printed as it is. -/
def StatusPath.ofRelative (path : RelativePath) (hne : path ≠ []) : StatusPath :=
  ⟨RelativePath.bytes path, path, nul_notMem_bytes path, hne, normalizes_bytes path hne⟩

/-! ## Entries -/

/-- What an entry says. -/
structure Change where
  path : RelativePath
  sourcePath : Option RelativePath
  kind : VcsStatusKind
  indexState : Option VcsStatusKind
  worktreeState : Option VcsStatusKind
  deriving DecidableEq

def changeOf (entry : VcsEntryStatus) : Change :=
  ⟨entry.path, entry.sourcePath, entry.kind, entry.indexState, entry.worktreeState⟩

theorem changeOf_injective : Function.Injective changeOf := by
  intro left right h
  simp only [changeOf, Change.mk.injEq] at h
  cases left
  cases right
  simp_all

/-- `{kind:?}`. -/
def debugKind : VcsStatusKind → String
  | .added => "Added"
  | .modified => "Modified"
  | .deleted => "Deleted"
  | .renamed => "Renamed"
  | .copied => "Copied"
  | .untracked => "Untracked"
  | .conflicted => "Conflicted"
  | .typeChanged => "TypeChanged"

def displayError : VcsEntryStatusError → String
  | .emptyPath field => field ++ " must be non-empty"
  | .missingSourcePath kind => debugKind kind ++ " status requires source_path"

/-- `VcsEntryStatus::new`. -/
def newEntry (path : PathBuf) (sourcePath : Option PathBuf) (kind : VcsStatusKind)
    (indexState worktreeState : Option VcsStatusKind) : Except String VcsEntryStatus := do
  let path ← normalizeRelativePath path "path"
  let sourcePath ← onSome (fun source => normalizeRelativePath source "source_path") sourcePath
  mapError displayError (VcsEntryStatus.new path sourcePath kind indexState worktreeState)

theorem new_eq_ok_iff {path : RelativePath} {sourcePath : Option RelativePath}
    {kind : VcsStatusKind} {indexState worktreeState : Option VcsStatusKind}
    {entry : VcsEntryStatus} :
    VcsEntryStatus.new path sourcePath kind indexState worktreeState = .ok entry ↔
      changeOf entry = ⟨path, sourcePath, kind, indexState, worktreeState⟩ := by
  unfold VcsEntryStatus.new
  constructor
  · intro h
    split at h
    next => contradiction
    next =>
      split at h
      next => contradiction
      next =>
        split at h
        next => contradiction
        next =>
          cases h
          rfl
  · intro h
    cases h
    have hsource : ¬ ∃ source ∈ entry.sourcePath, source = [] := fun ⟨source, hmem, hnil⟩ =>
      entry.source_ne_nil source hmem hnil
    have hmoved : ¬ ((entry.kind = .renamed ∨ entry.kind = .copied) ∧
        entry.sourcePath.isNone) := by
      intro ⟨hkind, hnone⟩
      have hsome := entry.moved_source hkind
      rw [Option.isNone_iff_eq_none.mp hnone] at hsome
      contradiction
    rw [dif_neg entry.path_ne_nil, dif_neg hsource, dif_neg hmoved]

theorem newEntry_eq_ok_iff {path : PathBuf} {sourcePath : Option PathBuf}
    {kind : VcsStatusKind} {indexState worktreeState : Option VcsStatusKind}
    {entry : VcsEntryStatus} :
    newEntry path sourcePath kind indexState worktreeState = .ok entry ↔
      Normalizes path entry.path ∧ Option.Rel Normalizes sourcePath entry.sourcePath ∧
        entry.kind = kind ∧ entry.indexState = indexState ∧ entry.worktreeState = worktreeState := by
  simp only [newEntry, bind_eq_ok_iff, mapError_eq_ok_iff, normalizeRelativePath_eq_ok_iff,
    new_eq_ok_iff, changeOf, Change.mk.injEq]
  constructor
  · rintro ⟨names, ⟨hpath, _⟩, source, hsource, hnames, hsame, hkind, hindex, hworktree⟩
    refine ⟨hnames ▸ hpath, ?_, hkind, hindex, hworktree⟩
    rw [hsame]
    cases sourcePath with
    | none =>
      cases hsource
      exact Option.Rel.none
    | some sourceBytes =>
      obtain ⟨sourceNames, hnormal, heq⟩ := onSome_some_eq_ok_iff.mp hsource
      rw [heq]
      exact Option.Rel.some (normalizeRelativePath_eq_ok_iff.mp hnormal).1
  · rintro ⟨hpath, hsource, hkind, hindex, hworktree⟩
    refine ⟨entry.path, ⟨hpath, entry.path_ne_nil⟩, entry.sourcePath, ?_, rfl, rfl, hkind, hindex,
      hworktree⟩
    cases hentry : entry.sourcePath with
    | none =>
      rw [hentry] at hsource
      cases hsource
      rfl
    | some names =>
      rw [hentry] at hsource
      cases hsource with
      | some hnormal =>
        apply onSome_some_eq_ok_iff.mpr
        exact ⟨names, normalizeRelativePath_eq_ok_iff.mpr
          ⟨hnormal, entry.source_ne_nil names hentry⟩, rfl⟩

/-- The entry of a printed path. -/
theorem exists_newEntry (path : StatusPath) (source : Option StatusPath) {kind : VcsStatusKind}
    (hkind : kind = .renamed ∨ kind = .copied → source.isSome)
    (indexState worktreeState : Option VcsStatusKind) :
    ∃ entry, newEntry ⟨path.raw⟩ (source.map fun source => ⟨source.raw⟩) kind indexState
        worktreeState = .ok entry ∧
      changeOf entry = ⟨path.path, source.map StatusPath.path, kind, indexState, worktreeState⟩ := by
  have hsource : ∀ names ∈ source.map StatusPath.path, names ≠ [] := by
    intro names hnames
    have ⟨sourcePath, _, hpath⟩ := Option.mem_map.mp hnames
    rw [← hpath]
    exact sourcePath.path_ne_nil
  have hmoved : kind = .renamed ∨ kind = .copied → (source.map StatusPath.path).isSome := by
    intro h
    rw [Option.isSome_map]
    exact hkind h
  let entry : VcsEntryStatus := ⟨path.path, source.map StatusPath.path, kind, indexState,
    worktreeState, path.path_ne_nil, hsource, hmoved⟩
  refine ⟨entry, newEntry_eq_ok_iff.mpr ⟨path.normalizes, ?_, rfl, rfl, rfl⟩, rfl⟩
  cases source with
  | none => exact Option.Rel.none
  | some source => exact Option.Rel.some source.normalizes

/-- Every entry is the one of some printed path. -/
theorem of_newEntry {path : Bytes} {sourcePath : Option Bytes} {kind : VcsStatusKind}
    {indexState worktreeState : Option VcsStatusKind} {entry : VcsEntryStatus}
    (h : newEntry ⟨path⟩ (sourcePath.map PathBuf.mk) kind indexState worktreeState = .ok entry)
    (hpath : 0 ∉ path) (hsource : ∀ source ∈ sourcePath, 0 ∉ source) :
    ∃ (printed : StatusPath) (source : Option StatusPath),
      path = printed.raw ∧ sourcePath = source.map StatusPath.raw ∧
      changeOf entry = ⟨printed.path, source.map StatusPath.path, kind, indexState, worktreeState⟩ := by
  have ⟨hnormal, hrel, hkind, hindex, hworktree⟩ := newEntry_eq_ok_iff.mp h
  have hchange (source : Option StatusPath)
      (hsame : entry.sourcePath = source.map StatusPath.path) :
      changeOf entry = ⟨entry.path, source.map StatusPath.path, kind, indexState, worktreeState⟩ := by
    rw [changeOf, hsame, hkind, hindex, hworktree]
  cases sourcePath with
  | none =>
    have hnone : entry.sourcePath = none := by
      generalize entry.sourcePath = found at hrel
      cases hrel
      rfl
    exact ⟨⟨path, entry.path, hpath, entry.path_ne_nil, hnormal⟩, none, rfl, rfl, hchange none hnone⟩
  | some source =>
    cases hfound : entry.sourcePath with
    | none =>
      rw [hfound] at hrel
      cases hrel
    | some names =>
      rw [hfound] at hrel
      cases hrel with
      | some hsame =>
        exact ⟨⟨path, entry.path, hpath, entry.path_ne_nil, hnormal⟩,
          some ⟨source, names, hsource source rfl, entry.source_ne_nil names hfound, hsame⟩,
          rfl, rfl, hchange (some _) hfound⟩

end HerdrContext.Vcs
