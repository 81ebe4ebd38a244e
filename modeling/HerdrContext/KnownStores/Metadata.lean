import HerdrContext.Sources

/-! What the known-store formats extract from a session file, and the stored
form it takes between two scans of the file. -/
namespace HerdrContext.KnownStores

open Library

structure FormatFailure where
  kind : SourceErrorKind
  message : String
  deriving DecidableEq

namespace FormatFailure

def unsupported (message : String) : FormatFailure := ⟨.unsupportedFormat, message⟩

def projectMismatch (message : String) : FormatFailure := ⟨.projectMismatch, message⟩

def cancelled : FormatFailure := ⟨.io, "known conversation scan was cancelled"⟩

end FormatFailure

def maxMetadataTitleBytes : Nat := 256

def validMetadataTitle (value : String) : Bool := strLen value ≤ maxMetadataTitleBytes

def normalizeMetadataTitle (value : String) : Option String :=
  if trim value ≠ "" ∧ validMetadataTitle (trim value) then some (trim value) else none

theorem valid_of_normalizeMetadataTitle {value title : String}
    (h : normalizeMetadataTitle value = some title) : validMetadataTitle title = true := by
  unfold normalizeMetadataTitle at h
  split at h
  next hvalid =>
    cases Option.some.inj h
    exact hvalid.2
  next => contradiction

structure ParsedMetadata where
  sessionId : String
  title : Option String
  createdAt : SystemTime
  updatedAt : SystemTime
  chainUpdatedAt : SystemTime
  cwd : PathBuf
  chainTail : Option String
  recordCount : UInt64
  deriving DecidableEq

structure PendingMetadata where
  title : Option String
  createdAt : Option SystemTime
  updatedAt : Option SystemTime
  recordCount : UInt64
  deriving DecidableEq

inductive ParseOutcome where
  | metadata (parsed : ParsedMetadata)
  | identityPending (pending : PendingMetadata)
  deriving DecidableEq

/-! ## Stored forms -/

def nanosInvalid (parts : SystemTime.Parts) : Bool := 1000000000 ≤ parts.2.2.toNat

theorem nanosInvalid_parts (time : SystemTime) : nanosInvalid time.parts = false := by
  have := time.parts_nanos_lt
  unfold nanosPerSecond at this
  simp only [nanosInvalid, decide_eq_false_iff_not, not_le]
  exact this

/-- `created_at.zip(updated_at).is_some_and(|(created_at, updated_at)| updated_at < created_at)`. -/
def outOfOrder : Option SystemTime → Option SystemTime → Bool
  | some createdAt, some updatedAt => updatedAt < createdAt
  | _, _ => false

structure StoredPendingMetadata where
  title : Option String
  createdAt : Option SystemTime.Parts
  updatedAt : Option SystemTime.Parts
  recordCount : UInt64
  deriving DecidableEq

namespace StoredPendingMetadata

def fromPending (metadata : PendingMetadata) : StoredPendingMetadata where
  title := metadata.title
  createdAt := metadata.createdAt.map SystemTime.parts
  updatedAt := metadata.updatedAt.map SystemTime.parts
  recordCount := metadata.recordCount

def toPending (stored : StoredPendingMetadata) : Option PendingMetadata :=
  if stored.recordCount = 0 ∨ stored.title.any (!validMetadataTitle ·) ∨
      stored.createdAt.any nanosInvalid ∨ stored.updatedAt.any nanosInvalid then none
  else
    let createdAt := stored.createdAt.bind SystemTime.ofParts
    let updatedAt := stored.updatedAt.bind SystemTime.ofParts
    if createdAt.isSome ≠ updatedAt.isSome ∨ outOfOrder createdAt updatedAt then none
    else some ⟨stored.title, createdAt, updatedAt, stored.recordCount⟩

end StoredPendingMetadata

/-- What a parser reports while it has no session identity yet. -/
structure PendingMetadata.Storable (metadata : PendingMetadata) : Prop where
  title_valid : ∀ title ∈ metadata.title, validMetadataTitle title = true
  times : metadata.createdAt.isSome = metadata.updatedAt.isSome
  ordered : ∀ created ∈ metadata.createdAt, ∀ updated ∈ metadata.updatedAt, created ≤ updated
  counted : metadata.recordCount ≠ 0

theorem any_invalid_title {title : Option String}
    (h : ∀ value ∈ title, validMetadataTitle value = true) :
    title.any (!validMetadataTitle ·) = false := by
  cases title with
  | none => rfl
  | some value => simp [h value rfl]

theorem any_nanosInvalid_parts (time : Option SystemTime) :
    (time.map SystemTime.parts).any nanosInvalid = false := by
  cases time with
  | none => rfl
  | some time => simp [nanosInvalid_parts]

theorem bind_ofParts_parts (time : Option SystemTime) :
    (time.map SystemTime.parts).bind SystemTime.ofParts = time := by
  cases time with
  | none => rfl
  | some time => simp

/-- A pending state survives its stored form. -/
theorem StoredPendingMetadata.toPending_fromPending {metadata : PendingMetadata}
    (h : metadata.Storable) : (fromPending metadata).toPending = some metadata := by
  have hchecks : ¬ (metadata.recordCount = 0 ∨ metadata.title.any (!validMetadataTitle ·) ∨
      (metadata.createdAt.map SystemTime.parts).any nanosInvalid ∨
      (metadata.updatedAt.map SystemTime.parts).any nanosInvalid) := by
    simp only [any_invalid_title h.title_valid, any_nanosInvalid_parts, Bool.false_eq_true,
      or_false]
    exact h.counted
  have hordered : outOfOrder metadata.createdAt metadata.updatedAt = false := by
    unfold outOfOrder
    split
    next created updated hcreated hupdated =>
      exact decide_eq_false (not_lt.mpr (h.ordered created hcreated updated hupdated))
    next => rfl
  simp only [toPending, fromPending, bind_ofParts_parts, if_neg hchecks, h.times, hordered, ne_eq,
    not_true_eq_false, Bool.false_eq_true, or_self, if_false]

structure StoredMetadata where
  sessionId : String
  title : Option String
  createdAt : SystemTime.Parts
  updatedAt : SystemTime.Parts
  chainUpdatedAt : Option SystemTime.Parts
  chainTail : Option String
  recordCount : UInt64
  cwd : Option PathBuf
  deriving DecidableEq

namespace StoredMetadata

def fromParsed (metadata : ParsedMetadata) : StoredMetadata where
  sessionId := metadata.sessionId
  title := metadata.title
  createdAt := metadata.createdAt.parts
  updatedAt := metadata.updatedAt.parts
  chainUpdatedAt := some metadata.chainUpdatedAt.parts
  chainTail := metadata.chainTail
  cwd := some metadata.cwd
  recordCount := metadata.recordCount

def toParsed (canon : Canonicalizer) (project : ProjectIdentity) (stored : StoredMetadata) :
    Option ParsedMetadata :=
  let chainUpdatedAt := stored.chainUpdatedAt.getD stored.updatedAt
  if nanosInvalid stored.createdAt ∨ nanosInvalid stored.updatedAt ∨
      nanosInvalid chainUpdatedAt ∨ stored.title.any (!validMetadataTitle ·) then none
  else do
    let cwd ← ((stored.cwd.bind canon.canonicalPath).filter (PathBuf.isWithin project.root)).or
      (canon.canonicalPath project.root)
    let createdAt ← SystemTime.ofParts stored.createdAt
    let updatedAt ← SystemTime.ofParts stored.updatedAt
    let chainUpdatedAt ← SystemTime.ofParts chainUpdatedAt
    return {
      sessionId := stored.sessionId
      title := stored.title
      createdAt
      updatedAt
      chainUpdatedAt
      cwd
      chainTail := stored.chainTail
      recordCount := stored.recordCount }

end StoredMetadata

/-- A working directory that is read back as it was stored: one within the
project, or what the project root resolves to. -/
def Located (canon : Canonicalizer) (project : ProjectIdentity) (cwd : PathBuf) : Prop :=
  ((canon.canonicalPath cwd).filter (PathBuf.isWithin project.root)).or
    (canon.canonicalPath project.root) = some cwd

theorem located_of_within {canon : Canonicalizer} {project : ProjectIdentity} {cwd : PathBuf}
    (hcanonical : canon.canonicalPath cwd = some cwd)
    (hwithin : PathBuf.isWithin project.root cwd = true) : Located canon project cwd := by
  rw [Located, hcanonical, Option.filter_some, if_pos hwithin, Option.some_or]

theorem located_of_root {canon : Canonicalizer} {project : ProjectIdentity} {cwd : PathBuf}
    (h : canon.canonicalPath project.root = some cwd) : Located canon project cwd := by
  rw [Located, Canonicalizer.canonicalPath_idem h, h, Option.filter_some]
  split <;> rfl

/-- What a parser reports of an identified session. -/
structure ParsedMetadata.Storable (canon : Canonicalizer) (project : ProjectIdentity)
    (metadata : ParsedMetadata) : Prop where
  title_valid : ∀ title ∈ metadata.title, validMetadataTitle title = true
  located : Located canon project metadata.cwd

/-- Session metadata survives its stored form. -/
theorem StoredMetadata.toParsed_fromParsed {canon : Canonicalizer} {project : ProjectIdentity}
    {metadata : ParsedMetadata} (h : metadata.Storable canon project) :
    (fromParsed metadata).toParsed canon project = some metadata := by
  have hcwd := h.located
  unfold Located at hcwd
  simp only [toParsed, fromParsed, Option.getD_some, Option.bind_some]
  rw [hcwd]
  simp [nanosInvalid_parts, any_invalid_title h.title_valid]

namespace ParseOutcome

def identified : ParseOutcome → Option ParsedMetadata
  | metadata parsed => some parsed
  | identityPending _ => none

def pending : ParseOutcome → Option PendingMetadata
  | metadata _ => none
  | identityPending pending => some pending

/-- The stored form of an outcome, decoded again at the next scan. -/
def restore (canon : Canonicalizer) (project : ProjectIdentity) : ParseOutcome → Option ParseOutcome
  | metadata parsed => ((StoredMetadata.fromParsed parsed).toParsed canon project).map metadata
  | identityPending pending =>
    (StoredPendingMetadata.fromPending pending).toPending.map identityPending

def Storable (canon : Canonicalizer) (project : ProjectIdentity) : ParseOutcome → Prop
  | metadata parsed => parsed.Storable canon project
  | identityPending pending => pending.Storable

theorem restore_of_storable {canon : Canonicalizer} {project : ProjectIdentity}
    {outcome : ParseOutcome} (h : outcome.Storable canon project) :
    outcome.restore canon project = some outcome := by
  cases outcome with
  | metadata parsed => rw [restore, StoredMetadata.toParsed_fromParsed h, Option.map_some]
  | identityPending pending =>
    rw [restore, StoredPendingMetadata.toPending_fromPending h, Option.map_some]

end ParseOutcome

end HerdrContext.KnownStores
