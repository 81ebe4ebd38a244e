import HerdrContext.Conversations

/-! The conversation source boundary: batches, candidates, errors, and the
checked methods every adapter is called through. -/
namespace HerdrContext

inductive SourceErrorKind where
  | unavailable | permissionDenied | malformedData | unsupportedFormat | invalidData
  | sourceMismatch | projectMismatch | io
  deriving DecidableEq, Repr

/-- `ConversationSourceError`. -/
structure SourceError where
  sourceId : SourceId
  kind : SourceErrorKind
  message : String
  path : Option PathBuf
  deriving DecidableEq

namespace SourceError

def new (sourceId : SourceId) (kind : SourceErrorKind) (message : String) : SourceError :=
  ⟨sourceId, kind, message, none⟩

def withPath (error : SourceError) (path : PathBuf) : SourceError :=
  { error with path := some path }

@[simp] theorem new_sourceId (id : SourceId) (kind : SourceErrorKind) (message : String) :
    (new id kind message).sourceId = id := rfl

@[simp] theorem new_kind (id : SourceId) (kind : SourceErrorKind) (message : String) :
    (new id kind message).kind = kind := rfl

@[simp] theorem new_message (id : SourceId) (kind : SourceErrorKind) (message : String) :
    (new id kind message).message = message := rfl

@[simp] theorem withPath_sourceId (error : SourceError) (path : PathBuf) :
    (error.withPath path).sourceId = error.sourceId := rfl

@[simp] theorem withPath_kind (error : SourceError) (path : PathBuf) :
    (error.withPath path).kind = error.kind := rfl

@[simp] theorem withPath_message (error : SourceError) (path : PathBuf) :
    (error.withPath path).message = error.message := rfl

end SourceError

inductive StorageProbe where
  | available
  | unavailable (reason : String)
  deriving DecidableEq

/-- Opaque, source-scoped cursor for incremental discovery. -/
structure SourceWatermark where
  sourceId : SourceId
  token : String
  token_ne_empty : token ≠ ""
  deriving DecidableEq

@[ext] theorem SourceWatermark.ext {left right : SourceWatermark}
    (hid : left.sourceId = right.sourceId) (htoken : left.token = right.token) :
    left = right := by
  cases left
  cases right
  simp_all

def SourceWatermark.new (sourceId : SourceId) (token : String) :
    Except SourceError SourceWatermark :=
  if h : token = "" then
    .error (.new sourceId .invalidData "watermark token must be non-empty")
  else .ok ⟨sourceId, token, h⟩

theorem SourceWatermark.new_eq_ok_iff {id : SourceId} {token : String}
    {watermark : SourceWatermark} :
    SourceWatermark.new id token = .ok watermark ↔
      watermark.sourceId = id ∧ watermark.token = token := by
  unfold SourceWatermark.new
  split
  next h =>
    simp only [reduceCtorEq, false_iff, not_and]
    exact fun _ htoken => watermark.token_ne_empty (htoken.trans h)
  next h =>
    constructor
    · intro heq
      cases Except.ok.inj heq
      exact ⟨rfl, rfl⟩
    · rintro ⟨rfl, rfl⟩
      rfl

/-- `DiscoveryLimit` and `MetadataBudget`: non-zero sizes. -/
abbrev DiscoveryLimit := {limit : Nat // 0 < limit}
abbrev MetadataBudget := {maxBytes : Nat // 0 < maxBytes}

/-- Cheap source-owned reference discovered before transcript metadata is parsed. -/
structure ConversationCandidate where
  sourceId : SourceId
  projectIdentity : ProjectIdentity
  sourceReference : String
  sourcePath : Option PathBuf
  observedSize : Option UInt64
  modifiedAt : Option SystemTime
  fingerprint : Option String
  deriving DecidableEq

def ConversationCandidate.new (sourceId : SourceId) (projectIdentity : ProjectIdentity)
    (sourceReference : String) (sourcePath : Option PathBuf) (observedSize : Option UInt64)
    (modifiedAt : Option SystemTime) (fingerprint : Option String) :
    Except SourceError ConversationCandidate :=
  if trim sourceReference = "" then
    .error (.new sourceId .invalidData "candidate reference must be non-empty")
  else
    .ok ⟨sourceId, projectIdentity, sourceReference, sourcePath, observedSize, modifiedAt,
      fingerprint⟩

structure ConversationRemoval where
  sourceId : SourceId
  sessionReference : SessionReference
  deriving DecidableEq

structure DiscoveryBatch where
  candidates : List ConversationCandidate
  nextWatermark : Option SourceWatermark
  removals : List ConversationRemoval
  errors : List SourceError
  hasMore : Bool
  deriving DecidableEq

namespace DiscoveryBatch

/-- Everything in the batch carries this source id. -/
def sourcesMatch (batch : DiscoveryBatch) (sourceId : SourceId) : Bool :=
  batch.candidates.all (·.sourceId = sourceId) &&
    batch.nextWatermark.all (·.sourceId = sourceId) &&
    batch.removals.all (·.sourceId = sourceId) &&
    batch.errors.all (·.sourceId = sourceId)

def new (sourceId : SourceId) (project : ProjectIdentity)
    (candidates : List ConversationCandidate) (nextWatermark : Option SourceWatermark)
    (removals : List ConversationRemoval) (hasMore : Bool) (errors : List SourceError) :
    Except SourceError DiscoveryBatch :=
  let batch : DiscoveryBatch := { candidates, nextWatermark, removals, errors, hasMore }
  if ¬ batch.sourcesMatch sourceId then
    .error (.new sourceId .sourceMismatch
      "discovery batch contains data owned by another source")
  else if candidates.any (·.projectIdentity ≠ project) then
    .error (.new sourceId .projectMismatch
      "discovery batch contains data owned by another project")
  else .ok batch

theorem new_eq_ok_iff {id : SourceId} {project : ProjectIdentity}
    {candidates : List ConversationCandidate} {next : Option SourceWatermark}
    {removals : List ConversationRemoval} {more : Bool} {errors : List SourceError}
    {batch : DiscoveryBatch} :
    new id project candidates next removals more errors = .ok batch ↔
      batch = ⟨candidates, next, removals, errors, more⟩ ∧ batch.sourcesMatch id = true ∧
        ∀ candidate ∈ candidates, candidate.projectIdentity = project := by
  simp only [new]
  split
  next h =>
    simp only [reduceCtorEq, false_iff, not_and]
    rintro rfl hmatch
    exact absurd hmatch h
  next h =>
    split
    next hany =>
      simp only [reduceCtorEq, false_iff, not_and]
      intro _ _ hall
      obtain ⟨candidate, hmem, hne⟩ := List.any_eq_true.mp hany
      exact absurd (hall candidate hmem) (by simpa using hne)
    next hany =>
      simp only [Except.ok.injEq]
      constructor
      · rintro rfl
        refine ⟨rfl, by simpa using h, fun candidate hmem => ?_⟩
        by_contra hne
        exact hany (List.any_eq_true.mpr ⟨candidate, hmem, by simpa using hne⟩)
      · exact fun hbatch => hbatch.1.symm

theorem sourcesMatch_iff {batch : DiscoveryBatch} {id : SourceId} :
    batch.sourcesMatch id = true ↔
      (∀ candidate ∈ batch.candidates, candidate.sourceId = id) ∧
      (∀ watermark ∈ batch.nextWatermark, watermark.sourceId = id) ∧
      (∀ removal ∈ batch.removals, removal.sourceId = id) ∧
      ∀ error ∈ batch.errors, error.sourceId = id := by
  have hnext : batch.nextWatermark.all (·.sourceId = id) = true ↔
      ∀ watermark ∈ batch.nextWatermark, watermark.sourceId = id := by
    cases batch.nextWatermark <;> simp
  simp only [sourcesMatch, Bool.and_eq_true, hnext, List.all_eq_true, decide_eq_true_eq, and_assoc]

end DiscoveryBatch

inductive ProjectEvidenceKind where
  | recognizedProjectLocalPath | canonicalWorkingDirectory | canonicalWorkspaceRoot
  | adapterValidatedEncoding
  deriving DecidableEq

structure ProjectAssociationEvidence where
  kind : ProjectEvidenceKind
  canonicalPath : PathBuf
  detail : Option String
  deriving DecidableEq

/-- A discovery call's batch, with the adapter's answers about its candidates
for the rest of the page. -/
structure Discovered where
  batch : DiscoveryBatch
  extractMetadataRaw : ConversationCandidate → MetadataBudget → Except SourceError Conversation
  projectEvidenceRaw : ConversationCandidate → ProjectIdentity →
    Except SourceError (List ProjectAssociationEvidence)

/-- An adapter together with what the file system shows it during one page. -/
structure ConversationSource where
  sourceId : SourceId
  probe : Except SourceError StorageProbe
  discoverRaw : ProjectIdentity → Option SourceWatermark → DiscoveryLimit →
    Except SourceError Discovered

namespace ConversationSource

def sourceMismatch (source : ConversationSource) (message : String) : SourceError :=
  .new source.sourceId .sourceMismatch message

def ensureWatermark (source : ConversationSource) (after : Option SourceWatermark) :
    Except SourceError Unit :=
  if after.any (·.sourceId ≠ source.sourceId) then
    .error (source.sourceMismatch "watermark belongs to another source")
  else .ok ()

def ensureCandidate (source : ConversationSource) (candidate : ConversationCandidate) :
    Except SourceError Unit :=
  if candidate.sourceId ≠ source.sourceId then
    .error (source.sourceMismatch "candidate belongs to another source")
  else .ok ()

def discover (source : ConversationSource) (project : ProjectIdentity)
    (after : Option SourceWatermark) (limit : DiscoveryLimit) : Except SourceError Discovered := do
  source.ensureWatermark after
  let found ← source.discoverRaw project after limit
  let batch ← DiscoveryBatch.new source.sourceId project found.batch.candidates
    found.batch.nextWatermark found.batch.removals found.batch.hasMore found.batch.errors
  return { found with batch }

def extractMetadata (source : ConversationSource) (found : Discovered)
    (candidate : ConversationCandidate) (budget : MetadataBudget) :
    Except SourceError Conversation := do
  source.ensureCandidate candidate
  let conversation ← found.extractMetadataRaw candidate budget
  if conversation.projectIdentity ≠ candidate.projectIdentity then
    .error (source.sourceMismatch "adapter changed candidate project identity")
  else return conversation

def projectEvidence (source : ConversationSource) (found : Discovered)
    (candidate : ConversationCandidate) (project : ProjectIdentity) :
    Except SourceError (List ProjectAssociationEvidence) := do
  source.ensureCandidate candidate
  if candidate.projectIdentity ≠ project then
    .error (source.sourceMismatch "candidate belongs to another project")
  else found.projectEvidenceRaw candidate project

end ConversationSource

end HerdrContext
