import HerdrContext.Library.Outcome
import HerdrContext.Library.Table
import HerdrContext.Sources

/-! Deterministic orchestration across registered conversation sources. -/
namespace HerdrContext

open Library

/-- `HashMap<SourceId, SourceWatermark>`; every cursor is filed under its own source. -/
abbrev Watermarks := Table SourceId SourceWatermark.sourceId

/-! ## Registry -/

/-- Sources in id order, one for each id, with the ids the configuration asks
for whether or not their adapter could be built. -/
structure SourceRegistry where
  sources : List ConversationSource
  desiredSourceIds : List SourceId
  sorted : sources.Pairwise fun left right => left.sourceId < right.sourceId
  desired : ∀ source ∈ sources, source.sourceId ∈ desiredSourceIds

namespace SourceRegistry

def sortSources (sources : List ConversationSource) : List ConversationSource :=
  sources.insertionSort fun left right => left.sourceId ≤ right.sourceId

/-- `sources.windows(2)` with equal ids. -/
def duplicateId : List ConversationSource → Option SourceId
  | first :: second :: rest =>
    if first.sourceId = second.sourceId then some first.sourceId else duplicateId (second :: rest)
  | _ => none

theorem pairwise_of_duplicateId_eq_none {sources : List ConversationSource}
    (hsorted : sources.Pairwise fun left right => left.sourceId ≤ right.sourceId)
    (h : duplicateId sources = none) :
    sources.Pairwise fun left right => left.sourceId < right.sourceId := by
  induction sources with
  | nil => exact List.Pairwise.nil
  | cons first rest ih =>
    cases rest with
    | nil => exact List.pairwise_singleton _ _
    | cons second rest =>
      unfold duplicateId at h
      split at h
      next => contradiction
      next hne =>
        have hrest := ih hsorted.tail h
        refine List.pairwise_cons.mpr ⟨fun source hsource => ?_, hrest⟩
        have hfirst : first.sourceId < second.sourceId :=
          lt_of_le_of_ne ((List.pairwise_cons.mp hsorted).1 second (by simp)) hne
        rcases List.mem_cons.mp hsource with rfl | hmem
        · exact hfirst
        · exact lt_trans hfirst ((List.pairwise_cons.mp hrest).1 source hmem)

theorem pairwise_sortSources (sources : List ConversationSource) :
    (sortSources sources).Pairwise fun left right => left.sourceId ≤ right.sourceId := by
  have : Std.Total fun left right : ConversationSource => left.sourceId ≤ right.sourceId :=
    ⟨fun left right => le_total left.sourceId right.sourceId⟩
  have : IsTrans ConversationSource fun left right => left.sourceId ≤ right.sourceId :=
    ⟨fun _ _ _ => le_trans⟩
  exact List.pairwise_insertionSort _ sources

/-- `new_with_desired_source_ids`; the error is the id two sources claim. -/
def new (sources : List ConversationSource) (desiredSourceIds : List SourceId) :
    Except SourceId SourceRegistry :=
  match h : duplicateId (sortSources sources) with
  | some sourceId => .error sourceId
  | none => .ok {
    sources := sortSources sources
    desiredSourceIds := desiredSourceIds ++ (sortSources sources).map (·.sourceId)
    sorted := pairwise_of_duplicateId_eq_none (pairwise_sortSources sources) h
    desired := fun _ hsource => List.mem_append_right _ (List.mem_map_of_mem hsource) }

def retains (registry : SourceRegistry) (sourceId : SourceId) : Bool :=
  registry.desiredSourceIds.contains sourceId

end SourceRegistry

/-! ## One bounded run -/

/-- The loads of the cancellation flag while a page is discovered and committed. -/
inductive CancelPoint where
  | source (sourceId : SourceId)
  | candidate (sourceId : SourceId) (index : Nat)
  | discovered
  | purge (index : Nat)
  | removal (index : Nat)
  | conversation (index : Nat)
  | persist
  | encoded
  | written
  deriving DecidableEq

abbrev Cancellation := CancelPoint → Bool

def neverCancelled : Cancellation := fun _ => false

structure ConversationDiscovery where
  conversations : List Conversation
  watermarks : Watermarks
  removals : List ConversationRemoval
  purgedSources : List SourceId
  errors : List SourceError
  hasMore : Bool

namespace Discovery

section
variable (project : ProjectIdentity) (watermarks : Watermarks) (limit : DiscoveryLimit)
  (budget : MetadataBudget) (cancelled : Cancellation)

def noProjectEvidence (source : ConversationSource) : SourceError :=
  .new source.sourceId .invalidData "conversation candidate has no canonical project evidence"

/-- Extraction, then the project evidence that must name the project root itself. -/
def judgeCandidate (source : ConversationSource) (found : Discovered)
    (candidate : ConversationCandidate) : Except SourceError Conversation := do
  let conversation ← source.extractMetadata found candidate budget
  let evidence ← source.projectEvidence found candidate project
  if evidence.any (·.canonicalPath.same project.root) then return conversation
  else .error (noProjectEvidence source)

structure Judged where
  conversations : List Conversation
  errors : List SourceError
  candidateFailed : Bool

/-- The candidate loop from the given position on. -/
def judgeCandidates (source : ConversationSource) (found : Discovered) :
    Nat → List ConversationCandidate → Judged
  | _, [] => ⟨[], [], false⟩
  | index, candidate :: rest =>
    if cancelled (.candidate source.sourceId index) then ⟨[], [], true⟩
    else
      let judged := judgeCandidates source found (index + 1) rest
      match judgeCandidate project budget source found candidate with
      | .ok conversation => { judged with conversations := conversation :: judged.conversations }
      | .error error => ⟨judged.conversations, error :: judged.errors, true⟩

def setWatermark (table : Watermarks) (sourceId : SourceId) : Option SourceWatermark → Watermarks
  | some watermark => table.insert watermark
  | none => table.erase sourceId

/-- One pass of the source loop. -/
def discoverSource (state : ConversationDiscovery) (source : ConversationSource) :
    ConversationDiscovery :=
  match source.probe with
  | .ok (.unavailable reason) =>
    { state with errors := state.errors ++ [.new source.sourceId .unavailable reason] }
  | .error error => { state with errors := state.errors ++ [error] }
  | .ok .available =>
    match source.discover project (watermarks.get? source.sourceId) limit with
    | .error error =>
      if error.kind = .invalidData ∧ (watermarks.get? source.sourceId).isSome then
        { state with
          watermarks := state.watermarks.erase source.sourceId
          purgedSources := state.purgedSources ++ [source.sourceId]
          hasMore := true
          errors := state.errors ++ [error] }
      else { state with errors := state.errors ++ [error] }
    | .ok found =>
      let judged := judgeCandidates project budget cancelled source found 0 found.batch.candidates
      let state := { state with
        conversations := state.conversations ++ judged.conversations
        errors := state.errors ++ found.batch.errors ++ judged.errors }
      if judged.candidateFailed then state
      else { state with
        removals := state.removals ++ found.batch.removals
        hasMore := state.hasMore || found.batch.hasMore
        watermarks := setWatermark state.watermarks source.sourceId found.batch.nextWatermark }

def discoverSources : List ConversationSource → ConversationDiscovery → ConversationDiscovery
  | [], state => state
  | source :: rest, state =>
    if cancelled (.source source.sourceId) then state
    else discoverSources rest (discoverSource project watermarks limit budget cancelled state source)

/-- Newest first, then by session reference. -/
def conversationBefore (left right : Conversation) : Prop :=
  right.updatedAt < left.updatedAt ∨ left.updatedAt = right.updatedAt ∧
    (left.sessionReference.nameSpace < right.sessionReference.nameSpace ∨
      left.sessionReference.nameSpace = right.sessionReference.nameSpace ∧
        left.sessionReference.id ≤ right.sessionReference.id)

instance : DecidableRel conversationBefore := fun _ _ => by
  unfold conversationBefore
  infer_instance

/-- Watermarks of sources nobody asks for any more are dropped before the loop. -/
def start (registry : SourceRegistry) : ConversationDiscovery where
  conversations := []
  watermarks := watermarks.filter fun watermark => registry.retains watermark.sourceId
  removals := []
  purgedSources := (watermarks.values.filter fun watermark =>
    ¬ registry.retains watermark.sourceId).map (·.sourceId)
  errors := []
  hasMore := false

/-- `discover_conversations_cancellable`. -/
def discoverConversations (registry : SourceRegistry) : ConversationDiscovery :=
  let state := discoverSources project watermarks limit budget cancelled registry.sources
    (start watermarks registry)
  { state with conversations := state.conversations.insertionSort conversationBefore }

end

end Discovery

end HerdrContext
