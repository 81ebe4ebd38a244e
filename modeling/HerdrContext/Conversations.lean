import HerdrContext.Platform

/-! The provider-neutral conversation model. Identifiers and titles are
normalized texts, so a value that is not trimmed cannot be built. -/
namespace HerdrContext

open Library

abbrev SourceId := NormalText
abbrev ToolIdentity := NormalText
abbrev ResumeReference := NormalText

inductive ConversationError where
  | emptyIdentifier (field : String)
  | missingProvenance
  deriving DecidableEq

/-- `normalized_identifier`. -/
def normalizedIdentifier (value field : String) : Except ConversationError NormalText :=
  match NormalText.new value with
  | some text => .ok text
  | none => .error (.emptyIdentifier field)

def SourceId.new (value : String) : Except ConversationError SourceId :=
  normalizedIdentifier value "source id"

def ToolIdentity.new (value : String) : Except ConversationError ToolIdentity :=
  normalizedIdentifier value "tool"

def ResumeReference.new (value : String) : Except ConversationError ResumeReference :=
  normalizedIdentifier value "resume reference"

theorem normalizedIdentifier_eq_ok_iff {value field : String} {text : NormalText} :
    normalizedIdentifier value field = .ok text ↔ normalizeNonempty value = some text.text := by
  rw [← NormalText.new_eq_some_iff, normalizedIdentifier]
  split
  next found h => simp [h]
  next h => simp [h]

/-- A name that is already normal is accepted as it stands. -/
@[simp] theorem normalizedIdentifier_text (text : NormalText) (field : String) :
    normalizedIdentifier text.text field = .ok text :=
  normalizedIdentifier_eq_ok_iff.mpr text.normal

structure SessionReference where
  nameSpace : NormalText
  id : NormalText
  deriving DecidableEq

def SessionReference.new (nameSpace id : String) : Except ConversationError SessionReference := do
  let nameSpace ← normalizedIdentifier nameSpace "session namespace"
  let id ← normalizedIdentifier id "session id"
  return ⟨nameSpace, id⟩

@[simp] theorem SessionReference.new_text (reference : SessionReference) :
    SessionReference.new reference.nameSpace.text reference.id.text = .ok reference := by
  simp [SessionReference.new]

inductive ConversationState where
  | live | archived | unknown
  deriving DecidableEq, Repr

inductive ProvenanceKind where
  | projectLocal | externalLocal | hostRuntime
  deriving DecidableEq, Repr

structure ConversationProvenance where
  sourceId : SourceId
  kind : ProvenanceKind
  path : Option PathBuf
  deriving DecidableEq

inductive ResumeCapability where
  | unsupported
  | supported (reference : ResumeReference)
  deriving DecidableEq

/-- Display-safe metadata shared across source adapters. -/
structure Conversation where
  tool : ToolIdentity
  sessionReference : SessionReference
  projectIdentity : ProjectIdentity
  title : Option NormalText
  createdAt : Option SystemTime
  archivedAt : Option SystemTime
  updatedAt : SystemTime
  state : ConversationState
  provenance : List ConversationProvenance
  resume : ResumeCapability
  provenance_ne_nil : provenance ≠ []
  deriving DecidableEq

def Conversation.new (tool : ToolIdentity) (sessionReference : SessionReference)
    (projectIdentity : ProjectIdentity) (title : Option String)
    (createdAt archivedAt : Option SystemTime) (updatedAt : SystemTime)
    (state : ConversationState) (provenance : List ConversationProvenance)
    (resume : ResumeCapability) : Except ConversationError Conversation :=
  if h : provenance = [] then .error .missingProvenance
  else .ok {
    tool, sessionReference, projectIdentity
    title := title.bind NormalText.new
    createdAt, archivedAt, updatedAt, state, provenance, resume
    provenance_ne_nil := h }

/-- Rebuilding a conversation from its own parts gives it back. -/
theorem Conversation.new_parts (c : Conversation) :
    Conversation.new c.tool c.sessionReference c.projectIdentity (c.title.map (·.text))
      c.createdAt c.archivedAt c.updatedAt c.state c.provenance c.resume = .ok c := by
  have htitle : (c.title.map (·.text)).bind NormalText.new = c.title := by
    cases c.title with
    | none => rfl
    | some title => simp
  unfold Conversation.new
  rw [dif_neg c.provenance_ne_nil]
  simp only [htitle]

end HerdrContext
