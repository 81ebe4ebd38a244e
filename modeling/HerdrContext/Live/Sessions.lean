import HerdrContext.Conversations
import Mathlib.Data.List.Sort
import Mathlib.Data.Prod.Lex

/-! Live sessions as the host reports them, normalized for one project. -/
namespace HerdrContext.Live

/-! ## What the host reports -/

inductive HostAgentStatus where
  | idle | working | blocked | done | unknown
  deriving DecidableEq, Repr

inductive HostSessionReference where
  | nativeId (id : String)
  | transcriptPath (path : PathBuf)
  deriving DecidableEq

def HostSessionReference.valid : HostSessionReference → Prop
  | .nativeId id => trim id ≠ ""
  | .transcriptPath path => path.isAbsolute = true

instance (reference : HostSessionReference) : Decidable reference.valid := by
  cases reference <;> unfold HostSessionReference.valid <;> infer_instance

/-- Metadata of one live agent session. -/
structure HostAgentSession where
  source : NormalText
  agent : NormalText
  reference : HostSessionReference
  paneId : NormalText
  cwd : Option PathBuf
  foregroundCwd : Option PathBuf
  title : Option NormalText
  status : HostAgentStatus
  reference_valid : reference.valid

/-- `fs::Metadata` of a canonical path. -/
structure FileMetadata where
  isFile : Bool
  length : Nat
  modified : Option SystemTime
  device : Nat
  inode : Nat

/-- The file system at one moment. -/
structure FileSystem where
  canon : Canonicalizer
  metadata : PathBuf → Option FileMetadata

/-- A transcript file, with the metadata that tells its versions apart. -/
structure TranscriptIdentity where
  canonicalPath : PathBuf
  length : Nat
  modifiedAt : SystemTime
  device : Nat
  inode : Nat
  deriving DecidableEq

def TranscriptIdentity.fromPath (fs : FileSystem) (path : PathBuf) : Option TranscriptIdentity := do
  let canonicalPath ← fs.canon.resolve path
  let metadata ← fs.metadata canonicalPath
  if metadata.isFile = true then
    let modifiedAt ← metadata.modified
    return ⟨canonicalPath, metadata.length, modifiedAt, metadata.device, metadata.inode⟩
  else none

/-! ## Tool bindings -/

inductive PathIdentity where
  | exactUuid (version : UInt8)
  | suffixedUuid (separator version : UInt8)
  | codexRollout
  deriving DecidableEq

structure ToolBinding where
  source : String
  agent : String
  tool : String
  pathIdentity : Option PathIdentity
  deriving DecidableEq

def toolBindings : List ToolBinding := [
  ⟨"herdr:claude", "claude", "claude-code", some (.exactUuid 4)⟩,
  ⟨"herdr:codex", "codex", "codex-cli", some .codexRollout⟩,
  ⟨"herdr:pi", "pi", "pi", some (.suffixedUuid 95 7)⟩,
  ⟨"herdr:omp", "omp", "omp", some (.suffixedUuid 95 7)⟩,
  ⟨"herdr:opencode", "opencode", "opencode", none⟩]

def maxNativeIdBytes : Nat := 256

def validNativeId (value : String) : Bool :=
  value ≠ "" && strLen value ≤ maxNativeIdBytes && trim value = value &&
    !value.toList.any isControl

def hyphen : UInt8 := 45

def isHyphenIndex (index : Nat) : Bool := index = 8 || index = 13 || index = 18 || index = 23

def isLowerHex (byte : UInt8) : Bool := (48 ≤ byte && byte ≤ 57) || (97 ≤ byte && byte ≤ 102)

def validUuid (value : Bytes) (version : UInt8) : Bool :=
  value.length = 36 && value[8]? = some hyphen && value[13]? = some hyphen &&
    value[18]? = some hyphen && value[23]? = some hyphen && value[14]? = some (48 + version) &&
    value[19]?.any (fun byte => 56 ≤ byte && byte ≤ 98) &&
    value.zipIdx.all fun (byte, index) => isHyphenIndex index || isLowerHex byte

/-- `Path::file_name`. -/
def fileName (path : PathBuf) : Option OsString :=
  path.components.getLast?.filter (· ≠ [46, 46])

/-- The part before the last dot of a file name, unless that dot comes first. -/
def nameStem (name : OsString) : OsString :=
  match name.reverse.dropWhile (· ≠ 46) with
  | [] => name
  | _ :: before => if before = [] then name else before.reverse

def nameExtension (name : OsString) : Option OsString :=
  match name.reverse.dropWhile (· ≠ 46) with
  | [] => none
  | _ :: before => if before = [] then none else some (name.reverse.takeWhile (· ≠ 46)).reverse

/-- `"jsonl"` and `"rollout-"` as bytes. -/
def jsonlExtension : Bytes := [106, 115, 111, 110, 108]
def rolloutHead : Bytes := [114, 111, 108, 108, 111, 117, 116, 45]

/-- The last 36 bytes, and what stands before them. A cut inside a character
leaves a byte no identifier has. -/
def splitSuffix (stem : Bytes) : Option (Bytes × Bytes) :=
  if stem.length < 36 then none
  else some (stem.take (stem.length - 36), stem.drop (stem.length - 36))

def documentedPathId (binding : ToolBinding) (path : PathBuf) : Option String := do
  let name ← fileName path
  let stem := nameStem name
  let _ ← toStr stem
  let extension ← nameExtension name
  if extension ≠ jsonlExtension then none
  else
    match ← binding.pathIdentity with
    | .exactUuid version => if validUuid stem version then toStr stem else none
    | .suffixedUuid separator version =>
      let (before, candidate) ← splitSuffix stem
      if before.getLast? = some separator ∧ validUuid candidate version = true then toStr candidate
      else none
    | .codexRollout =>
      let (before, candidate) ← splitSuffix stem
      if rolloutHead.isPrefixOf before = true ∧ before.getLast? = some hyphen ∧
          validUuid candidate 7 = true then toStr candidate
      else none

/-! ## Normalized sessions -/

/-- A live session of the project. Whatever identity it has is its stable
reference, which is in its tool's namespace; a native identity stands alone. -/
structure NormalizedLiveSession where
  tool : ToolIdentity
  stableReference : SessionReference
  nativeIdentity : Option SessionReference
  transcriptIdentity : Option TranscriptIdentity
  documentedIdentity : Option SessionReference
  provenance : ConversationProvenance
  title : Option NormalText
  paneId : NormalText
  status : HostAgentStatus
  nameSpace_eq : stableReference.nameSpace = tool
  native_eq : ∀ reference ∈ nativeIdentity, reference = stableReference
  documented_eq : ∀ reference ∈ documentedIdentity, reference = stableReference
  native_alone : nativeIdentity.isSome →
    transcriptIdentity = none ∧ documentedIdentity = none ∧ provenance.path = none
  native_of_pathless : provenance.path = none → nativeIdentity.isSome
  hostRuntime : provenance.kind = .hostRuntime
  deriving DecidableEq

/-- A reference in the tool's namespace. -/
def toolReference (tool : ToolIdentity) (id : String) :
    Option {reference : SessionReference // reference.nameSpace = tool} :=
  match NormalText.new id with
  | some id => some ⟨⟨tool, id⟩, rfl⟩
  | none => none

/-- It is what `SessionReference::new(tool.as_str(), id).ok()` gives. -/
theorem toolReference_eq (tool : ToolIdentity) (id : String) :
    (toolReference tool id).map (·.val) = (SessionReference.new tool.text id).toOption := by
  rw [SessionReference.new, normalizedIdentifier_text, Library.ok_bind, normalizedIdentifier,
    toolReference]
  cases NormalText.new id with
  | none => rfl
  | some id => rfl

def sessionBelongsToProject (fs : FileSystem) (session : HostAgentSession)
    (project : ProjectIdentity) : Bool :=
  ((session.foregroundCwd.or session.cwd).bind fs.canon.resolve).any
    (PathBuf.isWithin project.root)

def findBinding (session : HostAgentSession) : Option ToolBinding :=
  toolBindings.find? fun binding =>
    binding.source = session.source.text ∧ binding.agent = session.agent.text

/-- The tool of a session: that of its integration, or the agent of an official
source without one. -/
def sessionTool (session : HostAgentSession) : Option ToolIdentity :=
  match findBinding session with
  | some binding => NormalText.new binding.tool
  | none =>
    if "herdr:".toList.isPrefixOf? session.source.text.toList = some session.agent.text.toList then
      some session.agent
    else none

def fallbackId (session : HostAgentSession) (path : PathBuf) : String :=
  session.source.text ++ ":path:" ++ String.ofList (toStringLossy path.bytes)

def normalizeNative (session : HostAgentSession) (tool : ToolIdentity) (id : String) :
    Option NormalizedLiveSession := do
  if validNativeId id = true then
    let ⟨identity, hnameSpace⟩ ← toolReference tool id
    return {
      tool
      stableReference := identity
      nativeIdentity := some identity
      transcriptIdentity := none
      documentedIdentity := none
      provenance := ⟨session.source, .hostRuntime, none⟩
      title := session.title
      paneId := session.paneId
      status := session.status
      nameSpace_eq := hnameSpace
      native_eq := by simp
      documented_eq := by simp
      native_alone := by simp
      native_of_pathless := by simp
      hostRuntime := rfl }
  else none

def documentedReference (session : HostAgentSession) (tool : ToolIdentity) (path : PathBuf) :
    Option {reference : SessionReference // reference.nameSpace = tool} :=
  ((findBinding session).bind fun binding => documentedPathId binding path).bind
    (toolReference tool)

/-- The documented identity, or one made of the path. -/
def pathReference (session : HostAgentSession) (tool : ToolIdentity) (path : PathBuf) :
    Option {stable : SessionReference // stable.nameSpace = tool ∧
      ∀ reference ∈ (documentedReference session tool path).map (·.val), reference = stable} :=
  match documentedReference session tool path with
  | some identity => some ⟨identity.val, identity.property, by simp⟩
  | none => (toolReference tool (fallbackId session path)).map fun stable =>
      ⟨stable.val, stable.property, by simp⟩

def normalizePath (fs : FileSystem) (session : HostAgentSession) (tool : ToolIdentity)
    (path : PathBuf) : Option NormalizedLiveSession := do
  if path.isAbsolute = true then
    let ⟨stable, hnameSpace, hdocumented⟩ ← pathReference session tool path
    return {
      tool
      stableReference := stable
      nativeIdentity := none
      transcriptIdentity := TranscriptIdentity.fromPath fs path
      documentedIdentity := (documentedReference session tool path).map (·.val)
      provenance := ⟨session.source, .hostRuntime, some path⟩
      title := session.title
      paneId := session.paneId
      status := session.status
      nameSpace_eq := hnameSpace
      native_eq := by simp
      documented_eq := hdocumented
      native_alone := by simp
      native_of_pathless := by simp
      hostRuntime := rfl }
  else none

def normalizeLiveSession (fs : FileSystem) (session : HostAgentSession)
    (project : ProjectIdentity) : Option NormalizedLiveSession :=
  if sessionBelongsToProject fs session project = true then
    (sessionTool session).bind fun tool =>
      match session.reference with
      | .nativeId id => normalizeNative session tool id
      | .transcriptPath path => normalizePath fs session tool path
  else none

/-- `LiveConversationSnapshot`. -/
abbrev LiveConversationSnapshot := List NormalizedLiveSession

/-- Sessions are sorted by tool, session id and pane. -/
def NormalizedLiveSession.sortKey (session : NormalizedLiveSession) :
    NormalText ×ₗ NormalText ×ₗ NormalText :=
  toLex (session.tool, toLex (session.stableReference.id, session.paneId))

def sessionBefore (left right : NormalizedLiveSession) : Prop := left.sortKey ≤ right.sortKey

instance : DecidableRel sessionBefore := fun left right =>
  inferInstanceAs (Decidable (left.sortKey ≤ right.sortKey))

def prepareLiveConversations (fs : FileSystem) (live : List HostAgentSession)
    (project : ProjectIdentity) : LiveConversationSnapshot :=
  (live.filterMap fun session => normalizeLiveSession fs session project).insertionSort sessionBefore

end HerdrContext.Live
