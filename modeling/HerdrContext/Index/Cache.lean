import HerdrContext.Discovery
import HerdrContext.Library.Wire

/-! Cached conversation metadata: what the encoder writes, what the decoder
accepts, and the agreement of the two. -/
namespace HerdrContext.Index

open Library

def schemaVersion : UInt32 := 3
def maxCacheBytes : Nat := 16 * 1024 * 1024
def maxIndexEntries : Nat := 4096
def maxWatermarkBytes : Nat := 4 * 1024 * 1024
def maxTotalWatermarkBytes : Nat := 8 * 1024 * 1024
def maxSourceWatermarks : Nat := 32
def maxTitleBytes : Nat := 256
def maxSessionIdBytes : Nat := 256
def maxPathBytes : Nat := 4096

inductive LoadFailure where
  | corrupt | incompatible
  deriving DecidableEq

/-- `ConversationIndexError`; an I/O failure keeps its operation and kind. -/
inductive IndexError where
  | unsafePath
  | invalidCache (message : String)
  | io (operation : String) (kind : IoErrorKind)
  deriving DecidableEq

/-! ## Allow lists -/

def knownTools : List String := ["claude-code", "codex-cli", "opencode", "omp", "pi"]

/-- `{tool}:extra:{fingerprint}` with sixteen lower-case hexadecimal digits. -/
def isExtraRoot (tool source : List Char) : Bool :=
  match (Wire.consume tool source).bind (Wire.consume ":extra:".toList) with
  | some fingerprint =>
    Text.byteLen fingerprint = 16 ∧ fingerprint.all fun c => Text.isHexDigit c && !c.isUpper
  | none => false

def expectedTool (source : String) : Option String :=
  if source = "project-local-generic-jsonl" then some "generic-jsonl"
  else knownTools.find? fun candidate =>
    source = candidate ∨ isExtraRoot candidate.toList source.toList

def validateSource (source : String) (tool : Option String) : Except LoadFailure Unit :=
  match expectedTool source with
  | none => .error .incompatible
  | some expected => rejectIf (tool.any (· ≠ expected)) .corrupt

def identifierInvalid (value : String) : Prop :=
  value = "" ∨ maxSessionIdBytes < strLen value ∨ trim value ≠ value ∨
    value.toList.any isControl

instance (value : String) : Decidable (identifierInvalid value) := by
  unfold identifierInvalid
  infer_instance

def validateIdentifier (value : String) : Except IndexError Unit :=
  rejectIf (identifierInvalid value) (.invalidCache "metadata identifier is outside the allowlist")

def validateIdentifierLoad (value : String) : Except LoadFailure Unit :=
  mapError (fun _ => .corrupt) (validateIdentifier value)

def pathInvalid (path : PathBuf) : Prop :=
  path.isAbsolute = false ∨ maxPathBytes < path.bytes.length

instance (path : PathBuf) : Decidable (pathInvalid path) := by
  unfold pathInvalid
  infer_instance

def validatePath (value : Option PathBuf) : Except IndexError Unit :=
  rejectIf (∃ path ∈ value, pathInvalid path)
    (.invalidCache "metadata path is outside the allowlist")

def validatePathLoad (value : Option PathBuf) : Except LoadFailure Unit :=
  mapError (fun _ => .corrupt) (validatePath value)

@[simp] theorem validateIdentifierLoad_eq_ok_iff {value : String} {u : Unit} :
    validateIdentifierLoad value = .ok u ↔ ¬ identifierInvalid value := by
  simp [validateIdentifierLoad, validateIdentifier]

/-! ## Stored paths and times -/

structure StoredPath where
  encoding : String
  bytes : Bytes
  deriving DecidableEq

def StoredPath.fromPath (path : PathBuf) : Except IndexError StoredPath := do
  validatePath (some path)
  return { encoding := "unix-bytes", bytes := path.bytes }

def StoredPath.toPath (stored : StoredPath) : Except LoadFailure PathBuf :=
  if stored.encoding ≠ "unix-bytes" ∨ stored.bytes = [] ∨ maxPathBytes < stored.bytes.length ∨
      stored.bytes.contains 0 then
    .error .corrupt
  else .ok ⟨stored.bytes⟩

/-- Paths as the operating system hands them out. -/
def NulFree (path : PathBuf) : Prop := 0 ∉ path.bytes

instance (path : PathBuf) : Decidable (NulFree path) := by
  unfold NulFree
  infer_instance

theorem StoredPath.fromPath_eq_ok_iff {path : PathBuf} {stored : StoredPath} :
    fromPath path = .ok stored ↔ ¬ pathInvalid path ∧ stored = ⟨"unix-bytes", path.bytes⟩ := by
  simp only [fromPath, validatePath, bind_eq_ok_iff, rejectIf_eq_ok_iff, Option.mem_some_iff,
    exists_eq_left', pure_eq_ok, Except.ok.injEq, exists_and_left, exists_const]
  exact and_congr_right fun _ => eq_comm

/-- A stored path is read back unless it holds a NUL byte. -/
theorem StoredPath.toPath_fromPath {path : PathBuf} {stored : StoredPath}
    (h : fromPath path = .ok stored) (hnul : NulFree path) : stored.toPath = .ok path := by
  obtain ⟨hvalid, rfl⟩ := fromPath_eq_ok_iff.mp h
  simp only [pathInvalid, not_or, Bool.not_eq_false, not_lt] at hvalid
  have hne : path.bytes ≠ [] := by
    intro hnil
    have := hvalid.1
    simp [PathBuf.isAbsolute, hnil] at this
  have hcontains : path.bytes.contains 0 = false := by simpa [NulFree] using hnul
  unfold toPath
  rw [if_neg]
  simp only [ne_eq, not_true_eq_false, hne, hcontains, Bool.false_eq_true, or_false, false_or,
    not_lt]
  exact hvalid.2

structure TimeParts where
  afterEpoch : Bool
  seconds : UInt64
  nanoseconds : UInt32
  deriving DecidableEq

def TimeParts.fromSystemTime (value : SystemTime) : TimeParts :=
  ⟨value.parts.1, value.parts.2.1, value.parts.2.2⟩

def TimeParts.toSystemTime (parts : TimeParts) : Except LoadFailure SystemTime :=
  if nanosPerSecond ≤ parts.nanoseconds.toNat then .error .corrupt
  else match SystemTime.ofParts (parts.afterEpoch, parts.seconds, parts.nanoseconds) with
    | some time => .ok time
    | none => .error .corrupt

@[simp] theorem TimeParts.toSystemTime_fromSystemTime (time : SystemTime) :
    (fromSystemTime time).toSystemTime = .ok time := by
  have hnanos : ¬ nanosPerSecond ≤ (fromSystemTime time).nanoseconds.toNat :=
    Nat.not_le.mpr time.parts_nanos_lt
  have hparts : SystemTime.ofParts ((fromSystemTime time).afterEpoch,
      (fromSystemTime time).seconds, (fromSystemTime time).nanoseconds) = some time :=
    SystemTime.ofParts_parts time
  rw [toSystemTime, if_neg hnanos, hparts]

/-! ## Cached conversations -/

structure CachedConversation where
  sourceId : String
  tool : String
  nameSpace : String
  sessionId : String
  title : Option String
  createdAt : Option TimeParts
  archivedAt : Option TimeParts
  updatedAt : TimeParts
  state : String
  provenanceKind : String
  sourcePath : Option StoredPath
  resumeReference : Option String
  deriving DecidableEq

def stateName : ConversationState → String
  | .live => "live"
  | .archived => "archived"
  | .unknown => "unknown"

def stateOf? (name : String) : Option ConversationState :=
  if name = "live" then some .live
  else if name = "archived" then some .archived
  else if name = "unknown" then some .unknown
  else none

@[simp] theorem stateOf?_stateName (state : ConversationState) :
    stateOf? (stateName state) = some state := by
  cases state <;> decide

def provenanceName : ProvenanceKind → String
  | .projectLocal => "project-local"
  | .externalLocal => "external-local"
  | .hostRuntime => "host-runtime"

def provenanceOf? (name : String) : Option ProvenanceKind :=
  if name = "project-local" then some .projectLocal
  else if name = "external-local" then some .externalLocal
  else if name = "host-runtime" then some .hostRuntime
  else none

@[simp] theorem provenanceOf?_provenanceName (kind : ProvenanceKind) :
    provenanceOf? (provenanceName kind) = some kind := by
  cases kind <;> decide

def resumeName : ResumeCapability → Option String
  | .unsupported => none
  | .supported reference => some reference.text

/-- The resume part of `from_conversation`. -/
def validateResume : ResumeCapability → Except IndexError Unit
  | .unsupported => .ok ()
  | .supported reference => validateIdentifier reference.text

namespace CachedConversation

def fromConversation (conversation : Conversation) : Except IndexError CachedConversation :=
  match conversation.provenance with
  | [provenance] => do
    mapError (fun _ => .invalidCache "unapproved metadata source")
      (validateSource provenance.sourceId.text (some conversation.tool.text))
    rejectIf (conversation.sessionReference.nameSpace.text ≠ conversation.tool.text)
      (.invalidCache "session namespace does not match its approved tool")
    validateIdentifier conversation.sessionReference.id.text
    rejectIf (∃ title ∈ conversation.title, maxTitleBytes < strLen title.text)
      (.invalidCache "metadata title is outside the allowlist")
    let sourcePath ← onSome StoredPath.fromPath provenance.path
    validateResume conversation.resume
    return {
      sourceId := provenance.sourceId.text
      tool := conversation.tool.text
      nameSpace := conversation.sessionReference.nameSpace.text
      sessionId := conversation.sessionReference.id.text
      title := conversation.title.map (·.text)
      createdAt := conversation.createdAt.map TimeParts.fromSystemTime
      archivedAt := conversation.archivedAt.map TimeParts.fromSystemTime
      updatedAt := TimeParts.fromSystemTime conversation.updatedAt
      state := stateName conversation.state
      provenanceKind := provenanceName provenance.kind
      sourcePath
      resumeReference := resumeName conversation.resume }
  | _ => .error (.invalidCache "cache accepts exactly one approved provenance record")

def validate (entry : CachedConversation) : Except LoadFailure Unit := do
  validateSource entry.sourceId (some entry.tool)
  rejectIf (entry.nameSpace ≠ entry.tool) .corrupt
  validateIdentifierLoad entry.sessionId
  rejectIf (∃ title ∈ entry.title, title = "" ∨ maxTitleBytes < strLen title) .corrupt
  let sourcePath ← onSome StoredPath.toPath entry.sourcePath
  validatePathLoad sourcePath
  let _ ← entry.updatedAt.toSystemTime
  let _ ← onSome TimeParts.toSystemTime entry.createdAt
  let _ ← onSome TimeParts.toSystemTime entry.archivedAt
  rejectIf (stateOf? entry.state = none ∨ provenanceOf? entry.provenanceKind = none) .corrupt
  let _ ← onSome validateIdentifierLoad entry.resumeReference
  return ()

def separator : Char := Char.ofNat 0

/-- `{source_id}\0{namespace}\0{session_id}`. -/
def entryKey (sourceId nameSpace sessionId : String) : String :=
  String.ofList (sourceId.toList ++ separator :: nameSpace.toList ++ separator :: sessionId.toList)

def key (entry : CachedConversation) : String :=
  entryKey entry.sourceId entry.nameSpace entry.sessionId

def updatedTime (entry : CachedConversation) : Except IndexError SystemTime :=
  mapError (fun _ => .invalidCache "cached timestamp is invalid") entry.updatedAt.toSystemTime

def orInvalid (message : String) : Option α → Except IndexError α
  | some a => .ok a
  | none => .error (.invalidCache message)

def resumeCapability : Option String → Except IndexError ResumeCapability
  | none => .ok .unsupported
  | some reference =>
    mapError (fun _ => .invalidCache "cached resume reference is invalid") do
      let reference ← ResumeReference.new reference
      return .supported reference

def toConversation (entry : CachedConversation) (project : ProjectIdentity) :
    Except IndexError Conversation := do
  let sourceId ← mapError (fun _ => .invalidCache "cached source ID is invalid")
    (SourceId.new entry.sourceId)
  let tool ← mapError (fun _ => .invalidCache "cached tool is invalid")
    (ToolIdentity.new entry.tool)
  let session ← mapError (fun _ => .invalidCache "cached session reference is invalid")
    (SessionReference.new entry.nameSpace entry.sessionId)
  let provenanceKind ← orInvalid "cached provenance is invalid" (provenanceOf? entry.provenanceKind)
  let state ← orInvalid "cached state is invalid" (stateOf? entry.state)
  let resume ← resumeCapability entry.resumeReference
  let sourcePath ← mapError (fun _ => .invalidCache "cached path is invalid")
    (onSome StoredPath.toPath entry.sourcePath)
  let createdAt ← mapError (fun _ => .invalidCache "cached timestamp is invalid")
    (onSome TimeParts.toSystemTime entry.createdAt)
  let archivedAt ← mapError (fun _ => .invalidCache "cached timestamp is invalid")
    (onSome TimeParts.toSystemTime entry.archivedAt)
  let updatedAt ← entry.updatedTime
  mapError (fun _ => .invalidCache "cached conversation is invalid")
    (Conversation.new tool session project entry.title createdAt archivedAt updatedAt state
      [⟨sourceId, provenanceKind, sourcePath⟩] resume)

/-! ### The decoder accepts what the encoder writes -/

/-- Everything an accepted conversation is known to satisfy. -/
theorem fromConversation_eq_ok {c : Conversation} {entry : CachedConversation}
    (h : fromConversation c = .ok entry) :
    ∃ provenance sourcePath, c.provenance = [provenance] ∧
      validateSource provenance.sourceId.text (some c.tool.text) = .ok () ∧
      c.sessionReference.nameSpace.text = c.tool.text ∧
      ¬ identifierInvalid c.sessionReference.id.text ∧
      (∀ title ∈ c.title, ¬ maxTitleBytes < strLen title.text) ∧
      onSome StoredPath.fromPath provenance.path = .ok sourcePath ∧
      validateResume c.resume = .ok () ∧
      entry = {
        sourceId := provenance.sourceId.text
        tool := c.tool.text
        nameSpace := c.sessionReference.nameSpace.text
        sessionId := c.sessionReference.id.text
        title := c.title.map (·.text)
        createdAt := c.createdAt.map TimeParts.fromSystemTime
        archivedAt := c.archivedAt.map TimeParts.fromSystemTime
        updatedAt := TimeParts.fromSystemTime c.updatedAt
        state := stateName c.state
        provenanceKind := provenanceName provenance.kind
        sourcePath
        resumeReference := resumeName c.resume } := by
  unfold fromConversation at h
  split at h
  next provenance hprovenance =>
    simp only [bind_eq_ok_iff, mapError_eq_ok_iff, rejectIf_eq_ok_iff, validateIdentifier,
      exists_const, pure_eq_ok, Except.ok.injEq, not_exists, not_and, not_not] at h
    obtain ⟨⟨⟩, hsource, hnamespace, hid, htitle, sourcePath, hpath, ⟨⟩, hresume, rfl⟩ := h
    exact ⟨provenance, sourcePath, hprovenance, hsource, hnamespace, hid, htitle, hpath, hresume, rfl⟩
  next => contradiction

theorem onSome_toPath {path : Option PathBuf} {stored : Option StoredPath}
    (h : onSome StoredPath.fromPath path = .ok stored) (hnul : ∀ p ∈ path, NulFree p) :
    onSome StoredPath.toPath stored = .ok path := by
  cases path with
  | none =>
    cases Except.ok.inj h
    rfl
  | some path =>
    obtain ⟨stored, hstored, rfl⟩ := onSome_some_eq_ok_iff.mp h
    exact onSome_some_eq_ok_iff.mpr
      ⟨path, StoredPath.toPath_fromPath hstored (hnul path rfl), rfl⟩

theorem validatePath_of_fromPath {path : Option PathBuf} {stored : Option StoredPath}
    (h : onSome StoredPath.fromPath path = .ok stored) : validatePath path = .ok () := by
  cases path with
  | none => simp [validatePath]
  | some path =>
    obtain ⟨stored, hstored, -⟩ := onSome_some_eq_ok_iff.mp h
    simp [validatePath, (StoredPath.fromPath_eq_ok_iff.mp hstored).1]

theorem onSome_toSystemTime (time : Option SystemTime) :
    onSome TimeParts.toSystemTime (time.map TimeParts.fromSystemTime) = .ok time := by
  cases time with
  | none => rfl
  | some time => simp [onSome]

theorem onSome_resumeName {resume : ResumeCapability} (h : validateResume resume = .ok ()) :
    ∃ checked, onSome validateIdentifierLoad (resumeName resume) = .ok checked := by
  cases resume with
  | unsupported => exact ⟨none, rfl⟩
  | supported reference =>
    refine ⟨some (), onSome_some_eq_ok_iff.mpr ⟨(), ?_, rfl⟩⟩
    simpa [validateResume, validateIdentifier] using h

theorem resumeCapability_resumeName (resume : ResumeCapability) :
    resumeCapability (resumeName resume) = .ok resume := by
  cases resume with
  | unsupported => rfl
  | supported reference =>
    simp [resumeCapability, resumeName, ResumeReference.new]

/-- The decoder accepts every entry the encoder made from a path without NUL. -/
theorem validate_fromConversation {c : Conversation} {entry : CachedConversation}
    (h : fromConversation c = .ok entry)
    (hnul : ∀ provenance ∈ c.provenance, ∀ path ∈ provenance.path, NulFree path) :
    entry.validate = .ok () := by
  obtain ⟨provenance, sourcePath, hprovenance, hsource, hnamespace, hid, htitle, hpath, hresume,
    rfl⟩ := fromConversation_eq_ok h
  have hidLoad : validateIdentifierLoad c.sessionReference.id.text = .ok () :=
    validateIdentifierLoad_eq_ok_iff.mpr hid
  have hpaths := onSome_toPath hpath (hnul provenance (by simp [hprovenance]))
  obtain ⟨checked, hchecked⟩ := onSome_resumeName hresume
  have htitles : ¬ ∃ title ∈ c.title.map (·.text), title = "" ∨ maxTitleBytes < strLen title := by
    rintro ⟨_, hmem, hbad⟩
    obtain ⟨title, htitleMem, rfl⟩ := Option.map_eq_some_iff.mp hmem
    rcases hbad with hempty | hlong
    · exact title.text_ne_empty hempty
    · exact htitle title htitleMem hlong
  have hpathLoad : validatePathLoad provenance.path = .ok () := by
    simp [validatePathLoad, validatePath_of_fromPath hpath]
  simp only [validate, hsource, ok_bind, rejectIf_of_not (not_not.mpr hnamespace),
    hidLoad, rejectIf_of_not htitles, hpaths, hpathLoad,
    TimeParts.toSystemTime_fromSystemTime, onSome_toSystemTime, stateOf?_stateName,
    provenanceOf?_provenanceName, reduceCtorEq, or_self, rejectIf_of_not not_false, hchecked,
    pure_eq_ok]

/-- The cached entry stands for exactly the conversation it was made from. -/
theorem toConversation_fromConversation {c : Conversation} {entry : CachedConversation}
    (h : fromConversation c = .ok entry)
    (hnul : ∀ provenance ∈ c.provenance, ∀ path ∈ provenance.path, NulFree path) :
    entry.toConversation c.projectIdentity = .ok c := by
  obtain ⟨provenance, sourcePath, hprovenance, -, -, -, -, hpath, -, rfl⟩ :=
    fromConversation_eq_ok h
  have hpaths := onSome_toPath hpath (hnul provenance (by simp [hprovenance]))
  have hparts := Conversation.new_parts c
  rw [hprovenance] at hparts
  simp only [toConversation, SourceId.new, ToolIdentity.new, normalizedIdentifier_text, mapError,
    ok_bind, SessionReference.new_text, provenanceOf?_provenanceName, stateOf?_stateName,
    orInvalid, resumeCapability_resumeName, hpaths, onSome_toSystemTime, updatedTime,
    TimeParts.toSystemTime_fromSystemTime, hparts]

end CachedConversation

end HerdrContext.Index
