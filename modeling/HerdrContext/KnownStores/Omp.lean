import HerdrContext.KnownStores.Checks
import HerdrContext.Library.Incremental

/-! Oh My Pi sessions: a fixed-width title slot that is rewritten in place, a
version 3 header, and entries whose payload fields are checked as a set. -/
namespace HerdrContext.KnownStores.Omp

open Library

inductive OmpTitleSource where
  | auto
  | user

structure OmpTitleSlot where
  kind : String
  version : UInt64
  title : String
  updatedAt : String
  pad : String

structure OmpHeader where
  kind : String
  version : UInt64
  id : String
  timestamp : String
  cwd : String

inductive Presence where
  | missing
  | present
  deriving DecidableEq

def Presence.isPresent (presence : Presence) : Bool := presence = present

structure OmpMessage where
  role : String
  timestamp : Int64
  content : Presence := .missing
  toolCallId : Presence := .missing
  toolName : Presence := .missing
  isError : Presence := .missing
  command : Presence := .missing
  output : Presence := .missing
  cancelled : Presence := .missing
  truncated : Presence := .missing
  code : Presence := .missing
  customType : Presence := .missing
  display : Presence := .missing
  summary : Presence := .missing
  fromId : Presence := .missing
  tokensBefore : Presence := .missing
  files : Presence := .missing

structure OmpRecord where
  kind : String
  id : String
  parentId : Option String := none
  timestamp : String
  message : Option OmpMessage := none
  thinkingLevel : Presence := .missing
  configured : Presence := .missing
  model : Option String := none
  role : Option String := none
  resolvedFallback : Presence := .missing
  serviceTier : Presence := .missing
  summary : Presence := .missing
  shortSummary : Presence := .missing
  firstKept : Presence := .missing
  tokensBefore : Presence := .missing
  details : Presence := .missing
  preserveData : Presence := .missing
  fromExtension : Presence := .missing
  warning : Presence := .missing
  fromId : Presence := .missing
  customType : Option String := none
  data : Presence := .missing
  content : Presence := .missing
  display : Presence := .missing
  attribution : Presence := .missing
  targetId : Option String := none
  label : Presence := .missing
  title : Option String := none
  previousTitle : Option String := none
  source : Option OmpTitleSource := none
  trigger : Option String := none
  injectedRules : Presence := .missing
  provider : Option String := none
  hash : Option String := none
  systemPrompt : Presence := .missing
  task : Presence := .missing
  tools : Presence := .missing
  agent : Presence := .missing
  modelRole : Presence := .missing
  resolvedModel : Presence := .missing
  readOnly : Presence := .missing
  outputSchema : Presence := .missing
  outputSchemaMode : Presence := .missing
  restrictToolNames : Presence := .missing
  spawns : Presence := .missing
  readSummarize : Presence := .missing
  advisor : Presence := .missing
  mode : Option String := none

def OmpMessage.hasValidShape (message : OmpMessage) : Bool :=
  if message.timestamp ≤ 0 then false
  else match message.role with
    | "user" | "developer" | "assistant" => message.content.isPresent
    | "toolResult" =>
      message.content.isPresent && message.toolCallId.isPresent && message.toolName.isPresent &&
        message.isError.isPresent
    | "bashExecution" =>
      message.command.isPresent && message.output.isPresent && message.cancelled.isPresent &&
        message.truncated.isPresent
    | "pythonExecution" =>
      message.code.isPresent && message.output.isPresent && message.cancelled.isPresent &&
        message.truncated.isPresent
    | "custom" | "hookMessage" =>
      message.customType.isPresent && message.content.isPresent && message.display.isPresent
    | "branchSummary" => message.summary.isPresent && message.fromId.isPresent
    | "compactionSummary" => message.summary.isPresent && message.tokensBefore.isPresent
    | "fileMention" => message.files.isPresent
    | _ => false

/-! ## Payload fields -/

/-- The bits of `payload`, a set of field names. -/
inductive Payload where
  | message | thinkingLevel | configured | model | role | resolvedFallback | serviceTier | summary
  | shortSummary | firstKept | tokensBefore | details | preserveData | fromExtension | warning
  | fromId | customType | data | content | display | attribution | targetId | label | title
  | previousTitle | source | trigger | injectedRules | provider | hash | systemPrompt | task
  | tools | agent | modelRole | resolvedModel | readOnly | outputSchema | outputSchemaMode
  | restrictToolNames | spawns | readSummarize | advisor | mode
  deriving DecidableEq

namespace OmpRecord

/-- Whether the record carries the field. -/
def carries (record : OmpRecord) : Payload → Bool
  | .message => record.message.isSome
  | .thinkingLevel => record.thinkingLevel.isPresent
  | .configured => record.configured.isPresent
  | .model => record.model.isSome
  | .role => record.role.isSome
  | .resolvedFallback => record.resolvedFallback.isPresent
  | .serviceTier => record.serviceTier.isPresent
  | .summary => record.summary.isPresent
  | .shortSummary => record.shortSummary.isPresent
  | .firstKept => record.firstKept.isPresent
  | .tokensBefore => record.tokensBefore.isPresent
  | .details => record.details.isPresent
  | .preserveData => record.preserveData.isPresent
  | .fromExtension => record.fromExtension.isPresent
  | .warning => record.warning.isPresent
  | .fromId => record.fromId.isPresent
  | .customType => record.customType.isSome
  | .data => record.data.isPresent
  | .content => record.content.isPresent
  | .display => record.display.isPresent
  | .attribution => record.attribution.isPresent
  | .targetId => record.targetId.isSome
  | .label => record.label.isPresent
  | .title => record.title.isSome
  | .previousTitle => record.previousTitle.isSome
  | .source => record.source.isSome
  | .trigger => record.trigger.isSome
  | .injectedRules => record.injectedRules.isPresent
  | .provider => record.provider.isSome
  | .hash => record.hash.isSome
  | .systemPrompt => record.systemPrompt.isPresent
  | .task => record.task.isPresent
  | .tools => record.tools.isPresent
  | .agent => record.agent.isPresent
  | .modelRole => record.modelRole.isPresent
  | .resolvedModel => record.resolvedModel.isPresent
  | .readOnly => record.readOnly.isPresent
  | .outputSchema => record.outputSchema.isPresent
  | .outputSchemaMode => record.outputSchemaMode.isPresent
  | .restrictToolNames => record.restrictToolNames.isPresent
  | .spawns => record.spawns.isPresent
  | .readSummarize => record.readSummarize.isPresent
  | .advisor => record.advisor.isPresent
  | .mode => record.mode.isSome

def allPayload : List Payload := [
  .message, .thinkingLevel, .configured, .model, .role, .resolvedFallback, .serviceTier, .summary,
  .shortSummary, .firstKept, .tokensBefore, .details, .preserveData, .fromExtension, .warning,
  .fromId, .customType, .data, .content, .display, .attribution, .targetId, .label, .title,
  .previousTitle, .source, .trigger, .injectedRules, .provider, .hash, .systemPrompt, .task,
  .tools, .agent, .modelRole, .resolvedModel, .readOnly, .outputSchema, .outputSchemaMode,
  .restrictToolNames, .spawns, .readSummarize, .advisor, .mode]

def payloadBits (record : OmpRecord) : List Payload := allPayload.filter record.carries

/-- `bits & required == required && bits & !(required | optional) == 0`. -/
def carriesExactly (record : OmpRecord) (required optional : List Payload) : Bool :=
  required.all record.carries &&
    record.payloadBits.all fun field => required.contains field || optional.contains field

def hasValidPayload (record : OmpRecord) : Bool :=
  match record.kind with
  | "message" =>
    record.carriesExactly [.message] [] && record.message.any OmpMessage.hasValidShape
  | "thinking_level_change" => record.carriesExactly [.thinkingLevel] [.configured]
  | "model_change" => record.carriesExactly [.model] [.role, .resolvedFallback]
  | "service_tier_change" => record.carriesExactly [.serviceTier] []
  | "compaction" =>
    record.carriesExactly [.summary, .firstKept, .tokensBefore]
      [.shortSummary, .details, .preserveData, .fromExtension, .warning]
  | "branch_summary" => record.carriesExactly [.fromId, .summary] [.details, .fromExtension]
  | "reset_boundary" => record.carriesExactly [] []
  | "custom" => record.carriesExactly [.customType] [.data]
  | "custom_message" =>
    record.carriesExactly [.customType, .content, .display] [.details, .attribution]
  | "label" => record.carriesExactly [.targetId] [.label]
  | "title_change" => record.carriesExactly [.title, .source] [.previousTitle, .trigger]
  | "ttsr_injection" => record.carriesExactly [.injectedRules] []
  | "credential_pin" => record.carriesExactly [.provider, .hash] []
  | "session_init" =>
    record.carriesExactly [.systemPrompt, .task, .tools]
      [.agent, .modelRole, .resolvedModel, .readOnly, .outputSchema, .outputSchemaMode,
        .restrictToolNames, .spawns, .readSummarize, .advisor]
  | "mode_change" => record.carriesExactly [.mode] [.data]
  | _ => false

end OmpRecord

/-! ## Encoded project directories -/

def ompByte (byte : UInt8) : UInt8 :=
  if byte = slash ∨ byte = 92 ∨ byte = 58 then 45 else byte

/-- `path.strip_prefix(base)`, as the bytes that remain. -/
def stripBase (base path : PathBuf) : Option Bytes :=
  if base.isAbsolute = path.isAbsolute then
    (base.components.isPrefixOf? path.components).map joinSlash
  else none

def ompRelative (opening rest : Bytes) : OsString :=
  opening ++ (if rest ≠ [] ∧ opening.getLast? ≠ some 45 then [45] else []) ++ rest.map ompByte

def ompProjectDirectory (path home temp : PathBuf) : OsString :=
  match stripBase home path with
  | some rest => ompRelative [45] rest
  | none =>
    match stripBase temp path with
    | some rest => ompRelative [45, 116, 109, 112] rest
    | none => [45, 45] ++ (stripSlash path.bytes).map ompByte ++ [45, 45]

def validateOmpPath (relative : RelativePath) (id timestamp : String) (project : ProjectIdentity)
    (home temp : PathBuf) : Except FormatFailure Unit := do
  rejectIf (relative.parentName.map FileName.bytes ≠
      some (ompProjectDirectory project.root home temp))
    (.projectMismatch "OMP encoded project directory conflicts with canonical cwd")
  let name ← okOr (.unsupported "OMP session filename is invalid")
    (relative.fileName.bind fun name => toStr name.bytes)
  rejectIf (name.toList ≠ stampedName timestamp id)
    (.unsupported "OMP filename hints conflict with native session metadata")

/-! ## Records -/

def schemaVersion : UInt64 := 3
def titleSlotVersion : UInt64 := 1
def titleSlotBytes : Nat := 256
def maxTitleBytes : Nat := titleSlotBytes
def maxOmpRecords : UInt64 := 32768

def validateEntryId (value : String) : Except FormatFailure Unit :=
  rejectIf (¬ entryIdShape value.toList)
    (.unsupported "OMP native entry identifier is outside the verified lowercase-hex shape")

def validateParent (record : OmpRecord) : Except FormatFailure Unit :=
  match record.parentId with
  | none => .ok ()
  | some parentId => do
    rejectIf (parentId = record.id)
      (.unsupported "OMP entry cannot reference itself as its parent")
    validateEntryId parentId

/-- The `serde_json` decoders of the three record shapes. -/
structure Decoders where
  slot : Bytes → Option OmpTitleSlot
  header : Bytes → Option OmpHeader
  record : Bytes → Option OmpRecord

/-- What the loop over the records reads and carries along. -/
structure OmpState where
  sessionId : String
  title : Option String
  cwd : PathBuf
  createdAt : SystemTime
  updatedAt : SystemTime
  chainUpdatedAt : SystemTime
  previousId : Option String
  recordCount : UInt64

section

variable (canon : Canonicalizer) (rfc3339 : Rfc3339) (decode : Decoders) (home temp : PathBuf)
  (relative : RelativePath) (project : ProjectIdentity)

def parseTitleSlot (bytes : Bytes) : Except FormatFailure OmpTitleSlot := do
  rejectIf (bytes.length + 1 ≠ titleSlotBytes)
    (.unsupported "OMP title slot is not exactly 256 UTF-8 bytes")
  let slot ← okOr (.unsupported "OMP title slot does not match the verified JSON shape")
    (decode.slot bytes)
  rejectIf (slot.kind ≠ "title" ∨ slot.version ≠ titleSlotVersion ∨
      maxTitleBytes < strLen slot.title ∨ ¬ slot.pad.toList.all (· = ' '))
    (.unsupported "OMP title slot is outside the verified fixed-width layout")
  return slot

def opening (slotBytes headerBytes : Bytes) : Except FormatFailure OmpState := do
  let slot ← parseTitleSlot decode slotBytes
  let header ← okOr (.unsupported "OMP header does not match the verified JSON shape")
    (decode.header headerBytes)
  rejectIf (header.kind ≠ "session" ∨ header.version ≠ schemaVersion)
    (.unsupported "OMP JSONL does not start with the verified schema-v3 session header")
  validateUuid header.id '7'
  let cwd ← canonicalCwd canon header.cwd project
  let createdAt ← parseRfc3339 rfc3339 header.timestamp
  let slotUpdatedAt ← parseRfc3339 rfc3339 slot.updatedAt
  rejectIf (slotUpdatedAt < createdAt)
    (.unsupported "OMP title slot timestamp predates the session header")
  validateOmpPath relative header.id header.timestamp project home temp
  let title := if trim slot.title ≠ "" then some slot.title else none
  return ⟨header.id, title, cwd, createdAt, slotUpdatedAt, createdAt, none, 2⟩

def start : List Bytes → Except FormatFailure (OmpState × List Bytes)
  | slot :: header :: rest => do
    let state ← opening canon rfc3339 decode home temp relative project slot header
    return (state, rest)
  | _ =>
    .error (.unsupported "OMP JSONL is missing the fixed-width title slot or session header")

def step (state : OmpState) (bytes : Bytes) : Except FormatFailure OmpState := do
  let record ← okOr (.unsupported "OMP append record has an unverified JSON shape")
    (decode.record bytes)
  rejectIf (¬ record.hasValidPayload)
    (.unsupported "OMP append record type is outside the verified current session set")
  validateEntryId record.id
  validateParent record
  let timestamp ← parseRfc3339 rfc3339 record.timestamp
  rejectIf (timestamp < state.chainUpdatedAt)
    (.unsupported "OMP append timestamps are not monotonic")
  rejectIf (maxOmpRecords < saturatingSucc state.recordCount)
    (.unsupported "OMP JSONL exceeds the verified total record limit")
  return { state with
    chainUpdatedAt := timestamp
    updatedAt := max state.updatedAt timestamp
    previousId := some record.id
    recordCount := saturatingSucc state.recordCount }

def finish (state : OmpState) : ParsedMetadata where
  sessionId := state.sessionId
  title := state.title
  createdAt := state.createdAt
  updatedAt := state.updatedAt
  chainUpdatedAt := state.chainUpdatedAt
  cwd := state.cwd
  chainTail := state.previousId
  recordCount := state.recordCount

def resumed (previous : ParsedMetadata) : OmpState :=
  ⟨previous.sessionId, previous.title, previous.cwd, previous.createdAt, previous.updatedAt,
    previous.chainUpdatedAt, previous.chainTail, previous.recordCount⟩

/-- A pending state is ignored, so that the file is taken from its start. -/
def parser : IncrementalParser Bytes OmpState ParseOutcome FormatFailure where
  start := start canon rfc3339 decode home temp relative project
  resume outcome := outcome.identified.map fun previous => .ok (resumed previous)
  step := step rfc3339 decode
  finish state := .ok (.metadata (finish state))

def parse (cancelled : Nat → Bool) (previous : Option ParseOutcome) (records : List Bytes) :
    Except FormatFailure ParseOutcome :=
  (parser canon rfc3339 decode home temp relative project).parse cancelled .cancelled previous records

end

/-! ## Cutting the file after the header -/

variable {canon : Canonicalizer} {rfc3339 : Rfc3339} {decode : Decoders} {home temp : PathBuf}
  {relative : RelativePath} {project : ProjectIdentity}

/-- The states of the record loop keep what the slot and the header say. -/
structure Inv (canon : Canonicalizer) (project : ProjectIdentity) (state : OmpState) : Prop where
  title_valid : ∀ title ∈ state.title, validMetadataTitle title = true
  located : Located canon project state.cwd

theorem valid_of_parseTitleSlot {bytes : Bytes} {slot : OmpTitleSlot}
    (h : parseTitleSlot decode bytes = .ok slot) : validMetadataTitle slot.title = true := by
  simp only [parseTitleSlot, bind_eq_ok_iff, rejectIf_eq_ok_iff, pure_eq_ok, Except.ok.injEq] at h
  obtain ⟨-, -, found, -, -, hshape, rfl⟩ := h
  simp only [not_or, not_lt] at hshape
  exact decide_eq_true hshape.2.2.1

theorem inv_opening {slot header : Bytes} {state : OmpState}
    (h : opening canon rfc3339 decode home temp relative project slot header = .ok state) :
    Inv canon project state := by
  simp only [opening, bind_eq_ok_iff, pure_eq_ok, Except.ok.injEq] at h
  obtain ⟨found, hslot, decoded, -, -, -, -, -, cwd, hcwd, -, -, -, -, -, -, -, -, rfl⟩ := h
  refine ⟨fun title htitle => ?_, located_of_canonicalCwd hcwd⟩
  rw [Option.mem_def, Option.ite_none_right_eq_some] at htitle
  cases Option.some.inj htitle.2
  exact valid_of_parseTitleSlot hslot

theorem Inv.step {state next : OmpState} {bytes : Bytes} (hinv : Inv canon project state)
    (h : step rfc3339 decode state bytes = .ok next) : Inv canon project next := by
  simp only [Omp.step, bind_eq_ok_iff, pure_eq_ok, Except.ok.injEq] at h
  obtain ⟨-, -, -, -, -, -, -, -, timestamp, -, -, -, -, -, rfl⟩ := h
  exact ⟨hinv.title_valid, hinv.located⟩

/-- The session parser does not depend on where the file is cut, once slot and
header are there. -/
theorem lawful : (parser canon rfc3339 decode home temp relative project).Lawful
    (ParseOutcome.restore canon project) (Inv canon project) (fun _ => True)
    (2 ≤ ·.length) where
  start_append first rest hfirst := by
    match first with
    | [] | [_] => simp at hfirst
    | slot :: header :: first =>
      simp only [parser, start, List.cons_append, bind_assoc, pure_eq_ok, ok_bind]
  start_inv records state unread h := by
    match records with
    | [] | [_] => contradiction
    | slot :: header :: records =>
      obtain ⟨opened, hopened, h⟩ := bind_eq_ok_iff.mp h
      cases Except.ok.inj h
      exact inv_opening hopened
  start_fed _ _ _ _ := trivial
  step_inv state record next hinv h := ⟨hinv.step h, trivial⟩
  finish_resume state _ := ⟨_, rfl, rfl⟩
  finish_restore state outcome hinv _ h := by
    cases Except.ok.inj h
    exact ParseOutcome.restore_of_storable ⟨hinv.title_valid, hinv.located⟩

end HerdrContext.KnownStores.Omp
