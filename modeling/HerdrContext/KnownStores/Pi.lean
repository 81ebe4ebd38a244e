import HerdrContext.KnownStores.Checks
import HerdrContext.Library.Incremental

/-! Pi sessions: a version 3 header, then entries that each hang on an earlier
one. -/
namespace HerdrContext.KnownStores.Pi

open Library

structure PiMessage where
  role : String
  timestamp : Int64

structure PiRecord where
  kind : String
  version : Option UInt64 := none
  id : String
  parentId : Option String := none
  timestamp : String
  cwd : Option String := none
  message : Option PiMessage := none
  thinkingLevel : Option IgnoredAny := none
  provider : Option IgnoredAny := none
  modelId : Option IgnoredAny := none
  summary : Option IgnoredAny := none
  firstKeptEntryId : Option IgnoredAny := none
  tokensBefore : Option IgnoredAny := none
  fromId : Option IgnoredAny := none
  customType : Option IgnoredAny := none
  content : Option IgnoredAny := none
  display : Option IgnoredAny := none
  targetId : Option IgnoredAny := none

def schemaVersion : UInt64 := 3

def hasValidPayload (record : PiRecord) : Bool :=
  match record.kind with
  | "message" => record.message.isSome
  | "thinking_level_change" => record.thinkingLevel.isSome
  | "model_change" => record.provider.isSome && record.modelId.isSome
  | "compaction" =>
    record.summary.isSome && record.firstKeptEntryId.isSome && record.tokensBefore.isSome
  | "branch_summary" => record.fromId.isSome && record.summary.isSome
  | "custom" => record.customType.isSome
  | "custom_message" =>
    record.customType.isSome && record.content.isSome && record.display.isSome
  | "label" => record.targetId.isSome
  | "session_info" => true
  | _ => false

def validateEntryId (value : String) : Except FormatFailure Unit :=
  rejectIf (¬ entryIdShape value.toList)
    (.unsupported "Pi native entry identifier is outside the verified lowercase-hex shape")

def validatePiPath (relative : RelativePath) (id timestamp : String) (project : ProjectIdentity) :
    Except FormatFailure Unit := do
  rejectIf (relative.parentName.map FileName.bytes ≠ some (piProjectDirectory project.root))
    (.projectMismatch "Pi encoded project directory conflicts with canonical cwd")
  let name ← okOr (.unsupported "Pi session filename is invalid")
    (relative.fileName.bind fun name => toStr name.bytes)
  rejectIf (name.toList ≠ stampedName timestamp id)
    (.unsupported "Pi filename hints conflict with native session metadata")

def messageRoles : List String :=
  ["user", "assistant", "toolResult", "bashExecution", "custom", "compactionSummary",
    "branchSummary"]

/-- How an entry hangs on the entries before it. -/
def validateParent (hasPrevious : Bool) (record : PiRecord) : Except FormatFailure Unit :=
  let mismatch : Except FormatFailure Unit :=
    .error (.unsupported "Pi entry root/parent shape does not match the current session tree")
  match hasPrevious, record.parentId with
  | false, none => .ok ()
  | true, some parentId => if parentId ≠ record.id then validateEntryId parentId else mismatch
  | _, _ => mismatch

def validateMessage (record : PiRecord) : Except FormatFailure Unit :=
  if record.kind = "message" then do
    let message ← okOr (.unsupported "Pi message record is missing native message metadata")
      record.message
    rejectIf (¬ messageRoles.contains message.role ∨ message.timestamp ≤ 0)
      (.unsupported "Pi message metadata is outside the verified current session set")
  else
    rejectIf record.message.isSome
      (.unsupported "Pi non-message entry unexpectedly contains message metadata")

/-- What the loop over the records reads and carries along. -/
structure PiState where
  sessionId : String
  cwd : PathBuf
  createdAt : SystemTime
  updatedAt : SystemTime
  previousId : Option String
  recordCount : UInt64

section

variable (canon : Canonicalizer) (rfc3339 : Rfc3339) (decode : Bytes → Option PiRecord)
  (relative : RelativePath) (project : ProjectIdentity)

def header (bytes : Bytes) : Except FormatFailure PiState := do
  let header ← okOr (.unsupported "Pi header does not match the verified JSON shape") (decode bytes)
  rejectIf (header.kind ≠ "session" ∨ header.version ≠ some schemaVersion)
    (.unsupported "Pi JSONL does not start with the verified schema-v3 session header")
  validateUuid header.id '7'
  let recorded ← okOr (.projectMismatch "Pi session header is missing canonical cwd") header.cwd
  let cwd ← canonicalCwd canon recorded project
  let createdAt ← parseRfc3339 rfc3339 header.timestamp
  validatePiPath relative header.id header.timestamp project
  return ⟨header.id, cwd, createdAt, createdAt, none, 1⟩

/-- `records[0]` of no records panics; a scan that parses has read a record. -/
def start : List Bytes → Except FormatFailure (PiState × List Bytes)
  | [] => .error (.unsupported "index out of bounds")
  | first :: rest => do
    let state ← header canon rfc3339 decode relative project first
    return (state, rest)

def step (state : PiState) (bytes : Bytes) : Except FormatFailure PiState := do
  let record ← okOr (.unsupported "Pi append record has an unverified JSON shape") (decode bytes)
  rejectIf (record.version.isSome ∨ record.cwd.isSome ∨ ¬ hasValidPayload record)
    (.unsupported "Pi append record type is outside the verified current session set")
  validateEntryId record.id
  validateParent state.previousId.isSome record
  validateMessage record
  let timestamp ← parseRfc3339 rfc3339 record.timestamp
  rejectIf (timestamp < state.updatedAt) (.unsupported "Pi append timestamps are not monotonic")
  return { state with
    updatedAt := timestamp
    previousId := some record.id
    recordCount := saturatingSucc state.recordCount }

def finish (state : PiState) : ParsedMetadata where
  sessionId := state.sessionId
  title := none
  createdAt := state.createdAt
  updatedAt := state.updatedAt
  chainUpdatedAt := state.updatedAt
  cwd := state.cwd
  chainTail := state.previousId
  recordCount := state.recordCount

def resumed (previous : ParsedMetadata) : PiState :=
  ⟨previous.sessionId, previous.cwd, previous.createdAt, previous.updatedAt, previous.chainTail,
    previous.recordCount⟩

/-- A pending state is ignored, so that the file is taken from its start. -/
def parser : IncrementalParser Bytes PiState ParseOutcome FormatFailure where
  start := start canon rfc3339 decode relative project
  resume outcome := outcome.identified.map fun previous => .ok (resumed previous)
  step := step rfc3339 decode
  finish state := .ok (.metadata (finish state))

def parse (cancelled : Nat → Bool) (previous : Option ParseOutcome) (records : List Bytes) :
    Except FormatFailure ParseOutcome :=
  (parser canon rfc3339 decode relative project).parse cancelled .cancelled previous records

end

/-! ## Cutting the file anywhere -/

variable {canon : Canonicalizer} {rfc3339 : Rfc3339} {decode : Bytes → Option PiRecord}
  {relative : RelativePath} {project : ProjectIdentity}

/-- The states of the record loop keep the working directory of the header. -/
def Inv (canon : Canonicalizer) (project : ProjectIdentity) (state : PiState) : Prop :=
  Located canon project state.cwd

theorem inv_header {bytes : Bytes} {state : PiState}
    (h : header canon rfc3339 decode relative project bytes = .ok state) :
    Inv canon project state := by
  simp only [header, bind_eq_ok_iff, pure_eq_ok, Except.ok.injEq] at h
  obtain ⟨-, -, -, -, -, -, recorded, -, cwd, hcwd, -, -, -, -, rfl⟩ := h
  exact located_of_canonicalCwd hcwd

theorem Inv.step {state next : PiState} {bytes : Bytes} (hinv : Inv canon project state)
    (h : step rfc3339 decode state bytes = .ok next) : Inv canon project next := by
  simp only [Pi.step, bind_eq_ok_iff, pure_eq_ok, Except.ok.injEq] at h
  obtain ⟨-, -, -, -, -, -, -, -, -, -, timestamp, -, -, -, rfl⟩ := h
  exact hinv

/-- The session parser does not depend on where the file is cut. -/
theorem lawful : (parser canon rfc3339 decode relative project).Lawful
    (ParseOutcome.restore canon project) (Inv canon project) (fun _ => True) (· ≠ []) where
  start_append first rest hfirst := by
    cases first with
    | nil => contradiction
    | cons record first =>
      simp only [parser, start, List.cons_append, bind_assoc, pure_eq_ok, ok_bind]
  start_inv records state unread h := by
    cases records with
    | nil => contradiction
    | cons record records =>
      obtain ⟨opened, hopened, h⟩ := bind_eq_ok_iff.mp h
      cases Except.ok.inj h
      exact inv_header hopened
  start_fed _ _ _ _ := trivial
  step_inv state record next hinv h := ⟨hinv.step h, trivial⟩
  finish_resume state _ := ⟨_, rfl, rfl⟩
  finish_restore state outcome hinv _ h := by
    cases Except.ok.inj h
    exact ParseOutcome.restore_of_storable ⟨by simp [finish], hinv⟩

end HerdrContext.KnownStores.Pi
