import HerdrContext.KnownStores.Checks
import HerdrContext.Library.Incremental

/-! Codex CLI rollouts: a `session_meta` header, then records whose ordinals,
if there are any, count up by one. -/
namespace HerdrContext.KnownStores.CodexCli

open Library

structure CodexPayload where
  id : Option String := none
  sessionId : Option String := none
  timestamp : Option String := none
  cwd : Option String := none
  cliVersion : Option String := none
  historyMode : Option String := none
  kind : Option String := none
  full : Option Bool := none
  state : Option IgnoredAny := none
  triggerTurn : Option Bool := none
  author : Option IgnoredAny := none
  recipient : Option IgnoredAny := none
  content : Option IgnoredAny := none
  message : Option IgnoredAny := none
  model : Option IgnoredAny := none
  role : Option IgnoredAny := none
  tools : Option IgnoredAny := none
  summary : Option IgnoredAny := none
  encryptedContent : Option IgnoredAny := none
  callId : Option IgnoredAny := none
  status : Option IgnoredAny := none
  action : Option IgnoredAny := none
  name : Option IgnoredAny := none
  arguments : Option IgnoredAny := none
  execution : Option IgnoredAny := none
  output : Option IgnoredAny := none
  input : Option IgnoredAny := none
  result : Option IgnoredAny := none
  approvalPolicy : Option IgnoredAny := none
  sandboxPolicy : Option IgnoredAny := none

structure CodexRecord where
  timestamp : String
  ordinal : Option UInt64
  kind : String
  payload : CodexPayload

def knownEventKinds : List String := [
  "error", "warning", "guardian_warning", "realtime_conversation_started",
  "realtime_conversation_realtime", "realtime_conversation_closed", "realtime_conversation_sdp",
  "model_reroute", "model_verification", "turn_moderation_metadata", "safety_buffering",
  "context_compacted", "thread_rolled_back", "task_started", "turn_started",
  "thread_settings_applied", "task_complete", "turn_complete", "token_count", "agent_message",
  "user_message", "agent_reasoning", "agent_reasoning_raw_content",
  "agent_reasoning_section_break", "session_configured", "environment_connected",
  "environment_disconnected", "thread_goal_updated", "mcp_startup_update", "mcp_startup_complete",
  "mcp_tool_call_begin", "mcp_tool_call_end", "web_search_begin", "web_search_end",
  "image_generation_begin", "image_generation_end", "exec_command_begin",
  "exec_command_output_delta", "terminal_interaction", "exec_command_end", "view_image_tool_call",
  "exec_approval_request", "request_permissions", "request_user_input",
  "dynamic_tool_call_request", "dynamic_tool_call_response", "elicitation_request",
  "apply_patch_approval_request", "guardian_assessment", "deprecation_notice", "stream_error",
  "patch_apply_begin", "patch_apply_updated", "patch_apply_end", "turn_diff",
  "realtime_conversation_list_voices_response", "plan_update", "turn_aborted",
  "shutdown_complete", "entered_review_mode", "exited_review_mode", "raw_response_item",
  "raw_response_completed", "item_started", "item_completed", "hook_started", "hook_completed",
  "agent_message_content_delta", "plan_delta", "reasoning_content_delta",
  "reasoning_raw_content_delta", "collab_agent_spawn_begin", "collab_agent_spawn_end",
  "collab_agent_interaction_begin", "collab_agent_interaction_end", "collab_waiting_begin",
  "collab_waiting_end", "collab_close_begin", "collab_close_end", "collab_resume_begin",
  "collab_resume_end", "sub_agent_activity"]

def isKnownEventKind (kind : String) : Bool := knownEventKinds.contains kind

namespace CodexPayload

def isValidResponseItem (payload : CodexPayload) : Bool :=
  match payload.kind with
  | some "additional_tools" => payload.role.isSome && payload.tools.isSome
  | some "message" => payload.role.isSome && payload.content.isSome
  | some "agent_message" =>
    payload.author.isSome && payload.recipient.isSome && payload.content.isSome
  | some "reasoning" => payload.summary.isSome
  | some "local_shell_call" => payload.status.isSome && payload.action.isSome
  | some "function_call" =>
    payload.name.isSome && payload.arguments.isSome && payload.callId.isSome
  | some "tool_search_call" => payload.execution.isSome && payload.arguments.isSome
  | some "function_call_output" | some "custom_tool_call_output" =>
    payload.callId.isSome && payload.output.isSome
  | some "custom_tool_call" =>
    payload.callId.isSome && payload.name.isSome && payload.input.isSome
  | some "tool_search_output" =>
    payload.status.isSome && payload.execution.isSome && payload.tools.isSome
  | some "image_generation_call" => payload.status.isSome && payload.result.isSome
  | some "compaction" | some "compaction_summary" => payload.encryptedContent.isSome
  | some "web_search_call" | some "compaction_trigger" | some "context_compaction" => true
  | _ => false

def isValidAppend (payload : CodexPayload) (kind : String) : Bool :=
  match kind with
  | "response_item" => payload.isValidResponseItem
  | "event_msg" => payload.kind.any fun event =>
    isKnownEventKind event && (event != "user_message" || payload.message.isSome)
  | "inter_agent_communication" =>
    payload.author.isSome && payload.recipient.isSome && payload.content.isSome
  | "inter_agent_communication_metadata" => payload.triggerTurn.isSome
  | "compacted" => payload.message.isSome
  | "turn_context" =>
    payload.cwd.isSome && payload.model.isSome && payload.approvalPolicy.isSome &&
      payload.sandboxPolicy.isSome
  | "world_state" => payload.full.isSome && payload.state.isSome
  | _ => false

end CodexPayload

/-! ## History cursors -/

inductive CodexHistory where
  | legacy
  | paginated (ordinal : UInt64)
  deriving DecidableEq

namespace CodexHistory

/-- `paginated:`. -/
def paginatedPrefix : List Char := ['p', 'a', 'g', 'i', 'n', 'a', 't', 'e', 'd', ':']

def fromHeader : Option String → Option UInt64 → Except FormatFailure CodexHistory
  | some "legacy", none => .ok legacy
  | some "paginated", some 0 => .ok (paginated 0)
  | _, _ => .error (.unsupported "Codex history mode and rollout ordinal conflict")

def fromWatermark : Option String → Except FormatFailure CodexHistory
  | some value =>
    if value = "legacy" then .ok legacy
    else do
      let ordinal ← okOr
        (.unsupported "Codex incremental state has an invalid history cursor")
        ((paginatedPrefix.isPrefixOf? value.toList).bind (Text.parseUnsigned UInt64.size))
      return paginated (UInt64.ofNat ordinal)
  | none => .error (.unsupported "Codex incremental state is missing its history cursor")

def advance (history : CodexHistory) (ordinal : Option UInt64) :
    Except FormatFailure CodexHistory :=
  match history with
  | legacy =>
    if ordinal = none then .ok legacy
    else .error (.unsupported "Codex legacy rollout unexpectedly contains an ordinal")
  | paginated current => do
    rejectIf (current.toNat + 1 = UInt64.size)
      (.unsupported "Codex rollout ordinal exceeds the supported range")
    rejectIf (ordinal ≠ some (current + 1))
      (.unsupported "Codex paginated rollout ordinals are not contiguous")
    return paginated (current + 1)

def watermark : CodexHistory → String
  | legacy => "legacy"
  | paginated ordinal => String.ofList (paginatedPrefix ++ Nat.toDigits 10 ordinal.toNat)

/-- A history cursor survives the chain tail it is stored as. -/
theorem fromWatermark_watermark (history : CodexHistory) :
    fromWatermark (some history.watermark) = .ok history := by
  cases history with
  | legacy => rfl
  | paginated ordinal =>
    have hname : String.ofList (paginatedPrefix ++ Nat.toDigits 10 ordinal.toNat) ≠ "legacy" := by
      intro h
      have hchars := congrArg String.toList h
      simp [paginatedPrefix] at hchars
    have hsuffix : paginatedPrefix.isPrefixOf?
        (paginatedPrefix ++ Nat.toDigits 10 ordinal.toNat) =
          some (Nat.toDigits 10 ordinal.toNat) :=
      List.isPrefixOf?_eq_some_iff_append_eq.mpr rfl
    simp only [fromWatermark, watermark, if_neg hname, String.toList_ofList, hsuffix,
      Option.bind_some, Text.parseUnsigned_toDigits ordinal.toNat_lt, okOr, ok_bind, pure_eq_ok,
      UInt64.ofNat_toNat]

end CodexHistory

/-! ## Paths -/

def validDateComponent (depth : Nat) (value : List Char) : Bool :=
  let parsed := Text.parseUnsigned UInt8.size value
  match depth with
  | 0 => value.length = 4 && value.all Char.isDigit
  | 1 => Text.byteLen value = 2 && parsed.any fun month => 1 ≤ month && month ≤ 12
  | 2 => Text.byteLen value = 2 && parsed.any fun day => 1 ≤ day && day ≤ 31
  | _ => false

def twoDigits (value : List Char) : Bool := value.length = 2 && value.all Char.isDigit

/-- `HH-MM-SS` of a rollout's file name. -/
def localTimeValid (localTime : List Char) : Bool :=
  let parts := localTime.splitOn '-'
  let values := parts.filterMap (Text.parseUnsigned UInt8.size)
  parts.length = 3 && parts.all twoDigits && values.length = 3 &&
    values[0]?.any (· ≤ 23) && values[1]?.any (· ≤ 59) && values[2]?.any (· ≤ 59)

def validateCodexPath (relative : RelativePath) (id : String) : Except FormatFailure Unit := do
  let components ← okOr (.unsupported "Codex path is not valid UTF-8")
    (relative.mapM fun name => toStr name.bytes)
  match components.map String.toList with
  | [year, month, day, name] =>
    rejectIf (¬ (validDateComponent 0 year ∧ validDateComponent 1 month ∧ validDateComponent 2 day))
      (.unsupported "Codex path is outside the verified date layout")
    let opening := "rollout-".toList ++ year ++ ['-'] ++ month ++ ['-'] ++ day ++ ['T']
    let closing := ['-'] ++ id.toList ++ ".jsonl".toList
    let localTime ← okOr
      (.unsupported "Codex rollout filename does not repeat its date and native session ID")
      ((opening.isPrefixOf? name).bind closing.isSuffixOf?)
    rejectIf (¬ localTimeValid localTime) (.unsupported "Codex rollout local time is invalid")
  | _ => .error (.unsupported "Codex path is outside the verified date layout")

/-! ## Records -/

/-- What the loop over the records reads and carries along. -/
structure CodexState where
  id : String
  cwd : PathBuf
  createdAt : SystemTime
  updatedAt : SystemTime
  recordCount : UInt64
  history : CodexHistory

section

variable (canon : Canonicalizer) (rfc3339 : Rfc3339) (decode : Bytes → Option CodexRecord)
  (relative : RelativePath) (project : ProjectIdentity)

def header (bytes : Bytes) : Except FormatFailure CodexState := do
  let header ← okOr (.unsupported "Codex header does not match the verified JSON shape")
    (decode bytes)
  rejectIf (header.kind ≠ "session_meta")
    (.unsupported "Codex JSONL does not start with session_meta")
  let id ← okOr (.unsupported "Codex session_meta is missing its native session ID")
    header.payload.id
  validateUuid id '7'
  rejectIf (header.payload.sessionId ≠ some id)
    (.unsupported "Codex session_meta thread and session identifiers conflict")
  validateToolVersion header.payload.cliVersion
  let history ← CodexHistory.fromHeader header.payload.historyMode header.ordinal
  let recorded ← okOr (.projectMismatch "Codex session_meta is missing canonical cwd")
    header.payload.cwd
  let cwd ← canonicalCwd canon recorded project
  let createdText ← okOr (.unsupported "Codex session_meta is missing its start timestamp")
    header.payload.timestamp
  let createdAt ← parseRfc3339 rfc3339 createdText
  let headerWrittenAt ← parseRfc3339 rfc3339 header.timestamp
  rejectIf (headerWrittenAt < createdAt)
    (.unsupported "Codex record-write timestamp precedes session start")
  validateCodexPath relative id
  return ⟨id, cwd, createdAt, headerWrittenAt, 1, history⟩

/-- `records[0]` of no records panics; a scan that parses has read a record. -/
def start : List Bytes → Except FormatFailure (CodexState × List Bytes)
  | [] => .error (.unsupported "index out of bounds")
  | first :: rest => do
    let state ← header canon rfc3339 decode relative project first
    return (state, rest)

def step (state : CodexState) (bytes : Bytes) : Except FormatFailure CodexState := do
  let record ← okOr (.unsupported "Codex append record has an unverified JSON shape") (decode bytes)
  rejectIf (¬ record.payload.isValidAppend record.kind)
    (.unsupported "Codex append record is outside the verified current rollout set")
  let history ← state.history.advance record.ordinal
  let timestamp ← parseRfc3339 rfc3339 record.timestamp
  rejectIf (timestamp < state.updatedAt) (.unsupported "Codex append timestamps are not monotonic")
  return { state with
    history
    updatedAt := timestamp
    recordCount := saturatingSucc state.recordCount }

def finish (state : CodexState) : ParsedMetadata where
  sessionId := state.id
  title := none
  createdAt := state.createdAt
  updatedAt := state.updatedAt
  chainUpdatedAt := state.updatedAt
  cwd := state.cwd
  chainTail := some state.history.watermark
  recordCount := state.recordCount

def resumed (previous : ParsedMetadata) : Except FormatFailure CodexState := do
  let history ← CodexHistory.fromWatermark previous.chainTail
  return ⟨previous.sessionId, previous.cwd, previous.createdAt, previous.updatedAt,
    previous.recordCount, history⟩

/-- A pending state is ignored, so that the file is taken from its start. -/
def parser : IncrementalParser Bytes CodexState ParseOutcome FormatFailure where
  start := start canon rfc3339 decode relative project
  resume outcome := outcome.identified.map resumed
  step := step rfc3339 decode
  finish state := .ok (.metadata (finish state))

def parse (cancelled : Nat → Bool) (previous : Option ParseOutcome) (records : List Bytes) :
    Except FormatFailure ParseOutcome :=
  (parser canon rfc3339 decode relative project).parse cancelled .cancelled previous records

end

/-! ## Cutting the file anywhere -/

variable {canon : Canonicalizer} {rfc3339 : Rfc3339} {decode : Bytes → Option CodexRecord}
  {relative : RelativePath} {project : ProjectIdentity}

/-- The states of the record loop keep the working directory of the header. -/
def Inv (canon : Canonicalizer) (project : ProjectIdentity) (state : CodexState) : Prop :=
  Located canon project state.cwd

theorem inv_header {bytes : Bytes} {state : CodexState}
    (h : header canon rfc3339 decode relative project bytes = .ok state) :
    Inv canon project state := by
  simp only [header, bind_eq_ok_iff, pure_eq_ok, Except.ok.injEq] at h
  obtain ⟨-, -, -, -, -, -, -, -, -, -, -, -, -, -, recorded, -, cwd, hcwd, -, -, -, -, -, -, -, -,
    -, -, rfl⟩ := h
  exact located_of_canonicalCwd hcwd

theorem Inv.step {state next : CodexState} {bytes : Bytes} (hinv : Inv canon project state)
    (h : step rfc3339 decode state bytes = .ok next) : Inv canon project next := by
  simp only [CodexCli.step, bind_eq_ok_iff, pure_eq_ok, Except.ok.injEq] at h
  obtain ⟨-, -, -, -, history, -, timestamp, -, -, -, rfl⟩ := h
  exact hinv

/-- The rollout parser does not depend on where the file is cut. -/
theorem lawful : (parser canon rfc3339 decode relative project).Lawful
    (ParseOutcome.restore canon project) (Inv canon project) (fun _ => True) (· ≠ []) where
  start_append first rest hfirst := by
    cases first with
    | nil => contradiction
    | cons record first =>
      simp only [parser, start, List.cons_append, bind_assoc, pure_eq_ok, ok_bind]
  start_inv records state unread h := by
    cases records with
    | nil => contradiction
    | cons record records =>
      obtain ⟨opened, hopened, h⟩ := bind_eq_ok_iff.mp h
      cases Except.ok.inj h
      exact inv_header hopened
  start_fed _ _ _ _ := trivial
  step_inv state record next hinv h := ⟨hinv.step h, trivial⟩
  finish_resume state _ := by
    refine ⟨_, rfl, ?_⟩
    simp only [parser, ParseOutcome.identified, Option.map_some, resumed, finish,
      CodexHistory.fromWatermark_watermark, ok_bind, pure_eq_ok]
  finish_restore state outcome hinv _ h := by
    cases Except.ok.inj h
    exact ParseOutcome.restore_of_storable ⟨by simp [finish], hinv⟩

end HerdrContext.KnownStores.CodexCli
