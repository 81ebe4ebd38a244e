import HerdrContext.KnownStores.Checks
import HerdrContext.Library.Incremental

/-! Claude Code transcripts: the record parser, which may go on for long before
it learns the session's identity. -/
namespace HerdrContext.KnownStores.ClaudeCode

open Library

/-- `serde_json::Value`, of which only strings are looked at. -/
inductive JsonValue where
  | string (text : String)
  | other
  deriving DecidableEq

def JsonValue.asStr : JsonValue → Option String
  | string text => some text
  | other => none

structure ClaudeRecord where
  parentUuid : Option String := none
  isSidechain : Option Bool := none
  message : Option IgnoredAny := none
  attachment : Option IgnoredAny := none
  cwd : Option String := none
  sessionId : Option String := none
  version : Option String := none
  kind : String
  uuid : Option String := none
  timestamp : Option String := none
  subtype : Option String := none
  leafUuid : Option String := none
  logicalParentUuid : Option String := none
  permissionMode : Option IgnoredAny := none
  aiTitle : Option JsonValue := none
  mode : Option IgnoredAny := none
  customTitle : Option JsonValue := none
  agentName : Option IgnoredAny := none
  agentSetting : Option IgnoredAny := none
  messageId : Option String := none
  snapshot : Option IgnoredAny := none
  isSnapshotUpdate : Option Bool := none
  operation : Option IgnoredAny := none

/-- What the loop over the records reads and carries along. -/
structure ClaudeState where
  expectedId : String
  sessionId : Option String
  title : Option String
  createdAt : Option SystemTime
  updatedAt : Option SystemTime
  previousUuid : Option String
  canonical : Option PathBuf
  recordCount : UInt64

section

variable (canon : Canonicalizer) (rfc3339 : Rfc3339) (decode : Bytes → Option ClaudeRecord)
  (relative : RelativePath) (project : ProjectIdentity)

/-- The session identifier the file is named after. -/
def expectedId : Except FormatFailure String := do
  let id ← okOr (.unsupported "Claude session filename is invalid")
    (relative.fileName.bind fun name => toStr name.stem)
  validateUuid id '4'
  return id

def encodedDirectoryMatches : Bool :=
  relative.parentName.any fun name => name.bytes = claudeProjectDirectory project.root

def validateClaudeSession (record : ClaudeRecord) (expected : String) :
    Except FormatFailure String := do
  let nativeId ← okOr (.unsupported "Claude record is missing its native session identifier")
    record.sessionId
  validateUuid nativeId '4'
  rejectIf (nativeId ≠ expected)
    (.unsupported "Claude filename and native session identifier conflict")
  return nativeId

def carriesIdentity (record : ClaudeRecord) : Bool :=
  if record.kind = "user" ∨ record.kind = "assistant" ∨ record.kind = "system" then true
  else if record.kind = "attachment" then
    record.sessionId.isSome || record.cwd.isSome || record.version.isSome ||
      record.isSidechain.isSome
  else false

def payloadShapeValid (record : ClaudeRecord) : Bool :=
  if record.kind = "user" ∨ record.kind = "assistant" then
    record.message.isSome && record.attachment.isNone
  else if record.kind = "attachment" then record.attachment.isSome && record.message.isNone
  else if record.kind = "system" then
    record.subtype.any (fun value => !(value = "")) && record.message.isNone &&
      record.attachment.isNone
  else false

/-- The working directory a transcript record stands for. -/
def recordCwd (recorded : Option PathBuf) : Except FormatFailure PathBuf :=
  match recorded with
  | some cwd => .ok cwd
  | none =>
    if encodedDirectoryMatches relative project then
      okOr (.projectMismatch "Claude encoded project directory cannot be canonicalized")
        (canon.canonicalPath project.root)
    else
      .error (.projectMismatch
        "Claude record has neither canonical cwd nor matching project directory")

/-- How a transcript record hangs on its predecessor. -/
def validateChain (hasPrevious : Bool) (record : ClaudeRecord) (uuid : String) :
    Except FormatFailure Unit :=
  let mismatch : Except FormatFailure Unit :=
    .error (.unsupported "Claude root/parent shape does not match the current transcript tree")
  match hasPrevious, record.parentUuid with
  | false, none => .ok ()
  | true, some parentUuid =>
    if parentUuid ≠ uuid then validateUuid parentUuid '4' else mismatch
  | true, none =>
    -- a compaction boundary restarts the chain deliberately
    if record.kind = "system" ∧ record.subtype = some "compact_boundary" then do
      let logicalParent ← okOr
        (.unsupported "Claude compact boundary is missing its logical parent identifier")
        record.logicalParentUuid
      validateUuid logicalParent '4'
    else mismatch
  | false, some _ => mismatch

/-- `map_or(timestamp, |current| current.min(timestamp))` and its dual. -/
def widen (state : ClaudeState) (timestamp : SystemTime) : ClaudeState :=
  { state with
    createdAt := some (state.createdAt.elim timestamp fun current => min current timestamp)
    updatedAt := some (state.updatedAt.elim timestamp fun current => max current timestamp) }

def identityRecord (state : ClaudeState) (record : ClaudeRecord)
    (recorded : Option PathBuf) : Except FormatFailure ClaudeState := do
  rejectIf (¬ payloadShapeValid record)
    (.unsupported "Claude transcript record has an invalid payload shape")
  let nativeId ← validateClaudeSession record state.expectedId
  validateToolVersion record.version
  rejectIf (record.isSidechain ≠ some false)
    (.unsupported "Claude sidechain transcript records are unsupported")
  rejectIf (state.sessionId.any fun id => !(id = nativeId))
    (.unsupported "Claude JSONL mixes native session identifiers")
  let cwd ← recordCwd canon relative project recorded
  let uuid ← okOr (.unsupported "Claude transcript record is missing its native entry identifier")
    record.uuid
  validateUuid uuid '4'
  validateChain state.previousUuid.isSome record uuid
  let text ← okOr (.unsupported "Claude transcript record is missing its timestamp")
    record.timestamp
  let timestamp ← parseRfc3339 rfc3339 text
  return { widen state timestamp with
    sessionId := some nativeId
    previousUuid := some uuid
    canonical := some (state.canonical.getD cwd) }

/-- A record with a timestamp. -/
def timedRecord (state : ClaudeState) (record : ClaudeRecord) (missing : String) :
    Except FormatFailure ClaudeState := do
  let text ← okOr (.unsupported missing) record.timestamp
  let timestamp ← parseRfc3339 rfc3339 text
  return widen state timestamp

/-- A record of this session that has to carry one more field. -/
def markerRecord (state : ClaudeState) (record : ClaudeRecord) (present : Bool)
    (missing : String) : Except FormatFailure ClaudeState := do
  let _ ← validateClaudeSession record state.expectedId
  rejectIf (¬ present) (.unsupported missing)
  return state

/-- Records beside the transcript; unknown ones establish nothing. -/
def auxiliaryRecord (state : ClaudeState) (record : ClaudeRecord) :
    Except FormatFailure ClaudeState :=
  match record.kind with
  | "attachment" => do
    rejectIf (record.attachment.isNone ∨ record.message.isSome ∨ record.version.isSome ∨
        record.cwd.isSome ∨ record.sessionId.isSome ∨ record.isSidechain.isSome ∨
        record.parentUuid.isSome)
      (.unsupported "Claude attachment record has an invalid payload shape")
    let uuid ← okOr (.unsupported "Claude attachment is missing its native entry identifier")
      record.uuid
    validateUuid uuid '4'
    timedRecord rfc3339 state record "Claude attachment is missing its timestamp"
  | "last-prompt" => do
    let _ ← validateClaudeSession record state.expectedId
    let leaf ← okOr (.unsupported "Claude last-prompt record is missing its leaf UUID")
      record.leafUuid
    validateUuid leaf '4'
    return state
  | "permission-mode" =>
    markerRecord state record record.permissionMode.isSome
      "Claude permission-mode record is missing its mode"
  | "ai-title" => do
    let _ ← validateClaudeSession record state.expectedId
    return { state with
      title := state.title.or
        ((record.aiTitle.bind JsonValue.asStr).bind normalizeMetadataTitle) }
  | "queue-operation" => do
    let _ ← markerRecord state record record.operation.isSome
      "Claude queue-operation record is missing its operation"
    timedRecord rfc3339 state record "Claude queue-operation record is missing its timestamp"
  | "custom-title" => do
    let _ ← validateClaudeSession record state.expectedId
    return { state with
      title := ((record.customTitle.bind JsonValue.asStr).bind normalizeMetadataTitle).or
        state.title }
  | "mode" =>
    markerRecord state record record.mode.isSome "Claude mode record is missing its mode"
  | "agent-name" =>
    markerRecord state record record.agentName.isSome
      "Claude agent-name record is missing its name"
  | "agent-setting" =>
    markerRecord state record record.agentSetting.isSome
      "Claude agent-setting record is missing its setting"
  | "file-history-snapshot" => do
    let message ← okOr
      (.unsupported "Claude file-history snapshot is missing its message UUID") record.messageId
    validateUuid message '4'
    rejectIf (record.snapshot.isNone ∨ record.isSnapshotUpdate.isNone)
      (.unsupported "Claude file-history snapshot has an invalid payload shape")
    return state
  | _ => .ok state

def transcriptRecord (state : ClaudeState) (record : ClaudeRecord) (recorded : Option PathBuf) :
    Except FormatFailure ClaudeState :=
  if carriesIdentity record then
    identityRecord canon rfc3339 relative project state record recorded
  else auxiliaryRecord rfc3339 state record

def step (state : ClaudeState) (bytes : Bytes) :
    Except FormatFailure ClaudeState := do
  let record ← okOr (.unsupported "Claude record does not match the current JSON shape")
    (decode bytes)
  rejectIf (record.kind = "") (.unsupported "Claude record type must be non-empty")
  let recorded ← onSome (canonicalCwd canon · project) record.cwd
  let state ← transcriptRecord canon rfc3339 relative project state record recorded
  return { state with recordCount := saturatingSucc state.recordCount }

def finish (state : ClaudeState) : Except FormatFailure ParseOutcome :=
  match state.sessionId with
  | none =>
    .ok (.identityPending ⟨state.title, state.createdAt, state.updatedAt, state.recordCount⟩)
  | some sessionId => do
    let createdAt ← okOr (.unsupported "Claude JSONL contains no current timestamp") state.createdAt
    let updatedAt ← okOr (.unsupported "Claude JSONL contains no current timestamp") state.updatedAt
    let cwd ← okOr (.projectMismatch "Claude JSONL contains no canonical project evidence")
      state.canonical
    return .metadata {
      sessionId
      title := state.title
      createdAt
      updatedAt
      chainUpdatedAt := updatedAt
      cwd
      chainTail := state.previousUuid
      recordCount := state.recordCount }

/-- The state a stored outcome stands for. -/
def resumed (expected : String) : ParseOutcome → Except FormatFailure ClaudeState
  | .metadata previous => do
    rejectIf (previous.sessionId ≠ expected) (.unsupported
      "Claude incremental state conflicts with the native session identifier")
    return {
      expectedId := expected
      sessionId := some previous.sessionId
      title := previous.title
      createdAt := some previous.createdAt
      updatedAt := some previous.updatedAt
      previousUuid := previous.chainTail
      canonical := some previous.cwd
      recordCount := previous.recordCount }
  | .identityPending previous => .ok {
      expectedId := expected
      sessionId := none
      title := previous.title
      createdAt := previous.createdAt
      updatedAt := previous.updatedAt
      previousUuid := none
      canonical := none
      recordCount := previous.recordCount }

def initial (expected : String) : ClaudeState :=
  ⟨expected, none, none, none, none, none, none, 0⟩

def parser : IncrementalParser Bytes ClaudeState ParseOutcome FormatFailure where
  start records := do
    let expected ← expectedId relative
    return (initial expected, records)
  resume outcome := some do
    let expected ← expectedId relative
    resumed expected outcome
  step := step canon rfc3339 decode relative project
  finish := finish

/-- `parse`; the source passes `previous` or `previous_pending`, never both. -/
def parse (cancelled : Nat → Bool) (previous : Option ParseOutcome) (records : List Bytes) :
    Except FormatFailure ParseOutcome :=
  (parser canon rfc3339 decode relative project).parse cancelled .cancelled previous records

end

/-! ## Cutting the file anywhere -/

variable {canon : Canonicalizer} {rfc3339 : Rfc3339} {decode : Bytes → Option ClaudeRecord}
  {relative : RelativePath} {project : ProjectIdentity}

/-- The states of the record loop. -/
structure Inv (canon : Canonicalizer) (relative : RelativePath) (project : ProjectIdentity)
    (state : ClaudeState) : Prop where
  expected : expectedId relative = .ok state.expectedId
  title_valid : ∀ title ∈ state.title, validMetadataTitle title = true
  times : state.createdAt.isSome = state.updatedAt.isSome
  ordered : ∀ created ∈ state.createdAt, ∀ updated ∈ state.updatedAt, created ≤ updated
  pending : state.sessionId = none → state.previousUuid = none ∧ state.canonical = none
  identified : ∀ id, state.sessionId = some id → id = state.expectedId ∧
    state.createdAt.isSome = true ∧ ∃ cwd, state.canonical = some cwd ∧
      Located canon project cwd

theorem widen_times {state : ClaudeState} (timestamp : SystemTime)
    (htimes : state.createdAt.isSome = state.updatedAt.isSome)
    (hordered : ∀ created ∈ state.createdAt, ∀ updated ∈ state.updatedAt, created ≤ updated) :
    ∃ created updated, (widen state timestamp).createdAt = some created ∧
      (widen state timestamp).updatedAt = some updated ∧ created ≤ updated := by
  refine ⟨_, _, rfl, rfl, ?_⟩
  cases hcreated : state.createdAt with
  | none =>
    rw [hcreated] at htimes
    rw [Option.isSome_eq_false_iff.mp htimes.symm |> Option.isNone_iff_eq_none.mp]
    exact le_refl _
  | some created =>
    rw [hcreated] at htimes
    obtain ⟨updated, hupdated⟩ := Option.isSome_iff_exists.mp htimes.symm
    rw [hupdated]
    calc min created timestamp ≤ created := min_le_left _ _
      _ ≤ updated := hordered created hcreated updated hupdated
      _ ≤ max updated timestamp := le_max_left _ _

theorem timedRecord_eq_ok {state next : ClaudeState} {record : ClaudeRecord} {missing : String}
    (h : timedRecord rfc3339 state record missing = .ok next) :
    ∃ timestamp, next = widen state timestamp := by
  obtain ⟨text, -, h⟩ := bind_eq_ok_iff.mp h
  obtain ⟨timestamp, -, h⟩ := bind_eq_ok_iff.mp h
  exact ⟨timestamp, (Except.ok.inj h).symm⟩

theorem markerRecord_eq_ok {state next : ClaudeState} {record : ClaudeRecord} {present : Bool}
    {missing : String} (h : markerRecord state record present missing = .ok next) :
    next = state := by
  obtain ⟨nativeId, -, h⟩ := bind_eq_ok_iff.mp h
  obtain ⟨-, -, h⟩ := bind_eq_ok_iff.mp h
  exact (Except.ok.inj h).symm

theorem valid_of_titleValue {value : Option JsonValue} {title : String}
    (h : title ∈ (value.bind JsonValue.asStr).bind normalizeMetadataTitle) :
    validMetadataTitle title = true := by
  obtain ⟨text, -, htitle⟩ := Option.bind_eq_some_iff.mp h
  exact valid_of_normalizeMetadataTitle htitle

/-- A record beside the transcript touches at most the times or the title. -/
theorem auxiliaryRecord_cases {state next : ClaudeState} {record : ClaudeRecord}
    (h : auxiliaryRecord rfc3339 state record = .ok next) :
    next = state ∨ (∃ timestamp, next = widen state timestamp) ∨
      ∃ title, next = { state with title := title } ∧
        ∀ value ∈ title, value ∈ state.title ∨ validMetadataTitle value = true := by
  unfold auxiliaryRecord at h
  split at h
  next =>
    obtain ⟨-, -, h⟩ := bind_eq_ok_iff.mp h
    obtain ⟨uuid, -, h⟩ := bind_eq_ok_iff.mp h
    obtain ⟨-, -, h⟩ := bind_eq_ok_iff.mp h
    exact Or.inr (Or.inl (timedRecord_eq_ok h))
  next =>
    obtain ⟨nativeId, -, h⟩ := bind_eq_ok_iff.mp h
    obtain ⟨leaf, -, h⟩ := bind_eq_ok_iff.mp h
    obtain ⟨-, -, h⟩ := bind_eq_ok_iff.mp h
    exact Or.inl (Except.ok.inj h).symm
  next => exact Or.inl (markerRecord_eq_ok h)
  next =>
    obtain ⟨nativeId, -, h⟩ := bind_eq_ok_iff.mp h
    refine Or.inr (Or.inr ⟨_, (Except.ok.inj h).symm, fun value hvalue => ?_⟩)
    rcases Option.or_eq_some_iff.mp hvalue with hold | ⟨-, hnew⟩
    · exact Or.inl hold
    · exact Or.inr (valid_of_titleValue hnew)
  next =>
    obtain ⟨same, -, h⟩ := bind_eq_ok_iff.mp h
    exact Or.inr (Or.inl (timedRecord_eq_ok h))
  next =>
    obtain ⟨nativeId, -, h⟩ := bind_eq_ok_iff.mp h
    refine Or.inr (Or.inr ⟨_, (Except.ok.inj h).symm, fun value hvalue => ?_⟩)
    rcases Option.or_eq_some_iff.mp hvalue with hnew | ⟨-, hold⟩
    · exact Or.inr (valid_of_titleValue hnew)
    · exact Or.inl hold
  next => exact Or.inl (markerRecord_eq_ok h)
  next => exact Or.inl (markerRecord_eq_ok h)
  next => exact Or.inl (markerRecord_eq_ok h)
  next =>
    obtain ⟨message, -, h⟩ := bind_eq_ok_iff.mp h
    obtain ⟨-, -, h⟩ := bind_eq_ok_iff.mp h
    obtain ⟨-, -, h⟩ := bind_eq_ok_iff.mp h
    exact Or.inl (Except.ok.inj h).symm
  next => exact Or.inl (Except.ok.inj h).symm

theorem Inv.widen {state : ClaudeState} (h : Inv canon relative project state)
    (timestamp : SystemTime) : Inv canon relative project (widen state timestamp) := by
  obtain ⟨created, updated, hcreated, hupdated, hle⟩ :=
    widen_times timestamp h.times h.ordered
  exact {
    expected := h.expected
    title_valid := h.title_valid
    times := by rw [hcreated, hupdated]; rfl
    ordered := by
      rw [hcreated, hupdated]
      rintro _ ⟨⟩ _ ⟨⟩
      exact hle
    pending := h.pending
    identified := fun id hid => by
      obtain ⟨hexpected, -, hcwd⟩ := h.identified id hid
      exact ⟨hexpected, by rw [hcreated]; rfl, hcwd⟩ }

theorem Inv.titled {state : ClaudeState} (h : Inv canon relative project state)
    {title : Option String}
    (htitle : ∀ value ∈ title, value ∈ state.title ∨ validMetadataTitle value = true) :
    Inv canon relative project { state with title := title } where
  expected := h.expected
  title_valid value hvalue := (htitle value hvalue).elim (h.title_valid value) id
  times := h.times
  ordered := h.ordered
  pending := h.pending
  identified := h.identified

theorem Inv.counted {state : ClaudeState} (h : Inv canon relative project state) (count : UInt64) :
    Inv canon relative project { state with recordCount := count } :=
  ⟨h.expected, h.title_valid, h.times, h.ordered, h.pending, h.identified⟩

theorem located_of_recordCwd {recorded : Option PathBuf} {cwd : PathBuf}
    (hrecorded : ∀ path ∈ recorded, Located canon project path)
    (h : recordCwd canon relative project recorded = .ok cwd) : Located canon project cwd := by
  unfold recordCwd at h
  split at h
  next path =>
    cases Except.ok.inj h
    exact hrecorded _ rfl
  next =>
    split at h
    next => exact located_of_root (okOr_eq_ok_iff.mp h)
    next => contradiction

theorem validateClaudeSession_eq_ok {record : ClaudeRecord} {expected nativeId : String}
    (h : validateClaudeSession record expected = .ok nativeId) : nativeId = expected := by
  simp only [validateClaudeSession, bind_eq_ok_iff, rejectIf_eq_ok_iff, pure_eq_ok,
    Except.ok.injEq] at h
  obtain ⟨id, -, -, -, -, hsame, rfl⟩ := h
  exact not_not.mp hsame

theorem Inv.identity {state next : ClaudeState} {record : ClaudeRecord}
    {recorded : Option PathBuf} (hrecorded : ∀ path ∈ recorded, Located canon project path)
    (hinv : Inv canon relative project state)
    (h : identityRecord canon rfc3339 relative project state record recorded = .ok next) :
    Inv canon relative project next := by
  simp only [identityRecord, bind_eq_ok_iff, pure_eq_ok, Except.ok.injEq] at h
  obtain ⟨-, -, nativeId, hsession, -, -, -, -, -, -, cwd, hcwd, uuid, -, -, -, -, -, -, -,
    timestamp, -, rfl⟩ := h
  have hwide := hinv.widen timestamp
  obtain ⟨created, updated, hcreated, hupdated, -⟩ :=
    widen_times timestamp hinv.times hinv.ordered
  refine ⟨hwide.expected, hwide.title_valid, hwide.times, hwide.ordered, by simp, ?_⟩
  intro id hid
  cases Option.some.inj hid
  refine ⟨validateClaudeSession_eq_ok hsession, by rw [hcreated]; rfl, _, rfl, ?_⟩
  cases hcanonical : state.canonical with
  | none => exact located_of_recordCwd hrecorded hcwd
  | some first =>
    cases hid : state.sessionId with
    | none =>
      rw [(hinv.pending hid).2] at hcanonical
      contradiction
    | some id =>
      obtain ⟨-, -, known, hknown, hgood⟩ := hinv.identified id hid
      rw [hcanonical] at hknown
      cases Option.some.inj hknown
      exact hgood

theorem Inv.step {state next : ClaudeState} {bytes : Bytes}
    (hinv : Inv canon relative project state)
    (h : step canon rfc3339 decode relative project state bytes = .ok next) :
    Inv canon relative project next ∧ next.recordCount ≠ 0 := by
  obtain ⟨record, -, h⟩ := bind_eq_ok_iff.mp h
  obtain ⟨-, -, h⟩ := bind_eq_ok_iff.mp h
  obtain ⟨recorded, hrecorded, h⟩ := bind_eq_ok_iff.mp h
  obtain ⟨middle, hmiddle, h⟩ := bind_eq_ok_iff.mp h
  cases Except.ok.inj h
  have hmiddleInv : Inv canon relative project middle := by
    unfold transcriptRecord at hmiddle
    split at hmiddle
    next =>
      refine hinv.identity (fun path hpath => ?_) hmiddle
      cases hcwd : record.cwd with
      | none =>
        rw [hcwd, onSome_none] at hrecorded
        cases Except.ok.inj hrecorded
        contradiction
      | some cwd =>
        rw [hcwd] at hrecorded
        obtain ⟨canonical, hcanonical, rfl⟩ := onSome_some_eq_ok_iff.mp hrecorded
        cases Option.some.inj hpath
        exact located_of_canonicalCwd hcanonical
    next =>
      rcases auxiliaryRecord_cases hmiddle with rfl | ⟨timestamp, rfl⟩ | ⟨title, rfl, htitle⟩
      · exact hinv
      · exact hinv.widen timestamp
      · exact hinv.titled htitle
  exact ⟨hmiddleInv.counted _, saturatingSucc_ne_zero _⟩

/-- Stopping and going on loses nothing. -/
theorem Inv.finish_resumed {state : ClaudeState} (hinv : Inv canon relative project state) :
    ∃ outcome, finish state = .ok outcome ∧ resumed state.expectedId outcome = .ok state := by
  cases hid : state.sessionId with
  | none =>
    obtain ⟨hprevious, hcanonical⟩ := hinv.pending hid
    refine ⟨_, by simp only [finish, hid]; rfl, ?_⟩
    cases state
    simp_all [resumed]
  | some id =>
    obtain ⟨rfl, hcreated, cwd, hcwd, -⟩ := hinv.identified id hid
    obtain ⟨created, hcreated⟩ := Option.isSome_iff_exists.mp hcreated
    obtain ⟨updated, hupdated⟩ := Option.isSome_iff_exists.mp
      (hinv.times.symm.trans (Option.isSome_iff_exists.mpr ⟨created, hcreated⟩))
    refine ⟨_, by simp only [finish, hid, hcreated, hupdated, hcwd, okOr, ok_bind]; rfl, ?_⟩
    cases state
    simp_all [resumed]
    rfl

theorem Inv.restore {state : ClaudeState} {outcome : ParseOutcome}
    (hinv : Inv canon relative project state) (hcount : state.recordCount ≠ 0)
    (h : finish state = .ok outcome) : outcome.restore canon project = some outcome := by
  apply ParseOutcome.restore_of_storable
  unfold finish at h
  split at h
  next =>
    cases Except.ok.inj h
    exact ⟨hinv.title_valid, hinv.times, hinv.ordered, hcount⟩
  next id hid =>
    obtain ⟨created, -, h⟩ := bind_eq_ok_iff.mp h
    obtain ⟨updated, -, h⟩ := bind_eq_ok_iff.mp h
    obtain ⟨cwd, hcwd, h⟩ := bind_eq_ok_iff.mp h
    cases Except.ok.inj h
    obtain ⟨-, -, known, hknown, hgood⟩ := hinv.identified id hid
    rw [okOr_eq_ok_iff.mp hcwd] at hknown
    cases Option.some.inj hknown
    exact ⟨hinv.title_valid, hgood⟩

/-- The transcript parser does not depend on where the file is cut. -/
theorem lawful :
    (parser canon rfc3339 decode relative project).Lawful (ParseOutcome.restore canon project)
      (Inv canon relative project) (fun state => state.recordCount ≠ 0) (fun _ => True) where
  start_append first rest _ := by
    simp only [parser, bind_assoc]
    rfl
  start_inv records state unread h := by
    obtain ⟨expected, hexpected, h⟩ := bind_eq_ok_iff.mp h
    cases Except.ok.inj h
    exact ⟨hexpected, by simp [initial], rfl, by simp [initial], fun _ => ⟨rfl, rfl⟩,
      by simp [initial]⟩
  start_fed records state hrecords h := by
    obtain ⟨expected, -, h⟩ := bind_eq_ok_iff.mp h
    cases Except.ok.inj h
    contradiction
  step_inv state record next hinv h := hinv.step h
  finish_resume state hinv := by
    obtain ⟨outcome, hfinish, hresumed⟩ := hinv.finish_resumed
    refine ⟨outcome, hfinish, ?_⟩
    simp only [parser, hinv.expected, ok_bind, hresumed]
  finish_restore state outcome hinv hcount h := hinv.restore hcount h

end HerdrContext.KnownStores.ClaudeCode
