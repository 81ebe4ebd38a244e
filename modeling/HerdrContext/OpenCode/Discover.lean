import HerdrContext.Sources
import HerdrContext.Library.Wire
import Std.Data.ExtTreeMap

/-! The OpenCode source: one page of the sessions in a SQLite database, compared
by their fingerprints with the state of the page before. -/
namespace HerdrContext.OpenCode

open Library

def toolId : String := "opencode"

theorem normal_toolId : normalizeNonempty toolId = some toolId := by decide

def databaseName : String := "opencode.db"
def verifiedVersion : String := "1.18.18"
def watermarkVersion : UInt8 := 1
def maxRows : Nat := 4096
def maxWatermarkBytes : Nat := 512 * 1024
def maxIdBytes : Nat := 128
def maxTitleBytes : Nat := 256
def maxVersionBytes : Nat := 32

/-! ## Sessions -/

def isAsciiAlphanumeric (c : Char) : Bool :=
  c.isDigit || ('a' ≤ c && c ≤ 'z') || ('A' ≤ c && c ≤ 'Z')

def validSessionId (id : String) : Bool :=
  strLen id = 30 && "ses_".toList.isPrefixOf id.toList &&
    (id.toList.drop 4).all isAsciiAlphanumeric

def timestampFromMillis (value : Int64) : Except String SystemTime :=
  if value.toInt < 0 then .error "OpenCode timestamp is negative"
  else okOr "OpenCode timestamp is outside the supported range"
    (SystemTime.ofNanos? (value.toInt * 1000000))

def toLeBytes (value : Int64) : Bytes :=
  (List.range 8).map fun i => (value.toUInt64 >>> (8 * i).toUInt64).toUInt8

def utf8 (text : String) : Bytes := text.toUTF8.data.toList

def sessionFingerprint (id title version : String) (createdMs updatedMs : Int64)
    (archivedMs : Option Int64) (worktreeMatch directoryMatch : Bool) : String :=
  let texts := [id, title, version].foldl (fun hash text => fnv1a [0] (fnv1a (utf8 text) hash)) fnvOffset
  let created := fnv1a (toLeBytes createdMs) texts
  let updated := fnv1a (toLeBytes updatedMs) created
  let archived := fnv1a (toLeBytes (archivedMs.getD (-1))) updated
  String.ofList (hex16 (fnv1a [worktreeMatch.toUInt8, directoryMatch.toUInt8] archived))

/-- The texts of a row, cut behind their bounds, with their lengths. -/
structure SessionTexts where
  id : String
  idChars : Int64
  title : String
  titleChars : Int64
  version : String
  versionChars : Int64

/-- The columns behind the texts. -/
structure SessionEvidence where
  createdMs : Int64
  updatedMs : Int64
  archivedMs : Option Int64
  worktreeMatch : Bool
  directoryMatch : Bool

/-- A row of the metadata query. Its columns are read in two steps, and each step may fail. -/
structure SessionRow where
  texts : Except SourceError SessionTexts
  evidence : Except SourceError SessionEvidence

structure ValidatedSession where
  id : String
  title : String
  version : String
  createdAt : SystemTime
  updatedAt : SystemTime
  archivedAt : Option SystemTime
  canonicalRoot : PathBuf
  worktreeMatch : Bool
  directoryMatch : Bool
  fingerprint : String
  deriving DecidableEq

/-- A length is positive and within its bound, as SQLite counts and in bytes. -/
def lengthHolds (chars : Int64) (text : String) (bound : Nat) : Bool :=
  0 < chars.toInt && chars.toInt.toNat ≤ bound && strLen text ≤ bound

def ValidatedSession.new (texts : SessionTexts) (evidence : SessionEvidence) (canonicalRoot : PathBuf) :
    Except String ValidatedSession := do
  rejectIf (¬ lengthHolds texts.idChars texts.id maxIdBytes ∨ ¬ validSessionId texts.id)
    "OpenCode session identifier is outside the fixture-backed bound"
  rejectIf (¬ lengthHolds texts.titleChars texts.title maxTitleBytes ∨ texts.title = "")
    "OpenCode session title is outside the metadata bound"
  rejectIf (¬ lengthHolds texts.versionChars texts.version maxVersionBytes ∨ texts.version = "")
    "OpenCode session version is outside the metadata bound"
  rejectIf (¬ evidence.worktreeMatch ∧ ¬ evidence.directoryMatch)
    "OpenCode session lacks canonical project evidence"
  let createdAt ← timestampFromMillis evidence.createdMs
  let updatedAt ← timestampFromMillis evidence.updatedMs
  let archivedAt ← onSome timestampFromMillis evidence.archivedMs
  rejectIf (updatedAt < createdAt) "OpenCode session timestamps are inconsistent"
  return {
    id := texts.id
    title := texts.title
    version := texts.version
    createdAt, updatedAt, archivedAt, canonicalRoot
    worktreeMatch := evidence.worktreeMatch
    directoryMatch := evidence.directoryMatch
    fingerprint := sessionFingerprint texts.id texts.title texts.version evidence.createdMs
      evidence.updatedMs evidence.archivedMs evidence.worktreeMatch evidence.directoryMatch }

/-! ## The watermark -/

structure FileMark where
  len : UInt64
  modifiedSecs : UInt64
  modifiedNanos : UInt32
  modifiedBeforeEpoch : Bool
  device : UInt64
  inode : UInt64
  deriving DecidableEq

def FileMark.identity (mark : FileMark) : UInt64 × UInt64 := (mark.device, mark.inode)

structure DatabaseState where
  main : FileMark
  wal : Option FileMark
  deriving DecidableEq

/-- `BTreeMap<String, String>`, from session ids to fingerprints. -/
abbrev Sessions := Std.ExtTreeMap String String compare

structure Watermark where
  version : UInt8
  database : Option DatabaseState
  pending : Bool
  sessions : Sessions

def Watermark.default : Watermark := ⟨watermarkVersion, none, false, ∅⟩

def fileMark : Wire FileMark :=
  Wire.embed
    (fun mark => (mark.len, mark.modifiedSecs, mark.modifiedNanos, mark.modifiedBeforeEpoch,
      mark.device, mark.inode))
    (fun (len, modifiedSecs, modifiedNanos, modifiedBeforeEpoch, device, inode) =>
      some { len, modifiedSecs, modifiedNanos, modifiedBeforeEpoch, device, inode })
    (fun _ => rfl)
    (Wire.record "len" (Wire.next "modified_secs" Wire.uint64 (Wire.next "modified_nanos" Wire.uint64
      (Wire.next "modified_before_epoch" Wire.uint32 (Wire.next "device" Wire.bool
        (Wire.next "inode" Wire.uint64 Wire.uint64))))))

theorem fileMark_avoids_null : fileMark.AvoidsFirst 'n' :=
  Wire.embed_avoidsFirst (Wire.record_avoidsFirst (by decide))

def databaseState : Wire DatabaseState :=
  Wire.embed (fun state => (state.main, state.wal)) (fun (main, wal) => some { main, wal })
    (fun _ => rfl)
    (Wire.record "main" (Wire.next "wal" fileMark (Wire.nullable fileMark fileMark_avoids_null)))

theorem databaseState_avoids_null : databaseState.AvoidsFirst 'n' :=
  Wire.embed_avoidsFirst (Wire.record_avoidsFirst (by decide))

theorem ofList_toList (sessions : Sessions) :
    Std.ExtTreeMap.ofList sessions.toList compare = sessions := by
  apply Std.ExtTreeMap.ext_getElem?
  intro id
  cases hget : sessions[id]? with
  | some fingerprint =>
    exact Std.ExtTreeMap.getElem?_ofList_of_mem Std.ReflCmp.compare_self
      Std.ExtTreeMap.distinct_keys_toList
      (Std.ExtTreeMap.mem_toList_iff_getElem?_eq_some.mpr hget)
  | none =>
    apply Std.ExtTreeMap.getElem?_ofList_of_contains_eq_false
    rw [Std.ExtTreeMap.map_fst_toList_eq_keys]
    rw [List.contains_eq_mem, decide_eq_false_iff_not, Std.ExtTreeMap.mem_keys,
      Std.ExtTreeMap.mem_iff_isSome_getElem?, hget]
    exact Bool.false_ne_true

def sessionsText : Wire Sessions :=
  Wire.embed Std.ExtTreeMap.toList (fun entries => some (Std.ExtTreeMap.ofList entries compare))
    (fun sessions => congrArg some (ofList_toList sessions)) (Wire.object Wire.text)

def watermarkText : Wire Watermark :=
  Wire.embed
    (fun watermark => (watermark.version, watermark.database, watermark.pending, watermark.sessions))
    (fun (version, database, pending, sessions) => some { version, database, pending, sessions })
    (fun _ => rfl)
    (Wire.record "version" (Wire.next "database" Wire.uint8
      (Wire.next "pending" (Wire.nullable databaseState databaseState_avoids_null)
        (Wire.next "sessions" Wire.bool sessionsText))))

/-- `serde_json::to_string`, and `from_str` on the texts it writes. -/
def watermarkCodec : Codec Watermark String := Wire.codec watermarkText

/-! ## What one page is shown -/

structure OsError where
  kind : IoErrorKind
  rawOsError : Option Int

def eloop : Int := 40
def enxio : Int := 6

structure FileMetadata where
  len : UInt64
  modified : Except OsError SystemTime
  device : UInt64
  inode : UInt64

/-- The database and its sidecars in the opened directory, with the first bytes of the
database. -/
structure DatabaseFiles where
  main : Except OsError (Bytes × FileMetadata)
  wal : Except OsError FileMetadata
  shm : Except OsError FileMetadata

structure CapturedDatabase where
  mainLen : UInt64
  mainModified : SystemTime
  state : DatabaseState
  deriving DecidableEq

/-- The answers of the file system and of SQLite during one page, with the loads
of the cancellation flag. -/
structure DatabaseView where
  directory : Except OsError Bool
  database : Except OsError Unit
  root : Except OsError Unit
  files : DatabaseFiles
  cancelledOpening : Bool
  /-- Opening the connection and confining it. -/
  connect : Except SourceError Unit
  beginRead : Except SourceError Unit
  schemaValid : Bool
  cancelledQuery : Bool
  query : Except SourceError (List (Except SourceError SessionRow))
  canonicalRoot : Option PathBuf
  cancelledRow : Nat → Bool
  commitRead : Except SourceError Unit
  filesAfter : DatabaseFiles

structure OpenCodeSource where
  id : SourceId
  project : ProjectIdentity
  databasePath : PathBuf

/-- The metadata of the sessions last seen, by id; `HashMap`. -/
abbrev Snapshots := Std.ExtTreeMap String ValidatedSession compare

namespace OpenCodeSource

variable (source : OpenCodeSource)

def error (kind : SourceErrorKind) (message : String) : SourceError :=
  (SourceError.new source.id kind message).withPath source.databasePath

def ioError (message : String) (error : OsError) : SourceError :=
  let kind : SourceErrorKind :=
    if error.kind = .permissionDenied ∨ error.rawOsError = some eloop then .permissionDenied
    else if error.kind = .invalidInput ∨ error.rawOsError = some enxio then .invalidData
    else .io
  source.error kind message

def unsupportedSchema : SourceError :=
  source.error .unsupportedFormat
    ("unsupported OpenCode database generation; expected fixture-backed OpenCode " ++
      verifiedVersion ++ " schema")

def cancelled : SourceError := source.error .io "OpenCode discovery was cancelled"

/-! ## Capturing the files -/

def fileMarkOf (metadata : FileMetadata) : Except OsError FileMark := do
  let modified ← metadata.modified
  let parts := modified.parts
  return ⟨metadata.len, parts.2.1, parts.2.2, !parts.1, metadata.device, metadata.inode⟩

def captureSidecar (file : Except OsError FileMetadata) : Except SourceError (Option FileMark) :=
  match file with
  | .ok metadata => do
    let mark ← mapError (source.ioError "OpenCode sidecar metadata is unavailable")
      (fileMarkOf metadata)
    return some mark
  | .error error =>
    if error.kind = .notFound then .ok none
    else .error (source.ioError "OpenCode sidecar is not a confined regular file" error)

def captureDatabase (files : DatabaseFiles) : Except SourceError CapturedDatabase := do
  let (header, metadata) ←
    mapError (source.ioError "OpenCode database is not a confined regular file") files.main
  rejectIf (header.length < 20)
    (source.error .malformedData "OpenCode database header is truncated")
  rejectIf (header.take 16 ≠ utf8 "SQLite format 3\x00")
    (source.error .malformedData "OpenCode database header is malformed")
  rejectIf (header[18]? ≠ some 2 ∨ header[19]? ≠ some 2) source.unsupportedSchema
  let main ← mapError (source.ioError "OpenCode database metadata is unavailable")
    (fileMarkOf metadata)
  let wal ← source.captureSidecar files.wal
  let shm ← source.captureSidecar files.shm
  rejectIf (wal.isSome ∧ shm.isNone)
    (source.error .io "OpenCode WAL exists without its shared-memory index")
  let mainModified ← mapError
    (source.ioError "OpenCode database modification time is unavailable") metadata.modified
  return ⟨metadata.len, mainModified, ⟨main, wal⟩⟩

/-! ## Reading the sessions -/

def readSession (canonicalRoot : PathBuf) (row : SessionRow) :
    Except SourceError ValidatedSession := do
  let texts ← row.texts
  rejectIf (texts.version ≠ verifiedVersion) source.unsupportedSchema
  let evidence ← row.evidence
  mapError (source.error .invalidData) (ValidatedSession.new texts evidence canonicalRoot)

def readSessions (cancelledRow : Nat → Bool) (canonicalRoot : PathBuf) :
    (read : Nat) → List (Except SourceError SessionRow) → Except SourceError (List ValidatedSession)
  | _, [] => .ok []
  | read, row :: rest => do
    let row ← row
    rejectIf (maxRows ≤ read)
      (source.error .invalidData "OpenCode project session count exceeds the row limit")
    rejectIf (cancelledRow read) source.cancelled
    let session ← source.readSession canonicalRoot row
    let sessions ← readSessions cancelledRow canonicalRoot (read + 1) rest
    return session :: sessions

def querySessions (view : DatabaseView) : Except SourceError (List ValidatedSession) := do
  rejectIf (¬ view.schemaValid) source.unsupportedSchema
  rejectIf view.cancelledQuery source.cancelled
  rejectIf (toStr source.project.root.bytes).isNone (source.error .invalidData
    "canonical project path cannot be represented in the OpenCode text schema")
  let rows ← view.query
  let canonicalRoot ← okOr
    (source.error .invalidData "canonical project evidence is unavailable") view.canonicalRoot
  source.readSessions view.cancelledRow canonicalRoot 0 rows

/-! ## Tokens -/

def encodeWatermark (watermark : Watermark) : Except SourceError SourceWatermark := do
  let token ← okOr (source.error .invalidData "OpenCode watermark cannot be encoded")
    (watermarkCodec.encode watermark)
  rejectIf (maxWatermarkBytes < strLen token)
    (source.error .invalidData "OpenCode watermark exceeds the byte limit")
  SourceWatermark.new source.id token

def decodeWatermark (after : Option SourceWatermark) : Except SourceError Watermark :=
  match after with
  | none => .ok Watermark.default
  | some after => do
    rejectIf (maxWatermarkBytes < strLen after.token)
      (source.error .invalidData "OpenCode watermark exceeds the byte limit")
    let watermark ← okOr (source.error .invalidData "OpenCode watermark is malformed")
      (watermarkCodec.decode after.token)
    rejectIf (watermark.version ≠ watermarkVersion ∨ maxRows < watermark.sessions.size)
      (source.error .invalidData "OpenCode watermark is incompatible")
    return watermark

/-! ## Comparing with the page before -/

/-- What a page has collected so far. -/
structure Collected where
  next : Sessions
  candidates : List ConversationCandidate
  removals : List ConversationRemoval
  hasMore : Bool
  snapshots : Snapshots

namespace Collected

def told (collected : Collected) : Nat := collected.candidates.length + collected.removals.length

/-- A session is recorded as it is. -/
def record (collected : Collected) (session : ValidatedSession) : Collected :=
  { collected with
    next := collected.next.insert session.id session.fingerprint
    snapshots := collected.snapshots.insert session.id session }

/-- A session waits for a later page, recorded as it was. -/
def postpone (collected : Collected) (id : String) (fingerprint : Option String) : Collected :=
  { collected with
    hasMore := true
    next := fingerprint.elim collected.next (collected.next.insert id) }

end Collected

def candidateOf (captured : CapturedDatabase) (session : ValidatedSession) :
    Except SourceError ConversationCandidate :=
  ConversationCandidate.new source.id source.project session.id (some source.databasePath)
    (some captured.mainLen) (some captured.mainModified) (some session.fingerprint)

def removalOf (id : String) : Except SourceError ConversationRemoval :=
  match SessionReference.new toolId id with
  | .ok reference => .ok ⟨source.id, reference⟩
  | .error _ => .error (source.error .invalidData
      "OpenCode watermark contains an invalid session identifier")

/-- The loop over the sessions. The snapshots stay changed where it fails. -/
def collectSessions (captured : CapturedDatabase) (previous : Sessions) (limit : Nat) :
    List ValidatedSession → Collected → Snapshots × Except SourceError Collected
  | [], collected => (collected.snapshots, .ok collected)
  | session :: rest, collected =>
    if previous[session.id]? = some session.fingerprint then
      collectSessions captured previous limit rest (collected.record session)
    else if limit ≤ collected.told then
      collectSessions captured previous limit rest
        (collected.postpone session.id previous[session.id]?)
    else
      match source.candidateOf captured session with
      | .error error => (collected.snapshots, .error error)
      | .ok candidate =>
        collectSessions captured previous limit rest
          { collected.record session with candidates := collected.candidates ++ [candidate] }

/-- The loop over the recorded sessions that are gone. -/
def collectRemovals (previous : Sessions) (limit : Nat) (current : List String) :
    List String → Collected → Snapshots × Except SourceError Collected
  | [], collected => (collected.snapshots, .ok collected)
  | id :: rest, collected =>
    if id ∈ current then collectRemovals previous limit current rest collected
    else if limit ≤ collected.told then
      collectRemovals previous limit current rest (collected.postpone id previous[id]?)
    else
      match source.removalOf id with
      | .error error => (collected.snapshots, .error error)
      | .ok removal =>
        collectRemovals previous limit current rest
          { collected with removals := collected.removals ++ [removal] }

/-- A session that is no longer there loses its snapshot. -/
def retain (current : List String) (snapshots : Snapshots) : Snapshots :=
  snapshots.filter fun id _ => decide (id ∈ current)

def collect (captured : CapturedDatabase) (previous : Sessions) (limit : Nat)
    (sessions : List ValidatedSession) (snapshots : Snapshots) :
    Snapshots × Except SourceError Collected :=
  let current := sessions.map ValidatedSession.id
  match source.collectSessions captured previous limit sessions
      ⟨∅, [], [], false, retain current snapshots⟩ with
  | (snapshots, .error error) => (snapshots, .error error)
  | (_, .ok collected) => source.collectRemovals previous limit current previous.keys collected

/-! ## One page -/

def probe (view : DatabaseView) : Except SourceError StorageProbe :=
  match view.directory with
  | .ok false => .ok (.unavailable "OpenCode data directory is absent")
  | .ok true =>
    match view.database with
    | .ok _ => .ok .available
    | .error error =>
      if error.kind = .notFound then .ok (.unavailable "OpenCode database is absent")
      else .error (source.ioError "OpenCode database is not a confined regular file" error)
  | .error error => .error (source.ioError "OpenCode data directory is unavailable" error)

def openSnapshot (view : DatabaseView) : Except SourceError CapturedDatabase := do
  mapError (source.ioError "OpenCode data directory cannot be confined") view.root
  let captured ← source.captureDatabase view.files
  rejectIf view.cancelledOpening source.cancelled
  view.connect
  return captured

/-- The database was read, or nothing in it has changed. -/
inductive Looked where
  | unchanged (next : SourceWatermark)
  | read (previous : Watermark) (captured : CapturedDatabase) (sessions : List ValidatedSession)

def isOther (previous : Option DatabaseState) (state : DatabaseState) : Bool :=
  previous.any fun database => database.main.identity ≠ state.main.identity

/-- A page up to the comparison. -/
def look (view : DatabaseView) (project : ProjectIdentity) (after : Option SourceWatermark) :
    Except SourceError Looked := do
  rejectIf (project ≠ source.project)
    (source.error .projectMismatch "OpenCode source belongs to another project")
  let previous ← source.decodeWatermark after
  match ← source.probe view with
  | .unavailable _ =>
    let next ← after.elim (source.encodeWatermark Watermark.default) .ok
    return .unchanged next
  | .available =>
    let captured ← source.openSnapshot view
    rejectIf (isOther previous.database captured.state)
      (source.error .io "OpenCode database was replaced since the previous snapshot")
    if ¬ previous.pending ∧ previous.database = some captured.state then
      let next ← source.encodeWatermark previous
      return .unchanged next
    else
      view.beginRead
      let sessions ← source.querySessions view
      view.commitRead
      let afterCapture ← source.captureDatabase view.filesAfter
      rejectIf (captured.state.main.identity ≠ afterCapture.state.main.identity)
        (source.error .io "OpenCode database was replaced during discovery")
      return .read previous captured sessions

def batchOf (project : ProjectIdentity) (captured : CapturedDatabase) (collected : Collected) :
    Except SourceError DiscoveryBatch := do
  let next ← source.encodeWatermark
    ⟨watermarkVersion, some captured.state, collected.hasMore, collected.next⟩
  DiscoveryBatch.new source.id project collected.candidates (some next) collected.removals
    collected.hasMore []

/-- `discover_raw_cancellable`, with the snapshots it leaves. -/
def discoverRaw (view : DatabaseView) (snapshots : Snapshots) (project : ProjectIdentity)
    (after : Option SourceWatermark) (limit : DiscoveryLimit) :
    Snapshots × Except SourceError DiscoveryBatch :=
  match source.look view project after with
  | .error error => (snapshots, .error error)
  | .ok (.unchanged next) =>
    (snapshots, DiscoveryBatch.new source.id project [] (some next) [] false [])
  | .ok (.read previous captured sessions) =>
    match source.collect captured previous.sessions limit.val sessions snapshots with
    | (snapshots, .error error) => (snapshots, .error error)
    | (snapshots, .ok collected) => (snapshots, source.batchOf project captured collected)

/-! ## Candidates -/

def validateCandidate (snapshots : Snapshots) (candidate : ConversationCandidate) :
    Except SourceError ValidatedSession := do
  rejectIf (candidate.sourcePath ≠ some source.databasePath) (source.error .sourceMismatch
    "OpenCode candidate path does not match the configured database")
  okOr (source.error .invalidData
      "OpenCode candidate has no matching validated metadata snapshot")
    (snapshots[candidate.sourceReference]?.filter fun snapshot =>
      candidate.fingerprint = some snapshot.fingerprint)

def metadataBytes (metadata : ValidatedSession) : Nat :=
  strLen metadata.id + strLen metadata.title + strLen metadata.version + strLen toolId * 3 +
    metadata.canonicalRoot.bytes.length + source.databasePath.bytes.length

def conversationOf (candidate : ConversationCandidate) (metadata : ValidatedSession) :
    Except SourceError Conversation := do
  let tool ← mapError (fun _ => source.error .invalidData "static tool ID is valid")
    (ToolIdentity.new toolId)
  let session ← mapError
    (fun _ => source.error .invalidData "OpenCode session reference is invalid")
    (SessionReference.new toolId metadata.id)
  let resume ← mapError
    (fun _ => source.error .invalidData "OpenCode resume reference is invalid")
    (ResumeReference.new metadata.id)
  mapError (fun _ => source.error .invalidData "OpenCode conversation metadata is invalid")
    (Conversation.new tool session candidate.projectIdentity (some metadata.title)
      (some metadata.createdAt) metadata.archivedAt metadata.updatedAt
      (if metadata.archivedAt.isSome then .archived else .live)
      [⟨source.id, .externalLocal, some source.databasePath⟩] (.supported resume))

def extractMetadataRaw (snapshots : Snapshots) (candidate : ConversationCandidate)
    (budget : MetadataBudget) : Except SourceError Conversation := do
  let metadata ← source.validateCandidate snapshots candidate
  rejectIf (budget.val < source.metadataBytes metadata)
    (source.error .invalidData "OpenCode metadata exceeds the extraction budget")
  source.conversationOf candidate metadata

def evidenceDetail (metadata : ValidatedSession) : String :=
  if metadata.worktreeMatch && metadata.directoryMatch then
    "OpenCode project.worktree and project_directory both equal the canonical project root"
  else if metadata.worktreeMatch then
    "OpenCode project.worktree equals the canonical project root"
  else "OpenCode project_directory equals the canonical project root"

def projectEvidenceRaw (snapshots : Snapshots) (candidate : ConversationCandidate) :
    Except SourceError (List ProjectAssociationEvidence) := do
  let metadata ← source.validateCandidate snapshots candidate
  return [
    ⟨.canonicalWorkingDirectory, metadata.canonicalRoot,
      some "OpenCode session.directory equals the canonical project root"⟩,
    ⟨.canonicalWorkspaceRoot, metadata.canonicalRoot, some (evidenceDetail metadata)⟩]

/-- The source as the registry sees it during one page. -/
def conversationSource (view : DatabaseView) (snapshots : Snapshots) : ConversationSource where
  sourceId := source.id
  probe := source.probe view
  discoverRaw project after limit := do
    let page := source.discoverRaw view snapshots project after limit
    let batch ← page.2
    return {
      batch
      extractMetadataRaw := source.extractMetadataRaw page.1
      projectEvidenceRaw := fun candidate _ => source.projectEvidenceRaw page.1 candidate }

end OpenCodeSource

end HerdrContext.OpenCode
