import HerdrContext.KnownStores.Watermark

/-! Scanning one session file: read on from the stored offset, up to the byte
budget, and fold the complete records into the entry of the file. -/
namespace HerdrContext.KnownStores

open Library

def maxFileBytes : Nat := 512 * 1024
def prefixGuardBytes : Nat := 4 * 1024

/-- The loads of the cancellation flag during one scan. -/
structure ScanCancellation where
  beforeRead : Bool
  afterRead : Bool
  record : Nat → Bool

structure ScannedFile where
  metadata : Option ParsedMetadata
  state : FileState
  watermark : WatermarkEntry

/-- Where a scan goes on, and with what. -/
structure ResumePoint where
  offset : UInt64
  contentHash : UInt64
  outcome : ParseOutcome
  prefixHash : Option UInt64

/-- The bytes one scan has read. -/
structure Snapshot where
  before : FileState
  resume : Option ResumePoint
  bytes : Bytes

namespace Snapshot

variable (snapshot : Snapshot)

def start : Nat := snapshot.resume.elim 0 fun resume => resume.offset.toNat

def remaining : Nat := snapshot.before.len.toNat - snapshot.start

/-- Bytes up to and including the last newline. -/
def safeLen : Nat :=
  snapshot.bytes.length - (snapshot.bytes.reverse.takeWhile (· ≠ newline)).length

def previousMetadata : Option ParsedMetadata :=
  snapshot.resume.bind fun resume => resume.outcome.identified

/-- No record ends within the budget, though more of the file is there. -/
def parked : Bool :=
  snapshot.safeLen = 0 && snapshot.previousMetadata.isSome &&
    snapshot.bytes.length < snapshot.remaining

def complete : Bool :=
  snapshot.before.len.toNat ≤ snapshot.start + snapshot.bytes.length || snapshot.parked

def startHash : UInt64 := snapshot.resume.elim fnvOffset (·.contentHash)

def contentHash : UInt64 :=
  if snapshot.safeLen = 0 then snapshot.startHash
  else fnv1a (snapshot.bytes.take snapshot.safeLen) snapshot.startHash

def prefixHash : Option UInt64 :=
  (snapshot.resume.bind (·.prefixHash)).or
    (if min snapshot.safeLen prefixGuardBytes = 0 then none
     else some (fnv1a (snapshot.bytes.take (min snapshot.safeLen prefixGuardBytes)) fnvOffset))

end Snapshot

/-! ## Fingerprints -/

/-- `to_le_bytes`. -/
def leBytes : Nat → Nat → Bytes
  | 0, _ => []
  | width + 1, value => UInt8.ofNat (value % 256) :: leBytes width (value / 256)

def hashSystemTime (value : SystemTime) (seed : UInt64) : UInt64 :=
  let parts := value.parts
  let hash := fnv1a [if parts.1 then 43 else 45] seed
  let hash := fnv1a (leBytes 8 parts.2.1.toNat) hash
  fnv1a (leBytes 4 parts.2.2.toNat) hash

def strBytes (text : String) : Bytes := text.toUTF8.data.toList

def metadataHash (metadata : ParsedMetadata) (seed : UInt64) : UInt64 :=
  let hash := fnv1a (strBytes metadata.sessionId) seed
  let hash := fnv1a [if metadata.title.isSome then 1 else 0] hash
  let hash := metadata.title.elim hash fun title => fnv1a (strBytes title) hash
  let hash := hashSystemTime metadata.createdAt hash
  let hash := hashSystemTime metadata.updatedAt hash
  hashSystemTime metadata.chainUpdatedAt hash

def snapshotFingerprint (state : FileState) (contentHash : UInt64) (metadata : ParsedMetadata) :
    String :=
  String.ofList (state.fingerprint.toList ++ ':' :: hex16 contentHash ++ ':' ::
    hex16 (metadataHash metadata fnvOffset) ++ hex16 (metadataHash metadata secondSeed))

/-! ## The scan -/

namespace KnownJsonlSource

variable (source : KnownJsonlSource)

def error (kind : SourceErrorKind) (message : String) (relative : RelativePath) : SourceError :=
  (SourceError.new source.id kind message).withPath (source.root.join relative)

@[simp] theorem error_sourceId (kind : SourceErrorKind) (message : String)
    (relative : RelativePath) : (source.error kind message relative).sourceId = source.id := rfl

@[simp] theorem error_kind (kind : SourceErrorKind) (message : String)
    (relative : RelativePath) : (source.error kind message relative).kind = kind := rfl

@[simp] theorem error_message (kind : SourceErrorKind) (message : String)
    (relative : RelativePath) : (source.error kind message relative).message = message := rfl

def ioError (message : String) (relative : RelativePath) (error : IoErrorKind) : SourceError :=
  storeIoError source.id (source.root.join relative) message error

variable (canon : Canonicalizer)

/-- What an entry knows of its session, if its parts agree. -/
def storedOutcome (entry : WatermarkEntry) : Option ParseOutcome :=
  let summary := entry.summary.bind (·.toParsed canon source.project)
  let pending := entry.pending.bind (·.toPending)
  match entry.sessionId, summary, pending with
  | some sessionId, some summary, none =>
    if sessionId = summary.sessionId then some (.metadata summary) else none
  | none, none, some pending => some (.identityPending pending)
  | _, _, _ => none

def readPrefixHash (file : OpenFile) (safeOffset : UInt64) : Option UInt64 :=
  (file.readPrefix (min safeOffset.toNat prefixGuardBytes)).toOption.map (fnv1a · fnvOffset)

/-- The entry's offset, if the file is the same one, has grown and still starts
as it did. -/
def resumePoint (file : OpenFile) (before : FileState) (previous : Option WatermarkEntry) :
    Option ResumePoint := do
  let entry ← previous
  let outcome ← source.storedOutcome canon entry
  if entry.identity = before.identity ∧ entry.safeOffset < before.len ∧
      entry.prefixHash.isSome ∧ readPrefixHash file entry.safeOffset = entry.prefixHash then
    some ⟨entry.safeOffset, entry.contentHash, outcome, entry.prefixHash⟩
  else none

variable (relative : RelativePath)

def cancelledScan : SourceError :=
  source.error .io "known conversation scan was cancelled" relative

/-- Open the file and read what the budget allows. -/
def readSnapshot (file : OpenFile) (previous : Option WatermarkEntry) (byteBudget : Nat)
    (cancelled : ScanCancellation) : Except SourceError Snapshot := do
  let before ← mapError (source.ioError "known conversation file metadata is unavailable" relative)
    file.before
  let resume := source.resumePoint canon file before previous
  let start := resume.elim 0 fun resume => resume.offset.toNat
  let readLen := min (min (before.len.toNat - start) byteBudget) maxFileBytes
  rejectIf (readLen = 0) (source.error .invalidData
    "known conversation scan has no metadata byte budget" relative)
  mapError (source.ioError "known conversation file cannot be positioned" relative) (file.seek start)
  rejectIf cancelled.beforeRead (source.cancelledScan relative)
  let bytes ← mapError (source.ioError "known conversation file cannot be read" relative)
    (file.readFrom start)
  rejectIf ((bytes.take readLen).length ≠ readLen) (source.error .io
    "known conversation file was truncated during metadata extraction" relative)
  rejectIf cancelled.afterRead (source.cancelledScan relative)
  return ⟨before, resume, bytes.take readLen⟩

/-- A parked file that ends with a newline holds a record that is too long. -/
def checkParked (file : OpenFile) (snapshot : Snapshot) : Except SourceError Unit :=
  if snapshot.parked then do
    let final ← mapError
      (source.ioError "known conversation partial tail cannot be inspected" relative)
      (file.finalByte snapshot.before.len.toNat)
    rejectIf (final = some newline) (source.error .unsupportedFormat
      "known JSONL record exceeds the byte limit" relative)
  else .ok ()

/-- Fold the complete records of a snapshot; without any, the session stays as it was. -/
def parseSnapshot (snapshot : Snapshot) (cancelled : ScanCancellation) :
    Except SourceError ParseOutcome :=
  if snapshot.safeLen = 0 then
    okOr (source.error .unsupportedFormat
      (if snapshot.bytes.length < snapshot.remaining ∨ maxRecordBytes < snapshot.bytes.length then
        "known JSONL record exceeds the byte limit"
      else "known JSONL has no complete newline-terminated record") relative)
      (snapshot.previousMetadata.map ParseOutcome.metadata)
  else mapError (fun failure : FormatFailure => source.error failure.kind failure.message relative) do
    let records ← completeRecords (snapshot.bytes.take snapshot.safeLen)
    source.format.parse source.decoders canon relative source.project cancelled.record
      (snapshot.resume.map (·.outcome)) records

/-- The entry and metadata of a snapshot whose records have been folded. -/
def scanned (snapshot : Snapshot) (outcome : ParseOutcome) (after : FileState) : ScannedFile where
  metadata := outcome.identified
  state := after
  watermark := {
    state := snapshot.before.fingerprint
    fingerprint :=
      if snapshot.complete then
        outcome.identified.map (snapshotFingerprint after snapshot.contentHash)
      else none
    sessionId := outcome.identified.map (·.sessionId)
    safeOffset := UInt64.ofNat (snapshot.start + snapshot.safeLen)
    complete := snapshot.complete
    rejected := false
    rejection := none
    duplicate := false
    prefixHash := snapshot.prefixHash
    contentHash := snapshot.contentHash
    summary := outcome.identified.map StoredMetadata.fromParsed
    pending := outcome.pending.map StoredPendingMetadata.fromPending
    identity := snapshot.before.identity
    adapterRevision := source.format.adapterRevision }

def scanFile (view : StoreView) (previous : Option WatermarkEntry) (byteBudget : Nat)
    (cancelled : ScanCancellation) : Except SourceError ScannedFile := do
  let file ← mapError (source.ioError "known conversation file is unreadable" relative)
    (view.openFile relative)
  let snapshot ← source.readSnapshot view.canon relative file previous byteBudget cancelled
  source.checkParked relative file snapshot
  let outcome ← source.parseSnapshot view.canon relative snapshot cancelled
  let after ← mapError
    (source.ioError "known conversation file metadata changed unexpectedly" relative) file.after
  rejectIf (snapshot.before ≠ after) (source.error .io
    "known conversation file changed during bounded metadata extraction" relative)
  rejectIf (snapshot.complete ∧ outcome.identified = none) (source.error .unsupportedFormat
    "known JSONL contains no current transcript record" relative)
  return source.scanned snapshot outcome after

end KnownJsonlSource

end HerdrContext.KnownStores
