import HerdrContext.KnownStores.Listing
import HerdrContext.KnownStores.Scan

/-! One page of discovery in a known store: list, stat and order the files,
inspect as many changed ones as the limit allows, and compare with the state of
the page before. -/
namespace HerdrContext.KnownStores

open Library

/-- The loads of the cancellation flag during one page. -/
structure PageCancellation where
  started : Bool
  listed : Bool
  stat : Nat → Bool
  file : Nat → Bool
  scan : RelativePath → ScanCancellation

/-- A file of the page with its entry, before duplicates are known. -/
structure PreparedFile where
  relative : RelativePath
  state : FileState
  sessionId : Option String
  watermark : WatermarkEntry
  changed : Bool
  error : Option SourceError

namespace PreparedFile

def key (file : PreparedFile) : String := watermarkKey file.relative

end PreparedFile

/-- What one pass over the ordered files leaves. -/
structure Prepared where
  files : List PreparedFile
  errors : List SourceError
  hasMore : Bool

structure ValidatedSnapshot where
  metadata : ParsedMetadata
  state : FileState
  fingerprint : String

/-- What one prepared file adds to the page. -/
structure Settled where
  entry : Option (String × WatermarkEntry) := none
  errors : List SourceError := []
  candidate : Option ConversationCandidate := none
  snapshot : Option (RelativePath × ValidatedSnapshot) := none

/-- A page before it is checked as a batch, with the snapshots its candidates
are compared with. -/
structure KnownPage where
  batch : DiscoveryBatch
  snapshots : List (RelativePath × ValidatedSnapshot)

/-- Latest modification first, then by path, backwards. -/
def fileBefore (left right : RelativePath × FileState) : Prop :=
  right.2.modified < left.2.modified ∨
    (left.2.modified = right.2.modified ∧ right.1 ≤ left.1)

instance : DecidableRel fileBefore := fun _ _ => by
  unfold fileBefore
  infer_instance

namespace KnownJsonlSource

variable (source : KnownJsonlSource)

def plainError (kind : SourceErrorKind) (message : String) : SourceError :=
  .new source.id kind message

def cancelledDiscovery : SourceError :=
  source.plainError .io "known conversation discovery was cancelled"

def probe (view : StoreView) (moment : ProbeMoment) : Except SourceError StorageProbe :=
  match view.probe moment with
  | .ok true => .ok .available
  | .ok false => .ok (.unavailable "known conversation store does not exist")
  | .error error =>
    .error (storeIoError source.id source.root "known conversation store is unavailable" error)

variable (view : StoreView)

/-! ## The inventory -/

/-- The files of a page, with the errors so far and whether some are missing. -/
structure FileInventory where
  files : List (RelativePath × FileState)
  errors : List SourceError
  incomplete : Bool

/-- Kinds of errors after which a missing file means nothing. -/
def hidesFiles (error : SourceError) : Bool :=
  error.kind = .io || error.kind = .permissionDenied || error.kind = .invalidData

/-- The listed paths in order, each once and not too many. -/
def boundPaths (listed : Inventory) : Inventory × Bool :=
  let paths := (listed.paths.dedup).insertionSort (· ≤ ·)
  let incomplete := listed.errors.any hidesFiles
  if maxCandidatePaths < paths.length then
    (⟨(paths.insertionSort fun left right => right ≤ left).take maxCandidatePaths,
      listed.errors ++ [source.plainError .invalidData
        "known conversation candidate inventory exceeds the traversal limit"]⟩, true)
  else (⟨paths, listed.errors⟩, incomplete)

def statFiles (cancelled : Nat → Bool) :
    Nat → List RelativePath → Except SourceError FileInventory
  | _, [] => .ok ⟨[], [], false⟩
  | index, relative :: rest =>
    if cancelled index then .error source.cancelledDiscovery
    else do
      let others ← statFiles cancelled (index + 1) rest
      match view.fileState relative with
      | .ok state => return { others with files := (relative, state) :: others.files }
      | .error error =>
        return {
          files := others.files
          errors := source.ioError "known conversation file metadata is unavailable" relative error
            :: others.errors
          incomplete := true }

/-- The newest files, if there are too many. -/
def boundFiles (inventory : FileInventory) : FileInventory :=
  if maxStoreFiles < inventory.files.length then {
    files := (inventory.files.insertionSort fileBefore).take maxStoreFiles
    errors := inventory.errors ++ [source.plainError .invalidData
      "known conversation store exceeds the total file limit"]
    incomplete := true }
  else inventory

def inventoryFiles (cancelled : PageCancellation) : Except SourceError FileInventory := do
  let listed := source.boundPaths (source.format.listCandidates source.root view source.project)
  rejectIf cancelled.listed source.cancelledDiscovery
  let stated ← source.statFiles view cancelled.stat 0 listed.1.paths
  let bounded := source.boundFiles { stated with
    errors := listed.1.errors ++ stated.errors
    incomplete := listed.2 || stated.incomplete }
  return { bounded with files := bounded.files.insertionSort fileBefore }

/-! ## Inspecting files -/

variable (previous : WatermarkMap)

/-- The stored entry, if it is final and the file has not changed since. -/
def unchangedEntry (relative : RelativePath) (state : FileState) : Option WatermarkEntry :=
  previous[watermarkKey relative]?.filter fun entry =>
    (entry.complete || entry.rejected) && entry.state = state.fingerprint

def keptFile (relative : RelativePath) (state : FileState) (entry : WatermarkEntry) :
    PreparedFile where
  relative := relative
  state := state
  sessionId := entry.sessionId
  watermark := entry
  changed := false
  error := entry.rejection.map fun rejection =>
    source.error rejection.errorKind rejection.message relative

/-- A changed file beyond the limit keeps its entry for a later page. -/
def postponedFile (relative : RelativePath) (state : FileState) (entry : WatermarkEntry) :
    PreparedFile where
  relative := relative
  state := state
  sessionId := entry.sessionId
  watermark := entry
  changed := false
  error := none

def unreadableFile (relative : RelativePath) (state : FileState) (entry : WatermarkEntry)
    (error : SourceError) : PreparedFile where
  relative := relative
  state := state
  sessionId := entry.sessionId
  watermark := entry
  changed := false
  error := some error

def failedFile (relative : RelativePath) (state : FileState) (error : SourceError) :
    PreparedFile where
  relative := relative
  state := state
  sessionId := none
  watermark := {
    state := state.fingerprint
    fingerprint := none
    sessionId := none
    safeOffset := 0
    complete := false
    rejected := (StoredRejection.fromError error).isSome
    rejection := StoredRejection.fromError error
    duplicate := false
    prefixHash := none
    contentHash := fnvOffset
    summary := none
    pending := none
    identity := state.identity
    adapterRevision := source.format.adapterRevision }
  changed := false
  error := some error

def scannedFile (relative : RelativePath) (scanned : ScannedFile) : PreparedFile where
  relative := relative
  state := scanned.state
  sessionId := scanned.metadata.map (·.sessionId)
  watermark := scanned.watermark
  changed := scanned.watermark.complete &&
    previous[watermarkKey relative]?.bind (·.fingerprint) ≠ scanned.watermark.fingerprint
  error := none

/-- Scan a changed file; whether more of it is left comes second. -/
def inspectFile (cancelled : ScanCancellation) (relative : RelativePath) (state : FileState) :
    PreparedFile × Bool :=
  let entry := previous[watermarkKey relative]?
  match source.scanFile relative view entry maxFileBytes cancelled with
  | .ok scanned => (scannedFile previous relative scanned, !scanned.watermark.complete)
  | .error error =>
    match entry with
    | some entry =>
      if error.kind = .io ∨ error.kind = .permissionDenied then
        (unreadableFile relative state entry error, false)
      else (source.failedFile relative state error, false)
    | none => (source.failedFile relative state error, false)

/-- The page loop, with the number of changed files it may still inspect and the
keys it has seen. -/
def prepareFiles (cancelled : PageCancellation) : (index budget : Nat) → (keys : List String) →
    List (RelativePath × FileState) → Except SourceError Prepared
  | _, _, _, [] => .ok ⟨[], [], false⟩
  | index, budget, keys, (relative, state) :: rest =>
    let key := watermarkKey relative
    if cancelled.file index then .error source.cancelledDiscovery
    else if keys.contains key then do
      let others ← prepareFiles cancelled (index + 1) budget keys rest
      return { others with
        errors := source.error .invalidData
          "known conversation paths produced a duplicate watermark key" relative :: others.errors }
    else
      match unchangedEntry previous relative state with
      | some entry => do
        let others ← prepareFiles cancelled (index + 1) budget (key :: keys) rest
        return { others with files := source.keptFile relative state entry :: others.files }
      | none =>
        match budget with
        | 0 => do
          let others ← prepareFiles cancelled (index + 1) 0 (key :: keys) rest
          return { others with
            files := (previous[key]?.map (postponedFile relative state)).toList ++ others.files
            hasMore := true }
        | budget + 1 => do
          let inspected := source.inspectFile view previous (cancelled.scan relative) relative state
          let others ← prepareFiles cancelled (index + 1) budget (key :: keys) rest
          return { others with
            files := inspected.1 :: others.files
            hasMore := inspected.2 || others.hasMore }

/-! ## Settling the page -/

/-- Session identifiers that more than one prepared file carries. -/
def isDuplicate (prepared : List PreparedFile) (sessionId : String) : Bool :=
  1 < (prepared.filterMap (·.sessionId)).count sessionId

/-- The snapshot of a complete file; the source's `expect`s are its failures. -/
def snapshotOf (relative : RelativePath) (state : FileState) (entry : WatermarkEntry) :
    Except SourceError ValidatedSnapshot := do
  let invalid := source.error .invalidData "known conversation watermark metadata is invalid" relative
  let fingerprint ← okOr invalid entry.fingerprint
  let metadata ← okOr invalid (entry.summary.bind (·.toParsed view.canon source.project))
  return ⟨metadata, state, fingerprint⟩

def settleSession (duplicate : String → Bool) (file : PreparedFile) (sessionId : String) :
    Except SourceError Settled :=
  if duplicate sessionId then .ok {
    entry := some (file.key, { file.watermark with duplicate := true })
    errors := [source.error .invalidData
      "native session identifier appears in multiple known-store files" file.relative] }
  else
    let entry := { file.watermark with duplicate := false }
    if ¬ (file.changed ∨ file.watermark.duplicate) then
      if entry.complete then do
        let snapshot ← source.snapshotOf view file.relative file.state entry
        return { entry := some (file.key, entry), snapshot := some (file.relative, snapshot) }
      else .ok { entry := some (file.key, entry) }
    else do
      let snapshot ← source.snapshotOf view file.relative file.state entry
      match ConversationCandidate.new source.id source.project sessionId
          (some (source.root.join file.relative)) (some file.state.len) (some file.state.modified)
          (some snapshot.fingerprint) with
      | .ok candidate =>
        return {
          entry := some (file.key, entry)
          candidate := some candidate
          snapshot := some (file.relative, snapshot) }
      | .error error => return { errors := [error] }

def settleFile (duplicate : String → Bool) (file : PreparedFile) : Except SourceError Settled :=
  match file.error, file.sessionId with
  | some error, _ => .ok {
      entry := some (file.key, file.watermark)
      errors :=
        if error.kind ≠ .projectMismatch ∨ source.format.reportProjectMismatch then [error] else [] }
  | none, none => .ok { entry := some (file.key, file.watermark) }
  | none, some sessionId => source.settleSession view duplicate file sessionId

def settledEntries (settled : List Settled) : WatermarkMap :=
  (settled.filterMap (·.entry)).foldl (fun map stored => map.insert stored.1 stored.2) ∅

/-- `or_insert` while there is room, of every entry of the page before. -/
def carryOver (next : WatermarkMap) : WatermarkMap :=
  previous.toList.foldl (fun map stored =>
    if maxStoreFiles ≤ map.size then map else map.insertIfNew stored.1 stored.2) next

/-- Sessions of the page before that are gone, have another file content or are ambiguous. -/
def removedSessions (incomplete : Bool) (current : List String) (duplicate : String → Bool)
    (next : WatermarkMap) : List String :=
  let removed := previous.toList.filterMap fun stored =>
    if incomplete ∧ ¬ current.contains stored.1 then none
    else stored.2.sessionId.filter fun sessionId =>
      (next[stored.1]?.bind (·.sessionId)) ≠ some sessionId || duplicate sessionId
  removed.dedup.insertionSort (· ≤ ·)

def removalOf (sessionId : String) : Except SourceError ConversationRemoval :=
  match SessionReference.new source.format.tool.name sessionId with
  | .ok reference => .ok ⟨source.id, reference⟩
  | .error _ => .error (source.plainError .invalidData
      "known source watermark contains an invalid session identifier")

def encodeWatermark (next : WatermarkMap) : Except SourceError SourceWatermark := do
  let token ← okOr (source.plainError .invalidData "known source watermark cannot be encoded")
    (source.codec.encode next)
  rejectIf (maxWatermarkBytes < strLen token) source.oversizedWatermark
  SourceWatermark.new source.id token

/-- The page of an inventory whose files have been prepared. -/
def settlePage (inventory : FileInventory) (prepared : Prepared) : Except SourceError KnownPage := do
  let duplicate := isDuplicate prepared.files
  let current := inventory.files.map fun file => watermarkKey file.1
  let settled ← prepared.files.mapM (source.settleFile view duplicate)
  let next := settledEntries settled
  let next := if inventory.incomplete then carryOver previous next else next
  let removals ← (removedSessions previous inventory.incomplete current duplicate next).mapM
    source.removalOf
  let watermark ← source.encodeWatermark next
  return {
    batch := {
      candidates := settled.filterMap (·.candidate)
      nextWatermark := some watermark
      removals
      errors := inventory.errors ++ prepared.errors ++ settled.flatMap (·.errors)
      hasMore := prepared.hasMore }
    snapshots := settled.filterMap (·.snapshot) }

/-- `discover_raw_cancellable` up to the check of the batch. -/
def assemble (project : ProjectIdentity) (after : Option SourceWatermark) (limit : DiscoveryLimit)
    (cancelled : PageCancellation) : Except SourceError KnownPage := do
  rejectIf (project ≠ source.project) (source.plainError .projectMismatch
    "known conversation source belongs to another project")
  rejectIf cancelled.started source.cancelledDiscovery
  match ← source.probe view .discovery with
  | .unavailable _ =>
    let watermark ← source.encodeWatermark ∅
    return ⟨⟨[], some watermark, [], [], false⟩, []⟩
  | .available =>
    let previous ← source.decodeWatermark view.canon after
    let inventory ← source.inventoryFiles view cancelled
    let prepared ← source.prepareFiles view previous cancelled 0 limit.val [] inventory.files
    source.settlePage view previous inventory prepared

def discoverRaw (project : ProjectIdentity) (after : Option SourceWatermark)
    (limit : DiscoveryLimit) (cancelled : PageCancellation) : Except SourceError KnownPage := do
  let page ← source.assemble view project after limit cancelled
  let batch ← DiscoveryBatch.new source.id project page.batch.candidates page.batch.nextWatermark
    page.batch.removals page.batch.hasMore page.batch.errors
  return { page with batch }

/-! ## Candidates of the page -/

/-- `store.relative`. -/
def relativeOf (path : PathBuf) : Option RelativePath :=
  if path.isAbsolute = source.root.isAbsolute then
    ((source.root.components.isPrefixOf? path.components).bind
      (·.mapM FileName.new?)).filter (· ≠ [])
  else none

def validateCandidate (page : KnownPage) (moment : RecheckMoment)
    (candidate : ConversationCandidate) : Except SourceError ParsedMetadata := do
  let path ← okOr (source.plainError .invalidData
    "known conversation candidate has no source path") candidate.sourcePath
  let relative ← okOr ((source.plainError .invalidData
    "known conversation candidate is outside its registered store").withPath
      (storeItself source.root)) (source.relativeOf path)
  let snapshot ← okOr (source.error .invalidData
    "known conversation candidate has no validated discovery snapshot" relative)
      ((page.snapshots.find? (·.1 = relative)).map (·.2))
  let state ← mapError
    (source.ioError "known conversation file metadata is unavailable" relative)
    (view.recheck moment relative)
  rejectIf (state ≠ snapshot.state ∨ snapshot.metadata.sessionId ≠ candidate.sourceReference ∨
      candidate.observedSize ≠ some state.len ∨ candidate.modifiedAt ≠ some state.modified ∨
      candidate.fingerprint ≠ some snapshot.fingerprint)
    (source.error .invalidData
      "known conversation candidate no longer matches its discovered snapshot" relative)
  return snapshot.metadata

def invalidMetadata (message : String) : SourceError :=
  (source.plainError .invalidData message).withPath (storeItself source.root)

def conversationOf (candidate : ConversationCandidate) (metadata : ParsedMetadata) :
    Except SourceError Conversation := do
  let name := source.format.tool.name
  let tool ← mapError (fun _ => source.invalidMetadata "known tool identity is invalid")
    (ToolIdentity.new name)
  let session ← mapError (fun _ => source.invalidMetadata "known session reference is invalid")
    (SessionReference.new name metadata.sessionId)
  let resume ← mapError (fun _ => source.invalidMetadata "known resume reference is invalid")
    (ResumeReference.new metadata.sessionId)
  mapError (fun _ => source.invalidMetadata "known conversation metadata is invalid")
    (Conversation.new tool session candidate.projectIdentity metadata.title
      (some metadata.createdAt) none metadata.updatedAt .unknown
      [⟨source.id, .externalLocal, candidate.sourcePath⟩] (.supported resume))

/-- `omp_metadata_bytes`; a `SystemTime` takes 16 bytes. -/
def ompMetadataBytes (conversation : Conversation) : Nat :=
  strLen conversation.tool.text + strLen conversation.sessionReference.nameSpace.text +
    strLen conversation.sessionReference.id.text + conversation.projectIdentity.root.bytes.length +
    conversation.title.elim 0 (strLen ·.text) + 2 * 16 +
    (conversation.provenance.map fun provenance =>
      strLen provenance.sourceId.text + provenance.path.elim 0 (·.bytes.length)).sum +
    match conversation.resume with
    | .supported reference => strLen reference.text
    | .unsupported => 0

/-- Only OMP holds its metadata to the budget. -/
def boundedMetadata (candidate : ConversationCandidate) (budget : MetadataBudget)
    (conversation : Conversation) : Except SourceError Conversation :=
  match source.format with
  | .omp _ _ => do
    let error := source.plainError .invalidData "OMP metadata exceeds the bounded extraction budget"
    rejectIf (budget.val < ompMetadataBytes conversation)
      (candidate.sourcePath.elim error error.withPath)
    return conversation
  | _ => .ok conversation

def extractMetadataRaw (page : KnownPage) (candidate : ConversationCandidate)
    (budget : MetadataBudget) : Except SourceError Conversation := do
  let metadata ← source.validateCandidate view page .extraction candidate
  let conversation ← source.conversationOf candidate metadata
  source.boundedMetadata candidate budget conversation

def projectEvidenceRaw (page : KnownPage) (candidate : ConversationCandidate) :
    Except SourceError (List ProjectAssociationEvidence) := do
  let metadata ← source.validateCandidate view page .evidence candidate
  return [
    ⟨.canonicalWorkingDirectory, metadata.cwd,
      some "native session cwd equals the canonical project root"⟩,
    ⟨.adapterValidatedEncoding, metadata.cwd,
      some "known store path hints agree with native session metadata"⟩]

/-- The source as the registry sees it during one page. -/
def conversationSource (cancelled : PageCancellation) : ConversationSource where
  sourceId := source.id
  probe := source.probe view .registry
  discoverRaw project after limit := do
    let page ← source.discoverRaw view project after limit cancelled
    return {
      batch := page.batch
      extractMetadataRaw := source.extractMetadataRaw view page
      projectEvidenceRaw := fun candidate _ => source.projectEvidenceRaw view page candidate }

end KnownJsonlSource

end HerdrContext.KnownStores
