import HerdrContext.Index.Cache

/-! The index in memory: opening a cache, committing one page of discovery,
and encoding the result again. -/
namespace HerdrContext.Index

open Library

inductive IndexStatus where
  | loaded | rebuiltMissing | rebuiltCorrupt | rebuiltIncompatible
  deriving DecidableEq

/-- Cached conversations, each under its own key. -/
abbrev Entries := Table String CachedConversation.key

abbrev MaxEntries := {limit : Nat // 1 ≤ limit ∧ limit ≤ maxIndexEntries}

/-- The clamp at the start of `open_with_max_entries`. -/
def MaxEntries.clamp (limit : Nat) (h : 1 ≤ limit) : MaxEntries :=
  ⟨min limit maxIndexEntries, by unfold maxIndexEntries; omega⟩

structure ConversationIndex where
  project : ProjectIdentity
  generation : UInt64
  watermarks : Watermarks
  entries : Entries
  status : IndexStatus
  scanHasMore : Bool
  maxEntries : MaxEntries

/-! ## Cache files -/

structure DiskWatermark where
  sourceId : String
  token : String
  deriving DecidableEq

structure DiskIndex where
  schemaVersion : UInt32
  projectRoot : StoredPath
  generation : UInt64
  maxEntries : Nat
  watermarks : List DiskWatermark
  entries : List CachedConversation
  deriving DecidableEq

abbrev IndexCodec := Codec DiskIndex Bytes

def loadWatermark (disk : DiskWatermark) : Except LoadFailure SourceWatermark := do
  validateSource disk.sourceId none
  rejectIf (disk.token = "" ∨ maxWatermarkBytes < strLen disk.token) .corrupt
  let sourceId ← mapError (fun _ => .corrupt) (SourceId.new disk.sourceId)
  mapError (fun _ => .corrupt) (SourceWatermark.new sourceId disk.token)

def loadEntry (entry : CachedConversation) : Except LoadFailure CachedConversation := do
  entry.validate
  return entry

namespace ConversationIndex

def empty (project : ProjectIdentity) (generation : UInt64) (status : IndexStatus)
    (maxEntries : MaxEntries) : ConversationIndex :=
  { project, generation, watermarks := ∅, entries := ∅, status, scanHasMore := false, maxEntries }

def fromDisk (project : ProjectIdentity) (disk : DiskIndex) (maxEntries : MaxEntries) :
    Except LoadFailure ConversationIndex := do
  rejectIf (disk.maxEntries < 1 ∨ maxIndexEntries < disk.maxEntries) .corrupt
  let diskRoot ← disk.projectRoot.toPath
  rejectIf (disk.schemaVersion ≠ schemaVersion ∨ ¬ diskRoot.same project.root) .incompatible
  rejectIf (maxIndexEntries < disk.entries.length ∨
    maxSourceWatermarks < disk.watermarks.length) .corrupt
  let watermarks ← Table.load loadWatermark .corrupt disk.watermarks (∅ : Watermarks)
  let entries ← Table.load loadEntry .corrupt disk.entries (∅ : Entries)
  return {
    project
    generation := disk.generation
    -- sources replay what a smaller cache had trimmed
    watermarks := if disk.maxEntries < maxEntries.val then ∅ else watermarks
    entries
    status := .loaded
    scanHasMore := false
    maxEntries }

/-- `open_with_max_entries` once the directory has been read: the bytes of the
latest cache file and the generation its name tells, if there is one. -/
def openCache (codec : IndexCodec) (project : ProjectIdentity) (maxEntries : MaxEntries) :
    Option (Bytes × UInt64) → ConversationIndex
  | none => empty project 0 .rebuiltMissing maxEntries
  | some (bytes, cachedGeneration) =>
    match codec.decode bytes with
    | none => empty project cachedGeneration .rebuiltCorrupt maxEntries
    | some disk =>
      if disk.generation ≠ cachedGeneration then
        empty project cachedGeneration .rebuiltCorrupt maxEntries
      else match fromDisk project disk maxEntries with
        | .ok index => index
        | .error .corrupt => empty project cachedGeneration .rebuiltCorrupt maxEntries
        | .error .incompatible => empty project cachedGeneration .rebuiltIncompatible maxEntries

/-- The first part of `persist_cancellable`. -/
def toDisk (index : ConversationIndex) : Except IndexError DiskIndex := do
  let projectRoot ← StoredPath.fromPath index.project.root
  return {
    schemaVersion := schemaVersion
    projectRoot
    generation := index.generation
    maxEntries := index.maxEntries.val
    watermarks := index.watermarks.values.map fun watermark =>
      ⟨watermark.sourceId.text, watermark.token⟩
    entries := index.entries.values }

def encode (codec : IndexCodec) (index : ConversationIndex) : Except IndexError Bytes := do
  let disk ← index.toDisk
  match codec.encode disk with
  | none => .error (.invalidCache "metadata index cannot be encoded")
  | some bytes =>
    rejectIf (maxCacheBytes < bytes.length)
      (.invalidCache "metadata index exceeds the cache byte limit")
    return bytes

end ConversationIndex

structure IndexPage where
  conversations : List Conversation
  hasMore : Bool

/-- The source of a conversation's first provenance record. -/
def firstSource (conversation : Conversation) : SourceId :=
  (conversation.provenance.head conversation.provenance_ne_nil).sourceId

/-- Newest first, then by session reference and source. -/
def shownBefore (left right : Conversation) : Prop :=
  right.updatedAt < left.updatedAt ∨ left.updatedAt = right.updatedAt ∧
    (left.sessionReference.nameSpace < right.sessionReference.nameSpace ∨
      left.sessionReference.nameSpace = right.sessionReference.nameSpace ∧
        (left.sessionReference.id < right.sessionReference.id ∨
          left.sessionReference.id = right.sessionReference.id ∧
            firstSource left ≤ firstSource right))

instance : DecidableRel shownBefore := fun _ _ => by
  unfold shownBefore
  infer_instance

/-- `retain` with the set of session references seen so far. -/
def firstOfEachSession : List SessionReference → List Conversation → List Conversation
  | _, [] => []
  | seen, conversation :: rest =>
    if seen.contains conversation.sessionReference then firstOfEachSession seen rest
    else conversation :: firstOfEachSession (conversation.sessionReference :: seen) rest

/-- `ConversationIndex::page`; where it fails, the source's `expect` panics. -/
def ConversationIndex.page (index : ConversationIndex) (offset limit : Nat) :
    Except IndexError IndexPage :=
  if limit = 0 then
    .ok ⟨[], index.scanHasMore || offset < index.entries.size⟩
  else do
    let conversations ← index.entries.values.mapM (·.toConversation index.project)
    let shown := firstOfEachSession [] (conversations.insertionSort shownBefore)
    let conversations := (shown.drop offset).take limit
    return ⟨conversations, index.scanHasMore || offset + conversations.length < shown.length⟩

/-! ## One page -/

/-- `IndexRefresh` of a page that was not cancelled. -/
structure IndexRefresh where
  addedOrUpdated : Nat
  hasMore : Bool
  errors : List SourceError

/-- A staged index, or the sign that a load of the flag stopped the staging. -/
inductive Staging (α : Type) where
  | cancelled
  | staged (value : α)

section
variable (cancelled : Cancellation)

def retainDesired (registry : SourceRegistry) (entries : Entries) : Entries :=
  entries.filter fun entry => (registry.desiredSourceIds.map (·.text)).contains entry.sourceId

def purgeSources : Nat → List SourceId → Entries → Staging Entries
  | _, [], entries => .staged entries
  | index, sourceId :: rest, entries =>
    if cancelled (.purge index) then .cancelled
    else purgeSources (index + 1) rest
      (entries.filter fun entry => entry.sourceId ≠ sourceId.text)

def removalKey (removal : ConversationRemoval) : String :=
  CachedConversation.entryKey removal.sourceId.text removal.sessionReference.nameSpace.text
    removal.sessionReference.id.text

def removeSession (entries : Entries) (removal : ConversationRemoval) : Entries :=
  if (entries.get? (removalKey removal)).any (·.sourceId = removal.sourceId.text) then
    entries.erase (removalKey removal)
  else entries

def removeSessions : Nat → List ConversationRemoval → Entries → Staging Entries
  | _, [], entries => .staged entries
  | index, removal :: rest, entries =>
    if cancelled (.removal index) then .cancelled
    else removeSessions (index + 1) rest (removeSession entries removal)

/-- Insert the entry unless the same one is there, counting what changed. -/
def insertEntry (state : Entries × Nat) (cached : CachedConversation) : Entries × Nat :=
  if state.1.get? cached.key ≠ some cached then (state.1.insert cached, state.2 + 1) else state

def insertConversations : Nat → List Conversation → Entries × Nat →
    Except IndexError (Staging (Entries × Nat))
  | _, [], state => .ok (.staged state)
  | index, conversation :: rest, state =>
    if cancelled (.conversation index) then .ok .cancelled
    else do
      let cached ← CachedConversation.fromConversation conversation
      insertConversations (index + 1) rest (insertEntry state cached)

end

/-- Newest first, then by key. -/
def rankedBefore (left right : SystemTime × String) : Prop :=
  right.1 < left.1 ∨ left.1 = right.1 ∧ left.2 ≤ right.2

instance : DecidableRel rankedBefore := fun _ _ => by
  unfold rankedBefore
  infer_instance

def rankEntry (entry : CachedConversation) : Except IndexError (SystemTime × String) := do
  let updated ← entry.updatedTime
  return (updated, entry.key)

def trimOldest (maxEntries : MaxEntries) (entries : Entries) : Except IndexError Entries := do
  let ranked ← entries.values.mapM rankEntry
  let keep := ((ranked.insertionSort rankedBefore).take maxEntries.val).map (·.2)
  return entries.filter fun entry => keep.contains entry.key

structure BoundedWatermarks where
  bytes : Nat
  watermarks : Watermarks
  errors : List SourceError
  droppedContinuation : Bool

def boundWatermark (state : BoundedWatermarks) (watermark : SourceWatermark) :
    BoundedWatermarks :=
  if maxWatermarkBytes < strLen watermark.token ∨
      maxTotalWatermarkBytes < state.bytes + strLen watermark.token then
    { state with
      errors := state.errors ++ [.new watermark.sourceId .invalidData
        "source watermark exceeds the metadata cache budget"]
      droppedContinuation := true }
  else { state with
    bytes := state.bytes + strLen watermark.token
    watermarks := state.watermarks.insert watermark }

/-- The watermarks in source order, as long as they fit the cache's budget. -/
def boundWatermarks (watermarks : Watermarks) : BoundedWatermarks :=
  watermarks.values.foldl boundWatermark ⟨0, ∅, [], false⟩

def nextGeneration (generation : UInt64) : UInt64 := saturatingSucc generation

def limitEntries (maxEntries : MaxEntries) (entries : Entries) : Except IndexError Entries :=
  if maxEntries.val < entries.size then trimOldest maxEntries entries else .ok entries

/-- The staged index with its entries settled, unless the last load before
persisting stops the page. -/
def commitPage (index : ConversationIndex) (discovery : ConversationDiscovery)
    (cancelled : Cancellation) (entries : Entries) (addedOrUpdated : Nat) :
    Staging (ConversationIndex × IndexRefresh) :=
  let bounded := boundWatermarks discovery.watermarks
  let hasMore := discovery.hasMore && !bounded.droppedContinuation
  if cancelled .persist then .cancelled
  else .staged (
    { index with
      generation := nextGeneration index.generation
      entries
      watermarks := bounded.watermarks
      scanHasMore := hasMore
      status := .loaded },
    { addedOrUpdated, hasMore, errors := discovery.errors ++ bounded.errors })

/-- `refresh_page_cancellable` on a finished discovery, up to the point where
the staged index is persisted. -/
def stagePage (index : ConversationIndex) (registry : SourceRegistry)
    (discovery : ConversationDiscovery) (cancelled : Cancellation) :
    Except IndexError (Staging (ConversationIndex × IndexRefresh)) :=
  if cancelled .discovered then .ok .cancelled
  else
    match purgeSources cancelled 0 discovery.purgedSources (retainDesired registry index.entries) with
    | .cancelled => .ok .cancelled
    | .staged purged =>
      match removeSessions cancelled 0 discovery.removals purged with
      | .cancelled => .ok .cancelled
      | .staged removed =>
        match insertConversations cancelled 0 discovery.conversations (removed, 0) with
        | .error error => .error error
        | .ok .cancelled => .ok .cancelled
        | .ok (.staged (inserted, addedOrUpdated)) => do
          let entries ← limitEntries index.maxEntries inserted
          return commitPage index discovery cancelled entries addedOrUpdated

end HerdrContext.Index
