import HerdrContext.Library.Table
import HerdrContext.Library.UniqueIndex
import HerdrContext.Live.Sessions

/-! Filesystem conversations enriched with the live sessions that belong to
them, and live-only rows for the rest. -/
namespace HerdrContext

/-- `==` of two provenances, which compares paths by components. -/
def ConversationProvenance.same (left right : ConversationProvenance) : Bool :=
  left.sourceId == right.sourceId && left.kind == right.kind &&
    match left.path, right.path with
    | none, none => true
    | some left, some right => left.same right
    | _, _ => false

namespace Live

open Library

/-! ## Order of the rows -/

/-- Most recent first, then by tool and session. -/
def recencyKey (conversation : Conversation) :
    SystemTimeᵒᵈ ×ₗ NormalText ×ₗ NormalText ×ₗ NormalText :=
  toLex (OrderDual.toDual conversation.updatedAt, toLex (conversation.tool,
    toLex (conversation.sessionReference.nameSpace, conversation.sessionReference.id)))

def recentBefore (left right : Conversation) : Prop := recencyKey left ≤ recencyKey right

instance : DecidableRel recentBefore := fun left right =>
  inferInstanceAs (Decidable (recencyKey left ≤ recencyKey right))

def sortRecentFirst (conversations : List Conversation) : List Conversation :=
  conversations.insertionSort recentBefore

/-! ## Filesystem snapshots -/

structure FilesystemConversationSnapshot where
  conversations : List Conversation
  native : Finmap fun _ : SessionReference => Option Nat
  transcript : Finmap fun _ : TranscriptIdentity => Option Nat
  documented : Finmap fun _ : SessionReference => Option Nat

def referencePairs (conversations : List Conversation) : List (SessionReference × Nat) :=
  conversations.zipIdx.map fun (conversation, index) => (conversation.sessionReference, index)

/-- The transcript files of a conversation, as its provenance paths show them. -/
def transcriptIdentities (fs : FileSystem) (conversation : Conversation) :
    List TranscriptIdentity :=
  conversation.provenance.filterMap fun provenance =>
    provenance.path.bind (TranscriptIdentity.fromPath fs)

def transcriptPairs (fs : FileSystem) (conversations : List Conversation) :
    List (TranscriptIdentity × Nat) :=
  conversations.zipIdx.flatMap fun (conversation, index) =>
    (transcriptIdentities fs conversation).map fun identity => (identity, index)

def prepareFilesystemConversations (fs : FileSystem) (conversations : List Conversation) :
    FilesystemConversationSnapshot where
  conversations
  native := indexUnique (referencePairs conversations)
  transcript := indexUnique (transcriptPairs fs conversations)
  documented := indexUnique (referencePairs conversations)

/-- Replace the conversation a reference stands for, or add it. -/
def mergeConversation
    (state : List Conversation × Finmap fun _ : SessionReference => Nat)
    (conversation : Conversation) :
    List Conversation × Finmap fun _ : SessionReference => Nat :=
  match state.2.lookup conversation.sessionReference with
  | some index => (state.1.set index conversation, state.2)
  | none => (state.1 ++ [conversation],
      state.2.insert conversation.sessionReference state.1.length)

def mergeFilesystemSnapshots (fs : FileSystem) (previous fresh : FilesystemConversationSnapshot) :
    FilesystemConversationSnapshot :=
  let indexes : Finmap fun _ : SessionReference => Nat :=
    (referencePairs previous.conversations).foldl (fun map pair => map.insert pair.1 pair.2) ∅
  prepareFilesystemConversations fs
    (sortRecentFirst (fresh.conversations.foldl mergeConversation (previous.conversations, indexes)).1)

/-! ## Merging -/

/-- The conversation a session belongs to: by native identity, else by its
transcript file, else by its documented identity. -/
def matchIndex (filesystem : FilesystemConversationSnapshot) (session : NormalizedLiveSession) :
    Option Nat :=
  (session.nativeIdentity.bind (uniqueIndex filesystem.native)).or <|
    (session.transcriptIdentity.bind (uniqueIndex filesystem.transcript)).or <|
      session.documentedIdentity.bind (uniqueIndex filesystem.documented)

def addProvenance (provenance : List ConversationProvenance) (live : ConversationProvenance) :
    List ConversationProvenance :=
  if provenance.any fun existing => existing.same live then provenance else provenance ++ [live]

theorem addProvenance_ne_nil {provenance : List ConversationProvenance}
    (h : provenance ≠ []) (live : ConversationProvenance) : addProvenance provenance live ≠ [] := by
  unfold addProvenance
  split
  next => exact h
  next => simp

def enrich (filesystem : Conversation) (live : NormalizedLiveSession) (observedAt : SystemTime) :
    Conversation :=
  { filesystem with
    title := filesystem.title.or live.title
    updatedAt := max filesystem.updatedAt observedAt
    state := .live
    provenance := addProvenance filesystem.provenance live.provenance
    provenance_ne_nil := addProvenance_ne_nil filesystem.provenance_ne_nil live.provenance }

/-- The constructor called by `enrich` accepts its parts. -/
theorem new_enrich (filesystem : Conversation) (live : NormalizedLiveSession)
    (observedAt : SystemTime) :
    Conversation.new filesystem.tool filesystem.sessionReference filesystem.projectIdentity
      ((filesystem.title.or live.title).map (·.text)) filesystem.createdAt filesystem.archivedAt
      (max filesystem.updatedAt observedAt) .live
      (addProvenance filesystem.provenance live.provenance) filesystem.resume =
      .ok (enrich filesystem live observedAt) :=
  Conversation.new_parts (enrich filesystem live observedAt)

def liveOnlyConversation (live : NormalizedLiveSession) (project : ProjectIdentity)
    (observedAt : SystemTime) : Conversation where
  tool := live.tool
  sessionReference := live.stableReference
  projectIdentity := project
  title := live.title
  createdAt := none
  archivedAt := none
  updatedAt := observedAt
  state := .live
  provenance := [live.provenance]
  resume := .unsupported
  provenance_ne_nil := by simp

theorem new_liveOnlyConversation (live : NormalizedLiveSession) (project : ProjectIdentity)
    (observedAt : SystemTime) :
    Conversation.new live.tool live.stableReference project (live.title.map (·.text)) none none
      observedAt .live [live.provenance] .unsupported =
      .ok (liveOnlyConversation live project observedAt) :=
  Conversation.new_parts (liveOnlyConversation live project observedAt)

/-- Tool and session id. -/
abbrev LiveKey := NormalText ×ₗ NormalText

instance : Std.LawfulEqOrd LiveKey where
  eq_of_compare h := compare_eq_iff_eq.mp h

def Conversation.liveKey (conversation : Conversation) : LiveKey :=
  toLex (conversation.tool, conversation.sessionReference.id)

def NormalizedLiveSession.liveKey (session : NormalizedLiveSession) : LiveKey :=
  toLex (session.tool, session.stableReference.id)

abbrev LiveOnly := Table LiveKey Conversation.liveKey

section

variable (filesystem : FilesystemConversationSnapshot) (project : ProjectIdentity)
  (observedAt : SystemTime)

def mergeLiveOnly (liveOnly : LiveOnly) (session : NormalizedLiveSession) : LiveOnly :=
  match liveOnly.get? session.liveKey with
  | some conversation => liveOnly.insert (enrich conversation session observedAt)
  | none => liveOnly.insert (liveOnlyConversation session project observedAt)

def mergeSession (state : List Conversation × LiveOnly) (session : NormalizedLiveSession) :
    List Conversation × LiveOnly :=
  match matchIndex filesystem session with
  | some index => (state.1.modify index (enrich · session observedAt), state.2)
  | none => (state.1, mergeLiveOnly project observedAt state.2 session)

def mergePreparedLiveSessions (live : LiveConversationSnapshot) : List Conversation :=
  let merged := live.foldl (mergeSession filesystem project observedAt)
    (filesystem.conversations, ∅)
  sortRecentFirst (merged.1 ++ merged.2.values)

end

/-- `merge_live_sessions`. -/
def mergeLiveSessions (fs : FileSystem) (filesystem : List Conversation)
    (live : List HostAgentSession) (project : ProjectIdentity) (observedAt : SystemTime) :
    List Conversation :=
  mergePreparedLiveSessions (prepareFilesystemConversations fs filesystem) project observedAt
    (prepareLiveConversations fs live project)

/-! ## Fingerprints -/

/-- What the fingerprint of a session is computed from. -/
structure FingerprintInput where
  paneId : String
  tool : String
  sourceId : String
  id : String
  title : Option String
  status : HostAgentStatus
  deriving DecidableEq

def NormalizedLiveSession.fingerprintInput (session : NormalizedLiveSession) :
    FingerprintInput where
  paneId := session.paneId.text
  tool := session.tool.text
  sourceId := session.provenance.sourceId.text
  id := session.stableReference.id.text
  title := session.title.map (·.text)
  status := session.status

/-- `LiveConversationSnapshot::fingerprint`, with the standard library's hasher
as a parameter. -/
def fingerprint (hash : List FingerprintInput → UInt64) (live : LiveConversationSnapshot) :
    UInt64 :=
  hash (live.map NormalizedLiveSession.fingerprintInput)

/-- `pane_references`: of two sessions in a pane the later one counts. -/
def paneReferences (live : LiveConversationSnapshot) : Finmap fun _ : String => String :=
  live.foldl (fun map session => map.insert session.paneId.text session.stableReference.id.text) ∅

end Live

end HerdrContext
