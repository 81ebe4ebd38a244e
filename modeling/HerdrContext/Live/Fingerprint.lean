import HerdrContext.Live.Law
import Mathlib.Data.List.Forall2

/-! What a fingerprint of the live sessions says about the merge they give. -/
namespace HerdrContext

/-- What `==` of two provenances compares. -/
def ConversationProvenance.compared (provenance : ConversationProvenance) :
    SourceId × ProvenanceKind × Option (Bool × List OsString) :=
  (provenance.sourceId, provenance.kind,
    provenance.path.map fun path => (path.isAbsolute, path.components))

theorem ConversationProvenance.same_iff {left right : ConversationProvenance} :
    left.same right = true ↔ left.compared = right.compared := by
  cases left with | mk sourceId kind path =>
  cases right with | mk sourceId' kind' path' =>
  cases path <;> cases path' <;>
    simp [ConversationProvenance.same, ConversationProvenance.compared, PathBuf.same, and_assoc]

/-! ## Rows up to the time of their last update -/

/-- A conversation without its update time. -/
structure ShownConversation where
  tool : ToolIdentity
  sessionReference : SessionReference
  projectIdentity : ProjectIdentity
  title : Option NormalText
  createdAt : Option SystemTime
  archivedAt : Option SystemTime
  state : ConversationState
  provenance : List (SourceId × ProvenanceKind × Option (Bool × List OsString))
  resume : ResumeCapability

def Conversation.shown (conversation : Conversation) : ShownConversation where
  tool := conversation.tool
  sessionReference := conversation.sessionReference
  projectIdentity := conversation.projectIdentity
  title := conversation.title
  createdAt := conversation.createdAt
  archivedAt := conversation.archivedAt
  state := conversation.state
  provenance := conversation.provenance.map ConversationProvenance.compared
  resume := conversation.resume

namespace Live

open Library

/-- The same rows, whenever they were observed. Their order follows the times. -/
def SameRows (left right : List Conversation) : Prop :=
  (left.map Conversation.shown).Perm (right.map Conversation.shown)

theorem SameRows.symm {left right : List Conversation} (h : SameRows left right) :
    SameRows right left :=
  List.Perm.symm h

theorem exists_of_sameRows {left right : List Conversation} (h : SameRows left right)
    {row : Conversation} (hmem : row ∈ left) : ∃ row' ∈ right, row'.shown = row.shown :=
  List.mem_map.mp (h.mem_iff.mp (List.mem_map_of_mem hmem))

theorem compared_addProvenance (provenance : List ConversationProvenance)
    (live : ConversationProvenance) :
    (addProvenance provenance live).map ConversationProvenance.compared =
      if live.compared ∈ provenance.map ConversationProvenance.compared then
        provenance.map ConversationProvenance.compared
      else provenance.map ConversationProvenance.compared ++ [live.compared] := by
  have hany : (provenance.any fun existing => existing.same live) = true ↔
      live.compared ∈ provenance.map ConversationProvenance.compared := by
    simp [ConversationProvenance.same_iff]
  by_cases h : live.compared ∈ provenance.map ConversationProvenance.compared
  · rw [addProvenance, if_pos (hany.mpr h), if_pos h]
  · rw [addProvenance, if_neg (mt hany.mp h), if_neg h, List.map_append, List.map_singleton]

/-! ## Sessions that agree -/

/-- Sessions with one fingerprint that were reported at one provenance path. -/
structure SameReport (left right : NormalizedLiveSession) : Prop where
  input : left.fingerprintInput = right.fingerprintInput
  provenance : left.provenance.same right.provenance = true

theorem SameReport.title {left right : NormalizedLiveSession} (h : SameReport left right) :
    left.title = right.title :=
  Option.map_injective (fun _ _ => NormalText.ext) (congrArg FingerprintInput.title h.input)

theorem tool_of_input {left right : NormalizedLiveSession}
    (h : left.fingerprintInput = right.fingerprintInput) : left.tool = right.tool :=
  NormalText.ext (congrArg FingerprintInput.tool h)

theorem liveKey_of_input {left right : NormalizedLiveSession}
    (h : left.fingerprintInput = right.fingerprintInput) : left.liveKey = right.liveKey := by
  have hid : left.stableReference.id = right.stableReference.id :=
    NormalText.ext (congrArg FingerprintInput.id h)
  rw [NormalizedLiveSession.liveKey, NormalizedLiveSession.liveKey, tool_of_input h, hid]

theorem reference_of_input {left right : NormalizedLiveSession}
    (h : left.fingerprintInput = right.fingerprintInput) :
    left.stableReference = right.stableReference :=
  (reference_of_liveKey (liveKey_of_input h)).2

variable {observedAt observedAt' : SystemTime}

theorem shown_enrich {row row' : Conversation} {session session' : NormalizedLiveSession}
    (hrow : row.shown = row'.shown) (h : SameReport session session') :
    (enrich row session observedAt).shown = (enrich row' session' observedAt').shown := by
  have hcompared := ConversationProvenance.same_iff.mp h.provenance
  simp only [Conversation.shown, ShownConversation.mk.injEq] at hrow
  obtain ⟨htool, hreference, hproject, htitle, hcreated, harchived, -, hprovenance, hresume⟩ := hrow
  simp only [Conversation.shown, enrich, compared_addProvenance, htool, hreference, hproject,
    htitle, hcreated, harchived, hprovenance, hresume, h.title, hcompared]

theorem shown_enrichAll {row row' : Conversation} {sessions sessions' : List NormalizedLiveSession}
    (hrow : row.shown = row'.shown) (h : List.Forall₂ SameReport sessions sessions') :
    (enrichAll observedAt row sessions).shown = (enrichAll observedAt' row' sessions').shown := by
  induction h generalizing row row' with
  | nil => exact hrow
  | cons hsession _ ih => exact ih (shown_enrich hrow hsession)

section

variable {filesystem : FilesystemConversationSnapshot} {project : ProjectIdentity}

theorem shown_liveRow {sessions sessions' : List NormalizedLiveSession}
    (h : List.Forall₂ SameReport sessions sessions') :
    (liveRow project observedAt sessions).map Conversation.shown =
      (liveRow project observedAt' sessions').map Conversation.shown := by
  cases h with
  | nil => rfl
  | @cons session session' others others' hsession hothers =>
    have hcompared := ConversationProvenance.same_iff.mp hsession.provenance
    have hfirst : (liveOnlyConversation session project observedAt).shown =
        (liveOnlyConversation session' project observedAt').shown := by
      simp only [Conversation.shown, liveOnlyConversation, List.map_singleton, hsession.title,
        hcompared, tool_of_input hsession.input, reference_of_input hsession.input]
    exact congrArg some (shown_enrichAll hfirst hothers)

/-- Sessions that agree and belong to one conversation, or to none. -/
def SamePlace (filesystem : FilesystemConversationSnapshot)
    (left right : NormalizedLiveSession) : Prop :=
  SameReport left right ∧ matchIndex filesystem left = matchIndex filesystem right

theorem matchedTo_samePlace {live live' : LiveConversationSnapshot}
    (h : List.Forall₂ (SamePlace filesystem) live live') (index : Nat) :
    List.Forall₂ SameReport (matchedTo filesystem live index) (matchedTo filesystem live' index) := by
  have hfilter := List.rel_filter (p := fun session => matchIndex filesystem session = some index)
    (q := fun session => matchIndex filesystem session = some index)
    (fun _ _ (hsession : SamePlace filesystem _ _) => by simp [hsession.2]) h
  exact hfilter.imp fun _ _ hsession => hsession.1

theorem unmatched_samePlace {live live' : LiveConversationSnapshot}
    (h : List.Forall₂ (SamePlace filesystem) live live') (key : LiveKey) :
    List.Forall₂ SameReport
      ((unmatched filesystem live).filter fun session => session.liveKey = key)
      ((unmatched filesystem live').filter fun session => session.liveKey = key) := by
  have hunmatched := List.rel_filter (p := fun session => matchIndex filesystem session = none)
    (q := fun session => matchIndex filesystem session = none)
    (fun _ _ (hsession : SamePlace filesystem _ _) => by simp [hsession.2]) h
  have hfilter := List.rel_filter (p := fun session => session.liveKey = key)
    (q := fun session => session.liveKey = key)
    (fun _ _ (hsession : SamePlace filesystem _ _) => by
      simp [liveKey_of_input hsession.1.input]) hunmatched
  exact hfilter.imp fun _ _ hsession => hsession.1

theorem shown_enrichedRows {live live' : LiveConversationSnapshot}
    (h : List.Forall₂ (SamePlace filesystem) live live') :
    (enrichedRows filesystem observedAt live).map Conversation.shown =
      (enrichedRows filesystem observedAt' live').map Conversation.shown := by
  refine List.ext_getElem (by simp [enrichedRows]) fun index hleft hright => ?_
  simp only [enrichedRows, List.getElem_map, List.getElem_mapIdx]
  exact shown_enrichAll rfl (matchedTo_samePlace h index)

def shownKey (shown : ShownConversation) : LiveKey :=
  toLex (shown.tool, shown.sessionReference.id)

theorem nodup_shown_values (liveOnly : LiveOnly) :
    (liveOnly.values.map Conversation.shown).Nodup := by
  have hkeys : ((liveOnly.values.map Conversation.shown).map shownKey).Nodup := by
    rw [List.map_map]
    exact liveOnly.nodup_keys_values
  exact hkeys.of_map

theorem mem_shown_values {liveOnly : LiveOnly} {shown : ShownConversation} :
    shown ∈ liveOnly.values.map Conversation.shown ↔
      (liveOnly.get? (shownKey shown)).map Conversation.shown = some shown := by
  rw [List.mem_map, Option.map_eq_some_iff]
  constructor
  · rintro ⟨row, hmem, rfl⟩
    exact ⟨row, Table.mem_values.mp hmem, rfl⟩
  · rintro ⟨row, hget, rfl⟩
    exact ⟨row, Table.mem_values.mpr hget, rfl⟩

/-- Sessions that agree and belong to the same conversations give the same merge. -/
theorem sameRows_of_samePlace {live live' : LiveConversationSnapshot}
    (h : List.Forall₂ (SamePlace filesystem) live live') :
    SameRows (mergePreparedLiveSessions filesystem project observedAt live)
      (mergePreparedLiveSessions filesystem project observedAt' live') := by
  have hvalues : ((liveOnlyRows filesystem project observedAt live).values.map
      Conversation.shown).Perm
      ((liveOnlyRows filesystem project observedAt' live').values.map Conversation.shown) := by
    refine (List.perm_ext_iff_of_nodup (nodup_shown_values _) (nodup_shown_values _)).mpr ?_
    intro shown
    rw [mem_shown_values, mem_shown_values, get?_liveOnlyRows, get?_liveOnlyRows,
      shown_liveRow (unmatched_samePlace h (shownKey shown))]
  calc (mergePreparedLiveSessions filesystem project observedAt live).map Conversation.shown
    _ |>.Perm ((enrichedRows filesystem observedAt live ++
        (liveOnlyRows filesystem project observedAt live).values).map Conversation.shown) :=
      (perm_mergePreparedLiveSessions live).map _
    _ |>.Perm ((enrichedRows filesystem observedAt' live' ++
        (liveOnlyRows filesystem project observedAt' live').values).map Conversation.shown) := by
      rw [List.map_append, List.map_append, shown_enrichedRows h]
      exact hvalues.append_left _
    _ |>.Perm ((mergePreparedLiveSessions filesystem project observedAt' live').map
        Conversation.shown) :=
      ((perm_mergePreparedLiveSessions live').map _).symm

/-! ## What a fingerprint leaves out -/

/-- One report, of one transcript file and with one documented identity. -/
structure Agrees (left right : NormalizedLiveSession) : Prop where
  provenance : left.provenance.same right.provenance = true
  transcript : left.transcriptIdentity = right.transcriptIdentity
  documented : left.documentedIdentity = right.documentedIdentity

theorem path_eq_none_of_same {left right : ConversationProvenance} (h : left.same right = true) :
    left.path = none ↔ right.path = none := by
  have hpath := congrArg (fun compared => compared.2.2.isNone)
    (ConversationProvenance.same_iff.mp h)
  simp only [ConversationProvenance.compared, Option.isNone_map] at hpath
  rw [← Option.isNone_iff_eq_none, ← Option.isNone_iff_eq_none, hpath]

theorem nativeIdentity_eq_none_iff (session : NormalizedLiveSession) :
    session.nativeIdentity = none ↔ session.provenance.path ≠ none := by
  constructor
  · intro hnative hpath
    have hsome := session.native_of_pathless hpath
    simp [hnative] at hsome
  · intro hpath
    by_contra hnative
    exact hpath (session.native_alone (Option.isSome_iff_ne_none.mpr hnative)).2.2

theorem nativeIdentity_eq_none_of_same {left right : NormalizedLiveSession}
    (h : left.provenance.same right.provenance = true) :
    left.nativeIdentity = none ↔ right.nativeIdentity = none := by
  rw [nativeIdentity_eq_none_iff, nativeIdentity_eq_none_iff, Ne, path_eq_none_of_same h]

theorem nativeIdentity_of_report {left right : NormalizedLiveSession} (h : SameReport left right) :
    left.nativeIdentity = right.nativeIdentity := by
  cases hleft : left.nativeIdentity with
  | none => exact ((nativeIdentity_eq_none_of_same h.provenance).mp hleft).symm
  | some reference =>
    cases hright : right.nativeIdentity with
    | none =>
      rw [(nativeIdentity_eq_none_of_same h.provenance).mpr hright] at hleft
      contradiction
    | some reference' =>
      rw [left.native_eq reference hleft, right.native_eq reference' hright,
        reference_of_input h.input]

/-- Sessions that agree have one place in every filesystem snapshot. -/
theorem samePlace_of_agrees {left right : NormalizedLiveSession}
    (hinput : left.fingerprintInput = right.fingerprintInput) (h : Agrees left right) :
    SamePlace filesystem left right := by
  have hreport : SameReport left right := ⟨hinput, h.provenance⟩
  refine ⟨hreport, ?_⟩
  rw [matchIndex, matchIndex, nativeIdentity_of_report hreport, h.transcript, h.documented]

theorem resume_of_row {live : LiveConversationSnapshot} {row : Conversation}
    (h : row ∈ (liveOnlyRows filesystem project observedAt live).values) :
    row.resume = .unsupported := by
  rw [Table.mem_values, get?_liveOnlyRows] at h
  cases hsessions : (unmatched filesystem live).filter
      fun session => session.liveKey = Conversation.liveKey row with
  | nil =>
    rw [hsessions] at h
    contradiction
  | cons session others =>
    rw [hsessions, liveRow, Option.some.injEq] at h
    rw [← h]
    exact (keeps_enrichAll _ _).resume

theorem eq_of_liveKey {live : LiveConversationSnapshot}
    (hkeys : (live.map NormalizedLiveSession.liveKey).Nodup) {session other : NormalizedLiveSession}
    (hmem : session ∈ live) (hother : other ∈ live) (h : other.liveKey = session.liveKey) :
    other = session :=
  List.inj_on_of_nodup_map hkeys hother hmem h

/-- Against conversations that can be resumed, a row of its own shows that a
session belongs to none of them. -/
theorem unmatched_of_sameRows {live live' : LiveConversationSnapshot}
    (hresume : ∀ conversation ∈ filesystem.conversations, conversation.resume ≠ .unsupported)
    (h : SameRows (mergePreparedLiveSessions filesystem project observedAt live)
      (mergePreparedLiveSessions filesystem project observedAt' live'))
    (hkeys : (live.map NormalizedLiveSession.liveKey).Nodup)
    {session session' : NormalizedLiveSession} (hmem : session ∈ live) (hmem' : session' ∈ live')
    (hinput : session.fingerprintInput = session'.fingerprintInput)
    (hnone : matchIndex filesystem session' = none) : matchIndex filesystem session = none := by
  obtain ⟨row', hrow', htool', hreference', -⟩ :
      ∃ row ∈ (liveOnlyRows filesystem project observedAt' live').values,
        row.tool = session'.tool ∧ row.sessionReference = session'.stableReference ∧
          Shows row session' :=
    exists_row_of_session hmem' hnone
  have hmerged' := (perm_mergePreparedLiveSessions live').mem_iff.mpr (List.mem_append_right _ hrow')
  obtain ⟨row, hmerged, hshown⟩ := exists_of_sameRows h.symm hmerged'
  simp only [Conversation.shown, ShownConversation.mk.injEq] at hshown
  obtain ⟨htool, hreference, -, -, -, -, -, -, hunsupported⟩ := hshown
  rw [resume_of_row hrow'] at hunsupported
  rcases List.mem_append.mp ((perm_mergePreparedLiveSessions live).mem_iff.mp hmerged) with hrow | hrow
  · obtain ⟨index, hindex, rfl⟩ := List.mem_mapIdx.mp hrow
    rw [(keeps_enrichAll _ _).resume] at hunsupported
    exact absurd hunsupported (hresume _ (List.getElem_mem hindex))
  · obtain ⟨other, hother, hunmatched, hothertool, hotherreference⟩ := exists_session_of_row hrow
    have hkey : other.liveKey = session.liveKey := by
      rw [NormalizedLiveSession.liveKey, NormalizedLiveSession.liveKey, ← hothertool, htool, htool',
        ← hotherreference, hreference, hreference', tool_of_input hinput, reference_of_input hinput]
    rw [← eq_of_liveKey hkeys hmem hother hkey]
    exact hunmatched

/-! ## Snapshots that tell two sessions apart -/

/-- A resumable conversation, for a snapshot that holds nothing else. -/
def probe (project : ProjectIdentity) (reference : SessionReference) (path : Option PathBuf) :
    Conversation where
  tool := reference.nameSpace
  sessionReference := reference
  projectIdentity := project
  title := none
  createdAt := none
  archivedAt := none
  updatedAt := ⟨0, epoch_range⟩
  state := .unknown
  provenance := [⟨reference.nameSpace, .projectLocal, path⟩]
  resume := .supported reference.nameSpace
  provenance_ne_nil := by simp

theorem uniqueIndex_singleton {κ : Type} [DecidableEq κ] (key other : κ) :
    uniqueIndex (indexUnique [(key, 0)]) other = if other = key then some 0 else none := by
  rw [uniqueIndex, lookup_indexUnique]
  by_cases h : key = other
  · simp [h, resolve]
  · simp [h, Ne.symm h, resolve]

theorem matchIndex_probe {fs : FileSystem} {reference : SessionReference} {path : Option PathBuf}
    {session : NormalizedLiveSession} (hnative : session.nativeIdentity = none) :
    matchIndex (prepareFilesystemConversations fs [probe project reference path]) session ≠ none ↔
      (∃ identity, path.bind (TranscriptIdentity.fromPath fs) = some identity ∧
        session.transcriptIdentity = some identity) ∨
      session.documentedIdentity = some reference := by
  have htranscript : transcriptPairs fs [probe project reference path] =
      ((path.bind (TranscriptIdentity.fromPath fs)).toList.map fun identity => (identity, 0)) := by
    simp only [transcriptPairs, transcriptIdentities, probe, List.zipIdx_singleton,
      List.flatMap_singleton]
    cases hpath : path.bind (TranscriptIdentity.fromPath fs) <;>
      simp [hpath]
  have hreference : referencePairs [probe project reference path] = [(reference, 0)] := rfl
  simp only [matchIndex, prepareFilesystemConversations, hnative, htranscript, hreference,
    Option.bind_none, Option.none_or]
  cases path.bind (TranscriptIdentity.fromPath fs) with
  | none =>
    have hempty : ∀ identity, uniqueIndex (indexUnique ([] : List (TranscriptIdentity × Nat)))
        identity = none := fun _ => rfl
    cases session.transcriptIdentity <;> cases session.documentedIdentity <;>
      simp [hempty, uniqueIndex_singleton]
  | some identity =>
    simp only [Option.toList_some, List.map_singleton]
    cases session.transcriptIdentity <;> cases session.documentedIdentity <;>
      simp [uniqueIndex_singleton, or_iff_not_imp_left, @eq_comm _ identity]

theorem transcriptIdentity_of_normalize {fs : FileSystem} {session : HostAgentSession}
    {normalized : NormalizedLiveSession}
    (h : normalizeLiveSession fs session project = some normalized) :
    normalized.transcriptIdentity =
      normalized.provenance.path.bind (TranscriptIdentity.fromPath fs) := by
  unfold normalizeLiveSession at h
  split at h
  next =>
    obtain ⟨tool, -, h⟩ := Option.bind_eq_some_iff.mp h
    cases hreference : session.reference with
    | nativeId id =>
      simp only [hreference, normalizeNative] at h
      split at h
      next =>
        obtain ⟨⟨identity, hidentity⟩, -, h⟩ := Option.bind_eq_some_iff.mp h
        cases h
        rfl
      next => contradiction
    | transcriptPath path =>
      simp only [hreference, normalizePath] at h
      split at h
      next =>
        obtain ⟨⟨stable, hnameSpace, hdocumented⟩, -, h⟩ := Option.bind_eq_some_iff.mp h
        cases h
        rfl
      next => contradiction
  next => contradiction

theorem transcriptIdentity_of_prepared {fs : FileSystem} {sessions : List HostAgentSession}
    {session : NormalizedLiveSession}
    (h : session ∈ prepareLiveConversations fs sessions project) :
    session.transcriptIdentity = session.provenance.path.bind (TranscriptIdentity.fromPath fs) := by
  rw [prepareLiveConversations, (List.perm_insertionSort _ _).mem_iff] at h
  obtain ⟨reported, -, hnormalize⟩ := List.mem_filterMap.mp h
  exact transcriptIdentity_of_normalize hnormalize

/-- The merges agree against every filesystem snapshot, whenever they are made. -/
def SameMerges (project : ProjectIdentity) (live live' : LiveConversationSnapshot) : Prop :=
  ∀ (fs : FileSystem) (conversations : List Conversation) (observedAt observedAt' : SystemTime),
    SameRows
      (mergePreparedLiveSessions (prepareFilesystemConversations fs conversations) project
        observedAt live)
      (mergePreparedLiveSessions (prepareFilesystemConversations fs conversations) project
        observedAt' live')

theorem SameMerges.symm {live live' : LiveConversationSnapshot} (h : SameMerges project live live') :
    SameMerges project live' live :=
  fun fs conversations observedAt observedAt' =>
    (h fs conversations observedAt' observedAt).symm

section

variable {live live' : LiveConversationSnapshot} {session session' : NormalizedLiveSession}

theorem matched_of_sameMerges (h : SameMerges project live live')
    (hkeys : (live.map NormalizedLiveSession.liveKey).Nodup) (hmem : session ∈ live)
    (hmem' : session' ∈ live') (hinput : session.fingerprintInput = session'.fingerprintInput)
    {fs : FileSystem} {reference : SessionReference} {path : Option PathBuf}
    (hmatched : matchIndex (prepareFilesystemConversations fs [probe project reference path])
      session ≠ none) :
    matchIndex (prepareFilesystemConversations fs [probe project reference path]) session' ≠
      none := by
  intro hnone'
  refine hmatched ?_
  have hresume : ∀ conversation ∈ (prepareFilesystemConversations fs
      [probe project reference path]).conversations, conversation.resume ≠ .unsupported := by
    simp [prepareFilesystemConversations, probe]
  exact unmatched_of_sameRows hresume
    (h fs [probe project reference path] ⟨0, by decide⟩ ⟨0, by decide⟩) hkeys hmem hmem' hinput hnone'

theorem only_session (hkeys : (live.map NormalizedLiveSession.liveKey).Nodup)
    (hmem : session ∈ live) :
    live.filter (fun other => other.liveKey = session.liveKey) = [session] := by
  induction live with
  | nil => contradiction
  | cons other live ih =>
    rw [List.map_cons, List.nodup_cons] at hkeys
    rcases List.mem_cons.mp hmem with rfl | hrest
    · have hnone : live.filter (fun other => other.liveKey = session.liveKey) = [] := by
        rw [List.filter_eq_nil_iff]
        intro other hother hkey
        exact hkeys.1 (List.mem_map.mpr ⟨other, hother, of_decide_eq_true hkey⟩)
      simp [hnone]
    · have hne : other.liveKey ≠ session.liveKey := fun heq =>
        hkeys.1 (heq ▸ List.mem_map_of_mem hrest)
      rw [List.filter_cons_of_neg (by simpa using hne)]
      exact ih hkeys.2 hrest

theorem get?_liveOnlyRows_empty {fs : FileSystem}
    (hkeys : (live.map NormalizedLiveSession.liveKey).Nodup) (hmem : session ∈ live) :
    (liveOnlyRows (prepareFilesystemConversations fs []) project observedAt live).get?
      session.liveKey = some (liveOnlyConversation session project observedAt) := by
  have hnone : ∀ other, matchIndex (prepareFilesystemConversations fs []) other = none := by
    have hnative : uniqueIndex (prepareFilesystemConversations fs []).native = fun _ => none := rfl
    have htranscript : uniqueIndex (prepareFilesystemConversations fs []).transcript =
        fun _ => none := rfl
    have hdocumented : uniqueIndex (prepareFilesystemConversations fs []).documented =
        fun _ => none := rfl
    simp [matchIndex, hnative, htranscript, hdocumented]
  have hunmatched : unmatched (prepareFilesystemConversations fs []) live = live := by
    simp [unmatched, hnone]
  rw [get?_liveOnlyRows, hunmatched, only_session hkeys hmem]
  rfl

theorem provenance_of_sameMerges (h : SameMerges project live live')
    (hkeys : (live.map NormalizedLiveSession.liveKey).Nodup)
    (hkeys' : (live'.map NormalizedLiveSession.liveKey).Nodup) (hmem : session ∈ live)
    (hmem' : session' ∈ live') (hinput : session.fingerprintInput = session'.fingerprintInput)
    (fs : FileSystem) (observedAt : SystemTime) :
    session.provenance.same session'.provenance = true := by
  have hrow : liveOnlyConversation session project observedAt ∈
      (liveOnlyRows (prepareFilesystemConversations fs []) project observedAt live).values :=
    Table.mem_values.mpr (get?_liveOnlyRows_empty hkeys hmem)
  have hmerged := (perm_mergePreparedLiveSessions live).mem_iff.mpr (List.mem_append_right _ hrow)
  obtain ⟨row', hmerged', hshown⟩ := exists_of_sameRows (h fs [] observedAt observedAt) hmerged
  have hkey : Conversation.liveKey row' = session'.liveKey := by
    rw [← liveKey_of_input hinput]
    exact congrArg shownKey hshown
  have hrow' : liveOnlyConversation session' project observedAt = row' := by
    rcases List.mem_append.mp ((perm_mergePreparedLiveSessions live').mem_iff.mp hmerged') with
      hrow' | hrow'
    · simp [enrichedRows, prepareFilesystemConversations] at hrow'
    · have hget := Table.mem_values.mp hrow'
      rw [hkey, get?_liveOnlyRows_empty hkeys' hmem'] at hget
      exact Option.some.inj hget
  have hcompared := congrArg ShownConversation.provenance (hrow' ▸ hshown)
  simp only [Conversation.shown, liveOnlyConversation, List.map_singleton, List.cons.injEq,
    and_true] at hcompared
  exact ConversationProvenance.same_iff.mpr hcompared.symm

theorem normal_omp : normalizeNonempty "omp" = some "omp" := by decide +kernel

/-- A reference in another namespace. -/
def otherReference (reference : SessionReference) : SessionReference where
  nameSpace :=
    if reference.nameSpace = ⟨"pi", normal_pi⟩ then ⟨"omp", normal_omp⟩
    else ⟨"pi", normal_pi⟩
  id := reference.id

theorem otherReference_ne (reference : SessionReference) : reference ≠ otherReference reference := by
  intro h
  have hnameSpace := congrArg SessionReference.nameSpace h
  unfold otherReference at hnameSpace
  split at hnameSpace
  next hpi =>
    have homp := congrArg NormalText.text (hpi.symm.trans hnameSpace)
    exact absurd homp (by simp)
  next hpi => exact hpi hnameSpace

theorem documented_of_sameMerges (h : SameMerges project live live')
    (hkeys : (live.map NormalizedLiveSession.liveKey).Nodup) (hmem : session ∈ live)
    (hmem' : session' ∈ live') (hinput : session.fingerprintInput = session'.fingerprintInput)
    (hnative : session.nativeIdentity = none) (hnative' : session'.nativeIdentity = none)
    (fs : FileSystem) {reference : SessionReference}
    (hdocumented : session.documentedIdentity = some reference) :
    session'.documentedIdentity = some reference := by
  have hmatched : matchIndex
      (prepareFilesystemConversations fs [probe project reference none]) session ≠ none :=
    (matchIndex_probe hnative).mpr (Or.inr hdocumented)
  rcases (matchIndex_probe hnative').mp
    (matched_of_sameMerges h hkeys hmem hmem' hinput hmatched) with ⟨_, hnone, -⟩ | hsome
  · contradiction
  · exact hsome

theorem transcript_of_sameMerges (h : SameMerges project live live')
    (hkeys : (live.map NormalizedLiveSession.liveKey).Nodup) (hmem : session ∈ live)
    (hmem' : session' ∈ live') (hinput : session.fingerprintInput = session'.fingerprintInput)
    (hnative : session.nativeIdentity = none) (hnative' : session'.nativeIdentity = none)
    {fs : FileSystem} {identity : TranscriptIdentity}
    (hfile : session.provenance.path.bind (TranscriptIdentity.fromPath fs) = some identity)
    (htranscript : session.transcriptIdentity = some identity) :
    session'.transcriptIdentity = some identity := by
  have hmatched : matchIndex (prepareFilesystemConversations fs
      [probe project (otherReference session.stableReference) session.provenance.path]) session ≠
      none :=
    (matchIndex_probe hnative).mpr (Or.inl ⟨identity, hfile, htranscript⟩)
  rcases (matchIndex_probe hnative').mp
    (matched_of_sameMerges h hkeys hmem hmem' hinput hmatched) with ⟨found, hfound, hsome⟩ | hsome
  · rw [hfile] at hfound
    rw [hsome, hfound]
  · have hreference := session'.documented_eq _ hsome
    rw [← reference_of_input hinput] at hreference
    exact absurd hreference.symm (otherReference_ne _)

end

theorem inputs_of_map_eq {live live' : LiveConversationSnapshot}
    (h : live.map NormalizedLiveSession.fingerprintInput =
      live'.map NormalizedLiveSession.fingerprintInput) :
    List.Forall₂ (fun session session' : NormalizedLiveSession =>
      session.fingerprintInput = session'.fingerprintInput) live live' := by
  have heq := List.forall₂_eq_eq_eq ▸ h
  rwa [List.forall₂_map_left_iff, List.forall₂_map_right_iff] at heq

theorem keys_of_inputs {live live' : LiveConversationSnapshot}
    (h : List.Forall₂ (fun session session' : NormalizedLiveSession =>
      session.fingerprintInput = session'.fingerprintInput) live live') :
    live.map NormalizedLiveSession.liveKey = live'.map NormalizedLiveSession.liveKey := by
  induction h with
  | nil => rfl
  | cons hinput _ ih => rw [List.map_cons, List.map_cons, liveKey_of_input hinput, ih]

/-- Equal fingerprints stand for equal merges where corresponding sessions
belong to the same conversation and report the same path. Against every
filesystem snapshot, that is where they also agree on their transcript file and
on their documented identity. -/
theorem fingerprint_decides_merge {fs fs' : FileSystem} {sessions sessions' : List HostAgentSession}
    {live live' : LiveConversationSnapshot}
    (hlive : live = prepareLiveConversations fs sessions project)
    (hlive' : live' = prepareLiveConversations fs' sessions' project)
    (h : live.map NormalizedLiveSession.fingerprintInput =
      live'.map NormalizedLiveSession.fingerprintInput) :
    (∀ (filesystem : FilesystemConversationSnapshot) (observedAt observedAt' : SystemTime),
      List.Forall₂ (fun session session' =>
        matchIndex filesystem session = matchIndex filesystem session' ∧
          session.provenance.same session'.provenance = true) live live' →
      SameRows (mergePreparedLiveSessions filesystem project observedAt live)
        (mergePreparedLiveSessions filesystem project observedAt' live')) ∧
    (List.Forall₂ Agrees live live' → SameMerges project live live') ∧
    ((live.map NormalizedLiveSession.liveKey).Nodup → SameMerges project live live' →
      List.Forall₂ Agrees live live') := by
  have hinputs := inputs_of_map_eq h
  have hlength := hinputs.length_eq
  rw [List.forall₂_iff_zip] at hinputs
  refine ⟨?_, ?_, ?_⟩
  · intro filesystem observedAt observedAt' hplaces
    rw [List.forall₂_iff_zip] at hplaces
    refine sameRows_of_samePlace (List.forall₂_iff_zip.mpr ⟨hlength, ?_⟩)
    intro session session' hzip
    obtain ⟨hmatch, hsame⟩ := hplaces.2 hzip
    exact ⟨⟨hinputs.2 hzip, hsame⟩, hmatch⟩
  · intro hagree fs conversations observedAt observedAt'
    rw [List.forall₂_iff_zip] at hagree
    refine sameRows_of_samePlace (List.forall₂_iff_zip.mpr ⟨hlength, ?_⟩)
    intro session session' hzip
    exact samePlace_of_agrees (hinputs.2 hzip) (hagree.2 hzip)
  · intro hkeys hmerges
    have hkeys' := keys_of_inputs (List.forall₂_iff_zip.mpr hinputs) ▸ hkeys
    refine List.forall₂_iff_zip.mpr ⟨hlength, ?_⟩
    intro session session' hzip
    obtain ⟨hmem, hmem'⟩ := List.of_mem_zip hzip
    have hinput := hinputs.2 hzip
    have hsame := provenance_of_sameMerges hmerges hkeys hkeys' hmem hmem' hinput fs ⟨0, by decide⟩
    have hfile := transcriptIdentity_of_prepared (hlive ▸ hmem)
    have hfile' := transcriptIdentity_of_prepared (hlive' ▸ hmem')
    by_cases hnative : session.nativeIdentity = none
    · have hnative' := (nativeIdentity_eq_none_of_same hsame).mp hnative
      refine ⟨hsame, Option.ext fun identity => ⟨fun hidentity => ?_, fun hidentity => ?_⟩,
        Option.ext fun reference => ⟨fun hreference => ?_, fun hreference => ?_⟩⟩
      · exact transcript_of_sameMerges hmerges hkeys hmem hmem' hinput hnative hnative'
          (hfile ▸ hidentity) hidentity
      · exact transcript_of_sameMerges hmerges.symm hkeys' hmem' hmem hinput.symm hnative' hnative
          (hfile' ▸ hidentity) hidentity
      · exact documented_of_sameMerges hmerges hkeys hmem hmem' hinput hnative hnative' fs hreference
      · exact documented_of_sameMerges hmerges.symm hkeys' hmem' hmem hinput.symm hnative' hnative
          fs hreference
    · have hnative' := mt (nativeIdentity_eq_none_of_same hsame).mpr hnative
      obtain ⟨htranscript, hdocumented, -⟩ :=
        session.native_alone (Option.isSome_iff_ne_none.mpr hnative)
      obtain ⟨htranscript', hdocumented', -⟩ :=
        session'.native_alone (Option.isSome_iff_ne_none.mpr hnative')
      exact ⟨hsame, htranscript.trans htranscript'.symm, hdocumented.trans hdocumented'.symm⟩

end

/-! One pane that shows a session of one documented id, in either of two files. -/

def asciiPath (text : String) : PathBuf := ⟨text.toList.map fun c => c.toNat.toUInt8⟩

def resumedFile : PathBuf := asciiPath "/p/a/s_01890a5d-ac96-7740-8cce-b302099a8057.jsonl"

def branchedFile : PathBuf := asciiPath "/p/b/s_01890a5d-ac96-7740-8cce-b302099a8057.jsonl"

def sessionIn (path : PathBuf) (h : path.isAbsolute = true) : HostAgentSession :=
  { samplePiSession with
    reference := .transcriptPath path
    reference_valid := h }

def resumedSession : HostAgentSession := sessionIn resumedFile (by decide +kernel)

def branchedSession : HostAgentSession := sessionIn branchedFile (by decide +kernel)

def resumedConversation : Conversation :=
  { sampleConversation with
    provenance := [⟨⟨"generic-jsonl", normal_genericJsonl⟩, .projectLocal, some resumedFile⟩]
    provenance_ne_nil := by simp }

/-- The merge shows the session in its conversation in one case and apart from
it in the other. -/
theorem fingerprint_hides_match : ¬ ∀ (fs : FileSystem) (conversations : List Conversation)
    (sessions sessions' : List HostAgentSession) (project : ProjectIdentity) (observedAt : SystemTime),
    (prepareLiveConversations fs sessions project).map NormalizedLiveSession.fingerprintInput =
      (prepareLiveConversations fs sessions' project).map NormalizedLiveSession.fingerprintInput →
    SameRows
      (mergePreparedLiveSessions (prepareFilesystemConversations fs conversations) project observedAt
        (prepareLiveConversations fs sessions project))
      (mergePreparedLiveSessions (prepareFilesystemConversations fs conversations) project observedAt
        (prepareLiveConversations fs sessions' project)) := by
  intro h
  have hrows := h sampleFileSystem [resumedConversation] [resumedSession] [branchedSession]
    sampleProject sampleTime (by decide +kernel)
  have hlength := List.Perm.length_eq hrows
  rw [List.length_map, List.length_map] at hlength
  exact absurd hlength (by decide +kernel)

/-- The sessions of the two files never give the same merges. -/
theorem fingerprint_decides_merge_sample :
    ¬ SameMerges sampleProject
      (prepareLiveConversations sampleFileSystem [resumedSession] sampleProject)
      (prepareLiveConversations sampleFileSystem [branchedSession] sampleProject) := by
  intro hmerges
  have hagree := (fingerprint_decides_merge rfl rfl (by decide +kernel)).2.2 (by decide +kernel)
    hmerges
  have hfiles : List.Forall₂ (· = ·)
      ((prepareLiveConversations sampleFileSystem [resumedSession] sampleProject).map
        NormalizedLiveSession.transcriptIdentity)
      ((prepareLiveConversations sampleFileSystem [branchedSession] sampleProject).map
        NormalizedLiveSession.transcriptIdentity) :=
    List.forall₂_map_left_iff.mpr
      (List.forall₂_map_right_iff.mpr (hagree.imp fun _ _ => Agrees.transcript))
  rw [List.forall₂_eq_eq_eq] at hfiles
  exact absurd hfiles (by decide +kernel)

end Live

end HerdrContext
