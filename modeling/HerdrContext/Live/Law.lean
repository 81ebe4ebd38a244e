import HerdrContext.Live.Merge

/-! What a merge does to every filesystem conversation and to every live session. -/
namespace HerdrContext.Live

open Library

/-! ## Enriching -/

/-- A later form of a conversation: what the filesystem knew of it stays. -/
structure Keeps (filesystem merged : Conversation) : Prop where
  tool : merged.tool = filesystem.tool
  reference : merged.sessionReference = filesystem.sessionReference
  project : merged.projectIdentity = filesystem.projectIdentity
  created : merged.createdAt = filesystem.createdAt
  archived : merged.archivedAt = filesystem.archivedAt
  resume : merged.resume = filesystem.resume
  title : ∀ title ∈ filesystem.title, merged.title = some title
  provenance : filesystem.provenance <+: merged.provenance

/-- The row shows that the session runs, and where it was reported. -/
structure Shows (row : Conversation) (session : NormalizedLiveSession) : Prop where
  live : row.state = .live
  reported : ∃ provenance ∈ row.provenance, provenance.same session.provenance = true

theorem Keeps.refl (conversation : Conversation) : Keeps conversation conversation :=
  ⟨rfl, rfl, rfl, rfl, rfl, rfl, fun _ h => h, List.prefix_refl _⟩

theorem Keeps.trans {first second third : Conversation} (h : Keeps first second)
    (h' : Keeps second third) : Keeps first third where
  tool := h'.tool.trans h.tool
  reference := h'.reference.trans h.reference
  project := h'.project.trans h.project
  created := h'.created.trans h.created
  archived := h'.archived.trans h.archived
  resume := h'.resume.trans h.resume
  title := fun title htitle => h'.title title (h.title title htitle)
  provenance := h.provenance.trans h'.provenance

theorem prefix_addProvenance (provenance : List ConversationProvenance)
    (live : ConversationProvenance) : provenance <+: addProvenance provenance live := by
  unfold addProvenance
  split
  next => exact List.prefix_refl _
  next => exact List.prefix_append _ _

theorem ConversationProvenance.same_refl (provenance : ConversationProvenance) :
    provenance.same provenance = true := by
  unfold ConversationProvenance.same
  cases provenance.path <;> simp

theorem exists_same_addProvenance (provenance : List ConversationProvenance)
    (live : ConversationProvenance) :
    ∃ existing ∈ addProvenance provenance live, existing.same live = true := by
  unfold addProvenance
  split
  next h => exact List.any_eq_true.mp h
  next => exact ⟨live, by simp, ConversationProvenance.same_refl live⟩

variable {observedAt : SystemTime}

theorem keeps_enrich (conversation : Conversation) (session : NormalizedLiveSession) :
    Keeps conversation (enrich conversation session observedAt) where
  tool := rfl
  reference := rfl
  project := rfl
  created := rfl
  archived := rfl
  resume := rfl
  title := by
    intro title htitle
    rw [Option.mem_def] at htitle
    simp [enrich, htitle]
  provenance := prefix_addProvenance _ _

theorem shows_enrich (conversation : Conversation) (session : NormalizedLiveSession) :
    Shows (enrich conversation session observedAt) session :=
  ⟨rfl, exists_same_addProvenance _ _⟩

theorem Shows.enrich {row : Conversation} {session : NormalizedLiveSession}
    (h : Shows row session) (other : NormalizedLiveSession) :
    Shows (enrich row other observedAt) session := by
  obtain ⟨provenance, hmem, hsame⟩ := h.reported
  exact ⟨rfl, provenance, (prefix_addProvenance _ _).subset hmem, hsame⟩

/-- Enriched with one session after another. -/
def enrichAll (observedAt : SystemTime) (conversation : Conversation)
    (sessions : List NormalizedLiveSession) : Conversation :=
  sessions.foldl (fun row session => enrich row session observedAt) conversation

@[simp] theorem enrichAll_nil (conversation : Conversation) :
    enrichAll observedAt conversation [] = conversation := rfl

@[simp] theorem enrichAll_cons (conversation : Conversation) (session : NormalizedLiveSession)
    (sessions : List NormalizedLiveSession) :
    enrichAll observedAt conversation (session :: sessions) =
      enrichAll observedAt (enrich conversation session observedAt) sessions := rfl

theorem enrichAll_concat (conversation : Conversation) (sessions : List NormalizedLiveSession)
    (session : NormalizedLiveSession) :
    enrichAll observedAt conversation (sessions ++ [session]) =
      enrich (enrichAll observedAt conversation sessions) session observedAt := by
  simp [enrichAll, List.foldl_append]

theorem keeps_enrichAll (conversation : Conversation) (sessions : List NormalizedLiveSession) :
    Keeps conversation (enrichAll observedAt conversation sessions) := by
  induction sessions generalizing conversation with
  | nil => exact Keeps.refl conversation
  | cons session sessions ih => exact (keeps_enrich conversation session).trans (ih _)

theorem Shows.enrichAll {row : Conversation} {session : NormalizedLiveSession}
    (h : Shows row session) (sessions : List NormalizedLiveSession) :
    Shows (enrichAll observedAt row sessions) session := by
  induction sessions generalizing row with
  | nil => exact h
  | cons other sessions ih => exact ih (h.enrich other)

theorem shows_enrichAll {conversation : Conversation} {sessions : List NormalizedLiveSession}
    {session : NormalizedLiveSession} (hmem : session ∈ sessions) :
    Shows (enrichAll observedAt conversation sessions) session := by
  induction sessions generalizing conversation with
  | nil => contradiction
  | cons other sessions ih =>
    rcases List.mem_cons.mp hmem with rfl | hmem
    · exact (shows_enrich conversation session).enrichAll sessions
    · exact ih hmem

/-! ## The rows of a merge -/

section

variable {filesystem : FilesystemConversationSnapshot} {project : ProjectIdentity}

/-- The sessions that belong to a filesystem conversation. -/
def matchedTo (filesystem : FilesystemConversationSnapshot) (live : LiveConversationSnapshot)
    (index : Nat) : List NormalizedLiveSession :=
  live.filter fun session => matchIndex filesystem session = some index

def unmatched (filesystem : FilesystemConversationSnapshot) (live : LiveConversationSnapshot) :
    List NormalizedLiveSession :=
  live.filter fun session => matchIndex filesystem session = none

/-- The filesystem conversations, each with its sessions. -/
def enrichedRows (filesystem : FilesystemConversationSnapshot) (observedAt : SystemTime)
    (live : LiveConversationSnapshot) : List Conversation :=
  filesystem.conversations.mapIdx fun index conversation =>
    enrichAll observedAt conversation (matchedTo filesystem live index)

def liveOnlyRows (filesystem : FilesystemConversationSnapshot) (project : ProjectIdentity)
    (observedAt : SystemTime) (live : LiveConversationSnapshot) : LiveOnly :=
  (unmatched filesystem live).foldl (mergeLiveOnly project observedAt) ∅

theorem foldl_mergeSession (live : LiveConversationSnapshot) :
    live.foldl (mergeSession filesystem project observedAt) (filesystem.conversations, ∅) =
      (enrichedRows filesystem observedAt live,
        liveOnlyRows filesystem project observedAt live) := by
  induction live using List.reverseRecOn with
  | nil => simp [enrichedRows, matchedTo, liveOnlyRows, unmatched, List.mapIdx_eq_zipIdx_map]
  | append_singleton live session ih =>
    rw [List.foldl_append, ih, List.foldl_cons, List.foldl_nil, mergeSession]
    cases hmatch : matchIndex filesystem session with
    | none =>
      have hrows : ∀ index, matchedTo filesystem (live ++ [session]) index =
          matchedTo filesystem live index := by
        intro index
        simp [matchedTo, List.filter_append, hmatch]
      simp [enrichedRows, hrows, liveOnlyRows, unmatched, List.filter_append, hmatch,
        List.foldl_append]
    | some index =>
      have hlive : liveOnlyRows filesystem project observedAt (live ++ [session]) =
          liveOnlyRows filesystem project observedAt live := by
        simp [liveOnlyRows, unmatched, List.filter_append, hmatch]
      rw [hlive]
      refine Prod.ext (List.ext_getElem? fun other => ?_) rfl
      simp only [enrichedRows, List.getElem?_modify, List.getElem?_mapIdx]
      cases filesystem.conversations[other]? with
      | none => simp
      | some conversation =>
        by_cases hother : index = other
        · subst hother
          simp [matchedTo, List.filter_append, hmatch, enrichAll_concat]
        · simp [matchedTo, List.filter_append, hmatch, hother]

theorem mergePreparedLiveSessions_eq (live : LiveConversationSnapshot) :
    mergePreparedLiveSessions filesystem project observedAt live =
      sortRecentFirst (enrichedRows filesystem observedAt live ++
        (liveOnlyRows filesystem project observedAt live).values) := by
  rw [mergePreparedLiveSessions, foldl_mergeSession]

theorem perm_mergePreparedLiveSessions (live : LiveConversationSnapshot) :
    (mergePreparedLiveSessions filesystem project observedAt live).Perm
      (enrichedRows filesystem observedAt live ++
        (liveOnlyRows filesystem project observedAt live).values) := by
  rw [mergePreparedLiveSessions_eq]
  exact List.perm_insertionSort _ _

/-! ## Live-only rows -/

/-- The row of a key: the first of its sessions, enriched with the others. -/
def liveRow (project : ProjectIdentity) (observedAt : SystemTime) :
    List NormalizedLiveSession → Option Conversation
  | [] => none
  | session :: others =>
    some (enrichAll observedAt (liveOnlyConversation session project observedAt) others)

theorem liveRow_concat (sessions : List NormalizedLiveSession) (session : NormalizedLiveSession) :
    liveRow project observedAt (sessions ++ [session]) =
      some (match liveRow project observedAt sessions with
        | some row => enrich row session observedAt
        | none => liveOnlyConversation session project observedAt) := by
  cases sessions with
  | nil => rfl
  | cons first others => simp [liveRow, enrichAll_concat]

theorem get?_foldl_mergeLiveOnly (sessions : List NormalizedLiveSession) (key : LiveKey) :
    (sessions.foldl (mergeLiveOnly project observedAt) ∅).get? key =
      liveRow project observedAt (sessions.filter fun session => session.liveKey = key) := by
  induction sessions using List.reverseRecOn generalizing key with
  | nil => exact Table.get?_empty key
  | append_singleton sessions session ih =>
    rw [List.foldl_append, List.foldl_cons, List.foldl_nil, List.filter_append]
    have hinsert : ∀ row : Conversation, Conversation.liveKey row = session.liveKey →
        ((sessions.foldl (mergeLiveOnly project observedAt) ∅).insert row).get? key =
          if session.liveKey = key then some row
          else liveRow project observedAt (sessions.filter fun other => other.liveKey = key) := by
      intro row hrow
      rw [Table.get?_insert, hrow, ih key]
    by_cases hkey : session.liveKey = key
    · subst hkey
      rw [List.filter_singleton, decide_eq_true rfl, cond_true, liveRow_concat, mergeLiveOnly,
        ih session.liveKey]
      cases hrow : liveRow project observedAt
          (sessions.filter fun other => other.liveKey = session.liveKey) with
      | none => exact (hinsert _ rfl).trans (if_pos rfl)
      | some row =>
        have hrowKey : Conversation.liveKey row = session.liveKey :=
          Table.key_of_get? ((ih session.liveKey).trans hrow)
        exact (hinsert (enrich row session observedAt) hrowKey).trans (if_pos rfl)
    · rw [List.filter_singleton, decide_eq_false hkey, cond_false, List.append_nil, mergeLiveOnly]
      cases hrow : (sessions.foldl (mergeLiveOnly project observedAt) ∅).get? session.liveKey with
      | none => exact (hinsert _ rfl).trans (if_neg hkey)
      | some row =>
        have hrowKey : Conversation.liveKey row = session.liveKey := Table.key_of_get? hrow
        exact (hinsert (enrich row session observedAt) hrowKey).trans (if_neg hkey)

theorem get?_liveOnlyRows (live : LiveConversationSnapshot) (key : LiveKey) :
    (liveOnlyRows filesystem project observedAt live).get? key =
      liveRow project observedAt
        ((unmatched filesystem live).filter fun session => session.liveKey = key) :=
  get?_foldl_mergeLiveOnly _ key

theorem reference_of_liveKey {left right : NormalizedLiveSession}
    (h : left.liveKey = right.liveKey) :
    left.tool = right.tool ∧ left.stableReference = right.stableReference := by
  have hpair := toLex.injective h
  have htool : left.tool = right.tool := congrArg Prod.fst hpair
  have hid : left.stableReference.id = right.stableReference.id := congrArg Prod.snd hpair
  refine ⟨htool, ?_⟩
  have hleft := left.nameSpace_eq
  have hright := right.nameSpace_eq
  cases hl : left.stableReference
  cases hr : right.stableReference
  simp_all

/-- A live-only row is the row of a session without a filesystem conversation. -/
theorem exists_session_of_row {live : LiveConversationSnapshot} {row : Conversation}
    (h : row ∈ (liveOnlyRows filesystem project observedAt live).values) :
    ∃ session ∈ live, matchIndex filesystem session = none ∧
      row.tool = session.tool ∧ row.sessionReference = session.stableReference := by
  rw [Table.mem_values, get?_liveOnlyRows] at h
  cases hsessions : (unmatched filesystem live).filter
      fun session => session.liveKey = Conversation.liveKey row with
  | nil =>
    rw [hsessions] at h
    contradiction
  | cons session others =>
    rw [hsessions, liveRow, Option.some.injEq] at h
    have hmem : session ∈ (unmatched filesystem live).filter
        fun session => session.liveKey = Conversation.liveKey row := by simp [hsessions]
    have hunmatched := List.mem_filter.mp (List.mem_filter.mp hmem).1
    have hkeeps : Keeps (liveOnlyConversation session project observedAt) row :=
      h ▸ keeps_enrichAll _ others
    exact ⟨session, hunmatched.1, by simpa using hunmatched.2, hkeeps.tool, hkeeps.reference⟩

theorem exists_row_of_session {live : LiveConversationSnapshot} {session : NormalizedLiveSession}
    (hmem : session ∈ live) (hmatch : matchIndex filesystem session = none) :
    ∃ row ∈ (liveOnlyRows filesystem project observedAt live).values,
      row.tool = session.tool ∧ row.sessionReference = session.stableReference ∧
        Shows row session := by
  have hin : session ∈ (unmatched filesystem live).filter
      fun other => other.liveKey = session.liveKey := by
    simp [unmatched, hmem, hmatch]
  cases hsessions : (unmatched filesystem live).filter
      fun other => other.liveKey = session.liveKey with
  | nil =>
    rw [hsessions] at hin
    contradiction
  | cons first others =>
    have hget : (liveOnlyRows filesystem project observedAt live).get? session.liveKey = _ :=
      get?_liveOnlyRows live session.liveKey
    rw [hsessions, liveRow] at hget
    have hrow : enrichAll observedAt (liveOnlyConversation first project observedAt) others ∈
        (liveOnlyRows filesystem project observedAt live).values := by
      rw [Table.mem_values, Table.key_of_get? hget]
      exact hget
    have hfirst : first ∈ (unmatched filesystem live).filter
        fun other => other.liveKey = session.liveKey := by simp [hsessions]
    have hsame := reference_of_liveKey (of_decide_eq_true (List.mem_filter.mp hfirst).2)
    have hkeeps : Keeps (liveOnlyConversation first project observedAt)
        (enrichAll observedAt (liveOnlyConversation first project observedAt) others) :=
      keeps_enrichAll _ others
    refine ⟨_, hrow, hkeeps.tool.trans hsame.1, hkeeps.reference.trans hsame.2, ?_⟩
    rw [hsessions] at hin
    rcases List.mem_cons.mp hin with rfl | hothers
    · exact Shows.enrichAll ⟨rfl, _, by simp [liveOnlyConversation],
        ConversationProvenance.same_refl _⟩ others
    · exact shows_enrichAll hothers

end

/-! ## Which conversation a session belongs to -/

section

variable {fs : FileSystem} {filesystem : List Conversation} {session : NormalizedLiveSession}

/-- The conversation is the only one with the identity the session is matched by:
a reference in the session's own namespace, or a transcript file, whose tool may
be another. -/
inductive Matches (fs : FileSystem) (filesystem : List Conversation)
    (session : NormalizedLiveSession) (conversation : Conversation) (index : Nat) : Prop where
  | native (identity : session.nativeIdentity = some conversation.sessionReference)
    (nameSpace : conversation.sessionReference.nameSpace = session.tool)
  | transcript (identity : TranscriptIdentity)
    (transcript : session.transcriptIdentity = some identity)
    (only : (transcriptPairs fs filesystem).filter (fun pair => pair.1 = identity) =
      [(identity, index)])
  | documented (identity : session.documentedIdentity = some conversation.sessionReference)
    (nameSpace : conversation.sessionReference.nameSpace = session.tool)

theorem mem_referencePairs {reference : SessionReference} {index : Nat} :
    (reference, index) ∈ referencePairs filesystem ↔
      ∃ conversation, filesystem[index]? = some conversation ∧
        conversation.sessionReference = reference := by
  simp only [referencePairs, List.mem_map, Prod.exists, Prod.mk.injEq, List.mem_zipIdx_iff_getElem?]
  constructor
  · rintro ⟨conversation, other, hget, hreference, rfl⟩
    exact ⟨conversation, hget, hreference⟩
  · rintro ⟨conversation, hget, hreference⟩
    exact ⟨conversation, index, hget, hreference, rfl⟩

theorem map_fst_referencePairs (filesystem : List Conversation) :
    (referencePairs filesystem).map Prod.fst = filesystem.map Conversation.sessionReference := by
  rw [referencePairs, List.map_map]
  have h : (Prod.fst ∘ fun pair : Conversation × Nat => (pair.1.sessionReference, pair.2)) =
      Conversation.sessionReference ∘ Prod.fst := rfl
  rw [h, ← List.map_map, List.zipIdx_map_fst]

theorem lt_length_of_transcriptPairs {identity : TranscriptIdentity} {index : Nat}
    (h : (identity, index) ∈ transcriptPairs fs filesystem) : index < filesystem.length := by
  simp only [transcriptPairs, List.mem_flatMap, List.mem_map, Prod.exists, Prod.mk.injEq,
    List.mem_zipIdx_iff_getElem?] at h
  obtain ⟨conversation, other, hget, identity', -, -, rfl⟩ := h
  exact (List.getElem?_eq_some_iff.mp hget).1

variable (hunique : (filesystem.map Conversation.sessionReference).Nodup)

include hunique

theorem uniqueIndex_references {reference : SessionReference} {index : Nat} :
    uniqueIndex (indexUnique (referencePairs filesystem)) reference = some index ↔
      ∃ conversation, filesystem[index]? = some conversation ∧
        conversation.sessionReference = reference := by
  rw [uniqueIndex_of_unique, mem_referencePairs]
  rw [map_fst_referencePairs]
  exact hunique

theorem matches_of_matchIndex {index : Nat}
    (h : matchIndex (prepareFilesystemConversations fs filesystem) session = some index) :
    ∃ conversation, filesystem[index]? = some conversation ∧
      Matches fs filesystem session conversation index := by
  rw [matchIndex, Option.or_eq_some_iff, Option.or_eq_some_iff] at h
  rcases h with h | ⟨-, h | ⟨-, h⟩⟩
  · obtain ⟨reference, hnative, hindex⟩ := Option.bind_eq_some_iff.mp h
    obtain ⟨conversation, hget, hreference⟩ := (uniqueIndex_references hunique).mp hindex
    refine ⟨conversation, hget, .native (by rw [hnative, hreference]) ?_⟩
    rw [hreference, session.native_eq reference hnative]
    exact session.nameSpace_eq
  · obtain ⟨identity, htranscript, hindex⟩ := Option.bind_eq_some_iff.mp h
    have honly := uniqueIndex_eq_some_iff.mp hindex
    have hmem : (identity, index) ∈ transcriptPairs fs filesystem := by
      refine (List.mem_filter (p := fun pair => pair.1 = identity)).mp ?_ |>.1
      rw [honly]
      simp
    have hlt := lt_length_of_transcriptPairs hmem
    exact ⟨filesystem[index], List.getElem?_eq_getElem hlt, .transcript identity htranscript honly⟩
  · obtain ⟨reference, hdocumented, hindex⟩ := Option.bind_eq_some_iff.mp h
    obtain ⟨conversation, hget, hreference⟩ := (uniqueIndex_references hunique).mp hindex
    refine ⟨conversation, hget, .documented (by rw [hdocumented, hreference]) ?_⟩
    rw [hreference, session.documented_eq reference hdocumented]
    exact session.nameSpace_eq

/-- A session with an identity of its own is matched by a conversation with that
reference. -/
theorem matchIndex_ne_none (hmem : session.stableReference ∈ filesystem.map Conversation.sessionReference)
    (hidentity : session.nativeIdentity ≠ none ∨ session.documentedIdentity ≠ none) :
    matchIndex (prepareFilesystemConversations fs filesystem) session ≠ none := by
  obtain ⟨conversation, hconversation, hreference⟩ := List.mem_map.mp hmem
  obtain ⟨index, hget⟩ := List.mem_iff_getElem?.mp hconversation
  have hindex : uniqueIndex (indexUnique (referencePairs filesystem)) session.stableReference =
      some index := (uniqueIndex_references hunique).mpr ⟨conversation, hget, hreference⟩
  intro hnone
  rw [matchIndex, Option.or_eq_none_iff, Option.or_eq_none_iff] at hnone
  obtain ⟨hnative, -, hdocumented⟩ := hnone
  rcases hidentity with h | h
  · obtain ⟨reference, hreference⟩ := Option.ne_none_iff_exists'.mp h
    rw [hreference, Option.bind_some, session.native_eq reference hreference] at hnative
    exact Option.some_ne_none index (hindex.symm.trans hnative)
  · obtain ⟨reference, hreference⟩ := Option.ne_none_iff_exists'.mp h
    rw [hreference, Option.bind_some, session.documented_eq reference hreference] at hdocumented
    exact Option.some_ne_none index (hindex.symm.trans hdocumented)

end

/-! ## The law -/

section

variable {fs : FileSystem} {project : ProjectIdentity}

theorem forall₂_enrichedRows (filesystem : FilesystemConversationSnapshot)
    (live : LiveConversationSnapshot) :
    List.Forall₂ Keeps filesystem.conversations (enrichedRows filesystem observedAt live) := by
  rw [List.forall₂_iff_get]
  refine ⟨by simp [enrichedRows], fun index hleft hright => ?_⟩
  simp only [enrichedRows, List.get_eq_getElem, List.getElem_mapIdx]
  exact keeps_enrichAll _ _

theorem references_enrichedRows (filesystem : FilesystemConversationSnapshot)
    (live : LiveConversationSnapshot) :
    (enrichedRows filesystem observedAt live).map Conversation.sessionReference =
      filesystem.conversations.map Conversation.sessionReference := by
  refine List.ext_getElem (by simp [enrichedRows]) fun index hleft hright => ?_
  simp only [enrichedRows, List.getElem_map, List.getElem_mapIdx]
  exact (keeps_enrichAll _ _).reference

/-- Live-only rows have distinct references, as their tool is their namespace. -/
theorem nodup_references_liveOnlyRows (filesystem : FilesystemConversationSnapshot)
    (live : LiveConversationSnapshot) :
    ((liveOnlyRows filesystem project observedAt live).values.map
      Conversation.sessionReference).Nodup := by
  have hkeys := (liveOnlyRows filesystem project observedAt live).nodup_keys_values
  refine List.Nodup.map_on ?_ hkeys.of_map
  intro left hleft right hright hreference
  obtain ⟨session, -, -, htool, hsession⟩ := exists_session_of_row hleft
  obtain ⟨session', -, -, htool', hsession'⟩ := exists_session_of_row hright
  have hsame : left.tool = right.tool := by
    rw [htool, htool', ← session.nameSpace_eq, ← session'.nameSpace_eq, ← hsession, ← hsession',
      hreference]
  refine List.inj_on_of_nodup_map hkeys hleft hright ?_
  rw [Conversation.liveKey, Conversation.liveKey, hsame, hreference]

/-- The references of a merge are unique unless a session that falls back to its
path gets a reference the filesystem already has. -/
theorem nodup_references_iff {filesystem : List Conversation}
    (hunique : (filesystem.map Conversation.sessionReference).Nodup)
    (live : LiveConversationSnapshot) :
    ((mergePreparedLiveSessions (prepareFilesystemConversations fs filesystem) project observedAt
        live).map Conversation.sessionReference).Nodup ↔
      ∀ session ∈ live, matchIndex (prepareFilesystemConversations fs filesystem) session = none →
        session.nativeIdentity = none → session.documentedIdentity = none →
        session.stableReference ∉ filesystem.map Conversation.sessionReference := by
  rw [((perm_mergePreparedLiveSessions live).map _).nodup_iff, List.map_append,
    references_enrichedRows, List.nodup_append]
  constructor
  · rintro ⟨-, -, hdisjoint⟩ session hmem hmatch - - hreference
    obtain ⟨row, hrow, -, hsame, -⟩ := exists_row_of_session hmem hmatch
    exact hdisjoint _ hreference _ (List.mem_map.mpr ⟨row, hrow, hsame⟩) rfl
  · intro h
    refine ⟨hunique, nodup_references_liveOnlyRows _ _, ?_⟩
    rintro reference hreference _ hrow rfl
    obtain ⟨row, hrow, hsame⟩ := List.mem_map.mp hrow
    obtain ⟨session, hmem, hmatch, -, hsession⟩ := exists_session_of_row hrow
    have hstable : session.stableReference ∈ filesystem.map Conversation.sessionReference := by
      rw [← hsession, hsame]
      exact hreference
    by_cases hidentity : session.nativeIdentity = none ∧ session.documentedIdentity = none
    · exact h session hmem hmatch hidentity.1 hidentity.2 hstable
    · refine matchIndex_ne_none hunique hstable ?_ hmatch
      by_contra hnone
      simp only [not_or, not_not] at hnone
      exact hidentity hnone

instance : Std.Total sessionBefore := ⟨fun left right => le_total left.sortKey right.sortKey⟩

instance : IsTrans NormalizedLiveSession sessionBefore := ⟨fun _ _ _ => le_trans⟩

/-- Reports that can be told apart are prepared in one order. -/
theorem prepareLiveConversations_perm {sessions sessions' : List HostAgentSession}
    (h : sessions.Perm sessions')
    (hdistinct : ((sessions.filterMap fun session => normalizeLiveSession fs session project).map
      NormalizedLiveSession.sortKey).Nodup) :
    prepareLiveConversations fs sessions project = prepareLiveConversations fs sessions' project := by
  have hperm := h.filterMap fun session => normalizeLiveSession fs session project
  have hsorted : ∀ normalized : List NormalizedLiveSession,
      (normalized.insertionSort sessionBefore).Pairwise sessionBefore := fun normalized =>
    List.pairwise_insertionSort _ _
  refine List.Perm.eq_of_pairwise ?_ (hsorted _) (hsorted _)
    (((List.perm_insertionSort _ _).trans hperm).trans (List.perm_insertionSort _ _).symm)
  intro left right hleft hright hle hge
  have hleft' := (List.perm_insertionSort _ _).mem_iff.mp hleft
  have hright' := hperm.mem_iff.mpr ((List.perm_insertionSort _ _).mem_iff.mp hright)
  exact List.inj_on_of_nodup_map hdistinct hleft' hright' (le_antisymm hle hge)

end

/-! A session whose transcript file belongs to another tool's conversation. -/

def sampleFileSystem : FileSystem where
  canon :=
    { resolve := fun path => if path.isAbsolute = true then some path else none
      resolve_absolute := by
        intro path canonical h
        obtain ⟨habsolute, heq⟩ := Option.ite_none_right_eq_some.mp h
        cases heq
        exact habsolute
      resolve_canonical := by
        intro path canonical h
        obtain ⟨habsolute, heq⟩ := Option.ite_none_right_eq_some.mp h
        cases heq
        rw [if_pos habsolute] }
  metadata := fun _ => some ⟨true, 9, some ⟨0, by decide⟩, 1, 1⟩

def sampleTime : SystemTime := ⟨0, by decide⟩

def sampleProject : ProjectIdentity := ⟨⟨[slash, 112]⟩⟩

def sampleTranscript : PathBuf := ⟨[slash, 112, slash, 116]⟩

theorem normal_genericJsonl : normalizeNonempty "generic-jsonl" = some "generic-jsonl" := by
  decide +kernel

theorem normal_pi : normalizeNonempty "pi" = some "pi" := by decide +kernel

def sampleConversation : Conversation where
  tool := ⟨"generic-jsonl", normal_genericJsonl⟩
  sessionReference := ⟨⟨"generic-jsonl", normal_genericJsonl⟩, ⟨"path-owned-session", by decide +kernel⟩⟩
  projectIdentity := sampleProject
  title := none
  createdAt := none
  archivedAt := none
  updatedAt := sampleTime
  state := .unknown
  provenance := [⟨⟨"generic-jsonl", normal_genericJsonl⟩, .projectLocal, some sampleTranscript⟩]
  resume := .unsupported
  provenance_ne_nil := by simp

def samplePiSession : HostAgentSession where
  source := ⟨"herdr:pi", by decide +kernel⟩
  agent := ⟨"pi", normal_pi⟩
  reference := .transcriptPath sampleTranscript
  paneId := ⟨"pane", by decide +kernel⟩
  cwd := some sampleProject.root
  foregroundCwd := none
  title := none
  status := .working
  reference_valid := by decide

end HerdrContext.Live
