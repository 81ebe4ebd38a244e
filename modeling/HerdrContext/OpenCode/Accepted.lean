import HerdrContext.Configuration
import HerdrContext.OpenCode.Pages

/-! What a page hands on: a token that the next page reads back, and candidates
whose metadata is at hand. -/
namespace HerdrContext.OpenCode

open Library Library.Paging

/-! ## Tokens -/

/-- How many sessions a page records: those told or recorded before, with those that
are gone and wait to be told. -/
def recordedAfter (previous : Sessions) (items : List (String × String)) (limit : Nat) : Nat :=
  (items.filter fun item =>
    decide (item ∉ (changes previous items).drop limit ∨ item.1 ∈ previous)).length +
  ((gone previous items).drop (limit - ((changes previous items).take limit).length)).length

theorem size_of_turns {items : List (String × String)} {before after : Sessions}
    {page : Page String String} (hitems : (items.map Prod.fst).Nodup)
    (h : Turns items before page after) : after.size = recordedAfter before items page.limit := by
  have hkeys : after.keys.Perm ((items.filter fun item =>
      decide (item ∉ (changes before items).drop page.limit ∨ item.1 ∈ before)).map Prod.fst ++
      (gone before items).drop (page.limit - page.told.length)) := by
    have hmem : ∀ id, id ∈ after.keys ↔ after[id]?.isSome = true := fun id => by
      rw [Std.ExtTreeMap.mem_keys, Std.ExtTreeMap.mem_iff_isSome_getElem?]
    refine (List.perm_ext_iff_of_nodup (OpenCodeSource.nodup_keys after) ?_).mpr fun id => ?_
    · refine List.nodup_append'.mpr ⟨(List.filter_sublist.map _).nodup hitems,
        ((OpenCodeSource.nodup_keys before).filter _).sublist (List.drop_sublist _ _), ?_⟩
      intro id hitem hgone
      exact (mem_gone.mp (List.drop_subset _ _ hgone)).2
        ((List.filter_sublist.map _).subset hitem)
    · rw [hmem, List.mem_append, List.mem_map]
      constructor
      · intro hid
        by_cases hheld : id ∈ items.map Prod.fst
        · obtain ⟨item, hitem, rfl⟩ := List.mem_map.mp hheld
          refine Or.inl ⟨item, List.mem_filter.mpr ⟨hitem, decide_eq_true ?_⟩, rfl⟩
          rw [h.recorded item hitem] at hid
          split at hid
          next => exact Or.inr (Std.ExtTreeMap.mem_iff_isSome_getElem?.mpr hid)
          next htold => exact Or.inl htold
        · rw [h.kept id hheld] at hid
          split at hid
          next hwaits => exact Or.inr hwaits
          next => contradiction
      · rintro (⟨item, hitem, rfl⟩ | hwaits)
        · obtain ⟨hitem, hrecorded⟩ := List.mem_filter.mp hitem
          rw [h.recorded item hitem]
          split
          next hpostponed =>
            exact Std.ExtTreeMap.mem_iff_isSome_getElem?.mp
              ((of_decide_eq_true hrecorded).resolve_left (not_not.mpr hpostponed))
          next => rfl
        · obtain ⟨hrecorded, hheld⟩ := mem_gone.mp (List.drop_subset _ _ hwaits)
          rw [h.kept id hheld, if_pos hwaits]
          exact Std.ExtTreeMap.mem_iff_isSome_getElem?.mp hrecorded
  have hlength := hkeys.length_eq
  rw [Std.ExtTreeMap.length_keys, List.length_append, List.length_map] at hlength
  rw [hlength, recordedAfter, h.told]

namespace OpenCodeSource

variable {source : OpenCodeSource} {view : DatabaseView} {snapshots later : Snapshots}
  {project : ProjectIdentity} {before : Option SourceWatermark} {limit : DiscoveryLimit}
  {batch : DiscoveryBatch} {looked : Looked} {first : Watermark}

theorem decodeWatermark_default {token : SourceWatermark}
    (h : source.encodeWatermark Watermark.default = .ok token) :
    source.decodeWatermark (some token) = .ok Watermark.default :=
  (decodeWatermark_encodeWatermark rfl h _).mpr ⟨rfl, by simp [Watermark.default]⟩

/-- What a page finds, whatever it is shown. -/
theorem look_cases (h : source.look view project before = .ok looked) :
    ∃ first, source.decodeWatermark before = .ok first ∧
      ((∃ next read, looked = .unchanged next ∧ source.decodeWatermark (some next) = .ok read) ∨
        ∃ captured sessions, looked = .read first captured sessions ∧
          source.querySessions view = .ok sessions) := by
  unfold look at h
  obtain ⟨_, _, h⟩ := bind_eq_ok_iff.mp h
  obtain ⟨first, hfirst, h⟩ := bind_eq_ok_iff.mp h
  refine ⟨first, hfirst, ?_⟩
  obtain ⟨probed, _, h⟩ := bind_eq_ok_iff.mp h
  cases probed with
  | unavailable reason =>
    obtain ⟨next, hnext, h⟩ := bind_eq_ok_iff.mp h
    cases h
    refine Or.inl ⟨next, ?_⟩
    cases before with
    | none => exact ⟨_, rfl, decodeWatermark_default hnext⟩
    | some token =>
      cases hnext
      exact ⟨first, rfl, hfirst⟩
  | available =>
    obtain ⟨captured, _, h⟩ := bind_eq_ok_iff.mp h
    obtain ⟨_, _, h⟩ := bind_eq_ok_iff.mp h
    split at h
    next =>
      obtain ⟨next, hnext, h⟩ := bind_eq_ok_iff.mp h
      cases h
      obtain ⟨hversion, hsize⟩ := decodeWatermark_eq_ok hfirst
      exact Or.inl ⟨next, first, rfl,
        (decodeWatermark_encodeWatermark hversion hnext _).mpr ⟨rfl, hsize⟩⟩
    next =>
      obtain ⟨_, _, h⟩ := bind_eq_ok_iff.mp h
      obtain ⟨sessions, hsessions, h⟩ := bind_eq_ok_iff.mp h
      obtain ⟨_, _, h⟩ := bind_eq_ok_iff.mp h
      obtain ⟨_, _, h⟩ := bind_eq_ok_iff.mp h
      obtain ⟨_, _, h⟩ := bind_eq_ok_iff.mp h
      cases h
      exact Or.inr ⟨captured, sessions, rfl, hsessions⟩

end OpenCodeSource

namespace OpenCodeSource

variable {source : OpenCodeSource} {view : DatabaseView} {snapshots later : Snapshots}
  {project : ProjectIdentity} {before : Option SourceWatermark} {limit : DiscoveryLimit}
  {batch : DiscoveryBatch}

/-! ## Candidates -/

/-- Every candidate so far has its snapshot, and no session that comes later has its id. -/
def Backed (source : OpenCodeSource) (sessions rest : List ValidatedSession)
    (collected : Collected) : Prop :=
  ∀ candidate ∈ collected.candidates, ∃ session ∈ sessions,
    candidate.sourcePath = some source.databasePath ∧
    candidate.sourceReference = session.id ∧ candidate.fingerprint = some session.fingerprint ∧
    collected.snapshots[session.id]? = some session ∧ ∀ other ∈ rest, other.id ≠ session.id

theorem backed_collectSessions {captured : CapturedDatabase} {previous : Sessions} {limit : Nat}
    {sessions rest : List ValidatedSession} {collected result : Collected}
    (hsubset : rest ⊆ sessions) (hrest : (rest.map ValidatedSession.id).Nodup)
    (hbacked : source.Backed sessions rest collected)
    (h : source.collectSessions captured previous limit rest collected = (later, .ok result)) :
    source.Backed sessions [] result := by
  induction rest generalizing collected with
  | nil =>
    cases h
    exact hbacked
  | cons session rest ih =>
    obtain ⟨hid, hnodup⟩ := List.nodup_cons.mp hrest
    have hlater : rest ⊆ sessions := List.Subset.trans (List.subset_cons_self _ _) hsubset
    have hkept : source.Backed sessions rest (collected.record session) := by
      intro candidate hcandidate
      obtain ⟨backing, hbacking, hpath, hreference, hfingerprint, hsnapshot, hothers⟩ :=
        hbacked candidate hcandidate
      refine ⟨backing, hbacking, hpath, hreference, hfingerprint, ?_,
        fun other hother => hothers other (List.mem_cons_of_mem _ hother)⟩
      rw [Collected.record, Std.ExtTreeMap.getElem?_insert, if_neg, hsnapshot]
      exact fun hsame => hothers session List.mem_cons_self
        (Std.LawfulEqOrd.compare_eq_iff_eq.mp hsame)
    have hwaiting : source.Backed sessions rest
        (collected.postpone session.id previous[session.id]?) := by
      intro candidate hcandidate
      obtain ⟨backing, hbacking, hpath, hreference, hfingerprint, hsnapshot, hothers⟩ :=
        hbacked candidate hcandidate
      exact ⟨backing, hbacking, hpath, hreference, hfingerprint, hsnapshot,
        fun other hother => hothers other (List.mem_cons_of_mem _ hother)⟩
    unfold collectSessions at h
    split at h
    next => exact ih hlater hnodup hkept h
    next =>
      split at h
      next => exact ih hlater hnodup hwaiting h
      next =>
        split at h
        next => cases h
        next candidate hcandidate =>
          refine ih hlater hnodup ?_ h
          intro other hother
          cases List.mem_append.mp hother with
          | inl hbefore => exact hkept other hbefore
          | inr hnew =>
            rw [List.mem_singleton.mp hnew, candidateOf_eq_ok hcandidate]
            refine ⟨session, hsubset List.mem_cons_self, rfl, rfl, rfl,
              Std.ExtTreeMap.getElem?_insert_self, fun other hother hsame => ?_⟩
            exact hid (hsame ▸ List.mem_map_of_mem hother)

theorem collectRemovals_keeps {previous : Sessions} {limit : Nat} {current ids : List String}
    {collected result : Collected}
    (h : source.collectRemovals previous limit current ids collected = (later, .ok result)) :
    later = collected.snapshots ∧ result.candidates = collected.candidates := by
  induction ids generalizing collected with
  | nil =>
    cases h
    exact ⟨rfl, rfl⟩
  | cons id rest ih =>
    unfold collectRemovals at h
    split at h
    next => exact ih h
    next =>
      split at h
      next =>
        have hrest := ih h
        exact hrest
      next =>
        split at h
        next => cases h
        next =>
          have hrest := ih h
          exact hrest

/-- The candidates of a page are read back from the snapshots it leaves. -/
theorem validateCandidate_of_page {candidate : ConversationCandidate}
    (hdistinct : ∀ sessions, source.querySessions view = .ok sessions →
      (sessions.map ValidatedSession.id).Nodup)
    (h : source.discoverRaw view snapshots project before limit = (later, .ok batch))
    (hcandidate : candidate ∈ batch.candidates) :
    ∃ sessions, source.querySessions view = .ok sessions ∧ ∃ session ∈ sessions,
      candidate.sourceReference = session.id ∧
      source.validateCandidate later candidate = .ok session := by
  unfold discoverRaw at h
  split at h
  next => cases h
  next next hlook =>
    obtain ⟨rfl, _⟩ := DiscoveryBatch.new_eq_ok_iff.mp (Prod.mk.inj h).2
    cases hcandidate
  next first captured sessions hlook =>
    obtain ⟨_, _, hcontra | hread⟩ := look_cases hlook
    · obtain ⟨_, _, hcontra, _⟩ := hcontra
      cases hcontra
    · obtain ⟨_, _, hread, hsessions⟩ := hread
      cases hread
      split at h
      next => cases h
      next kept collected hcollect =>
        obtain ⟨rfl, hbatch⟩ := Prod.mk.inj h
        obtain ⟨token, _, hbatch⟩ := bind_eq_ok_iff.mp hbatch
        obtain ⟨rfl, _⟩ := DiscoveryBatch.new_eq_ok_iff.mp hbatch
        unfold collect at hcollect
        dsimp only at hcollect
        split at hcollect
        next => cases hcollect
        next compared hcompare =>
          obtain ⟨rfl, hsame⟩ := collectRemovals_keeps hcollect
          have hbacked := backed_collectSessions (List.Subset.refl sessions)
            (hdistinct sessions hsessions) (by intro candidate hnone; cases hnone) hcompare
          obtain ⟨session, hsession, hpath, hreference, hfingerprint, hsnapshot, _⟩ :=
            hbacked candidate (hsame ▸ hcandidate)
          refine ⟨sessions, hsessions, session, hsession, hreference, ?_⟩
          unfold validateCandidate
          rw [rejectIf_of_not (not_not.mpr hpath), ok_bind, hreference, hsnapshot,
            Option.filter_some, if_pos (decide_eq_true hfingerprint)]
          rfl

theorem valid_of_readSessions {cancelledRow : Nat → Bool} {canonicalRoot : PathBuf} {read : Nat}
    {rows : List (Except SourceError SessionRow)} {sessions : List ValidatedSession}
    (h : source.readSessions cancelledRow canonicalRoot read rows = .ok sessions) :
    ∀ session ∈ sessions, validSessionId session.id = true := by
  induction rows generalizing read sessions with
  | nil =>
    cases h
    simp
  | cons row rest ih =>
    unfold readSessions at h
    obtain ⟨row, _, h⟩ := bind_eq_ok_iff.mp h
    obtain ⟨_, _, h⟩ := bind_eq_ok_iff.mp h
    obtain ⟨_, _, h⟩ := bind_eq_ok_iff.mp h
    obtain ⟨session, hsession, h⟩ := bind_eq_ok_iff.mp h
    obtain ⟨others, hothers, h⟩ := bind_eq_ok_iff.mp h
    cases h
    refine List.forall_mem_cons.mpr ⟨?_, ih hothers⟩
    obtain ⟨texts, _, h⟩ := bind_eq_ok_iff.mp hsession
    obtain ⟨_, _, h⟩ := bind_eq_ok_iff.mp h
    obtain ⟨evidence, _, h⟩ := bind_eq_ok_iff.mp h
    rw [mapError_eq_ok_iff] at h
    obtain ⟨_, hid, h⟩ := bind_eq_ok_iff.mp h
    obtain ⟨_, _, h⟩ := bind_eq_ok_iff.mp h
    obtain ⟨_, _, h⟩ := bind_eq_ok_iff.mp h
    obtain ⟨_, _, h⟩ := bind_eq_ok_iff.mp h
    obtain ⟨createdAt, _, h⟩ := bind_eq_ok_iff.mp h
    obtain ⟨updatedAt, _, h⟩ := bind_eq_ok_iff.mp h
    obtain ⟨archivedAt, _, h⟩ := bind_eq_ok_iff.mp h
    obtain ⟨_, _, h⟩ := bind_eq_ok_iff.mp h
    cases h
    simpa using (not_or.mp (rejectIf_eq_ok_iff.mp hid)).2

theorem valid_of_querySessions {sessions : List ValidatedSession}
    (h : source.querySessions view = .ok sessions) :
    ∀ session ∈ sessions, validSessionId session.id = true := by
  unfold querySessions at h
  obtain ⟨_, _, h⟩ := bind_eq_ok_iff.mp h
  obtain ⟨_, _, h⟩ := bind_eq_ok_iff.mp h
  obtain ⟨_, _, h⟩ := bind_eq_ok_iff.mp h
  obtain ⟨rows, _, h⟩ := bind_eq_ok_iff.mp h
  obtain ⟨canonicalRoot, _, h⟩ := bind_eq_ok_iff.mp h
  exact valid_of_readSessions h

end OpenCodeSource

theorem not_isWhitespace_of_alphanumeric {c : Char} (h : isAsciiAlphanumeric c = true) :
    isWhitespace c = false := by
  simp only [isAsciiAlphanumeric, Char.isDigit, Bool.or_eq_true, Bool.and_eq_true,
    decide_eq_true_eq, UInt32.le_iff_toNat_le, Char.le_def] at h
  have hval : c.toNat = c.val.toNat := rfl
  simp only [isWhitespace, Bool.or_eq_false_iff, Bool.and_eq_false_iff, decide_eq_false_iff_not,
    beq_eq_false_iff_ne, hval]
  simp at h
  omega

/-- An id that is accepted is its own normal form. -/
theorem normal_of_validSessionId {id : String} (h : validSessionId id = true) :
    normalizeNonempty id = some id := by
  simp only [validSessionId, Bool.and_eq_true, decide_eq_true_eq] at h
  obtain ⟨⟨hlength, hprefix⟩, hrest⟩ := h
  obtain ⟨rest, htext⟩ := List.isPrefixOf_iff_prefix.mp hprefix
  rw [← htext] at hrest
  rcases List.eq_nil_or_concat rest with rfl | ⟨middle, last, rfl⟩
  · rw [strLen, ← htext] at hlength
    contradiction
  · have hlast : isWhitespace last = false := by
      refine not_isWhitespace_of_alphanumeric (List.all_eq_true.mp hrest last ?_)
      simp
    have hid : id = String.ofList ('s' :: (['e', 's', '_'] ++ middle) ++ [last]) := by
      rw [← String.toList_inj, ← htext, String.toList_ofList]
      simp
    rw [hid]
    exact normal_of_ends (by decide) hlast

namespace OpenCodeSource

variable {source : OpenCodeSource} {view : DatabaseView} {snapshots later : Snapshots}
  {project : ProjectIdentity} {before : Option SourceWatermark} {limit : DiscoveryLimit}
  {batch : DiscoveryBatch} {candidate : ConversationCandidate} {session : ValidatedSession}

-- Texts that are not given do not reduce.
attribute [local irreducible] normalizeNonempty

/-- The conversation shows the session's metadata. -/
structure ShownAs (session : ValidatedSession) (conversation : Conversation) : Prop where
  tool : conversation.tool.text = toolId
  nameSpace : conversation.sessionReference.nameSpace.text = toolId
  id : conversation.sessionReference.id.text = session.id
  title : conversation.title = NormalText.new session.title
  createdAt : conversation.createdAt = some session.createdAt
  archivedAt : conversation.archivedAt = session.archivedAt
  updatedAt : conversation.updatedAt = session.updatedAt
  state : conversation.state = if session.archivedAt.isSome then .archived else .live
  resume : ∃ reference, conversation.resume = .supported reference ∧ reference.text = session.id

theorem conversationOf_eq_ok (source : OpenCodeSource) (candidate : ConversationCandidate)
    (hid : validSessionId session.id = true) :
    ∃ conversation, source.conversationOf candidate session = .ok conversation ∧
      conversation.projectIdentity = candidate.projectIdentity ∧ ShownAs session conversation := by
  obtain ⟨tool, htool⟩ : ∃ tool : NormalText, tool.text = toolId := ⟨⟨toolId, normal_toolId⟩, rfl⟩
  obtain ⟨id, hid⟩ : ∃ id : NormalText, id.text = session.id :=
    ⟨⟨session.id, normal_of_validSessionId hid⟩, rfl⟩
  have htoolId : ToolIdentity.new toolId = .ok tool := by
    rw [← htool]
    exact normalizedIdentifier_text tool "tool"
  have hreference : SessionReference.new toolId session.id = .ok ⟨tool, id⟩ := by
    rw [← htool, ← hid]
    exact SessionReference.new_text ⟨tool, id⟩
  have hresume : ResumeReference.new session.id = .ok id := by
    rw [← hid]
    exact normalizedIdentifier_text id "resume reference"
  unfold conversationOf Conversation.new
  rw [htoolId, hreference, hresume]
  simp only [mapError, ok_bind, List.cons_ne_self, reduceDIte, Except.ok.injEq, exists_eq_left',
    true_and]
  exact ⟨htool, htool, hid, rfl, rfl, rfl, rfl, rfl, id, rfl, hid⟩

end OpenCodeSource

end HerdrContext.OpenCode
