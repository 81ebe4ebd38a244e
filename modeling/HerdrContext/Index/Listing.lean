import HerdrContext.Index.RoundTrip
import HerdrContext.Library.Firsts

/-! The list an index shows, and the pages of it. -/
namespace HerdrContext.Index

open Library

theorem eq_of_texts {left right : SessionReference}
    (hnameSpace : left.nameSpace.text = right.nameSpace.text) (hid : left.id.text = right.id.text) :
    left = right := by
  cases left
  cases right
  simp only [SessionReference.mk.injEq]
  exact ⟨NormalText.ext hnameSpace, NormalText.ext hid⟩

/-! ## The order -/

/-- What conversations are ordered by, newest first. -/
def rank (conversation : Conversation) :
    SystemTimeᵒᵈ ×ₗ NormalText ×ₗ NormalText ×ₗ SourceId :=
  toLex (OrderDual.toDual conversation.updatedAt,
    toLex (conversation.sessionReference.nameSpace,
      toLex (conversation.sessionReference.id, firstSource conversation)))

theorem shownBefore_iff {left right : Conversation} :
    shownBefore left right ↔ rank left ≤ rank right := by
  simp only [shownBefore, rank, Prod.Lex.toLex_le_toLex, OrderDual.toDual_lt_toDual,
    OrderDual.toDual_inj]

instance : Std.Total shownBefore where
  total left right := by
    rw [shownBefore_iff, shownBefore_iff]
    exact le_total _ _

instance : IsTrans Conversation shownBefore where
  trans first second third hfirst hsecond := by
    rw [shownBefore_iff] at *
    exact hfirst.trans hsecond

theorem shownBefore_refl (conversation : Conversation) : shownBefore conversation conversation :=
  shownBefore_iff.mpr le_rfl

/-- Ties are decided by the session and its source. -/
theorem parts_of_shownBefore {left right : Conversation} (h : shownBefore left right)
    (h' : shownBefore right left) :
    left.sessionReference = right.sessionReference ∧ firstSource left = firstSource right := by
  have heq : rank left = rank right := le_antisymm (shownBefore_iff.mp h) (shownBefore_iff.mp h')
  simp only [rank, toLex_inj, Prod.mk.injEq] at heq
  have ⟨_, hnameSpace, hid, hsource⟩ := heq
  exact ⟨eq_of_texts (congrArg NormalText.text hnameSpace) (congrArg NormalText.text hid), hsource⟩

/-! ## The first row of each session -/

theorem firstOfEachSession_sublist (seen : List SessionReference) (sorted : List Conversation) :
    (firstOfEachSession seen sorted).Sublist sorted := by
  induction sorted generalizing seen with
  | nil => exact List.Sublist.refl _
  | cons conversation rest ih =>
    unfold firstOfEachSession
    split
    next => exact (ih seen).cons _
    next => exact (ih _).cons_cons _

theorem firstOfEachSession_fresh (seen : List SessionReference) (sorted : List Conversation) :
    ∀ conversation ∈ firstOfEachSession seen sorted, conversation.sessionReference ∉ seen := by
  induction sorted generalizing seen with
  | nil => exact fun _ hnone => nomatch hnone
  | cons first rest ih =>
    intro conversation hmem
    unfold firstOfEachSession at hmem
    split at hmem
    next => exact ih seen conversation hmem
    next hfresh =>
      cases List.mem_cons.mp hmem with
      | inl hfirst =>
        rw [hfirst]
        simpa using hfresh
      | inr hrest =>
        intro hseen
        exact ih _ conversation hrest (List.mem_cons_of_mem _ hseen)

theorem firstOfEachSession_nodup (seen : List SessionReference) (sorted : List Conversation) :
    ((firstOfEachSession seen sorted).map (·.sessionReference)).Nodup := by
  induction sorted generalizing seen with
  | nil => exact List.nodup_nil
  | cons first rest ih =>
    unfold firstOfEachSession
    split
    next => exact ih seen
    next =>
      rw [List.map_cons, List.nodup_cons]
      constructor
      · intro hagain
        have ⟨conversation, hmem, hsame⟩ := List.mem_map.mp hagain
        exact firstOfEachSession_fresh _ rest conversation hmem (hsame ▸ List.mem_cons_self)
      · exact ih _

theorem firstOfEachSession_first (seen : List SessionReference) {sorted : List Conversation}
    (hsorted : sorted.Pairwise shownBefore) {conversation : Conversation}
    (hmem : conversation ∈ sorted) (hfresh : conversation.sessionReference ∉ seen) :
    ∃ first ∈ firstOfEachSession seen sorted,
      first.sessionReference = conversation.sessionReference ∧ shownBefore first conversation := by
  induction sorted generalizing seen with
  | nil => contradiction
  | cons head rest ih =>
    have ⟨hhead, hrest⟩ := List.pairwise_cons.mp hsorted
    unfold firstOfEachSession
    split
    next hseen =>
      cases List.mem_cons.mp hmem with
      | inl hsame =>
        rw [hsame] at hfresh
        exact absurd (by simpa using hseen) hfresh
      | inr hlater => exact ih seen hrest hlater hfresh
    next =>
      by_cases hsession : head.sessionReference = conversation.sessionReference
      · cases List.mem_cons.mp hmem with
        | inl hsame => exact ⟨head, List.mem_cons_self, hsession, hsame ▸ shownBefore_refl _⟩
        | inr hlater => exact ⟨head, List.mem_cons_self, hsession, hhead conversation hlater⟩
      · cases List.mem_cons.mp hmem with
        | inl hsame => exact absurd (congrArg _ hsame.symm) hsession
        | inr hlater =>
          have hstill : conversation.sessionReference ∉ head.sessionReference :: seen := by
            intro hagain
            cases List.mem_cons.mp hagain with
            | inl hsame => exact hsession hsame.symm
            | inr hseen => exact hfresh hseen
          have ⟨first, hfirst, hsame, hbefore⟩ := ih _ hrest hlater hstill
          exact ⟨first, List.mem_cons_of_mem _ hfirst, hsame, hbefore⟩

theorem firsts_firstOfEachSession (all : List Conversation) :
    Firsts shownBefore Conversation.sessionReference all
      (firstOfEachSession [] (all.insertionSort shownBefore)) := by
  have hsublist := firstOfEachSession_sublist [] (all.insertionSort shownBefore)
  have hsorted := List.pairwise_insertionSort shownBefore all
  constructor
  case sorted => exact hsorted.sublist hsublist
  case distinct => exact firstOfEachSession_nodup [] _
  case subset =>
    intro conversation hmem
    exact (List.perm_insertionSort shownBefore all).mem_iff.mp (hsublist.subset hmem)
  case first =>
    intro conversation hmem
    have hthere := (List.perm_insertionSort shownBefore all).mem_iff.mpr hmem
    exact firstOfEachSession_first [] hsorted hthere (List.not_mem_nil)

/-! ## The entries as conversations -/

theorem head_knownTools : ∀ tool ∈ knownTools,
    (tool.toList.head?.any fun c => !isWhitespace c) = true := by
  decide

/-- An extra root's id starts with its tool and ends in a digit. -/
theorem normalizeNonempty_of_isExtraRoot {source tool : String} (hknown : tool ∈ knownTools)
    (h : isExtraRoot tool.toList source.toList = true) : normalizeNonempty source = some source := by
  unfold isExtraRoot at h
  generalize ":extra:".toList = marker at h
  cases hconsume : (Wire.consume tool.toList source.toList).bind (Wire.consume marker) with
  | none =>
    simp only [hconsume] at h
    exact absurd h Bool.false_ne_true
  | some fingerprint =>
    simp only [hconsume, decide_eq_true_eq, List.all_eq_true, Bool.and_eq_true] at h
    have ⟨rest, hrest, hmarker⟩ := Option.bind_eq_some_iff.mp hconsume
    have htext : source.toList = tool.toList ++ (marker ++ fingerprint) := by
      rw [consume_eq_some hrest, consume_eq_some hmarker]
    have hnonempty : fingerprint ≠ [] := by
      intro hnil
      have hlength := h.1
      rw [hnil] at hlength
      contradiction
    have hhead := head_knownTools tool hknown
    cases htool : tool.toList with
    | nil =>
      rw [htool] at hhead
      contradiction
    | cons first middle =>
      rw [htool] at hhead
      have hspace : isWhitespace first = false := by simpa using hhead
      have hlast := h.2 _ (List.getLast_mem hnonempty)
      have hall : source.toList = first :: (middle ++ marker ++ fingerprint.dropLast) ++
          [fingerprint.getLast hnonempty] := by
        rw [htext, htool]
        simp only [List.cons_append, List.append_assoc, List.dropLast_concat_getLast hnonempty]
      have hsource : source = String.ofList (first :: (middle ++ marker ++ fingerprint.dropLast) ++
          [fingerprint.getLast hnonempty]) := by
        rw [← hall, String.ofList_toList]
      rw [hsource]
      exact normal_of_ends hspace (hexDigit_not_whitespace hlast.1)

theorem normal_knownTools : ∀ tool ∈ knownTools, normalizeNonempty tool = some tool := by
  decide

/-- Allowed sources are normal as they stand. -/
theorem normalizeNonempty_of_expectedTool {source tool : String}
    (h : expectedTool source = some tool) : normalizeNonempty source = some source := by
  unfold expectedTool at h
  split at h
  next hsource => exact hsource ▸ genericSourceId.normal
  next =>
    have hknown := List.mem_of_find?_eq_some h
    have hfound := List.find?_some h
    simp only [Bool.decide_or, Bool.or_eq_true, decide_eq_true_eq] at hfound
    cases hfound with
    | inl hsame => exact hsame ▸ normal_knownTools tool hknown
    | inr hextra => exact normalizeNonempty_of_isExtraRoot hknown hextra

theorem tool_of_expectedTool {source tool : String} (h : expectedTool source = some tool) :
    tool = "generic-jsonl" ∨ tool ∈ knownTools := by
  unfold expectedTool at h
  split at h
  next => exact Or.inl (Option.some.inj h).symm
  next => exact Or.inr (List.mem_of_find?_eq_some h)

theorem text_of_normalizedIdentifier {value field : String} {text : NormalText}
    (h : normalizedIdentifier value field = .ok text) (hnormal : normalizeNonempty value = some value) :
    text.text = value := by
  rw [normalizedIdentifier_eq_ok_iff, hnormal] at h
  exact (Option.some.inj h).symm

/-- A conversation carries the three parts of its entry's key. -/
theorem parts_toConversation {entry : CachedConversation} {project : ProjectIdentity}
    {conversation : Conversation} (hvalid : entry.validate = .ok ())
    (h : entry.toConversation project = .ok conversation) :
    conversation.sessionReference.nameSpace.text = entry.nameSpace ∧
    conversation.sessionReference.id.text = entry.sessionId ∧
    (firstSource conversation).text = entry.sourceId := by
  simp only [CachedConversation.validate, bind_eq_ok_iff, rejectIf_eq_ok_iff,
    validateIdentifierLoad_eq_ok_iff, exists_const] at hvalid
  have ⟨⟨⟩, hsource, hnamespace, hid, _⟩ := hvalid
  have hexpected := validateSource_eq_ok hsource
  have hsourceNormal := normalizeNonempty_of_expectedTool hexpected
  simp only [CachedConversation.toConversation, bind_eq_ok_iff, mapError_eq_ok_iff] at h
  have ⟨sourceId, hsourceId, tool, htool, session, hsession, kind, _, state, _, resume, _, path, _,
    created, _, archived, _, updated, _, hnew⟩ := h
  have ⟨nameSpace, hnameSpace, id, hsessionId, hreference⟩ :
      ∃ nameSpace, normalizedIdentifier entry.nameSpace "session namespace" = .ok nameSpace ∧
        ∃ id, normalizedIdentifier entry.sessionId "session id" = .ok id ∧
          ⟨nameSpace, id⟩ = session := by
    simp only [SessionReference.new, bind_eq_ok_iff, pure_eq_ok, Except.ok.injEq] at hsession
    exact hsession
  have htoolNormal : normalizeNonempty entry.tool = some entry.tool := by
    have hknown := tool_of_expectedTool hexpected
    cases hknown with
    | inl hgeneric => exact hgeneric ▸ by decide
    | inr hmem => exact normal_knownTools _ hmem
  unfold Conversation.new at hnew
  rw [dif_neg (List.cons_ne_nil _ _)] at hnew
  cases hnew
  cases hreference
  have hnormal : normalizeNonempty entry.nameSpace = some entry.nameSpace := by
    rw [not_not.mp hnamespace]
    exact htoolNormal
  exact ⟨text_of_normalizedIdentifier hnameSpace hnormal,
    text_of_normalizedIdentifier hsessionId (normal_of_identifier hid),
    text_of_normalizedIdentifier hsourceId hsourceNormal⟩

namespace ConversationIndex

/-- The conversations of the entries, none of which fails. -/
theorem exists_conversations {index : ConversationIndex} (h : index.EntriesValid) :
    ∃ conversations, index.entries.values.mapM (·.toConversation index.project) = .ok conversations := by
  have ⟨page, hpage⟩ := page_of_entriesValid h 0 1
  unfold ConversationIndex.page at hpage
  rw [if_neg one_ne_zero] at hpage
  have ⟨conversations, hconversations, _⟩ := bind_eq_ok_iff.mp hpage
  exact ⟨conversations, hconversations⟩

/-- Two entries never tie, since their keys differ. -/
theorem eq_of_shownBefore {index : ConversationIndex} (h : index.EntriesValid)
    {conversations : List Conversation}
    (hall : index.entries.values.mapM (·.toConversation index.project) = .ok conversations) :
    ∀ left ∈ conversations, ∀ right ∈ conversations, shownBefore left right →
      shownBefore right left → left = right := by
  intro left hleft right hright hbefore hafter
  have ⟨hsession, hsource⟩ := parts_of_shownBefore hbefore hafter
  have ⟨entry, hentry, hconversation⟩ := mem_of_mapM_eq_ok hall hleft
  have ⟨other, hother, hotherConversation⟩ := mem_of_mapM_eq_ok hall hright
  have hget := Table.mem_values.mp hentry
  have hgetOther := Table.mem_values.mp hother
  have ⟨hnameSpace, hid, hfirst⟩ := parts_toConversation (h _ _ hget) hconversation
  have ⟨hotherNameSpace, hotherId, hotherFirst⟩ :=
    parts_toConversation (h _ _ hgetOther) hotherConversation
  have hkey : entry.key = other.key := by
    unfold CachedConversation.key
    rw [← hnameSpace, ← hid, ← hfirst, ← hotherNameSpace, ← hotherId, ← hotherFirst, hsession, hsource]
  rw [hkey, hgetOther] at hget
  rw [Option.some.inj hget, hconversation] at hotherConversation
  exact Except.ok.inj hotherConversation

/-! ## Pages -/

/-- The sessions with an entry, from whatever source. -/
def sessionCount (index : ConversationIndex) : Nat :=
  (index.entries.values.map fun entry => (entry.nameSpace, entry.sessionId)).dedup.length

/-- Pages after one another, of the given lengths. -/
def pages (index : ConversationIndex) : Nat → List Nat → Except IndexError (List (List Conversation))
  | _, [] => .ok []
  | offset, limit :: rest => do
    let page ← index.page offset limit
    let later ← index.pages (offset + limit) rest
    return page.conversations :: later

/-- Rows are asked for, the scan goes on, or the offset lies within the rows or
behind the entries. -/
def CountsRows (index : ConversationIndex) (offset limit : Nat) : Prop :=
  limit ≠ 0 ∨ index.scanHasMore = true ∨ offset < index.sessionCount ∨ index.entries.size ≤ offset

theorem length_conversations {index : ConversationIndex} {conversations : List Conversation}
    (hall : index.entries.values.mapM (·.toConversation index.project) = .ok conversations) :
    conversations.length = index.entries.size := by
  rw [← Table.length_values]
  exact (forall₂_of_mapM_eq_ok hall).length_eq.symm

/-- As many rows as sessions. -/
theorem length_rows {index : ConversationIndex} (h : index.EntriesValid)
    {conversations rows : List Conversation}
    (hall : index.entries.values.mapM (·.toConversation index.project) = .ok conversations)
    (hrows : Firsts shownBefore Conversation.sessionReference conversations rows) :
    rows.length = index.sessionCount := by
  have hnames : ∀ values : List CachedConversation, ∀ results,
      List.Forall₂ (fun entry conversation => entry.toConversation index.project = .ok conversation)
        values results → (∀ entry ∈ values, entry.validate = .ok ()) →
      (results.map (·.sessionReference)).map (fun session => (session.nameSpace.text, session.id.text)) =
        values.map fun entry => (entry.nameSpace, entry.sessionId) := by
    intro values results hresults hvalid
    induction hresults with
    | nil => rfl
    | @cons entry conversation values results hconversation _ ih =>
      have ⟨hnameSpace, hid, _⟩ := parts_toConversation (hvalid entry List.mem_cons_self) hconversation
      rw [List.map_cons, List.map_cons, List.map_cons, hnameSpace, hid,
        ih fun entry hmem => hvalid entry (List.mem_cons_of_mem _ hmem)]
  have hinjective : Function.Injective fun session : SessionReference =>
      (session.nameSpace.text, session.id.text) := by
    intro left right hsame
    have hparts := Prod.mk.inj hsame
    exact eq_of_texts hparts.1 hparts.2
  rw [hrows.length_eq, sessionCount,
    ← hnames _ _ (forall₂_of_mapM_eq_ok hall) fun entry hmem => h _ _ (Table.mem_values.mp hmem),
    List.dedup_map_of_injective hinjective, List.length_map]

theorem sessionCount_le (index : ConversationIndex) : index.sessionCount ≤ index.entries.size := by
  rw [← Table.length_values, sessionCount]
  apply (List.dedup_sublist _).length_le.trans
  rw [List.length_map]

section
variable {index : ConversationIndex} {conversations rows : List Conversation}

theorem page_eq
    (hall : index.entries.values.mapM (·.toConversation index.project) = .ok conversations)
    (offset limit : Nat) (hlimit : limit ≠ 0) :
    index.page offset limit = .ok
      ⟨((firstOfEachSession [] (conversations.insertionSort shownBefore)).drop offset).take limit,
        index.scanHasMore || decide (offset +
          (((firstOfEachSession [] (conversations.insertionSort shownBefore)).drop offset).take
            limit).length < (firstOfEachSession [] (conversations.insertionSort shownBefore)).length)⟩ := by
  rw [ConversationIndex.page, if_neg hlimit, hall]
  rfl

/-- A page is a slice of the rows, and of no rows it may promise too many. -/
theorem exists_page (h : index.EntriesValid)
    (hall : index.entries.values.mapM (·.toConversation index.project) = .ok conversations)
    (hrows : Firsts shownBefore Conversation.sessionReference conversations rows)
    (offset limit : Nat) :
    ∃ page, index.page offset limit = .ok page ∧
      page.conversations = (rows.drop offset).take limit ∧
      ((page.hasMore = true ↔
          index.scanHasMore = true ∨ offset + page.conversations.length < rows.length) ↔
        index.CountsRows offset limit) := by
  have hsame : firstOfEachSession [] (conversations.insertionSort shownBefore) = rows :=
    (firsts_firstOfEachSession conversations).unique hrows (eq_of_shownBefore h hall)
  by_cases hlimit : limit = 0
  · subst hlimit
    refine ⟨⟨[], index.scanHasMore || decide (offset < index.entries.size)⟩, rfl, by simp, ?_⟩
    have hcount := length_rows h hall hrows
    have hle := index.sessionCount_le
    simp only [CountsRows, ne_eq, not_true_eq_false, false_or, Bool.or_eq_true, decide_eq_true_eq,
      List.length_nil, hcount]
    cases index.scanHasMore with
    | true => simp
    | false =>
      simp only [Bool.false_eq_true, false_or]
      omega
  · refine ⟨_, page_eq hall offset limit hlimit, ?_, ?_⟩
    · rw [hsame]
    · rw [hsame]
      simp [CountsRows, hlimit]

theorem pages_eq (h : index.EntriesValid)
    (hall : index.entries.values.mapM (·.toConversation index.project) = .ok conversations)
    (hrows : Firsts shownBefore Conversation.sessionReference conversations rows)
    (offset : Nat) (limits : List Nat) : index.pages offset limits = .ok (pagesFrom rows offset limits) := by
  induction limits generalizing offset with
  | nil => rfl
  | cons limit rest ih =>
    have ⟨page, hpage, hslice, _⟩ := exists_page h hall hrows offset limit
    rw [pages, hpage, ok_bind, ih, ok_bind, hslice]
    rfl

end

end ConversationIndex

open ConversationIndex in
/-- An index shows one list, newest first with one row for each session. Every
page is a slice of it, and pages after one another are the list again. Whether
there is more is answered by that list unless a page of no rows is asked for
behind its end while a session has two entries. -/
theorem index_pagination {index : ConversationIndex} (h : index.EntriesValid) :
    ∃ conversations rows,
      index.entries.values.mapM (·.toConversation index.project) = .ok conversations ∧
      Firsts shownBefore Conversation.sessionReference conversations rows ∧
      (∀ other, Firsts shownBefore Conversation.sessionReference conversations other → other = rows) ∧
      (∀ offset limit, ∃ page, index.page offset limit = .ok page ∧
        page.conversations = (rows.drop offset).take limit ∧
        ((page.hasMore = true ↔
            index.scanHasMore = true ∨ offset + page.conversations.length < rows.length) ↔
          index.CountsRows offset limit)) ∧
      ∀ offset limits, ∃ shown, index.pages offset limits = .ok shown ∧
        shown.flatten = (rows.drop offset).take limits.sum := by
  have ⟨conversations, hall⟩ := exists_conversations h
  have hrows := firsts_firstOfEachSession conversations
  refine ⟨conversations, _, hall, hrows, ?_, exists_page h hall hrows, ?_⟩
  · intro other hother
    exact hother.unique hrows (eq_of_shownBefore h hall)
  · intro offset limits
    exact ⟨_, pages_eq h hall hrows offset limits, flatten_pagesFrom _ offset limits⟩

/-! ### One session from two sources -/

namespace Sample

def cached (sourceId : String) : CachedConversation where
  sourceId
  tool := "pi"
  nameSpace := "pi"
  sessionId := "s"
  title := none
  createdAt := none
  archivedAt := none
  updatedAt := ⟨true, 5, 0⟩
  state := "archived"
  provenanceKind := "external-local"
  sourcePath := none
  resumeReference := none

def twice : ConversationIndex :=
  { index with
    entries := ((∅ : Entries).insert (cached "pi")).insert (cached "pi:extra:0123456789abcdef") }

theorem entriesValid_twice : twice.EntriesValid := by
  have hall : ∀ entry ∈ twice.entries.values, entry.validate = .ok () := by decide +kernel
  intro key entry hget
  have hkey : entry.key = key := Table.key_of_get? hget
  apply hall entry
  rw [Table.mem_values, hkey]
  exact hget

end Sample

theorem index_pagination_sample :
    ∃ conversations rows,
      Sample.twice.entries.values.mapM (·.toConversation Sample.twice.project) = .ok conversations ∧
      Firsts shownBefore Conversation.sessionReference conversations rows := by
  have ⟨conversations, rows, hall, hrows, _⟩ := index_pagination Sample.entriesValid_twice
  exact ⟨conversations, rows, hall, hrows⟩

/-- Behind the one row of two entries a page of no rows says there is more. -/
theorem empty_page_counts_entries :
    ¬ ∀ (index : ConversationIndex) (conversations rows : List Conversation), index.EntriesValid →
      index.entries.values.mapM (·.toConversation index.project) = .ok conversations →
      Firsts shownBefore Conversation.sessionReference conversations rows →
      ∀ offset limit page, index.page offset limit = .ok page →
        (page.hasMore = true ↔
          index.scanHasMore = true ∨ offset + page.conversations.length < rows.length) := by
  intro hclaim
  have hvalid := Sample.entriesValid_twice
  have ⟨conversations, hall⟩ := ConversationIndex.exists_conversations hvalid
  have hrows := firsts_firstOfEachSession conversations
  have hcount : Sample.twice.sessionCount = 1 := by decide +kernel
  have hsize : Sample.twice.entries.size = 2 := by decide +kernel
  have hlength := ConversationIndex.length_rows hvalid hall hrows
  have hmore := (hclaim Sample.twice conversations _ hvalid hall hrows 1 0 _ rfl).mp (by
    rw [hsize]
    rfl)
  rw [hlength, hcount] at hmore
  cases hmore with
  | inl hscan => exact absurd hscan (by decide)
  | inr hrow => exact absurd hrow (by decide)

end HerdrContext.Index
