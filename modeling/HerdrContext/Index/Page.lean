import HerdrContext.Index.Refresh

/-! What one committed page did to the index: which entries it dropped, which
it wrote, and which watermarks it kept. -/
namespace HerdrContext.Index

open Library

variable {cancelled : Cancellation}

/-! ## Loops of the page -/

theorem get?_purgeSources {index : Nat} {sources : List SourceId} {entries result : Entries}
    (h : purgeSources cancelled index sources entries = .staged result) (key : String) :
    result.get? key =
      (entries.get? key).filter fun entry => sources.all fun id => entry.sourceId ≠ id.text := by
  induction sources generalizing index entries with
  | nil =>
    cases h
    cases result.get? key <;> simp [Option.filter]
  | cons sourceId rest ih =>
    unfold purgeSources at h
    split at h
    next => contradiction
    next =>
      rw [ih h, Table.get?_filter]
      cases entries.get? key with
      | none => rfl
      | some entry => by_cases hid : entry.sourceId = sourceId.text <;> simp [Option.filter, hid]

/-- Some removal names this very session of this very source. -/
def removes (removals : List ConversationRemoval) (key : String) (entry : CachedConversation) :
    Bool :=
  removals.any fun removal => removalKey removal = key ∧ entry.sourceId = removal.sourceId.text

theorem get?_removeSession (entries : Entries) (removal : ConversationRemoval) (key : String) :
    (removeSession entries removal).get? key =
      (entries.get? key).filter fun entry => !removes [removal] key entry := by
  unfold removeSession
  split
  next h =>
    rw [Table.get?_erase]
    by_cases hkey : removalKey removal = key
    · subst hkey
      cases hget : entries.get? (removalKey removal) with
      | none => simp
      | some entry =>
        rw [hget] at h
        simp_all [removes, Option.filter]
    · cases entries.get? key <;> simp [removes, Option.filter, hkey]
  next h =>
    cases hget : entries.get? key with
    | none => rfl
    | some entry =>
      by_cases hkey : removalKey removal = key
      · subst hkey
        rw [hget] at h
        simp_all [removes, Option.filter]
      · simp [removes, Option.filter, hkey]

theorem get?_removeSessions {index : Nat} {removals : List ConversationRemoval}
    {entries result : Entries}
    (h : removeSessions cancelled index removals entries = .staged result) (key : String) :
    result.get? key = (entries.get? key).filter fun entry => !removes removals key entry := by
  induction removals generalizing index entries with
  | nil =>
    cases h
    cases result.get? key <;> simp [removes, Option.filter]
  | cons removal rest ih =>
    unfold removeSessions at h
    split at h
    next => contradiction
    next =>
      rw [ih h, get?_removeSession]
      cases entries.get? key with
      | none => rfl
      | some entry =>
        have hcons : removes (removal :: rest) key entry =
            (removes [removal] key entry || removes rest key entry) := by
          simp [removes]
        by_cases hfirst : removes [removal] key entry <;> simp [Option.filter, hcons, hfirst]

theorem get?_insertEntry (state : Entries × Nat) (cached : CachedConversation) (key : String) :
    (insertEntry state cached).1.get? key =
      if cached.key = key then some cached else state.1.get? key := by
  unfold insertEntry
  split
  next => rw [Table.get?_insert]
  next h =>
    split
    next hkey =>
      subst hkey
      simpa using h
    next => rfl

/-- The rows a page delivers, later ones first. -/
def deliveredRow (cached : List CachedConversation) (key : String) : Option CachedConversation :=
  cached.reverse.find? fun row => row.key = key

theorem insertConversations_eq_staged {index : Nat} {conversations : List Conversation}
    {state result : Entries × Nat}
    (h : insertConversations cancelled index conversations state = .ok (.staged result)) :
    ∃ cached, conversations.mapM CachedConversation.fromConversation = .ok cached ∧
      ∀ key, result.1.get? key = (deliveredRow cached key).or (state.1.get? key) := by
  induction conversations generalizing index state with
  | nil =>
    cases h
    exact ⟨[], rfl, fun key => rfl⟩
  | cons conversation rest ih =>
    unfold insertConversations at h
    split at h
    next => cases h
    next =>
      obtain ⟨row, hrow, hrest⟩ := bind_eq_ok_iff.mp h
      obtain ⟨cached, hcached, hget⟩ := ih hrest
      refine ⟨row :: cached, ?_, fun key => ?_⟩
      · rw [List.mapM_cons, hrow]
        simp [hcached]
      · rw [hget key, get?_insertEntry, deliveredRow, deliveredRow, List.reverse_cons,
          List.find?_append]
        cases List.find? (fun row => decide (row.key = key)) cached.reverse with
        | some found => simp
        | none => by_cases hkey : row.key = key <;> simp [hkey]

/-! ## Trimming -/

theorem trimOldest_eq_ok {maxEntries : MaxEntries} {entries result : Entries}
    (h : trimOldest maxEntries entries = .ok result) :
    ∃ ranked, List.Forall₂ (fun entry rank => rankEntry entry = .ok rank) entries.values ranked ∧
      result = entries.filter fun entry =>
        (((ranked.insertionSort rankedBefore).take maxEntries.val).map (·.2)).contains entry.key := by
  obtain ⟨ranked, hranked, h⟩ := bind_eq_ok_iff.mp h
  cases h
  exact ⟨ranked, forall₂_of_mapM_eq_ok hranked, rfl⟩

/-- A list of keys keeps at most as many entries as it is long. -/
theorem size_filter_keys_le (entries : Entries) (keep : List String) :
    (entries.filter fun entry => keep.contains entry.key).size ≤ keep.length := by
  rw [← Table.length_values, ← List.length_map (f := CachedConversation.key)]
  refine List.Subperm.length_le (List.subperm_of_subset (Table.nodup_keys_values _) ?_)
  intro key hkey
  obtain ⟨entry, hentry, rfl⟩ := List.mem_map.mp hkey
  have := Table.mem_values.mp hentry
  rw [Table.get?_filter] at this
  simpa using (Option.filter_eq_some_iff.mp this).2

theorem size_trimOldest_le {maxEntries : MaxEntries} {entries result : Entries}
    (h : trimOldest maxEntries entries = .ok result) : result.size ≤ maxEntries.val := by
  obtain ⟨ranked, -, rfl⟩ := trimOldest_eq_ok h
  refine le_trans (size_filter_keys_le _ _) ?_
  rw [List.length_map]
  exact List.length_take_le _ _

/-! ## Watermarks -/

theorem foldl_boundWatermark {watermarks : List SourceWatermark} {state : BoundedWatermarks}
    {id : SourceId} {watermark : SourceWatermark}
    (h : (watermarks.foldl boundWatermark state).watermarks.get? id = some watermark) :
    state.watermarks.get? id = some watermark ∨
      watermark ∈ watermarks ∧ strLen watermark.token ≤ maxWatermarkBytes := by
  induction watermarks generalizing state with
  | nil => exact Or.inl h
  | cons first rest ih =>
    rcases ih h with hget | ⟨hmem, hlen⟩
    · unfold boundWatermark at hget
      split at hget
      next => exact Or.inl hget
      next hfits =>
        rw [Table.get?_insert] at hget
        split at hget
        next =>
          cases Option.some.inj hget
          exact Or.inr ⟨by simp, by omega⟩
        next => exact Or.inl hget
    · exact Or.inr ⟨by simp [hmem], hlen⟩

/-- A kept watermark is one the page produced, within the cache's limit. -/
theorem get?_boundWatermarks {watermarks : Watermarks} {id : SourceId}
    {watermark : SourceWatermark}
    (h : (boundWatermarks watermarks).watermarks.get? id = some watermark) :
    watermarks.get? id = some watermark ∧ strLen watermark.token ≤ maxWatermarkBytes := by
  rcases foldl_boundWatermark h with hget | ⟨hmem, hlen⟩
  · simp at hget
  · refine ⟨?_, hlen⟩
    have hid := Table.key_of_get? h
    rw [← hid]
    exact Table.mem_values.mp hmem

/-! ## The page as a whole -/

/-- The entries of `index` that purges, removals and unregistered sources leave. -/
def survivor (registry : SourceRegistry) (discovery : ConversationDiscovery) (key : String)
    (entry : CachedConversation) : Bool :=
  (registry.desiredSourceIds.map (·.text)).contains entry.sourceId &&
    (discovery.purgedSources.all fun id => entry.sourceId ≠ id.text) &&
    !removes discovery.removals key entry

/-- One page's effect on the index. -/
structure PageEffect (index : ConversationIndex) (registry : SourceRegistry)
    (discovery : ConversationDiscovery) (after : ConversationIndex) (rows : List CachedConversation)
    (full : Entries) : Prop where
  rows_eq : discovery.conversations.mapM CachedConversation.fromConversation = .ok rows
  get?_full : ∀ key, full.get? key =
    (deliveredRow rows key).or ((index.entries.get? key).filter (survivor registry discovery key))
  entries_eq : limitEntries index.maxEntries full = .ok after.entries
  watermarks_eq : after.watermarks = (boundWatermarks discovery.watermarks).watermarks
  generation_eq : after.generation = nextGeneration index.generation
  project_eq : after.project = index.project
  maxEntries_eq : after.maxEntries = index.maxEntries
  status_eq : after.status = .loaded
  hasMore_eq : after.scanHasMore =
    (discovery.hasMore && !(boundWatermarks discovery.watermarks).droppedContinuation)

theorem stagePage_eq_staged {index after : ConversationIndex} {registry : SourceRegistry}
    {discovery : ConversationDiscovery} {refresh : IndexRefresh}
    (h : stagePage index registry discovery cancelled = .ok (.staged (after, refresh))) :
    (∃ rows full, PageEffect index registry discovery after rows full) ∧
      refresh.hasMore = after.scanHasMore := by
  unfold stagePage at h
  split at h
  next => cases h
  next =>
    split at h
    next => cases h
    next purged hpurged =>
      split at h
      next => cases h
      next removed hremoved =>
        split at h
        next => cases h
        next => cases h
        next full added hinserted =>
          obtain ⟨entries, hentries, h⟩ := bind_eq_ok_iff.mp h
          have hcommit : commitPage index discovery cancelled entries added =
              .staged (after, refresh) := Except.ok.inj h
          simp only [commitPage] at hcommit
          split at hcommit
          next => cases hcommit
          next =>
            obtain ⟨rows, hrows, hfull⟩ := insertConversations_eq_staged hinserted
            cases hcommit
            refine ⟨⟨rows, full, ⟨hrows, fun key => ?_, hentries, rfl, rfl, rfl, rfl, rfl, rfl⟩⟩,
              rfl⟩
            rw [hfull key, get?_removeSessions hremoved, get?_purgeSources hpurged, retainDesired,
              Table.get?_filter]
            cases index.entries.get? key with
            | none => rfl
            | some entry =>
              congr 1
              unfold survivor
              by_cases hdesired : (registry.desiredSourceIds.map (·.text)).contains entry.sourceId <;>
                by_cases hpurge : discovery.purgedSources.all fun id => entry.sourceId ≠ id.text <;>
                simp only [Option.filter, hdesired, hpurge, Bool.true_and, Bool.false_and,
                  Bool.false_eq_true, if_true, if_false]

namespace PageEffect

variable {index after : ConversationIndex} {registry : SourceRegistry}
  {discovery : ConversationDiscovery} {rows : List CachedConversation} {full : Entries}

theorem size_le (h : PageEffect index registry discovery after rows full) :
    after.entries.size ≤ index.maxEntries.val := by
  have hentries := h.entries_eq
  unfold limitEntries at hentries
  split at hentries
  next => exact size_trimOldest_le hentries
  next hle =>
    cases Except.ok.inj hentries
    omega

/-- Trimming only drops entries. -/
theorem get?_full_of_entries (h : PageEffect index registry discovery after rows full)
    {key : String} {entry : CachedConversation} (hget : after.entries.get? key = some entry) :
    full.get? key = some entry := by
  have hentries := h.entries_eq
  unfold limitEntries at hentries
  split at hentries
  next =>
    obtain ⟨ranked, -, htrim⟩ := trimOldest_eq_ok hentries
    rw [htrim, Table.get?_filter] at hget
    exact (Option.filter_eq_some_iff.mp hget).1
  next =>
    cases Except.ok.inj hentries
    exact hget

/-- Every entry was delivered by the page or was there before and survived it. -/
theorem entry_cases (h : PageEffect index registry discovery after rows full)
    {key : String} {entry : CachedConversation} (hget : after.entries.get? key = some entry) :
    entry ∈ rows ∨ index.entries.get? key = some entry ∧
      survivor registry discovery key entry = true := by
  have hfull := h.get?_full_of_entries hget
  rw [h.get?_full key, Option.or_eq_some_iff] at hfull
  rcases hfull with hrow | ⟨-, hold⟩
  · exact Or.inl (by simpa using List.mem_of_find?_eq_some hrow)
  · exact Or.inr (Option.filter_eq_some_iff.mp hold)

theorem row_fromConversation (h : PageEffect index registry discovery after rows full)
    {row : CachedConversation} (hrow : row ∈ rows) :
    ∃ conversation ∈ discovery.conversations,
      CachedConversation.fromConversation conversation = .ok row := by
  have hall := forall₂_of_mapM_eq_ok h.rows_eq
  obtain ⟨i, hi, rfl⟩ := List.getElem_of_mem hrow
  have hlen : i < discovery.conversations.length := hall.length_eq ▸ hi
  exact ⟨discovery.conversations[i], List.getElem_mem hlen, hall.get hlen hi⟩

end PageEffect

end HerdrContext.Index
