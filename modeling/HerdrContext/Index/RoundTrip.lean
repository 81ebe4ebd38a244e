import HerdrContext.Configuration
import HerdrContext.Index.Json
import HerdrContext.Index.Names
import HerdrContext.Index.Page

/-! Every index the refresh persists is opened again as it was, and every
cached entry can be shown. -/
namespace HerdrContext.Index

open Library

/-! ## Registered sources -/

theorem consume_tool_append (tool : Tool) (rest : List Char) :
    Wire.consume tool.name.toList (tool.name.toList ++ rest) = some rest :=
  Wire.consume_append _ _

/-- Sixteen lower-case hexadecimal digits, as `{:016x}` prints them. -/
theorem lowerHex_hex16 (value : UInt64) :
    ∀ c ∈ hex16 value, (Text.isHexDigit c && !c.isUpper) = true := by
  intro c hc
  have hdigit : ∀ width n, ∀ d ∈ Text.fixedDigits 16 width n, d.isUpper = false := by
    intro width
    induction width with
    | zero => simp [Text.fixedDigits]
    | succ width ih =>
      intro n d hd
      rcases List.mem_append.mp hd with hd | hd
      · exact ih _ d hd
      · rw [List.mem_singleton.mp hd]
        have hlt : n % 16 < 16 := Nat.mod_lt _ (by decide)
        generalize n % 16 = m at hlt
        interval_cases m <;> decide
  rw [isHexDigit_hex16 value c hc, hdigit 16 _ c hc]
  rfl

theorem isExtraRoot_extraIdText (tool : Tool) (fingerprint : UInt64) :
    isExtraRoot tool.name.toList (extraIdText tool fingerprint) = true := by
  have hmarker : ":extra:".toList = extraMarker := rfl
  rw [isExtraRoot, extraIdText, List.append_assoc, Wire.consume_append, Option.bind_some, hmarker,
    Wire.consume_append]
  simp only [byteLen_hex16, decide_eq_true_eq, true_and]
  exact List.all_eq_true.mpr (lowerHex_hex16 fingerprint)

theorem mem_knownTools (tool : Tool) : tool.name ∈ knownTools := by
  cases tool <;> decide

theorem validateSource_none_eq_ok {source : String}
    (h : source = "project-local-generic-jsonl" ∨
      ∃ tool : Tool, source = tool.name ∨ isExtraRoot tool.name.toList source.toList = true) :
    validateSource source none = .ok () := by
  have hexpected : (expectedTool source).isSome := by
    unfold expectedTool
    split
    next => rfl
    next hne =>
      obtain ⟨tool, htool⟩ := h.resolve_left hne
      exact List.find?_isSome.mpr ⟨tool.name, mem_knownTools tool, by simpa using htool⟩
  obtain ⟨expected, hexpected⟩ := Option.isSome_iff_exists.mp hexpected
  simp [validateSource, hexpected]

/-- Every id a configuration registers is one the cache accepts. -/
theorem validateSource_of_desired {config : ConversationsConfig} {id : SourceId}
    (h : id ∈ desiredSourceIds config) : validateSource id.text none = .ok () := by
  apply validateSource_none_eq_ok
  simp only [desiredSourceIds, List.mem_append, List.mem_map, List.mem_filter] at h
  rcases h with (h | ⟨tool, -, rfl⟩) | ⟨root, -, rfl⟩
  · split at h
    next =>
      rw [List.mem_singleton.mp h]
      exact Or.inl rfl
    next => simp at h
  · exact Or.inr ⟨tool, Or.inl tool.sourceId_text⟩
  · refine Or.inr ⟨root.source, Or.inr ?_⟩
    rw [configuredExternalSourceId, String.toList_ofList]
    exact isExtraRoot_extraIdText _ _

/-! ## Watermarks of a page belong to desired sources -/

namespace Discovery

variable {project : ProjectIdentity} {watermarks : Watermarks} {limit : DiscoveryLimit}
  {budget : MetadataBudget} {cancelled : Cancellation}

open HerdrContext.Discovery

theorem get?_setWatermark {table : Watermarks} {sourceId id : SourceId}
    {next : Option SourceWatermark} {watermark : SourceWatermark}
    (hnext : ∀ w ∈ next, w.sourceId = sourceId)
    (h : (setWatermark table sourceId next).get? id = some watermark) :
    id = sourceId ∨ table.get? id = some watermark := by
  cases next with
  | none =>
    rw [setWatermark, Table.get?_erase] at h
    split at h
    next => contradiction
    next => exact Or.inr h
  | some w =>
    rw [setWatermark, Table.get?_insert] at h
    split at h
    next hw => exact Or.inl (hw.symm.trans (hnext w rfl))
    next => exact Or.inr h

theorem discover_nextWatermark {source : ConversationSource} {after : Option SourceWatermark}
    {found : Discovered} (h : source.discover project after limit = .ok found) :
    ∀ w ∈ found.batch.nextWatermark, w.sourceId = source.sourceId := by
  obtain ⟨-, -, h⟩ := bind_eq_ok_iff.mp h
  obtain ⟨raw, -, h⟩ := bind_eq_ok_iff.mp h
  obtain ⟨batch, hbatch, h⟩ := bind_eq_ok_iff.mp h
  cases h
  exact (DiscoveryBatch.sourcesMatch_iff.mp (DiscoveryBatch.new_eq_ok_iff.mp hbatch).2.1).2.1

theorem get?_discoverSource {state : ConversationDiscovery} {source : ConversationSource}
    {id : SourceId} {watermark : SourceWatermark}
    (h : (discoverSource project watermarks limit budget cancelled state source).watermarks.get? id =
      some watermark) :
    id = source.sourceId ∨ state.watermarks.get? id = some watermark := by
  unfold discoverSource at h
  split at h
  next => exact Or.inr h
  next => exact Or.inr h
  next =>
    split at h
    next =>
      split at h
      next =>
        rw [Table.get?_erase] at h
        split at h
        next => contradiction
        next => exact Or.inr h
      next => exact Or.inr h
    next found hfound =>
      dsimp only at h
      split at h
      next => exact Or.inr h
      next => exact get?_setWatermark (discover_nextWatermark hfound) h

theorem get?_discoverSources {sources : List ConversationSource} {state : ConversationDiscovery}
    {id : SourceId} {watermark : SourceWatermark}
    (h : (discoverSources project watermarks limit budget cancelled sources state).watermarks.get? id =
      some watermark) :
    (∃ source ∈ sources, id = source.sourceId) ∨ state.watermarks.get? id = some watermark := by
  induction sources generalizing state with
  | nil => exact Or.inr h
  | cons source rest ih =>
    unfold discoverSources at h
    split at h
    next => exact Or.inr h
    next =>
      rcases ih h with ⟨found, hmem, hid⟩ | hstate
      · exact Or.inl ⟨found, by simp [hmem], hid⟩
      · rcases get?_discoverSource hstate with hid | hstate
        · exact Or.inl ⟨source, by simp, hid⟩
        · exact Or.inr hstate

/-- A page's watermarks belong to sources the configuration asks for. -/
theorem desired_of_get?_discoverConversations {registry : SourceRegistry} {id : SourceId}
    {watermark : SourceWatermark}
    (h : (discoverConversations project watermarks limit budget cancelled
      registry).watermarks.get? id = some watermark) : id ∈ registry.desiredSourceIds := by
  rcases get?_discoverSources h with ⟨source, hmem, rfl⟩ | hstart
  · exact registry.desired source hmem
  · simp only [start, Table.get?_filter] at hstart
    obtain ⟨hget, hretains⟩ := Option.filter_eq_some_iff.mp hstart
    rw [Table.key_of_get? hget] at hretains
    simpa [SourceRegistry.retains] using hretains

end Discovery

/-! ## Reopening a persisted index -/

namespace ConversationIndex

/-- What the decoder will ask of the cache this index is written to. -/
structure Sound (index : ConversationIndex) : Prop where
  entries_valid : ∀ key entry, index.entries.get? key = some entry → entry.validate = .ok ()
  watermark_valid : ∀ id watermark, index.watermarks.get? id = some watermark →
    validateSource id.text none = .ok () ∧ strLen watermark.token ≤ maxWatermarkBytes
  watermarks_size : index.watermarks.size ≤ maxSourceWatermarks

theorem loadWatermark_of_valid {watermark : SourceWatermark}
    (hsource : validateSource watermark.sourceId.text none = .ok ())
    (hlen : strLen watermark.token ≤ maxWatermarkBytes) :
    loadWatermark ⟨watermark.sourceId.text, watermark.token⟩ = .ok watermark := by
  have hcheck : ¬ (watermark.token = "" ∨ maxWatermarkBytes < strLen watermark.token) := by
    simp only [watermark.token_ne_empty, false_or]
    omega
  have hnew : SourceWatermark.new watermark.sourceId watermark.token = .ok watermark :=
    SourceWatermark.new_eq_ok_iff.mpr ⟨rfl, rfl⟩
  simp only [loadWatermark, hsource, ok_bind, rejectIf_of_not hcheck, SourceId.new,
    normalizedIdentifier_text, hnew, mapError]

theorem loadEntry_eq_ok_iff {entry loaded : CachedConversation} :
    loadEntry entry = .ok loaded ↔ entry.validate = .ok () ∧ loaded = entry := by
  simp only [loadEntry, bind_eq_ok_iff, pure_eq_ok, Except.ok.injEq]
  constructor
  · rintro ⟨⟨⟩, hvalid, rfl⟩
    exact ⟨hvalid, rfl⟩
  · rintro ⟨hvalid, rfl⟩
    exact ⟨(), hvalid, rfl⟩

theorem load_entries {index : ConversationIndex} (h : index.Sound) :
    Table.load loadEntry LoadFailure.corrupt index.entries.values (∅ : Entries) =
      .ok index.entries := by
  refine Table.load_of_perm ?_ (List.Perm.refl index.entries.values)
  refine List.forall₂_same.mpr fun entry hmem => loadEntry_eq_ok_iff.mpr ⟨?_, rfl⟩
  exact h.entries_valid _ _ (Table.mem_values.mp hmem)

theorem load_watermarks {index : ConversationIndex} (h : index.Sound) :
    Table.load loadWatermark LoadFailure.corrupt
      (index.watermarks.values.map fun watermark => ⟨watermark.sourceId.text, watermark.token⟩)
      (∅ : Watermarks) = .ok index.watermarks := by
  refine Table.load_of_perm ?_ (List.Perm.refl index.watermarks.values)
  refine List.forall₂_map_left_iff.mpr (List.forall₂_same.mpr fun watermark hmem => ?_)
  obtain ⟨hsource, hlen⟩ := h.watermark_valid _ _ (Table.mem_values.mp hmem)
  exact loadWatermark_of_valid hsource hlen

/-- What opening with a limit of its own shows of a persisted index. -/
def reopenedWith (maxEntries : MaxEntries) (index : ConversationIndex) : ConversationIndex :=
  { index with
    watermarks := if index.maxEntries.val < maxEntries.val then ∅ else index.watermarks
    status := .loaded
    scanHasMore := false
    maxEntries }

/-- The state a reopened cache shows: what was persisted, freshly loaded. -/
def reopened (index : ConversationIndex) : ConversationIndex :=
  { index with status := .loaded, scanHasMore := false }

theorem reopenedWith_maxEntries (index : ConversationIndex) :
    index.reopenedWith index.maxEntries = index.reopened := by
  simp only [reopenedWith, reopened, lt_irrefl, if_false]

theorem fromDisk_toDisk {index : ConversationIndex} {disk : DiskIndex} (maxEntries : MaxEntries)
    (h : index.Sound) (hsize : index.entries.size ≤ index.maxEntries.val)
    (hroot : NulFree index.project.root) (hdisk : index.toDisk = .ok disk) :
    fromDisk index.project disk maxEntries = .ok (index.reopenedWith maxEntries) := by
  obtain ⟨root, hstored, hdisk⟩ := bind_eq_ok_iff.mp hdisk
  cases hdisk
  have hpath : root.toPath = .ok index.project.root := StoredPath.toPath_fromPath hstored hroot
  have hmax := index.maxEntries.property
  have hlimit : ¬ (index.maxEntries.val < 1 ∨ maxIndexEntries < index.maxEntries.val) := by omega
  have hmatch : ¬ (schemaVersion ≠ schemaVersion ∨
      ¬ index.project.root.same index.project.root = true) := by simp
  have hcount : ¬ (maxIndexEntries < index.entries.values.length ∨ maxSourceWatermarks <
      (index.watermarks.values.map fun watermark =>
        (⟨watermark.sourceId.text, watermark.token⟩ : DiskWatermark)).length) := by
    have := h.watermarks_size
    rw [List.length_map, Table.length_values, Table.length_values]
    omega
  simp only [fromDisk, rejectIf_of_not hlimit, ok_bind, hpath, rejectIf_of_not hmatch,
    rejectIf_of_not hcount, load_watermarks h, load_entries h, pure_eq_ok, reopenedWith]

theorem encode_eq_ok {codec : IndexCodec} {index : ConversationIndex} {bytes : Bytes}
    (h : index.encode codec = .ok bytes) :
    ∃ disk, index.toDisk = .ok disk ∧ codec.encode disk = some bytes ∧
      bytes.length ≤ maxCacheBytes := by
  obtain ⟨disk, hdisk, h⟩ := bind_eq_ok_iff.mp h
  split at h
  next => contradiction
  next encoded hencoded =>
    obtain ⟨⟨⟩, hlen, h⟩ := bind_eq_ok_iff.mp h
    cases h
    exact ⟨disk, hdisk, hencoded, Nat.not_lt.mp (rejectIf_eq_ok_iff.mp hlen)⟩

theorem openCache_encode {codec : IndexCodec} {index : ConversationIndex} {bytes : Bytes}
    (maxEntries : MaxEntries) (h : index.Sound)
    (hsize : index.entries.size ≤ index.maxEntries.val) (hroot : NulFree index.project.root)
    (hbytes : index.encode codec = .ok bytes) :
    openCache codec index.project maxEntries (some (bytes, index.generation)) =
      index.reopenedWith maxEntries := by
  obtain ⟨disk, hdisk, hencoded, -⟩ := encode_eq_ok hbytes
  have hgeneration : disk.generation = index.generation := by
    obtain ⟨root, -, hdisk⟩ := bind_eq_ok_iff.mp hdisk
    cases hdisk
    rfl
  simp only [openCache, codec.decode_encode hencoded, hgeneration, ne_eq, not_true_eq_false,
    if_false, fromDisk_toDisk maxEntries h hsize hroot hdisk]

/-! ## Everything a run of pages reaches -/

def EntriesValid (index : ConversationIndex) : Prop :=
  ∀ key entry, index.entries.get? key = some entry → entry.validate = .ok ()

theorem entriesValid_empty (project : ProjectIdentity) (generation : UInt64) (status : IndexStatus)
    (maxEntries : MaxEntries) : (empty project generation status maxEntries).EntriesValid := by
  intro key entry h
  simp [empty] at h

theorem entriesValid_fromDisk {project : ProjectIdentity} {disk : DiskIndex}
    {maxEntries : MaxEntries} {index : ConversationIndex}
    (h : fromDisk project disk maxEntries = .ok index) : index.EntriesValid := by
  simp only [fromDisk, bind_eq_ok_iff] at h
  obtain ⟨-, -, -, -, -, -, -, -, watermarks, -, entries, hentries, h⟩ := h
  cases h
  intro key entry hget
  rcases Table.of_load_eq_ok hentries hget with hempty | ⟨stored, -, hload⟩
  · simp at hempty
  · obtain ⟨hvalid, rfl⟩ := loadEntry_eq_ok_iff.mp hload
    exact hvalid

/-- Opening gives an empty index or one the decoder built. -/
theorem openCache_cases (codec : IndexCodec) (project : ProjectIdentity) (maxEntries : MaxEntries)
    (file : Option (Bytes × UInt64)) :
    (∃ generation status,
      openCache codec project maxEntries file = empty project generation status maxEntries) ∨
    ∃ disk, fromDisk project disk maxEntries = .ok (openCache codec project maxEntries file) := by
  unfold openCache
  split
  next => exact Or.inl ⟨_, _, rfl⟩
  next =>
    split
    next => exact Or.inl ⟨_, _, rfl⟩
    next =>
      split
      next => exact Or.inl ⟨_, _, rfl⟩
      next =>
        split
        next h => exact Or.inr ⟨_, h⟩
        next => exact Or.inl ⟨_, _, rfl⟩
        next => exact Or.inl ⟨_, _, rfl⟩

theorem entriesValid_openCache (codec : IndexCodec) (project : ProjectIdentity)
    (maxEntries : MaxEntries) (file : Option (Bytes × UInt64)) :
    (openCache codec project maxEntries file).EntriesValid := by
  rcases openCache_cases codec project maxEntries file with ⟨generation, status, h⟩ | ⟨disk, h⟩
  · rw [h]
    exact entriesValid_empty _ _ _ _
  · exact entriesValid_fromDisk h

theorem parts_fromDisk {project : ProjectIdentity} {disk : DiskIndex} {maxEntries : MaxEntries}
    {index : ConversationIndex} (h : fromDisk project disk maxEntries = .ok index) :
    index.project = project ∧ index.maxEntries = maxEntries := by
  simp only [fromDisk, bind_eq_ok_iff] at h
  obtain ⟨-, -, -, -, -, -, -, -, watermarks, -, entries, -, h⟩ := h
  cases h
  exact ⟨rfl, rfl⟩

theorem parts_openCache (codec : IndexCodec) (project : ProjectIdentity) (maxEntries : MaxEntries)
    (file : Option (Bytes × UInt64)) :
    (openCache codec project maxEntries file).project = project ∧
      (openCache codec project maxEntries file).maxEntries = maxEntries := by
  rcases openCache_cases codec project maxEntries file with ⟨generation, status, h⟩ | ⟨disk, h⟩
  · rw [h]
    exact ⟨rfl, rfl⟩
  · exact parts_fromDisk h

/-- Provenance paths come from the file system, which has no NUL in a name. -/
def PathsNulFree (conversation : Conversation) : Prop :=
  ∀ provenance ∈ conversation.provenance, ∀ path ∈ provenance.path, NulFree path

theorem entriesValid_page {index after : ConversationIndex} {registry : SourceRegistry}
    {discovery : ConversationDiscovery} {rows : List CachedConversation} {full : Entries}
    (heffect : PageEffect index registry discovery after rows full) (h : index.EntriesValid)
    (hpaths : ∀ conversation ∈ discovery.conversations, PathsNulFree conversation) :
    after.EntriesValid := by
  intro key entry hget
  rcases heffect.entry_cases hget with hrow | ⟨hold, -⟩
  · obtain ⟨conversation, hmem, hfrom⟩ := heffect.row_fromConversation hrow
    exact CachedConversation.validate_fromConversation hfrom (hpaths conversation hmem)
  · exact h key entry hold

theorem size_watermarks_le {index after : ConversationIndex} {registry : SourceRegistry}
    {discovery : ConversationDiscovery} {rows : List CachedConversation} {full : Entries}
    {config : ConversationsConfig} (heffect : PageEffect index registry discovery after rows full)
    (hdesired : ∀ id watermark, discovery.watermarks.get? id = some watermark →
      id ∈ desiredSourceIds config) : after.watermarks.size ≤ maxSourceWatermarks := by
  rw [← Table.length_values, ← List.length_map (f := SourceWatermark.sourceId)]
  have hsub : after.watermarks.values.map SourceWatermark.sourceId ⊆ desiredSourceIds config := by
    intro id hid
    obtain ⟨watermark, hmem, rfl⟩ := List.mem_map.mp hid
    have hget := Table.mem_values.mp hmem
    rw [heffect.watermarks_eq] at hget
    exact hdesired _ _ (get?_boundWatermarks hget).1
  calc (after.watermarks.values.map SourceWatermark.sourceId).length
      ≤ (desiredSourceIds config).length :=
        (List.subperm_of_subset (Table.nodup_keys_values _) hsub).length_le
    _ ≤ 22 := length_desiredSourceIds config
    _ ≤ maxSourceWatermarks := by decide

theorem sound_page {index after : ConversationIndex} {registry : SourceRegistry}
    {discovery : ConversationDiscovery} {rows : List CachedConversation} {full : Entries}
    {config : ConversationsConfig} (heffect : PageEffect index registry discovery after rows full)
    (h : index.EntriesValid)
    (hpaths : ∀ conversation ∈ discovery.conversations, PathsNulFree conversation)
    (hdesired : ∀ id watermark, discovery.watermarks.get? id = some watermark →
      id ∈ desiredSourceIds config) : after.Sound where
  entries_valid := entriesValid_page heffect h hpaths
  watermark_valid id watermark hget := by
    rw [heffect.watermarks_eq] at hget
    obtain ⟨hbefore, hlen⟩ := get?_boundWatermarks hget
    exact ⟨validateSource_of_desired (hdesired id watermark hbefore), hlen⟩
  watermarks_size := size_watermarks_le heffect hdesired

end ConversationIndex

/-! ## Showing every entry -/

theorem validateSource_eq_ok {source tool : String}
    (h : validateSource source (some tool) = .ok ()) : expectedTool source = some tool := by
  unfold validateSource at h
  split at h
  next => contradiction
  next expected hexpected =>
    have := rejectIf_eq_ok_iff.mp h
    simp only [Option.any_some, decide_eq_true_eq, ne_eq, not_not] at this
    rw [hexpected, this]

theorem consume_eq_some {literal text rest : List Char}
    (h : Wire.consume literal text = some rest) : text = literal ++ rest := by
  induction literal generalizing text with
  | nil => exact Option.some.inj h
  | cons c literal ih =>
    cases text with
    | nil => simp [Wire.consume] at h
    | cons d text =>
      unfold Wire.consume at h
      split at h
      next hcd => rw [hcd, ih h, List.cons_append]
      next => contradiction

theorem exists_letter {tool : String} (h : tool = "generic-jsonl" ∨ tool ∈ knownTools) :
    ∃ c ∈ tool.toList, isWhitespace c = false := by
  simp only [knownTools, List.mem_cons, List.not_mem_nil, or_false] at h
  rcases h with rfl | rfl | rfl | rfl | rfl | rfl <;> exact ⟨_, List.mem_cons_self, by decide⟩

/-- Allowed sources and their tools have normal forms. -/
theorem normal_of_expectedTool {source tool : String} (h : expectedTool source = some tool) :
    (∃ normal, normalizeNonempty source = some normal) ∧
      ∃ normal, normalizeNonempty tool = some normal := by
  unfold expectedTool at h
  split at h
  next hsource =>
    cases Option.some.inj h
    obtain ⟨c, hc, hspace⟩ := exists_letter (Or.inl rfl)
    exact ⟨hsource ▸ ⟨_, genericSourceId.normal⟩, exists_normalizeNonempty hc hspace⟩
  next =>
    obtain ⟨c, hc, hspace⟩ := exists_letter (Or.inr (List.mem_of_find?_eq_some h))
    refine ⟨?_, exists_normalizeNonempty hc hspace⟩
    have hfound := List.find?_some h
    simp only [Bool.decide_or, Bool.or_eq_true, decide_eq_true_eq] at hfound
    rcases hfound with rfl | hextra
    · exact exists_normalizeNonempty hc hspace
    · -- an extra root's id starts with its tool's name
      unfold isExtraRoot at hextra
      split at hextra
      next fingerprint hconsume =>
        obtain ⟨rest, hrest, -⟩ := Option.bind_eq_some_iff.mp hconsume
        refine exists_normalizeNonempty ?_ hspace
        rw [consume_eq_some hrest]
        exact List.mem_append_left _ hc
      next => contradiction

theorem normal_of_identifier {value : String} (h : ¬ identifierInvalid value) :
    normalizeNonempty value = some value := by
  simp only [identifierInvalid, not_or, not_not] at h
  exact normalizeNonempty_of_trimmed h.2.2.1 h.1

theorem exists_normalizedIdentifier {value field : String}
    (h : ∃ normal, normalizeNonempty value = some normal) :
    ∃ text, normalizedIdentifier value field = .ok text := by
  obtain ⟨normal, hnormal⟩ := h
  exact ⟨⟨normal, normalizeNonempty_idem hnormal⟩, normalizedIdentifier_eq_ok_iff.mpr hnormal⟩

namespace CachedConversation

/-- A validated entry is constructible, so listing the index cannot fail. -/
theorem toConversation_of_validate {entry : CachedConversation} (h : entry.validate = .ok ())
    (project : ProjectIdentity) : ∃ c, entry.toConversation project = .ok c := by
  simp only [validate, bind_eq_ok_iff, rejectIf_eq_ok_iff, validateIdentifierLoad_eq_ok_iff,
    exists_const] at h
  obtain ⟨⟨⟩, hsource, hnamespace, hid, -, path, hpath, -, -, updated, hupdated, created, hcreated,
    archived, harchived, hnames, resume, hresume, -⟩ := h
  obtain ⟨hsourceNormal, htoolNormal⟩ := normal_of_expectedTool (validateSource_eq_ok hsource)
  obtain ⟨sourceId, hsourceId⟩ : ∃ id, SourceId.new entry.sourceId = .ok id :=
    exists_normalizedIdentifier hsourceNormal
  obtain ⟨tool, htool⟩ : ∃ tool, ToolIdentity.new entry.tool = .ok tool :=
    exists_normalizedIdentifier htoolNormal
  obtain ⟨session, hsession⟩ :
      ∃ session, SessionReference.new entry.nameSpace entry.sessionId = .ok session := by
    obtain ⟨nameSpace, hnameSpace⟩ :
        ∃ text, normalizedIdentifier entry.nameSpace "session namespace" = .ok text :=
      exists_normalizedIdentifier (not_not.mp hnamespace ▸ htoolNormal)
    obtain ⟨id, hid⟩ : ∃ text, normalizedIdentifier entry.sessionId "session id" = .ok text :=
      exists_normalizedIdentifier ⟨_, normal_of_identifier hid⟩
    exact ⟨⟨nameSpace, id⟩, by simp [SessionReference.new, hnameSpace, hid]⟩
  obtain ⟨kind, hkind⟩ := Option.ne_none_iff_exists'.mp (not_or.mp hnames).2
  obtain ⟨state, hstate⟩ := Option.ne_none_iff_exists'.mp (not_or.mp hnames).1
  obtain ⟨capability, hcapability⟩ :
      ∃ capability, resumeCapability entry.resumeReference = .ok capability := by
    cases href : entry.resumeReference with
    | none => exact ⟨_, rfl⟩
    | some reference =>
      rw [href] at hresume
      obtain ⟨u, hvalid, -⟩ := onSome_some_eq_ok_iff.mp hresume
      have hnormal := normal_of_identifier (validateIdentifierLoad_eq_ok_iff.mp hvalid)
      obtain ⟨text, htext⟩ : ∃ text, ResumeReference.new reference = .ok text :=
        exists_normalizedIdentifier ⟨_, hnormal⟩
      exact ⟨.supported text, by simp [resumeCapability, htext]⟩
  have htime : entry.updatedTime = .ok updated := by simp [updatedTime, hupdated]
  simp only [toConversation, hsourceId, htool, hsession, hkind, hstate, hcapability, hpath,
    hcreated, harchived, htime, mapError, orInvalid, ok_bind, Conversation.new, dite_false,
    List.cons_ne_self]
  exact ⟨_, rfl⟩

end CachedConversation

/-! ## Runs of pages -/

/-- The registry was built from the configuration in force at that page. -/
def ConfiguredBy (config : ConversationsConfig) (registry : SourceRegistry) : Prop :=
  ∀ id ∈ registry.desiredSourceIds, id ∈ desiredSourceIds config

/-- Index states of one project: opened from any file, then refreshed by any
pages of the configured sources. -/
inductive Reachable (codec : IndexCodec) (project : ProjectIdentity) : ConversationIndex → Prop where
  | opened (maxEntries : MaxEntries) (file : Option (Bytes × UInt64)) :
    Reachable codec project (ConversationIndex.openCache codec project maxEntries file)
  | refreshed {index after : ConversationIndex} {discovery : ConversationDiscovery}
    {refresh : IndexRefresh} (config : ConversationsConfig) (registry : SourceRegistry)
    (limit : DiscoveryLimit) (budget : MetadataBudget) (cancelled : Cancellation)
    (reachable : Reachable codec project index) (configured : ConfiguredBy config registry)
    (discovered : discovery = Discovery.discoverConversations project index.watermarks limit budget
      cancelled registry)
    (paths : ∀ conversation ∈ discovery.conversations, ConversationIndex.PathsNulFree conversation)
    (staged : stagePage index registry discovery cancelled = .ok (.staged (after, refresh))) :
    Reachable codec project after

namespace ConversationIndex

theorem reachable_invariant {codec : IndexCodec} {project : ProjectIdentity}
    {index : ConversationIndex} (h : Reachable codec project index) :
    index.project = project ∧ index.EntriesValid := by
  induction h with
  | opened maxEntries file =>
    exact ⟨(parts_openCache _ _ _ _).1, entriesValid_openCache _ _ _ _⟩
  | refreshed config registry limit budget cancelled _ _ discovered paths staged ih =>
    obtain ⟨⟨rows, full, heffect⟩, -⟩ := stagePage_eq_staged staged
    exact ⟨heffect.project_eq.trans ih.1, entriesValid_page heffect ih.2 paths⟩

/-- A committed page leaves an index the decoder accepts. -/
theorem sound_of_staged {codec : IndexCodec} {project : ProjectIdentity}
    {index after : ConversationIndex} {discovery : ConversationDiscovery} {refresh : IndexRefresh}
    {config : ConversationsConfig} {registry : SourceRegistry} {limit : DiscoveryLimit}
    {budget : MetadataBudget} {cancelled : Cancellation} (h : Reachable codec project index)
    (hconfigured : ConfiguredBy config registry)
    (hdiscovery : discovery = Discovery.discoverConversations project index.watermarks limit budget
      cancelled registry)
    (hpaths : ∀ conversation ∈ discovery.conversations, PathsNulFree conversation)
    (hstaged : stagePage index registry discovery cancelled = .ok (.staged (after, refresh))) :
    after.Sound ∧ after.entries.size ≤ after.maxEntries.val ∧ after.project = project := by
  obtain ⟨⟨rows, full, heffect⟩, -⟩ := stagePage_eq_staged hstaged
  obtain ⟨hproject, hvalid⟩ := reachable_invariant h
  have hdesired : ∀ id watermark, discovery.watermarks.get? id = some watermark →
      id ∈ desiredSourceIds config := by
    intro id watermark hget
    rw [hdiscovery] at hget
    exact hconfigured id (Discovery.desired_of_get?_discoverConversations hget)
  refine ⟨sound_page heffect hvalid hpaths hdesired, ?_, heffect.project_eq.trans hproject⟩
  rw [heffect.maxEntries_eq]
  exact heffect.size_le

theorem page_of_entriesValid {index : ConversationIndex} (h : index.EntriesValid)
    (offset limit : Nat) : ∃ page, index.page offset limit = .ok page := by
  unfold page
  split
  next => exact ⟨_, rfl⟩
  next =>
    obtain ⟨conversations, hconversations⟩ :
        ∃ conversations, index.entries.values.mapM (·.toConversation index.project) =
          .ok conversations := by
      have hall : ∀ entry ∈ index.entries.values, ∃ c, entry.toConversation index.project = .ok c :=
        fun entry hmem => CachedConversation.toConversation_of_validate
          (h _ entry (Table.mem_values.mp hmem)) index.project
      generalize index.entries.values = values at hall
      induction values with
      | nil => exact ⟨[], rfl⟩
      | cons entry rest ih =>
        obtain ⟨c, hc⟩ := hall entry (by simp)
        obtain ⟨cs, hcs⟩ := ih fun entry hmem => hall entry (by simp [hmem])
        exact ⟨c :: cs, by rw [List.mapM_cons, hc]; simp [hcs]⟩
    rw [hconversations]
    exact ⟨_, rfl⟩

end ConversationIndex

open ConversationIndex in
/-- A persisted page is opened again with equal entries, watermarks and
generation; an entry made from a path without NUL passes the decoder and gives
its conversation back; and no reachable index fails to list its entries. -/
theorem persisted_index_reopens (codec : IndexCodec) (project : ProjectIdentity)
    (hroot : NulFree project.root) :
    (∀ index after discovery refresh config registry limit budget cancelled bytes process nonce,
      Reachable codec project index → ConfiguredBy config registry →
      discovery = Discovery.discoverConversations project index.watermarks limit budget cancelled
        registry →
      (∀ conversation ∈ discovery.conversations, PathsNulFree conversation) →
      stagePage index registry discovery cancelled = .ok (.staged (after, refresh)) →
      after.encode codec = .ok bytes →
      openCache codec project after.maxEntries
        ((cacheGeneration (publishedName after.generation process nonce)).map fun generation =>
          (bytes, generation)) = after.reopened) ∧
    (∀ conversation entry, CachedConversation.fromConversation conversation = .ok entry →
      PathsNulFree conversation → entry.validate = .ok () ∧
        entry.toConversation conversation.projectIdentity = .ok conversation) ∧
    ∀ index, Reachable codec project index → ∀ offset limit,
      ∃ page, index.page offset limit = .ok page := by
  refine ⟨?_, ?_, ?_⟩
  · intro index after discovery refresh config registry limit budget cancelled bytes process nonce
      hreachable hconfigured hdiscovery hpaths hstaged hbytes
    obtain ⟨hsound, hsize, rfl⟩ :=
      sound_of_staged hreachable hconfigured hdiscovery hpaths hstaged
    rw [cacheGeneration_publishedName, ← reopenedWith_maxEntries]
    exact openCache_encode _ hsound hsize hroot hbytes
  · intro conversation entry hfrom hpaths
    exact ⟨CachedConversation.validate_fromConversation hfrom hpaths,
      CachedConversation.toConversation_fromConversation hfrom hpaths⟩
  · intro index hreachable offset limit
    exact page_of_entriesValid (reachable_invariant hreachable).2 offset limit

/-! ### A page on a small project -/

namespace Sample

def project : ProjectIdentity := ⟨⟨[47, 112]⟩⟩

/-- Updated one nanosecond before the epoch, from a file whose name is not UTF-8. -/
def conversation (path : Bytes) : Conversation where
  tool := Tool.pi.sourceId
  sessionReference := ⟨Tool.pi.sourceId, ⟨"s", by decide⟩⟩
  projectIdentity := project
  title := none
  createdAt := none
  archivedAt := none
  updatedAt := ⟨-1, by decide⟩
  state := .unknown
  provenance := [⟨Tool.pi.sourceId, .externalLocal, some ⟨path⟩⟩]
  resume := .unsupported
  provenance_ne_nil := by simp

def source : ConversationSource where
  sourceId := Tool.pi.sourceId
  probe := .ok .available
  discoverRaw project _ _ := .ok {
    batch := {
      candidates := [⟨Tool.pi.sourceId, project, "s", none, none, none, none⟩]
      nextWatermark := some ⟨Tool.pi.sourceId, "seen", by decide⟩
      removals := []
      errors := []
      hasMore := false }
    extractMetadataRaw _ _ := .ok (conversation [47, 112, 47, 255])
    projectEvidenceRaw _ project :=
      .ok [⟨.canonicalWorkingDirectory, project.root, none⟩] }

def registry : SourceRegistry where
  sources := [source]
  desiredSourceIds := [Tool.pi.sourceId]
  sorted := by simp
  desired := by simp [source]

def config : ConversationsConfig := ⟨false, fun tool => tool = .pi, [], by decide⟩

def index : ConversationIndex :=
  ConversationIndex.openCache Json.indexCodec project ⟨1, by decide⟩ none

def discovery : ConversationDiscovery :=
  Discovery.discoverConversations project index.watermarks ⟨1, by decide⟩ ⟨1, by decide⟩
    neverCancelled registry

/-- The staged index and the bytes it is written as. -/
def persistedFrom (index : ConversationIndex) : Option (ConversationIndex × Bytes) :=
  match stagePage index registry discovery neverCancelled with
  | .ok (.staged (after, _)) => (after.encode Json.indexCodec).toOption.map fun bytes =>
    (after, bytes)
  | _ => none

def persisted : Option (ConversationIndex × Bytes) := persistedFrom index

theorem conversations_eq : discovery.conversations = [conversation [47, 112, 47, 255]] := by
  decide +kernel

theorem persistedFrom_eq_some {index after : ConversationIndex} {bytes : Bytes}
    (h : persistedFrom index = some (after, bytes)) :
    ∃ refresh, stagePage index registry discovery neverCancelled = .ok (.staged (after, refresh)) ∧
      after.encode Json.indexCodec = .ok bytes := by
  unfold persistedFrom at h
  split at h
  next staged refresh hstaged =>
    obtain ⟨encoded, hencoded, heq⟩ := Option.map_eq_some_iff.mp h
    cases heq
    refine ⟨refresh, hstaged, ?_⟩
    cases hencode : after.encode Json.indexCodec with
    | error error =>
      rw [hencode] at hencoded
      contradiction
    | ok written =>
      rw [hencode] at hencoded
      cases Option.some.inj hencoded
      rfl
  next => contradiction

theorem persisted_size : (persisted.any fun run => run.1.entries.size = 1) = true := by
  decide +kernel

theorem isSome_persisted : (persistedFrom index).isSome = true := by
  obtain ⟨run, hrun, -⟩ := (Option.any_eq_true _ _).mp persisted_size
  exact Option.isSome_iff_exists.mpr ⟨run, hrun⟩

end Sample

theorem persisted_index_reopens_sample :
    ∃ after bytes, Sample.persisted = some (after, bytes) ∧ after.entries.size = 1 ∧
      ConversationIndex.openCache Json.indexCodec Sample.project after.maxEntries
        ((cacheGeneration (publishedName after.generation 7 0)).map fun generation =>
          (bytes, generation)) = after.reopened := by
  obtain ⟨⟨after, bytes⟩, hpersisted, hsize⟩ :=
    (Option.any_eq_true _ _).mp Sample.persisted_size
  obtain ⟨refresh, hstaged, hbytes⟩ := Sample.persistedFrom_eq_some hpersisted
  refine ⟨after, bytes, hpersisted, by simpa using hsize, ?_⟩
  refine (persisted_index_reopens Json.indexCodec Sample.project (by decide)).1 Sample.index after
    Sample.discovery refresh Sample.config Sample.registry _ _ _ bytes 7 0 (.opened _ none) ?_ rfl ?_
    hstaged hbytes
  · intro id hid
    cases List.mem_singleton.mp hid
    decide
  · rw [Sample.conversations_eq]
    intro conversation hconversation
    cases List.mem_singleton.mp hconversation
    unfold ConversationIndex.PathsNulFree NulFree
    decide

/-- The encoder lets a NUL in a provenance path through; the decoder does not. -/
theorem nul_path_not_reopened :
    ¬ ∀ conversation entry, CachedConversation.fromConversation conversation = .ok entry →
      entry.validate = .ok () ∧
        entry.toConversation conversation.projectIdentity = .ok conversation := by
  intro h
  have hentry : ∃ entry, CachedConversation.fromConversation (Sample.conversation [47, 0]) =
      .ok entry ∧ entry.validate = .error .corrupt := ⟨_, rfl, by decide +kernel⟩
  obtain ⟨entry, hfrom, hcorrupt⟩ := hentry
  have hvalid := (h _ entry hfrom).1
  rw [hcorrupt] at hvalid
  contradiction

end HerdrContext.Index
