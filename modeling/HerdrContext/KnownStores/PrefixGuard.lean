import HerdrContext.KnownStores.Progress
import HerdrContext.Library.Transition

/-! A session file that only grows: what its stored entry says of the bytes
before its offset, over every number of scans. -/
namespace HerdrContext.KnownStores

open Library

/-- The reads of an open file show the beginning of `content`, which may grow
while it is read. -/
structure OpenFile.Shows (file : OpenFile) (identity : String) (content : Bytes) : Prop where
  before : ∀ state, file.before = .ok state →
    state.identity = identity ∧ state.len.toNat ≤ content.length
  readPrefix : ∀ length bytes, file.readPrefix length = .ok bytes → bytes = content.take length
  readFrom : ∀ offset bytes, file.readFrom offset = .ok bytes → bytes <+: content.drop offset

/-- The bytes of a snapshot are the ones behind its start. -/
structure Snapshot.ReadFrom (snapshot : Snapshot) (content : Bytes) : Prop where
  bytes : snapshot.bytes <+: content.drop snapshot.start
  ends : snapshot.start + snapshot.bytes.length ≤ snapshot.before.len.toNat
  bounded : snapshot.bytes.length ≤ min (snapshot.before.len.toNat - snapshot.start) maxFileBytes

namespace Snapshot.ReadFrom

variable {snapshot : Snapshot} {content : Bytes}

theorem take_eq (h : snapshot.ReadFrom content) {count : Nat} (hcount : count ≤ snapshot.bytes.length) :
    snapshot.bytes.take count = (content.drop snapshot.start).take count := by
  have ⟨rest, hrest⟩ := h.bytes
  rw [← hrest, List.take_append_of_le_length hcount]

theorem take_end (h : snapshot.ReadFrom content) :
    content.take (snapshot.start + snapshot.safeLen) =
      content.take snapshot.start ++ snapshot.bytes.take snapshot.safeLen := by
  rw [List.take_add, h.take_eq snapshot.safeLen_le]

theorem end_le (h : snapshot.ReadFrom content) :
    snapshot.start + snapshot.safeLen ≤ snapshot.before.len.toNat := by
  have hsafe := snapshot.safeLen_le
  have hends := h.ends
  omega

/-- A hash of all bytes before the start becomes one of all bytes before the end. -/
theorem contentHash (h : snapshot.ReadFrom content)
    (hstart : snapshot.startHash = fnv1a (content.take snapshot.start) fnvOffset) :
    snapshot.contentHash =
      fnv1a (content.take (snapshot.start + snapshot.safeLen)) fnvOffset := by
  rw [Snapshot.contentHash, hstart]
  split
  next hsafe => rw [hsafe, Nat.add_zero]
  next => rw [h.take_end, fnv1a_append]


end Snapshot.ReadFrom

/-! ## Stored entries -/

/-- What `read_prefix_hash` computes for an offset of the file. -/
def guardAt (content : Bytes) (offset : Nat) : UInt64 :=
  fnv1a (content.take (min offset prefixGuardBytes)) fnvOffset

/-- An entry with an offset is one of a session read from the start of the file
up to there. -/
structure Recorded (source : KnownJsonlSource) (canon : Canonicalizer) (relative : RelativePath)
    (identity : String) (content : Bytes) (entry : WatermarkEntry) : Prop where
  offset_le : entry.safeOffset.toNat ≤ content.length
  unread : entry.safeOffset.toNat = 0 → entry.prefixHash = none
  identity_eq : 0 < entry.safeOffset.toNat → entry.identity = identity
  outcome : 0 < entry.safeOffset.toNat → ∃ outcome, source.storedOutcome canon entry = some outcome ∧
    source.format.Reached source.decoders canon relative source.project outcome
  contentHash : 0 < entry.safeOffset.toNat →
    entry.contentHash = fnv1a (content.take entry.safeOffset.toNat) fnvOffset

def Guarded (content : Bytes) (entry : WatermarkEntry) : Prop :=
  0 < entry.safeOffset.toNat →
    entry.prefixHash = some (guardAt content entry.safeOffset.toNat)

section
variable {source : KnownJsonlSource} {canon : Canonicalizer} {relative : RelativePath}
  {identity : String} {content more : Bytes} {entry : WatermarkEntry}

theorem guardAt_append {offset : Nat} (h : offset ≤ content.length) :
    guardAt (content ++ more) offset = guardAt content offset := by
  rw [guardAt, guardAt, List.take_append_of_le_length (by omega)]

/-- Beyond the guarded bytes the guard stays the same. -/
theorem guardAt_add {offset : Nat} (h : prefixGuardBytes ≤ offset) (count : Nat) :
    guardAt content (offset + count) = guardAt content offset := by
  rw [guardAt, guardAt, Nat.min_eq_right h, Nat.min_eq_right (by omega)]

theorem Recorded.append (h : Recorded source canon relative identity content entry) (more : Bytes) :
    Recorded source canon relative identity (content ++ more) entry where
  offset_le := by
    have hoffset := h.offset_le
    rw [List.length_append]
    omega
  unread := h.unread
  identity_eq := h.identity_eq
  outcome := h.outcome
  contentHash hpositive := by
    rw [List.take_append_of_le_length h.offset_le]
    exact h.contentHash hpositive

theorem Guarded.append (hoffset : entry.safeOffset.toNat ≤ content.length) (h : Guarded content entry)
    (more : Bytes) : Guarded (content ++ more) entry := by
  intro hpositive
  rw [guardAt_append hoffset]
  exact h hpositive

/-- The flag of a duplicate session is no part of what was read. -/
theorem Recorded.marked (h : Recorded source canon relative identity content entry)
    (duplicate : Bool) :
    Recorded source canon relative identity content { entry with duplicate } where
  offset_le := h.offset_le
  unread := h.unread
  identity_eq := h.identity_eq
  outcome := h.outcome
  contentHash := h.contentHash

theorem recorded_failed (state : FileState) (error : SourceError) :
    Recorded source canon relative identity content
      (source.failedFile relative state error).watermark where
  offset_le := Nat.zero_le _
  unread _ := rfl
  identity_eq h := absurd h (Nat.lt_irrefl 0)
  outcome h := absurd h (Nat.lt_irrefl 0)
  contentHash h := absurd h (Nat.lt_irrefl 0)

theorem guarded_failed (state : FileState) (error : SourceError) :
    Guarded content (source.failedFile relative state error).watermark :=
  fun h => absurd h (Nat.lt_irrefl 0)

end

/-! ## One scan -/

namespace KnownJsonlSource

variable {source : KnownJsonlSource} {canon : Canonicalizer} {view : StoreView}
  {relative : RelativePath} {identity : String} {content : Bytes} {stored : WatermarkMap}
  {cancelled : ScanCancellation} {state : FileState}

/-- A scan that goes well, by its snapshot and outcome. -/
structure Scanned (source : KnownJsonlSource) (view : StoreView) (relative : RelativePath)
    (previous : Option WatermarkEntry) (cancelled : ScanCancellation) (file : OpenFile)
    (snapshot : Snapshot) (outcome : ParseOutcome) : Prop where
  succeeds : (source.scanFile relative view previous maxFileBytes cancelled).isOk
  opened : view.openFile relative = .ok file
  before : file.before = .ok snapshot.before
  resume : snapshot.resume = source.resumePoint view.canon file snapshot.before previous
  bytes : ∃ bytes, file.readFrom snapshot.start = .ok bytes ∧ snapshot.bytes <+: bytes
  read : snapshot.bytes.length ≤ min (snapshot.before.len.toNat - snapshot.start) maxFileBytes
  parsed : source.parseSnapshot view.canon relative snapshot cancelled = .ok outcome

theorem scanned_of_scanFile {previous : Option WatermarkEntry} {result : ScannedFile}
    (h : source.scanFile relative view previous maxFileBytes cancelled = .ok result) :
    ∃ file snapshot outcome after,
      source.Scanned view relative previous cancelled file snapshot outcome ∧
        result = source.scanned snapshot outcome after := by
  have hsucceeds : (source.scanFile relative view previous maxFileBytes cancelled).isOk := by
    rw [h]
    rfl
  unfold scanFile at h
  have ⟨file, hopened, h⟩ := bind_eq_ok_iff.mp h
  have ⟨snapshot, hsnapshot, h⟩ := bind_eq_ok_iff.mp h
  have ⟨_, _, h⟩ := bind_eq_ok_iff.mp h
  have ⟨outcome, houtcome, h⟩ := bind_eq_ok_iff.mp h
  have ⟨after, _, h⟩ := bind_eq_ok_iff.mp h
  have ⟨_, _, h⟩ := bind_eq_ok_iff.mp h
  have ⟨_, _, h⟩ := bind_eq_ok_iff.mp h
  unfold readSnapshot at hsnapshot
  have ⟨before, hbefore, hsnapshot⟩ := bind_eq_ok_iff.mp hsnapshot
  have ⟨_, _, hsnapshot⟩ := bind_eq_ok_iff.mp hsnapshot
  have ⟨_, _, hsnapshot⟩ := bind_eq_ok_iff.mp hsnapshot
  have ⟨_, _, hsnapshot⟩ := bind_eq_ok_iff.mp hsnapshot
  have ⟨bytes, hbytes, hsnapshot⟩ := bind_eq_ok_iff.mp hsnapshot
  have ⟨_, hlength, hsnapshot⟩ := bind_eq_ok_iff.mp hsnapshot
  have ⟨_, _, hsnapshot⟩ := bind_eq_ok_iff.mp hsnapshot
  cases hsnapshot
  rw [rejectIf_eq_ok_iff, not_not] at hlength
  refine ⟨file, _, outcome, after, ?_, (Except.ok.inj h).symm⟩
  constructor
  · exact hsucceeds
  · exact mapError_eq_ok_iff.mp hopened
  · exact mapError_eq_ok_iff.mp hbefore
  · rfl
  · exact ⟨bytes, mapError_eq_ok_iff.mp hbytes, List.take_prefix _ _⟩
  · dsimp only
    rw [hlength]
    exact le_min ((min_le_left _ _).trans (min_le_left _ _)) (min_le_right _ _)
  · exact houtcome

/-- A file is scanned, or keeps its entry, or loses it for an error. -/
theorem inspected_cases :
    stored[watermarkKey relative]? =
        some (source.inspectFile view stored cancelled relative state).1.watermark ∨
      (∃ error, (source.inspectFile view stored cancelled relative state).1.watermark =
        (source.failedFile relative state error).watermark) ∨
      ∃ file snapshot outcome after,
        source.Scanned view relative stored[watermarkKey relative]? cancelled file snapshot outcome ∧
          (source.inspectFile view stored cancelled relative state).1.watermark =
            (source.scanned snapshot outcome after).watermark := by
  unfold inspectFile
  dsimp only
  cases hscan : source.scanFile relative view stored[watermarkKey relative]? maxFileBytes
      cancelled with
  | ok result =>
    have ⟨file, snapshot, outcome, after, hscanned, hresult⟩ := scanned_of_scanFile hscan
    rw [hresult]
    exact .inr (.inr ⟨file, snapshot, outcome, after, hscanned, rfl⟩)
  | error error =>
    cases hentry : stored[watermarkKey relative]? with
    | none => exact .inr (.inl ⟨error, rfl⟩)
    | some entry =>
      dsimp only
      split
      next => exact .inl rfl
      next => exact .inr (.inl ⟨error, rfl⟩)

namespace Scanned

variable {previous : Option WatermarkEntry} {file : OpenFile} {snapshot : Snapshot}
  {outcome : ParseOutcome}

/-- Where a scan goes on is what the entry says of it. -/
theorem resume_cases (h : source.Scanned view relative previous cancelled file snapshot outcome) :
    snapshot.resume = none ∨ ∃ entry ∈ previous, ∃ earlier,
      source.storedOutcome view.canon entry = some earlier ∧
        entry.safeOffset < snapshot.before.len ∧ entry.prefixHash.isSome ∧
        snapshot.resume =
          some ⟨entry.safeOffset, entry.contentHash, earlier, entry.prefixHash⟩ := by
  cases hpoint : snapshot.resume with
  | none => exact .inl rfl
  | some point =>
    have ⟨entry, hentry, earlier, hearlier, ⟨_, hless, hguard, _⟩, hsame⟩ :=
      resumePoint_eq_some_iff.mp (h.resume.symm.trans hpoint)
    exact .inr ⟨entry, hentry, earlier, hearlier, hless, hguard, congrArg some hsame⟩

theorem readFrom (h : source.Scanned view relative previous cancelled file snapshot outcome)
    (hshows : file.Shows identity content) : snapshot.ReadFrom content := by
  have ⟨bytes, hbytes, hread⟩ := h.bytes
  have hlength := h.read
  constructor
  · exact hread.trans (hshows.readFrom _ _ hbytes)
  · have hstart : snapshot.start ≤ snapshot.before.len.toNat := by
      rcases h.resume_cases with hnone | ⟨entry, _, _, _, hless, _, hpoint⟩
      · rw [Snapshot.start, hnone]
        exact Nat.zero_le _
      · rw [Snapshot.start, hpoint]
        exact Nat.le_of_lt hless
    omega
  · exact hlength

theorem safeOffset_toNat (hread : snapshot.ReadFrom content) (after : FileState) :
    (source.scanned snapshot outcome after).watermark.safeOffset.toNat =
      snapshot.start + snapshot.safeLen := by
  have hend := hread.end_le
  have hlen := snapshot.before.len.toNat_lt
  simp only [scanned]
  rw [UInt64.toNat_ofNat_of_lt' (by unfold UInt64.size; omega)]

/-- A record that a scan completes ends among the bytes it may read. -/
theorem newline_mem (h : source.Scanned view relative previous cancelled file snapshot outcome)
    (hread : snapshot.ReadFrom content) (hsafe : snapshot.safeLen ≠ 0) :
    newline ∈ (content.drop snapshot.start).take
      (min (snapshot.before.len.toNat - snapshot.start) maxFileBytes) := by
  have hmem := List.mem_of_mem_take (snapshot.newline_mem_take hsafe)
  rw [← List.take_length (l := snapshot.bytes), hread.take_eq le_rfl,
    ← Nat.min_eq_left h.read, ← List.take_take] at hmem
  exact List.mem_of_mem_take hmem

/-- A scan from the start of the file has a complete record. -/
theorem safeLen_ne_zero (h : source.Scanned view relative previous cancelled file snapshot outcome)
    (hnone : snapshot.resume = none) : snapshot.safeLen ≠ 0 := by
  intro hsafe
  have hparsed := h.parsed
  rw [parseSnapshot, if_pos hsafe, okOr_eq_ok_iff, Snapshot.previousMetadata, hnone] at hparsed
  contradiction

/-- The outcome is one of the records from the start of the file. -/
theorem reached (h : source.Scanned view relative previous cancelled file snapshot outcome)
    (hresume : ∀ point ∈ snapshot.resume,
      source.format.Reached source.decoders view.canon relative source.project point.outcome) :
    source.format.Reached source.decoders view.canon relative source.project outcome := by
  have hparsed := h.parsed
  unfold parseSnapshot at hparsed
  split at hparsed
  next =>
    have ⟨metadata, hmetadata, houtcome⟩ := Option.map_eq_some_iff.mp (okOr_eq_ok_iff.mp hparsed)
    have ⟨point, hpoint, hidentified⟩ := Option.bind_eq_some_iff.mp hmetadata
    have hsame : point.outcome = outcome := by
      rw [← houtcome]
      cases hearlier : point.outcome with
      | metadata parsed =>
        rw [hearlier] at hidentified
        rw [Option.some.inj hidentified]
      | identityPending pending =>
        rw [hearlier] at hidentified
        contradiction
    rw [← hsame]
    exact hresume point hpoint
  next =>
    have ⟨records, hrecords, hfolded⟩ := bind_eq_ok_iff.mp (mapError_eq_ok_iff.mp hparsed)
    apply KnownFormat.Reached.parse ?_ (completeRecords_ne_nil hrecords)
      (KnownFormat.parse_never hfolded)
    intro earlier hearlier
    have ⟨point, hpoint, hsame⟩ := Option.map_eq_some_iff.mp hearlier
    rw [← hsame]
    exact hresume point hpoint

section
variable (h : source.Scanned view relative previous cancelled file snapshot outcome)
  (hshows : file.Shows identity content)
  (hprevious : ∀ entry ∈ previous, Recorded source view.canon relative identity content entry)
include h hprevious

/-- Without a point to go on from, or with one behind the start of the file. -/
theorem start_cases :
    snapshot.resume = none ∧ snapshot.start = 0 ∨
      ∃ entry ∈ previous, 0 < entry.safeOffset.toNat ∧ snapshot.start = entry.safeOffset.toNat ∧
        ∃ earlier, source.storedOutcome view.canon entry = some earlier ∧
          snapshot.resume =
            some ⟨entry.safeOffset, entry.contentHash, earlier, entry.prefixHash⟩ := by
  rcases h.resume_cases with hnone | ⟨entry, hentry, earlier, hearlier, _, hguard, hpoint⟩
  · left
    rw [Snapshot.start, hnone]
    exact ⟨rfl, rfl⟩
  · right
    exists entry, hentry
    constructor
    · apply Nat.pos_of_ne_zero
      intro hzero
      rw [(hprevious entry hentry).unread hzero] at hguard
      contradiction
    · rw [Snapshot.start, hpoint]
      exact ⟨rfl, earlier, hearlier, rfl⟩

theorem end_pos : 0 < snapshot.start + snapshot.safeLen := by
  rcases h.start_cases hprevious with ⟨hnone, _⟩ | ⟨entry, _, hpositive, hstart, _⟩
  · have hsafe := h.safeLen_ne_zero hnone
    omega
  · omega

theorem startHash : snapshot.startHash = fnv1a (content.take snapshot.start) fnvOffset := by
  rcases h.start_cases hprevious with ⟨hnone, hstart⟩ | ⟨entry, hentry, hpositive, hstart, _, _, hpoint⟩
  · rw [Snapshot.startHash, hnone, hstart]
    rfl
  · rw [Snapshot.startHash, hpoint, hstart]
    exact (hprevious entry hentry).contentHash hpositive

theorem outcome_reached :
    source.format.Reached source.decoders view.canon relative source.project outcome := by
  apply h.reached
  intro point hpoint
  rcases h.start_cases hprevious with ⟨hnone, _⟩ | ⟨entry, hentry, hpositive, _, earlier, hearlier, hsome⟩
  · rw [hnone] at hpoint
    contradiction
  · have ⟨same, hsame, hreached⟩ := (hprevious entry hentry).outcome hpositive
    rw [hearlier] at hsame
    cases hsame
    rw [hsome] at hpoint
    cases Option.mem_some_iff.mp hpoint
    exact hreached

include hshows

theorem recorded (after : FileState) :
    Recorded source view.canon relative identity content
      (source.scanned snapshot outcome after).watermark := by
  have hread := h.readFrom hshows
  have hreached := h.outcome_reached hprevious
  have hoffset : (source.scanned snapshot outcome after).watermark.safeOffset.toNat = _ :=
    safeOffset_toNat hread after
  have hend := hread.end_le
  have hpositive := h.end_pos hprevious
  have ⟨hidentity, hlen⟩ := hshows.before _ h.before
  constructor
  · omega
  · omega
  · intro _
    exact hidentity
  · intro _
    exact ⟨outcome, storedOutcome_scanned hreached.restore, hreached⟩
  · intro _
    rw [hoffset]
    exact hread.contentHash (h.startHash hprevious)

/-- The guard is right where a scan starts anew, folds nothing, or goes on from
behind the guarded bytes. -/
theorem guarded (hguarded : ∀ entry ∈ previous, Guarded content entry)
    (hbehind : ∀ point ∈ snapshot.resume, snapshot.safeLen ≠ 0 →
      prefixGuardBytes ≤ point.offset.toNat) (after : FileState) :
    Guarded content (source.scanned snapshot outcome after).watermark := by
  have hread := h.readFrom hshows
  intro _
  rw [safeOffset_toNat hread after]
  change snapshot.prefixHash = _
  rcases h.start_cases hprevious with ⟨hnone, hstart⟩ | ⟨entry, hentry, hpositive, hstart, _, _, hpoint⟩
  · have hsafe := h.safeLen_ne_zero hnone
    have hsome : min snapshot.safeLen prefixGuardBytes ≠ 0 := by
      have hguard : prefixGuardBytes = 4096 := rfl
      omega
    have hshort : min snapshot.safeLen prefixGuardBytes ≤ snapshot.bytes.length :=
      (min_le_left _ _).trans snapshot.safeLen_le
    rw [Snapshot.prefixHash, hnone, Option.bind_none, Option.none_or, if_neg hsome,
      hread.take_eq hshort, hstart, List.drop_zero, Nat.zero_add, guardAt]
  · have hkept : snapshot.prefixHash = some (guardAt content entry.safeOffset.toNat) := by
      rw [Snapshot.prefixHash, hpoint, Option.bind_some, hguarded entry hentry hpositive]
      rfl
    rw [hkept, hstart]
    by_cases hsafe : snapshot.safeLen = 0
    · rw [hsafe, Nat.add_zero]
    · have hlong : prefixGuardBytes ≤ entry.safeOffset.toNat := hbehind _ hpoint hsafe
      rw [guardAt_add hlong]

end

end Scanned

end KnownJsonlSource

/-! ## Runs -/

/-- A session file, and what is stored of the files of its store. -/
structure GrowingFile where
  content : Bytes
  stored : WatermarkMap

/-- What happens to a session file: a writer appends to it, a page scans it, and
the page or what comes between two pages settles its entry. -/
inductive GrowthEvent where
  | append (more : Bytes)
  | scan (view : StoreView) (state : FileState) (cancelled : ScanCancellation)
  | settle (next : WatermarkMap)

section
variable (source : KnownJsonlSource) (canon : Canonicalizer) (relative : RelativePath)
  (identity : String)

/-- An entry is kept, marked as a duplicate or not, or lost. -/
def Settles (stored next : WatermarkMap) : Prop :=
  ∀ entry, next[watermarkKey relative]? = some entry → ∃ earlier duplicate,
    stored[watermarkKey relative]? = some earlier ∧ entry = { earlier with duplicate }

inductive GrowthStep : GrowingFile → GrowthEvent → GrowingFile → Prop where
  | append {content stored} (more : Bytes) :
    GrowthStep ⟨content, stored⟩ (.append more) ⟨content ++ more, stored⟩
  | scan {content stored} {view : StoreView} {state : FileState} {cancelled : ScanCancellation}
    (canon_eq : view.canon = canon)
    (shows : ∀ file, view.openFile relative = .ok file → file.Shows identity content) :
    GrowthStep ⟨content, stored⟩ (.scan view state cancelled)
      ⟨content, stored.insert (watermarkKey relative)
        (source.inspectFile view stored cancelled relative state).1.watermark⟩
  | settle {content stored next} (settles : Settles relative stored next) :
    GrowthStep ⟨content, stored⟩ (.settle next) ⟨content, next⟩

/-- A scan that goes well goes on from within the guarded bytes and finds a
complete record there. -/
def ExtendsShort (file : GrowingFile) : GrowthEvent → Prop
  | .scan view _ cancelled => ∃ opened before point,
      view.openFile relative = .ok opened ∧ opened.before = .ok before ∧
      source.resumePoint view.canon opened before file.stored[watermarkKey relative]? = some point ∧
      point.offset.toNat < prefixGuardBytes ∧
      newline ∈ (file.content.drop point.offset.toNat).take
        (min (before.len.toNat - point.offset.toNat) maxFileBytes) ∧
      (source.scanFile relative view file.stored[watermarkKey relative]? maxFileBytes
        cancelled).isOk
  | _ => False

/-- What is stored of the file is right, and the next scan of the grown file goes
on from there if it can read the guarded bytes. -/
structure PrefixGuarded (file : GrowingFile) (entry : WatermarkEntry) : Prop where
  prefixHash : entry.prefixHash = some (guardAt file.content entry.safeOffset.toNat)
  contentHash : entry.contentHash = fnv1a (file.content.take entry.safeOffset.toNat) fnvOffset
  resumes : ∀ opened before bytes, opened.Shows identity file.content →
    opened.before = .ok before → entry.safeOffset < before.len →
    opened.readPrefix (min entry.safeOffset.toNat prefixGuardBytes) = .ok bytes →
    KnownJsonlSource.readPrefixHash opened entry.safeOffset = entry.prefixHash ∧
      ∃ outcome, source.resumePoint canon opened before file.stored[watermarkKey relative]? =
        some ⟨entry.safeOffset, entry.contentHash, outcome, entry.prefixHash⟩

end

section
variable {source : KnownJsonlSource} {canon : Canonicalizer} {relative : RelativePath}
  {identity : String} {file file' : GrowingFile} {event : GrowthEvent}

theorem GrowthStep.recorded
    (h : ∀ entry ∈ file.stored[watermarkKey relative]?,
      Recorded source canon relative identity file.content entry)
    (step : GrowthStep source canon relative identity file event file') :
    ∀ entry ∈ file'.stored[watermarkKey relative]?,
      Recorded source canon relative identity file'.content entry := by
  intro entry hentry
  cases step with
  | append more => exact (h entry hentry).append more
  | settle settles =>
    have ⟨earlier, duplicate, hearlier, hsame⟩ := settles entry hentry
    rw [hsame]
    exact (h earlier hearlier).marked duplicate
  | scan canon_eq shows =>
    rw [Std.ExtTreeMap.getElem?_insert_self, Option.mem_some_iff] at hentry
    rw [← hentry, ← canon_eq]
    rw [← canon_eq] at h
    rcases KnownJsonlSource.inspected_cases with hkept | ⟨error, hfailed⟩ | ⟨opened, _, _, after, hscanned, hresult⟩
    · exact h _ hkept
    · rw [hfailed]
      exact recorded_failed _ error
    · rw [hresult]
      exact hscanned.recorded (shows opened hscanned.opened) h after

theorem GrowthStep.guarded
    (h : ∀ entry ∈ file.stored[watermarkKey relative]?,
      Recorded source canon relative identity file.content entry)
    (hguarded : ∀ entry ∈ file.stored[watermarkKey relative]?, Guarded file.content entry)
    (step : GrowthStep source canon relative identity file event file')
    (hextends : ¬ExtendsShort source relative file event) :
    ∀ entry ∈ file'.stored[watermarkKey relative]?, Guarded file'.content entry := by
  intro entry hentry
  cases step with
  | append more => exact (hguarded entry hentry).append (h entry hentry).offset_le more
  | settle settles =>
    have ⟨earlier, duplicate, hearlier, hsame⟩ := settles entry hentry
    rw [hsame]
    exact hguarded earlier hearlier
  | @scan content stored view state cancelled canon_eq shows =>
    rw [Std.ExtTreeMap.getElem?_insert_self, Option.mem_some_iff] at hentry
    rw [← hentry]
    rw [← canon_eq] at h
    rcases KnownJsonlSource.inspected_cases with hkept | ⟨error, hfailed⟩ | ⟨opened, snapshot, _, after, hscanned, hresult⟩
    · exact hguarded _ hkept
    · rw [hfailed]
      exact guarded_failed _ error
    · have hshows := shows opened hscanned.opened
      rw [hresult]
      apply hscanned.guarded hshows h hguarded
      intro point hpoint hsafe
      by_contra hshort
      apply hextends
      have hstart : snapshot.start = point.offset.toNat := by
        rw [Snapshot.start, Option.mem_def.mp hpoint]
        rfl
      refine ⟨opened, snapshot.before, point, hscanned.opened, hscanned.before, ?_,
        Nat.lt_of_not_le hshort, ?_, hscanned.succeeds⟩
      · rw [← hpoint]
        exact hscanned.resume.symm
      · rw [← hstart]
        exact hscanned.newline_mem (hscanned.readFrom hshows) hsafe

/-- In every run in which no scan extends an offset within the guarded bytes,
what is stored of the file is right and gone on from. -/
theorem prefix_guard {start : GrowingFile} {events : List GrowthEvent} {entry : WatermarkEntry}
    (hnew : start.stored[watermarkKey relative]? = none)
    (run : Run (fun before event after =>
      GrowthStep source canon relative identity before event after ∧
        ¬ExtendsShort source relative before event) start events file)
    (hentry : file.stored[watermarkKey relative]? = some entry)
    (hoffset : 0 < entry.safeOffset.toNat) :
    PrefixGuarded source canon relative identity file entry := by
  have hstored : (∀ entry ∈ file.stored[watermarkKey relative]?,
      Recorded source canon relative identity file.content entry) ∧
      ∀ entry ∈ file.stored[watermarkKey relative]?, Guarded file.content entry := by
    apply run.invariant (fun file => (∀ entry ∈ file.stored[watermarkKey relative]?,
      Recorded source canon relative identity file.content entry) ∧
      ∀ entry ∈ file.stored[watermarkKey relative]?, Guarded file.content entry)
    · rw [hnew]
      simp
    · intro before event after ⟨hrecorded, hguarded⟩ ⟨step, hextends⟩
      exact ⟨step.recorded hrecorded, step.guarded hrecorded hguarded hextends⟩
  have hrecorded := hstored.1 entry hentry
  have hguarded := hstored.2 entry hentry hoffset
  have ⟨outcome, houtcome, _⟩ := hrecorded.outcome hoffset
  constructor
  · exact hguarded
  · exact hrecorded.contentHash hoffset
  · intro opened before bytes hshows hbefore hless hbytes
    have hread : KnownJsonlSource.readPrefixHash opened entry.safeOffset = entry.prefixHash := by
      rw [KnownJsonlSource.readPrefixHash, hbytes, hguarded, hshows.readPrefix _ _ hbytes]
      rfl
    exists hread, outcome
    apply KnownJsonlSource.resumePoint_eq_some_iff.mpr
    refine ⟨entry, hentry, outcome, houtcome, ⟨?_, hless, ?_, hread⟩, rfl⟩
    · exact (hrecorded.identity_eq hoffset).trans (hshows.before before hbefore).1.symm
    · rw [hguarded]
      rfl

end

/-! ## A session file below the guarded length -/

theorem StillFile.shows (file : StillFile) :
    file.opened.Shows file.state.identity file.content where
  before state hstate := by
    cases Except.ok.inj hstate
    exact ⟨rfl, file.len_eq.le⟩
  readPrefix length bytes hbytes := by
    simp only [StillFile.opened] at hbytes
    split at hbytes
    next => exact (Except.ok.inj hbytes).symm
    next => contradiction
  readFrom offset bytes hbytes := by
    cases Except.ok.inj hbytes
    exact List.prefix_rfl

theorem StoreView.shows_holding {view : StoreView} {relative : RelativePath} {file : StillFile} :
    ∀ opened, (view.holding relative file).openFile relative = .ok opened →
      opened.Shows file.state.identity file.content := by
  intro opened hopened
  have hopen : (view.holding relative file).openFile relative = .ok file.opened := if_pos rfl
  rw [hopen] at hopened
  cases Except.ok.inj hopened
  exact file.shows

namespace Sample

def growingState (len : UInt64) : FileState := ⟨len, ⟨0, epoch_range⟩, 1, 2, 0, 0⟩

/-- The header of a session. -/
def started : StillFile where
  state := growingState 121
  content := headerRecord ++ [newline]
  len_eq := by decide +kernel

def infoRecord : Bytes :=
  ascii "\x7b\"type\":\"session_info\",\"id\":\"0123abcd\",\"timestamp\":\"2026-01-01T00:00:00Z\"\x7d"

/-- The same file with its first entry. -/
def grown : StillFile where
  state := growingState 196
  content := started.content ++ (infoRecord ++ [newline])
  len_eq := by decide +kernel

def growingPi : KnownJsonlSource :=
  { extraPi with
    decoders := { decoders with
      pi := fun bytes =>
        if bytes = headerRecord then
          some { kind := "session", version := some 3, id := sessionId, timestamp := stamp,
                 cwd := some "/p" }
        else if bytes = infoRecord then
          some { kind := "session_info", id := "0123abcd", timestamp := stamp }
        else none } }

/-- The entry that a scan of the file leaves. -/
def scannedEntry (stored : WatermarkMap) (file : StillFile) : WatermarkEntry :=
  (growingPi.inspectFile (notesView.holding relative file) stored .unasked relative
    file.state).1.watermark

def startedStored : WatermarkMap :=
  (∅ : WatermarkMap).insert (watermarkKey relative) (scannedEntry ∅ started)

def grownStored : WatermarkMap :=
  startedStored.insert (watermarkKey relative) (scannedEntry startedStored grown)

theorem first_scan : GrowthStep growingPi canon relative (growingState 121).identity
    ⟨started.content, ∅⟩ (.scan (notesView.holding relative started) started.state .unasked)
    ⟨started.content, startedStored⟩ := .scan rfl StoreView.shows_holding

/-- Scanned, grown and scanned again. -/
theorem grown_run : Run (GrowthStep growingPi canon relative (growingState 121).identity)
    ⟨started.content, ∅⟩
    [.scan (notesView.holding relative started) started.state .unasked,
      .append (infoRecord ++ [newline]),
      .scan (notesView.holding relative grown) grown.state .unasked]
    ⟨grown.content, grownStored⟩ := by
  have second : GrowthStep growingPi canon relative (growingState 121).identity
      ⟨grown.content, startedStored⟩ (.scan (notesView.holding relative grown) grown.state .unasked)
      ⟨grown.content, grownStored⟩ := .scan rfl StoreView.shows_holding
  exact ((Run.refl.step first_scan).step (.append _)).step second

theorem grownStored_entry :
    grownStored[watermarkKey relative]? = some (scannedEntry startedStored grown) :=
  Std.ExtTreeMap.getElem?_insert_self

theorem not_extendsShort_new (content : Bytes) (event : GrowthEvent) :
    ¬ExtendsShort growingPi relative ⟨content, ∅⟩ event := by
  cases event with
  | scan view state cancelled =>
    intro ⟨_, _, _, _, _, hpoint, _⟩
    have ⟨_, hentry, _⟩ := KnownJsonlSource.resumePoint_eq_some_iff.mp hpoint
    rw [Std.ExtTreeMap.getElem?_empty] at hentry
    contradiction
  | append more => exact not_false
  | settle next => exact not_false

end Sample

theorem prefix_guard_started :
    PrefixGuarded Sample.growingPi Sample.canon Sample.relative
      (Sample.growingState 121).identity ⟨Sample.started.content, Sample.startedStored⟩
      (Sample.scannedEntry ∅ Sample.started) := by
  apply prefix_guard Std.ExtTreeMap.getElem?_empty
    (Run.single ⟨Sample.first_scan, Sample.not_extendsShort_new _ _⟩)
    Std.ExtTreeMap.getElem?_insert_self
  decide +kernel

theorem prefix_guard_short : ¬ ∀ (source : KnownJsonlSource) (canon : Canonicalizer)
    (relative : RelativePath) (identity : String) (start file : GrowingFile)
    (events : List GrowthEvent) (entry : WatermarkEntry),
    start.stored[watermarkKey relative]? = none →
    Run (GrowthStep source canon relative identity) start events file →
    file.stored[watermarkKey relative]? = some entry → 0 < entry.safeOffset.toNat →
    PrefixGuarded source canon relative identity file entry := by
  intro h
  -- The guard is still the one of the header alone.
  have hscanned : (Sample.scannedEntry Sample.startedStored Sample.grown).safeOffset = 196 ∧
      (Sample.scannedEntry Sample.startedStored Sample.grown).prefixHash =
        some 10820077055489068369 := by
    decide +kernel
  have hguard : guardAt Sample.grown.content 196 ≠ 10820077055489068369 := by decide +kernel
  have hright := (h _ _ _ _ _ _ _ _ Std.ExtTreeMap.getElem?_empty Sample.grown_run
    Sample.grownStored_entry (by rw [hscanned.1]; decide)).prefixHash
  rw [hscanned.1, hscanned.2] at hright
  exact hguard (Option.some.inj hright).symm

end HerdrContext.KnownStores
