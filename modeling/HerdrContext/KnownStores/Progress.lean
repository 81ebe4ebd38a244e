import HerdrContext.KnownStores.Identity
import HerdrContext.KnownStores.Refusals
import HerdrContext.Library.Reaching

/-! Repeated scans of a session file that no longer changes: each stores a
greater offset, until the file is complete or refused. -/
namespace HerdrContext.KnownStores

open Library IncrementalParser

/-- A file whose content and metadata no longer change. -/
structure StillFile where
  state : FileState
  content : Bytes
  len_eq : state.len.toNat = content.length

namespace StillFile

variable (file : StillFile)

def opened : OpenFile where
  before := .ok file.state
  readPrefix length :=
    if length ≤ file.content.length then .ok (file.content.take length)
    else .error .unexpectedEof
  seek _ := .ok ()
  readFrom offset := .ok (file.content.drop offset)
  finalByte length :=
    if length = 0 then .ok none
    else mapError (fun _ => .unexpectedEof) (okOr () file.content[length - 1]?) >>= fun byte =>
      .ok (some byte)
  after := .ok file.state

/-- What a scan reads that goes on from the point, or starts anew. -/
def snapshot (resume : Option ResumePoint) : Snapshot :=
  ⟨file.state, resume, (file.content.drop (resume.elim 0 (·.offset.toNat))).take maxFileBytes⟩

end StillFile

def StoreView.holding (view : StoreView) (relative : RelativePath) (file : StillFile) :
    StoreView :=
  { view with
    openFile := fun other => if other = relative then .ok file.opened else view.openFile other }

def ScanCancellation.unasked : ScanCancellation := ⟨false, false, never⟩

namespace WatermarkEntry

/-- No later scan is due unless the file changes. -/
def Final (entry : WatermarkEntry) : Prop := entry.complete = true ∨ entry.rejected = true

end WatermarkEntry

/-! ## The last newline -/

namespace Snapshot

variable (snapshot : Snapshot)

theorem safeLen_le : snapshot.safeLen ≤ snapshot.bytes.length := Nat.sub_le _ _

theorem drop_safeLen : snapshot.bytes.drop snapshot.safeLen =
    (snapshot.bytes.reverse.takeWhile (· ≠ newline)).reverse := by
  have hcut : (snapshot.bytes.reverse.dropWhile (· ≠ newline)).reverse ++
      (snapshot.bytes.reverse.takeWhile (· ≠ newline)).reverse = snapshot.bytes := by
    rw [← List.reverse_append, List.takeWhile_append_dropWhile, List.reverse_reverse]
  have hlen : snapshot.safeLen =
      (snapshot.bytes.reverse.dropWhile (· ≠ newline)).reverse.length := by
    have h := congrArg List.length hcut
    simp only [List.length_append, List.length_reverse] at h
    simp only [safeLen, List.length_reverse]
    omega
  conv_lhs => rw [← hcut, hlen]
  rw [List.drop_left]

/-- No newline lies behind the last one. -/
theorem newline_notMem_drop : newline ∉ snapshot.bytes.drop snapshot.safeLen := by
  rw [drop_safeLen, List.mem_reverse]
  intro h
  have hne := List.mem_takeWhile_imp h
  simp at hne

theorem newline_mem_take (h : snapshot.safeLen ≠ 0) :
    newline ∈ snapshot.bytes.take snapshot.safeLen := by
  by_contra hnone
  have hall : ∀ byte ∈ snapshot.bytes.reverse, decide (byte ≠ newline) = true := by
    intro byte hbyte
    rw [List.mem_reverse, ← List.take_append_drop snapshot.safeLen snapshot.bytes,
      List.mem_append] at hbyte
    have hne : byte ≠ newline := by
      rintro rfl
      exact hbyte.elim hnone snapshot.newline_notMem_drop
    simpa using hne
  apply h
  rw [safeLen, List.takeWhile_eq_self_iff.mpr hall, List.length_reverse, Nat.sub_self]

end Snapshot

/-- A line without a newline in its first bytes is at least as long. -/
theorem exists_long_line {bytes : Bytes} {count : Nat} (hcount : count ≤ bytes.length)
    (h : newline ∉ bytes.take count) :
    ∃ line rest, bytes.splitOn newline = line :: rest ∧ count ≤ line.length := by
  induction count generalizing bytes with
  | zero =>
    have ⟨line, rest, hsplit⟩ := List.exists_cons_of_ne_nil (List.splitOn_ne_nil newline bytes)
    exact ⟨line, rest, hsplit, Nat.zero_le _⟩
  | succ count ih =>
    cases bytes with
    | nil => simp at hcount
    | cons byte bytes =>
      simp only [List.take_succ_cons, List.mem_cons, not_or] at h
      have ⟨line, rest, hsplit, hline⟩ := ih (by simpa using hcount) h.2
      have hbyte : (byte == newline) = false := by simpa using Ne.symm h.1
      exact ⟨byte :: line, rest, by
        rw [List.splitOn_cons_eq_if_modifyHead, hbyte, hsplit]
        rfl, by simpa using hline⟩

theorem completeRecords_ne_nil {bytes : Bytes} {records : List Bytes}
    (h : completeRecords bytes = .ok records) : records ≠ [] := by
  have hlength := collectRecords_length h
  have hlines := List.length_pos_iff.mpr (List.splitOn_ne_nil newline bytes.dropLast)
  exact List.length_pos_iff.mp (by omega)

/-- Complete records leave no room for a line beyond the limit. -/
theorem newline_mem_of_completeRecords {bytes : Bytes} {records : List Bytes} {count : Nat}
    (h : completeRecords bytes = .ok records) (hlong : maxRecordBytes + 1 < count)
    (hcount : count < bytes.length) : newline ∈ bytes.take count := by
  by_contra hnone
  have hshort : bytes.dropLast.take count = bytes.take count := by
    rw [List.dropLast_eq_take, List.take_take, Nat.min_eq_left (by omega)]
  obtain ⟨line, rest, hsplit, hline⟩ : ∃ line rest,
      bytes.dropLast.splitOn newline = line :: rest ∧ count ≤ line.length :=
    exists_long_line (by rw [List.length_dropLast]; omega) (hshort ▸ hnone)
  rw [completeRecords, hsplit] at h
  have hstrip : line.length ≤ (stripCarriageReturn line).length + 1 := by
    unfold stripCarriageReturn
    split
    next => rw [List.length_dropLast]; omega
    next => omega
  simp only [collectRecords, bind_eq_ok_iff, rejectIf_eq_ok_iff] at h
  obtain ⟨_, _, _, hbound, _⟩ := h
  omega

/-! ## One scan -/

namespace KnownJsonlSource

variable {source : KnownJsonlSource} {view : StoreView} {relative : RelativePath}
  {file : StillFile}

theorem resumePoint_eq_some_iff {canon : Canonicalizer} {opened : OpenFile} {before : FileState}
    {previous : Option WatermarkEntry} {point : ResumePoint} :
    source.resumePoint canon opened before previous = some point ↔
      ∃ entry ∈ previous, ∃ outcome, source.storedOutcome canon entry = some outcome ∧
        (entry.identity = before.identity ∧ entry.safeOffset < before.len ∧
          entry.prefixHash.isSome ∧ readPrefixHash opened entry.safeOffset = entry.prefixHash) ∧
        point = ⟨entry.safeOffset, entry.contentHash, outcome, entry.prefixHash⟩ := by
  simp only [resumePoint, Option.bind_eq_bind, Option.bind_eq_some_iff,
    Option.ite_none_right_eq_some, Option.some.injEq, eq_comm (a := point), Option.mem_def]

section

variable (source view relative file)

/-- The point at which the next scan of the file goes on. -/
def nextPoint (stored : WatermarkMap) : Option ResumePoint :=
  source.resumePoint view.canon file.opened file.state stored[watermarkKey relative]?

/-- The entry that the next scan of the file leaves. -/
def nextEntry (stored : WatermarkMap) : WatermarkEntry :=
  (source.inspectFile (view.holding relative file) stored .unasked relative file.state).1.watermark

/-- Scan the file and store its entry. -/
def rescan (stored : WatermarkMap) : WatermarkMap :=
  stored.insert (watermarkKey relative) (source.nextEntry view relative file stored)

end

theorem offset_lt {stored : WatermarkMap} {point : ResumePoint}
    (h : source.nextPoint view relative file stored = some point) :
    point.offset.toNat < file.content.length := by
  have ⟨entry, _, outcome, _, ⟨_, hless, _⟩, hpoint⟩ := resumePoint_eq_some_iff.mp h
  rw [hpoint, ← file.len_eq]
  exact hless

variable (source view relative) in
theorem start_lt (hcontent : file.content ≠ []) (stored : WatermarkMap) :
    (file.snapshot (source.nextPoint view relative file stored)).start < file.content.length := by
  cases hpoint : source.nextPoint view relative file stored with
  | none => exact List.length_pos_iff.mpr hcontent
  | some point => exact offset_lt hpoint

variable (source view relative) in
theorem readSnapshot_still (hcontent : file.content ≠ []) (stored : WatermarkMap) :
    source.readSnapshot view.canon relative file.opened stored[watermarkKey relative]? maxFileBytes
        .unasked = .ok (file.snapshot (source.nextPoint view relative file stored)) := by
  have hstart := start_lt source view relative hcontent stored
  have hmax : 0 < maxFileBytes := by decide
  simp only [Snapshot.start, StillFile.snapshot] at hstart
  have hlen := file.len_eq
  have hbytes (start : Nat) : (file.content.drop start).take
      (min (min (file.content.length - start) maxFileBytes) maxFileBytes) =
        (file.content.drop start).take maxFileBytes := by
    rw [Nat.min_assoc, Nat.min_self, ← List.length_drop, Nat.min_comm, ← List.take_take,
      List.take_length]
  simp only [readSnapshot, bind_eq_ok_iff, mapError_eq_ok_iff, rejectIf_eq_ok_iff, pure_eq_ok]
  refine ⟨file.state, rfl, (), ?_, (), rfl, (), Bool.false_ne_true, _, rfl, (), ?_, (),
    Bool.false_ne_true, ?_⟩
  · change ¬ min (min (file.state.len.toNat - (source.nextPoint view relative file stored).elim 0
      (·.offset.toNat)) maxFileBytes) maxFileBytes = 0
    omega
  · rw [hlen, List.length_take, List.length_drop, not_not]
    exact Nat.min_eq_left (le_trans (min_le_left _ _) (min_le_left _ _))
  · rw [hlen, hbytes]
    rfl

variable (source view relative) in
theorem scanFile_still (hcontent : file.content ≠ []) (stored : WatermarkMap) :
    source.scanFile relative (view.holding relative file) stored[watermarkKey relative]?
        maxFileBytes .unasked = (do
      let snapshot := file.snapshot (source.nextPoint view relative file stored)
      source.checkParked relative file.opened snapshot
      let outcome ← source.parseSnapshot view.canon relative snapshot .unasked
      rejectIf (snapshot.complete ∧ outcome.identified = none) (source.error .unsupportedFormat
        "known JSONL contains no current transcript record" relative)
      return source.scanned snapshot outcome file.state) := by
  have hopen : (view.holding relative file).openFile relative = .ok file.opened := if_pos rfl
  have hread := readSnapshot_still source view relative hcontent stored
  have hsame : rejectIf (file.state ≠ file.state) (source.error .io
      "known conversation file changed during bounded metadata extraction" relative) = .ok () :=
    rejectIf_of_not (by simp) _
  unfold scanFile
  rw [hopen]
  simp only [mapError, ok_bind]
  change (source.readSnapshot view.canon relative file.opened stored[watermarkKey relative]?
    maxFileBytes .unasked >>= _) = _
  rw [hread]
  simp only [StillFile.opened, StillFile.snapshot, hsame, ok_bind]
  rfl

/-- An error whose kind is stored as a rejection. -/
def StoredKind (error : SourceError) : Prop :=
  error.kind = .unsupportedFormat ∨ error.kind = .projectMismatch

theorem isSome_fromError_iff {error : SourceError} :
    (StoredRejection.fromError error).isSome = true ↔ StoredKind error := by
  unfold StoredRejection.fromError StoredKind
  cases error.kind <;> simp

theorem storedKind_unsupported (message : String) :
    StoredKind (source.error .unsupportedFormat message relative) := Or.inl rfl

theorem storedKind_checkParked (hcontent : file.content ≠ []) (resume : Option ResumePoint) :
    FailsOnly StoredKind (source.checkParked relative file.opened (file.snapshot resume)) := by
  have hpos := List.length_pos_iff.mpr hcontent
  have hlast : file.content[file.content.length - 1]? =
      some file.content[file.content.length - 1] := List.getElem?_eq_getElem (by omega)
  have hfinal : file.opened.finalByte file.state.len.toNat =
      .ok (some file.content[file.content.length - 1]) := by
    simp only [StillFile.opened, file.len_eq, hlast, if_neg (Nat.ne_of_gt hpos), okOr, mapError,
      ok_bind]
  unfold checkParked
  split
  next =>
    simp only [StillFile.snapshot, hfinal, mapError, ok_bind]
    exact failsOnly_rejectIf (storedKind_unsupported _)
  next => exact failsOnly_ok ()

theorem storedKind_parseSnapshot (snapshot : Snapshot) :
    FailsOnly StoredKind (source.parseSnapshot view.canon relative snapshot .unasked) := by
  unfold parseSnapshot
  split
  next => exact failsOnly_okOr (storedKind_unsupported _) _
  next =>
    have hrefuses : Refuses (completeRecords (snapshot.bytes.take snapshot.safeLen) >>=
        fun records => source.format.parse source.decoders view.canon relative source.project
          ScanCancellation.unasked.record (snapshot.resume.map (·.outcome)) records) :=
      (refuses_collectRecords _ _).bind fun records _ =>
        source.format.refuses_parse _ _ relative source.project _ records
    exact failsOnly_mapError fun failure hfailure => hrefuses failure hfailure

variable (source view relative) in
theorem storedKind_scanFile (hcontent : file.content ≠ []) (stored : WatermarkMap) :
    FailsOnly StoredKind (source.scanFile relative (view.holding relative file)
      stored[watermarkKey relative]? maxFileBytes .unasked) := by
  rw [scanFile_still source view relative hcontent stored]
  refine (storedKind_checkParked hcontent _).bind fun _ _ => ?_
  refine (storedKind_parseSnapshot _).bind fun outcome _ => ?_
  exact (failsOnly_rejectIf (storedKind_unsupported _)).bind fun _ _ => failsOnly_ok _

/-- A scan that is neither complete nor refused has folded at least one record. -/
structure Continues (source : KnownJsonlSource) (view : StoreView) (relative : RelativePath)
    (snapshot : Snapshot) (outcome : ParseOutcome) : Prop where
  incomplete : snapshot.complete = false
  progress : snapshot.safeLen ≠ 0
  parsed : ∃ records, completeRecords (snapshot.bytes.take snapshot.safeLen) = .ok records ∧
    source.format.parse source.decoders view.canon relative source.project never
      (snapshot.resume.map (·.outcome)) records = .ok outcome

/-- Without a complete record, an identified session is complete or parked. -/
theorem complete_of_safeLen {snapshot : Snapshot} (h : snapshot.safeLen = 0)
    (hprevious : snapshot.previousMetadata.isSome = true) : snapshot.complete = true := by
  by_cases hend : snapshot.before.len.toNat ≤ snapshot.start + snapshot.bytes.length
  · simp [Snapshot.complete, hend]
  · have hmore : snapshot.bytes.length < snapshot.remaining := by
      simp only [Snapshot.remaining]
      omega
    simp [Snapshot.complete, Snapshot.parked, h, hprevious, hmore]

variable (source view relative) in
theorem nextEntry_cases (hcontent : file.content ≠ []) (stored : WatermarkMap) :
    (source.nextEntry view relative file stored).Final ∨
      ∃ outcome, Continues source view relative
          (file.snapshot (source.nextPoint view relative file stored)) outcome ∧
        source.nextEntry view relative file stored = (source.scanned
          (file.snapshot (source.nextPoint view relative file stored)) outcome
          file.state).watermark := by
  have hfails := storedKind_scanFile source view relative hcontent stored
  simp only [nextEntry, inspectFile]
  cases hscan : source.scanFile relative (view.holding relative file)
      stored[watermarkKey relative]? maxFileBytes .unasked with
  | error error =>
    have hstored := hfails error hscan
    have hkind : ¬ (error.kind = .io ∨ error.kind = .permissionDenied) := by
      rcases hstored with h | h <;> simp [h]
    left
    right
    simp only [if_neg hkind]
    split <;> exact isSome_fromError_iff.mpr hstored
  | ok scanned =>
    rw [scanFile_still source view relative hcontent stored] at hscan
    obtain ⟨_, _, hscan⟩ := bind_eq_ok_iff.mp hscan
    obtain ⟨outcome, houtcome, hscan⟩ := bind_eq_ok_iff.mp hscan
    obtain ⟨_, _, hscan⟩ := bind_eq_ok_iff.mp hscan
    cases Except.ok.inj hscan
    cases hcomplete : (file.snapshot (source.nextPoint view relative file stored)).complete with
    | true => exact Or.inl (Or.inl hcomplete)
    | false =>
      refine Or.inr ⟨outcome, ?_, rfl⟩
      unfold parseSnapshot at houtcome
      split at houtcome
      next hnone =>
        obtain ⟨metadata, hmetadata, _⟩ := Option.map_eq_some_iff.mp (okOr_eq_ok_iff.mp houtcome)
        rw [complete_of_safeLen hnone (by rw [hmetadata]; rfl)] at hcomplete
        contradiction
      next hsome =>
        obtain ⟨records, hrecords, hparsed⟩ := bind_eq_ok_iff.mp (mapError_eq_ok_iff.mp houtcome)
        exact ⟨hcomplete, hsome, records, hrecords, hparsed⟩

/-! ## Offsets -/

theorem end_lt {snapshot : Snapshot} (h : snapshot.complete = false) :
    snapshot.start + snapshot.safeLen < snapshot.before.len.toNat := by
  have hend : ¬ snapshot.before.len.toNat ≤ snapshot.start + snapshot.bytes.length := by
    intro hend
    simp [Snapshot.complete, hend] at h
  have := snapshot.safeLen_le
  omega

theorem safeOffset_scanned {snapshot : Snapshot} (h : snapshot.complete = false)
    (outcome : ParseOutcome) (after : FileState) :
    (source.scanned snapshot outcome after).watermark.safeOffset.toNat =
      snapshot.start + snapshot.safeLen := by
  have hlt := end_lt h
  have hlen := snapshot.before.len.toNat_lt
  have hsize : UInt64.size = 2 ^ 64 := rfl
  simp only [scanned]
  rw [UInt64.toNat_ofNat_of_lt' (by omega)]

/-- A scan that goes on from a stored offset ends, or stores a greater one. -/
theorem offset_advances (hcontent : file.content ≠ []) {stored : WatermarkMap}
    {point : ResumePoint} (hpoint : source.nextPoint view relative file stored = some point) :
    (source.nextEntry view relative file stored).Final ∨
      point.offset < (source.nextEntry view relative file stored).safeOffset := by
  rcases nextEntry_cases source view relative hcontent stored with hfinal | ⟨outcome, hcontinues, hentry⟩
  · exact Or.inl hfinal
  · right
    have hprogress := hcontinues.progress
    rw [hentry, UInt64.lt_iff_toNat_lt, safeOffset_scanned hcontinues.incomplete, hpoint]
    simp only [Snapshot.start, StillFile.snapshot, hpoint, Option.elim_some] at *
    omega

/-! ## Entries that are gone on from -/

theorem storedOutcome_scanned {canon : Canonicalizer} {snapshot : Snapshot}
    {outcome : ParseOutcome} {after : FileState}
    (h : outcome.restore canon source.project = some outcome) :
    source.storedOutcome canon (source.scanned snapshot outcome after).watermark =
      some outcome := by
  cases outcome with
  | metadata parsed =>
    obtain ⟨metadata, hmetadata, hsame⟩ := Option.map_eq_some_iff.mp h
    cases hsame
    simp [storedOutcome, scanned, ParseOutcome.identified, ParseOutcome.pending, hmetadata]
  | identityPending pending =>
    obtain ⟨metadata, hmetadata, hsame⟩ := Option.map_eq_some_iff.mp h
    cases hsame
    simp [storedOutcome, scanned, ParseOutcome.identified, ParseOutcome.pending, hmetadata]

/-- An entry of a scan from the start of the file: the next scan goes on from it. -/
structure Trailing (source : KnownJsonlSource) (view : StoreView) (relative : RelativePath)
    (file : StillFile) (entry : WatermarkEntry) : Prop where
  identity : entry.identity = file.state.identity
  outcome : ∃ outcome, source.storedOutcome view.canon entry = some outcome ∧
    source.format.Reached source.decoders view.canon relative source.project outcome
  unfinished : entry.safeOffset.toNat < file.content.length
  guarded : entry.prefixHash =
    some (fnv1a (file.content.take (min entry.safeOffset.toNat prefixGuardBytes)) fnvOffset)

theorem Trailing.nextPoint {stored : WatermarkMap} {entry : WatermarkEntry}
    (h : Trailing source view relative file entry)
    (hentry : stored[watermarkKey relative]? = some entry) :
    ∃ outcome, source.nextPoint view relative file stored =
        some ⟨entry.safeOffset, entry.contentHash, outcome, entry.prefixHash⟩ ∧
      source.format.Reached source.decoders view.canon relative source.project outcome := by
  have ⟨outcome, houtcome, hreached⟩ := h.outcome
  refine ⟨outcome, resumePoint_eq_some_iff.mpr ⟨entry, hentry, outcome, houtcome,
    ⟨h.identity, ?_, ?_, ?_⟩, rfl⟩, hreached⟩
  · rw [UInt64.lt_iff_toNat_lt, file.len_eq]
    exact h.unfinished
  · rw [h.guarded]
    rfl
  · have hshort : min entry.safeOffset.toNat prefixGuardBytes ≤ file.content.length := by
      have := h.unfinished
      omega
    simp only [readPrefixHash, StillFile.opened, if_pos hshort, Except.toOption, Option.map_some,
      h.guarded]

theorem Continues.reached {snapshot : Snapshot} {outcome : ParseOutcome}
    (h : Continues source view relative snapshot outcome)
    (hresume : ∀ point ∈ snapshot.resume,
      source.format.Reached source.decoders view.canon relative source.project point.outcome) :
    source.format.Reached source.decoders view.canon relative source.project outcome := by
  have ⟨records, hrecords, hparsed⟩ := h.parsed
  apply KnownFormat.Reached.parse ?_ (completeRecords_ne_nil hrecords) hparsed
  intro earlier hearlier
  have ⟨point, hpoint, hsame⟩ := Option.map_eq_some_iff.mp hearlier
  rw [← hsame]
  exact hresume point hpoint

/-- The entry of an incomplete scan, once its prefix hash is known. -/
theorem trailing_scanned {stored : WatermarkMap} {outcome : ParseOutcome}
    (h : Continues source view relative
      (file.snapshot (source.nextPoint view relative file stored)) outcome)
    (hresume : ∀ point ∈ source.nextPoint view relative file stored,
      source.format.Reached source.decoders view.canon relative source.project point.outcome)
    (hguarded : (file.snapshot (source.nextPoint view relative file stored)).prefixHash =
      some (fnv1a (file.content.take (min
        ((file.snapshot (source.nextPoint view relative file stored)).start +
          (file.snapshot (source.nextPoint view relative file stored)).safeLen)
        prefixGuardBytes)) fnvOffset)) :
    Trailing source view relative file (source.scanned
      (file.snapshot (source.nextPoint view relative file stored)) outcome
      file.state).watermark where
  identity := rfl
  outcome := by
    have hreached := h.reached hresume
    exact ⟨outcome, storedOutcome_scanned hreached.restore, hreached⟩
  unfinished := by
    rw [safeOffset_scanned h.incomplete, ← file.len_eq]
    exact end_lt h.incomplete
  guarded := by
    rw [safeOffset_scanned h.incomplete]
    exact hguarded

/-- The first scan of a file leaves an entry to go on from. -/
theorem trailing_start (hcontent : file.content ≠ []) {stored : WatermarkMap}
    (hpoint : source.nextPoint view relative file stored = none) :
    (source.nextEntry view relative file stored).Final ∨
      (Trailing source view relative file (source.nextEntry view relative file stored) ∧
        (source.nextEntry view relative file stored).safeOffset.toNat =
          (file.snapshot none).safeLen) := by
  rcases nextEntry_cases source view relative hcontent stored with hfinal | ⟨outcome, hcontinues, hentry⟩
  · exact Or.inl hfinal
  · right
    rw [hentry]
    constructor
    · apply trailing_scanned hcontinues
      · simp [hpoint]
      · have hprogress := hcontinues.progress
        rw [hpoint] at hprogress ⊢
        have hguard : min (file.snapshot none).safeLen prefixGuardBytes ≤ maxFileBytes :=
          le_trans (min_le_right _ _) (by decide)
        have hsome : min (file.snapshot none).safeLen prefixGuardBytes ≠ 0 := by
          have : prefixGuardBytes = 4096 := rfl
          omega
        simp only [Snapshot.prefixHash, Snapshot.start, StillFile.snapshot, Option.elim_none,
          Option.bind_none, Option.none_or, Nat.zero_add, List.drop_zero] at hsome hguard ⊢
        rw [if_neg hsome, List.take_take, Nat.min_eq_left hguard]
    · rw [safeOffset_scanned hcontinues.incomplete, hpoint]
      exact Nat.zero_add _

/-- Once the offset is beyond the guarded bytes, the guard no longer changes. -/
theorem trailing_step (hcontent : file.content ≠ []) {stored : WatermarkMap}
    {entry : WatermarkEntry} (hentry : stored[watermarkKey relative]? = some entry)
    (h : Trailing source view relative file entry)
    (hguard : prefixGuardBytes ≤ entry.safeOffset.toNat) :
    (source.nextEntry view relative file stored).Final ∨
      (Trailing source view relative file (source.nextEntry view relative file stored) ∧
        entry.safeOffset < (source.nextEntry view relative file stored).safeOffset) := by
  have ⟨earlier, hpoint, hreached⟩ := h.nextPoint hentry
  rcases offset_advances hcontent hpoint with hfinal | hgreater
  · exact Or.inl hfinal
  rcases nextEntry_cases source view relative hcontent stored with hfinal | ⟨outcome, hcontinues, hnext⟩
  · exact Or.inl hfinal
  refine Or.inr ⟨?_, hgreater⟩
  rw [hnext]
  apply trailing_scanned hcontinues
  · intro point hmem
    rw [hpoint] at hmem
    cases Option.mem_some_iff.mp hmem
    exact hreached
  · rw [hpoint]
    simp only [Snapshot.prefixHash, Snapshot.start, StillFile.snapshot, Option.elim_some,
      Option.bind_some, h.guarded, Option.some_or]
    rw [Nat.min_eq_right hguard, Nat.min_eq_right (le_trans hguard (Nat.le_add_right _ _))]

/-- A file whose first complete records are shorter than the guard goes on with
a line that is too long. -/
theorem final_of_short (hcontent : file.content ≠ []) {stored : WatermarkMap}
    {entry : WatermarkEntry} (hentry : stored[watermarkKey relative]? = some entry)
    (h : Trailing source view relative file entry)
    (hoffset : entry.safeOffset.toNat = (file.snapshot none).safeLen)
    (hshort : entry.safeOffset.toNat < prefixGuardBytes) :
    (source.nextEntry view relative file stored).Final := by
  have ⟨earlier, hpoint, _⟩ := h.nextPoint hentry
  rcases nextEntry_cases source view relative hcontent stored with hfinal | ⟨outcome, hcontinues, hnext⟩
  · exact hfinal
  exfalso
  have hguard : prefixGuardBytes = 4096 := rfl
  have hfile : maxFileBytes = 524288 := rfl
  have hrecord : maxRecordBytes = 262144 := rfl
  have ⟨records, hrecords, _⟩ := hcontinues.parsed
  have hmem := Snapshot.newline_mem_take _ hcontinues.progress
  generalize hlen : (file.snapshot (source.nextPoint view relative file stored)).safeLen = len
    at hrecords hmem
  have hbytes : (file.snapshot (source.nextPoint view relative file stored)).bytes =
      (file.content.drop entry.safeOffset.toNat).take maxFileBytes := by
    rw [hpoint]
    rfl
  -- the rest of the first chunk has no newline
  have hnone := (file.snapshot none).newline_notMem_drop
  rw [← hoffset] at hnone
  simp only [StillFile.snapshot, Option.elim_none, List.drop_zero, List.drop_take] at hnone
  rw [hbytes] at hrecords hmem
  have htake (count : Nat) (hcount : count ≤ maxFileBytes - entry.safeOffset.toNat) :
      newline ∉ ((file.content.drop entry.safeOffset.toNat).take maxFileBytes).take count := by
    rw [List.take_take, Nat.min_eq_left (by omega)]
    intro hin
    apply hnone
    rw [← Nat.min_eq_left hcount, ← List.take_take] at hin
    exact List.mem_of_mem_take hin
  by_cases hcount : len ≤ maxFileBytes - entry.safeOffset.toNat
  · exact htake len hcount hmem
  have hsafe : len ≤ (file.snapshot (source.nextPoint view relative file stored)).bytes.length :=
    hlen ▸ Snapshot.safeLen_le _
  rw [hbytes] at hsafe
  have hin : newline ∈ (((file.content.drop entry.safeOffset.toNat).take maxFileBytes).take
      len).take (maxFileBytes - entry.safeOffset.toNat) :=
    newline_mem_of_completeRecords hrecords (by omega)
      (by rw [List.length_take, Nat.min_eq_left hsafe]; omega)
  rw [List.take_take, Nat.min_eq_left (by omega)] at hin
  exact htake _ le_rfl hin

/-! ## Repeated scans -/

section

variable (source view relative file)

/-- The stored entry of the file is complete or a rejection. -/
def Settled (stored : WatermarkMap) : Prop :=
  ∃ entry, stored[watermarkKey relative]? = some entry ∧ entry.Final

/-- Scanned again and again, with the entry that the scan before stored, the
file is complete or refused in the end; and a scan that goes on from a stored
offset without being the last one stores a greater offset. -/
def Progresses : Prop :=
  ∀ stored : WatermarkMap,
    Reaches (source.rescan view relative file) (Settled relative) stored ∧
      ∀ point ∈ source.nextPoint view relative file stored,
        (source.nextEntry view relative file stored).Final ∨
          point.offset < (source.nextEntry view relative file stored).safeOffset

end

variable (source view relative file) in
theorem getElem?_rescan (stored : WatermarkMap) :
    (source.rescan view relative file stored)[watermarkKey relative]? =
      some (source.nextEntry view relative file stored) := by
  simp [rescan]

theorem reaches_of_final {stored : WatermarkMap}
    (h : (source.nextEntry view relative file stored).Final) :
    Reaches (source.rescan view relative file) (Settled relative) stored :=
  .of_goal ⟨_, getElem?_rescan source view relative file stored, h⟩

/-- What is left of the file behind the stored offset. -/
def left (relative : RelativePath) (file : StillFile) (stored : WatermarkMap) : Nat :=
  file.content.length - stored[watermarkKey relative]?.elim 0 (·.safeOffset.toNat)

theorem left_rescan_lt {stored : WatermarkMap} {entry : WatermarkEntry}
    (hentry : stored[watermarkKey relative]? = some entry)
    (hunfinished : entry.safeOffset.toNat < file.content.length)
    (hgreater : entry.safeOffset < (source.nextEntry view relative file stored).safeOffset) :
    left relative file (source.rescan view relative file stored) < left relative file stored := by
  rw [UInt64.lt_iff_toNat_lt] at hgreater
  simp only [left, getElem?_rescan, hentry, Option.elim_some]
  omega

theorem reaches_of_guarded (hcontent : file.content ≠ []) {stored : WatermarkMap}
    {entry : WatermarkEntry} (hentry : stored[watermarkKey relative]? = some entry)
    (h : Trailing source view relative file entry)
    (hguard : prefixGuardBytes ≤ entry.safeOffset.toNat) :
    Reaches (source.rescan view relative file) (Settled relative) stored := by
  apply Reaches.of_measure (fun stored => ∃ entry,
    stored[watermarkKey relative]? = some entry ∧ Trailing source view relative file entry ∧
      prefixGuardBytes ≤ entry.safeOffset.toNat) (left relative file) ?_ ⟨entry, hentry, h, hguard⟩
  rintro stored ⟨entry, hentry, h, hguard⟩
  rcases trailing_step hcontent hentry h hguard with hfinal | ⟨hnext, hgreater⟩
  · exact Or.inl (reaches_of_final hfinal)
  · have hless := UInt64.lt_iff_toNat_lt.mp hgreater
    exact Or.inr ⟨⟨_, getElem?_rescan source view relative file stored, hnext, by omega⟩,
      left_rescan_lt hentry h.unfinished hgreater⟩

theorem reaches_of_start (hcontent : file.content ≠ []) {stored : WatermarkMap}
    (hpoint : source.nextPoint view relative file stored = none) :
    Reaches (source.rescan view relative file) (Settled relative) stored := by
  rcases trailing_start hcontent hpoint with hfinal | ⟨htrailing, hoffset⟩
  · exact reaches_of_final hfinal
  apply Reaches.of_step
  have hentry := getElem?_rescan source view relative file stored
  by_cases hguard :
      prefixGuardBytes ≤ (source.nextEntry view relative file stored).safeOffset.toNat
  · exact reaches_of_guarded hcontent hentry htrailing hguard
  · exact reaches_of_final
      (final_of_short hcontent hentry htrailing hoffset (Nat.lt_of_not_le hguard))

/-- Whatever is stored for it, a file that is not empty is done with in the end. -/
theorem reaches_settled (hcontent : file.content ≠ []) (stored : WatermarkMap) :
    Reaches (source.rescan view relative file) (Settled relative) stored := by
  apply Reaches.of_measure (fun _ => True) (left relative file) ?_ trivial
  intro stored _
  cases hpoint : source.nextPoint view relative file stored with
  | none => exact Or.inl (reaches_of_start hcontent hpoint)
  | some point =>
    have ⟨entry, hentry, outcome, _, ⟨_, hless, _⟩, hsame⟩ := resumePoint_eq_some_iff.mp hpoint
    rcases offset_advances hcontent hpoint with hfinal | hgreater
    · exact Or.inl (reaches_of_final hfinal)
    · rw [hsame] at hgreater
      rw [UInt64.lt_iff_toNat_lt, file.len_eq] at hless
      exact Or.inr ⟨trivial, left_rescan_lt hentry hless hgreater⟩

/-- An empty file leaves no budget for a scan. -/
theorem nextEntry_empty (h : file.content = []) (stored : WatermarkMap) :
    source.nextEntry view relative file stored = (source.failedFile relative file.state
      (source.error .invalidData "known conversation scan has no metadata byte budget"
        relative)).watermark := by
  have hlen : file.state.len.toNat = 0 := by rw [file.len_eq, h]; rfl
  have hopen : (view.holding relative file).openFile relative = .ok file.opened := if_pos rfl
  have hread : source.readSnapshot view.canon relative file.opened stored[watermarkKey relative]?
      maxFileBytes .unasked = .error (source.error .invalidData
        "known conversation scan has no metadata byte budget" relative) := by
    simp only [readSnapshot, StillFile.opened, mapError, ok_bind, hlen, Nat.zero_sub,
      Nat.zero_min, rejectIf, if_true]
    rfl
  have hscan : source.scanFile relative (view.holding relative file)
      stored[watermarkKey relative]? maxFileBytes .unasked = .error (source.error .invalidData
        "known conversation scan has no metadata byte budget" relative) := by
    unfold scanFile
    rw [hopen]
    simp only [mapError, ok_bind]
    change (source.readSnapshot view.canon relative file.opened stored[watermarkKey relative]?
      maxFileBytes .unasked >>= _) = _
    rw [hread]
    rfl
  simp only [nextEntry, inspectFile, hscan]
  split <;> rfl

/-- What is stored for an empty file is not accepted by the next page. -/
theorem empty_entry_invalid (source : KnownJsonlSource) (view : StoreView)
    (relative : RelativePath) (file : StillFile) (h : file.content = []) (stored : WatermarkMap)
    (key : String) : (source.nextEntry view relative file stored).valid source view.canon key =
      false := by
  rw [nextEntry_empty h]
  simp [WatermarkEntry.valid, WatermarkEntry.summaryValid, failedFile, StoredRejection.fromError]

theorem not_progresses_of_empty (h : file.content = []) :
    ¬ source.Progresses view relative file := by
  intro hprogresses
  have ⟨⟨n, entry, hentry, hfinal⟩, _⟩ := hprogresses ∅
  rw [Function.iterate_succ_apply', getElem?_rescan] at hentry
  rw [← Option.some.inj hentry, nextEntry_empty h] at hfinal
  simp [WatermarkEntry.Final, failedFile, StoredRejection.fromError] at hfinal

/-- Repeated scans of a file that no longer changes make progress exactly if
the file is not empty. -/
theorem scan_progress (source : KnownJsonlSource) (view : StoreView) (relative : RelativePath)
    (file : StillFile) : source.Progresses view relative file ↔ file.content ≠ [] := by
  constructor
  · intro hprogresses hempty
    exact not_progresses_of_empty hempty hprogresses
  · intro hcontent stored
    exact ⟨reaches_settled hcontent stored, fun point hpoint =>
      offset_advances hcontent (Option.mem_def.mp hpoint)⟩

end KnownJsonlSource

/-! ## An empty session file -/

namespace Sample

def emptyFile : StillFile where
  state := ⟨0, ⟨0, epoch_range⟩, 1, 2, 0, 0⟩
  content := []
  len_eq := rfl

end Sample

/-- However often it is scanned, an empty file is neither complete nor refused. -/
theorem empty_file_never_settles :
    ¬ Sample.extraPi.Progresses Sample.notesView Sample.relative Sample.emptyFile :=
  KnownJsonlSource.not_progresses_of_empty rfl

end HerdrContext.KnownStores
