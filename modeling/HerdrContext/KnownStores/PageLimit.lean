import HerdrContext.KnownStores.Format
import HerdrContext.KnownStores.Identity
import HerdrContext.KnownStores.SessionIds

/-! The limit of a page. It is counted while files are scanned; a file that was
not scanned becomes a candidate when the duplicate of its session is gone. -/
namespace HerdrContext.KnownStores

open Library

/-! ## The candidate loop -/

namespace KnownJsonlSource

/-- The file is readable and no other file of the page carries its session. -/
def alone (files : List PreparedFile) (file : PreparedFile) : Bool :=
  file.error.isNone && file.sessionId.any fun sessionId => !isDuplicate files sessionId

/-- The file reaches the assertion of the candidate loop. -/
def promoted (files : List PreparedFile) (file : PreparedFile) : Bool :=
  alone files file && (file.changed || file.watermark.duplicate)

/-- Scanned files with a new complete content. -/
def renewed (files : List PreparedFile) : List PreparedFile :=
  files.filter fun file => alone files file && file.changed

/-- Files that were not scanned, with an accepted entry that is flagged as a
duplicate, though their session is in no other file any more. -/
def resolved (previous : WatermarkMap) (files : List PreparedFile) : List PreparedFile :=
  files.filter fun file => alone files file && previous[file.key]?.any fun entry =>
    entry.duplicate && decide (entry = file.watermark)

section

variable (source : KnownJsonlSource) (view : StoreView)

/-- The accepted entries and the files of a page, before its candidates are decided. -/
def pageFiles (after : Option SourceWatermark) (limit : DiscoveryLimit)
    (cancelled : PageCancellation) : Except SourceError (WatermarkMap × List PreparedFile) := do
  match ← source.probe view .discovery with
  | .unavailable _ => return (∅, [])
  | .available =>
    let previous ← source.decodeWatermark view.canon after
    let inventory ← source.inventoryFiles view cancelled
    let prepared ← source.prepareFiles view previous cancelled 0 limit.val [] inventory.files
    return (previous, prepared.files)

/-- `debug_assert!(candidates.len() < limit.get())` holds whenever the candidate
loop reaches it, with so many candidates and these files left. -/
def assertsLimit (limit : Nat) (files : List PreparedFile) : Nat → List PreparedFile → Prop
  | _, [] => True
  | count, file :: rest =>
    (promoted files file = true → count < limit) ∧
      ∀ settled, source.settleFile view (isDuplicate files) file = .ok settled →
        assertsLimit limit files (count + settled.candidate.toList.length) rest

end

variable {source : KnownJsonlSource} {view : StoreView}

theorem candidate_settleSession {duplicate : String → Bool} {file : PreparedFile}
    {sessionId : String} {settled : KnownStores.Settled} (hnamed : Named sessionId)
    (h : source.settleSession view duplicate file sessionId = .ok settled) :
    settled.candidate.isSome =
      (!duplicate sessionId && (file.changed || file.watermark.duplicate)) := by
  simp only [settleSession] at h
  split at h
  next hduplicate =>
    cases Except.ok.inj h
    simp [hduplicate]
  next hunique =>
    split at h
    next hsame =>
      have hkept : (file.changed || file.watermark.duplicate) = false := by
        rwa [← Bool.not_eq_true, Bool.or_eq_true]
      rw [hkept, Bool.and_false]
      split at h
      next =>
        obtain ⟨_, _, h⟩ := bind_eq_ok_iff.mp h
        cases Except.ok.inj h
        rfl
      next =>
        cases Except.ok.inj h
        rfl
    next hchanged =>
      have hreached : (file.changed || file.watermark.duplicate) = true := by
        rw [Bool.or_eq_true]
        exact not_not.mp hchanged
      obtain ⟨snapshot, _, h⟩ := bind_eq_ok_iff.mp h
      rw [ConversationCandidate.new, if_neg hnamed] at h
      cases Except.ok.inj h
      rw [hreached, Bool.eq_false_iff.mpr hunique]
      rfl

/-- A file becomes a candidate exactly if it reaches the assertion. -/
theorem candidate_settleFile {files : List PreparedFile} {file : PreparedFile}
    {settled : KnownStores.Settled} (hnamed : ∀ sessionId ∈ file.sessionId, Named sessionId)
    (h : source.settleFile view (isDuplicate files) file = .ok settled) :
    settled.candidate.isSome = promoted files file := by
  unfold settleFile at h
  split at h
  next error _ herror =>
    cases Except.ok.inj h
    simp [promoted, alone, herror]
  next herror hid =>
    cases Except.ok.inj h
    simp [promoted, alone, hid]
  next sessionId herror hid =>
    rw [candidate_settleSession (hnamed sessionId hid) h]
    simp [promoted, alone, herror, hid]

theorem length_candidates {files rest : List PreparedFile} {settled : List KnownStores.Settled}
    (hnamed : ∀ file ∈ rest, ∀ sessionId ∈ file.sessionId, Named sessionId)
    (h : List.Forall₂ (fun file one => source.settleFile view (isDuplicate files) file = .ok one)
      rest settled) :
    (settled.filterMap (·.candidate)).length = (rest.filter (promoted files)).length := by
  induction h with
  | nil => rfl
  | @cons file one rest settled hfile _ ih =>
    have hone := candidate_settleFile (hnamed file (by simp)) hfile
    have hrest := ih fun other hother => hnamed other (by simp [hother])
    cases hcandidate : one.candidate with
    | none =>
      rw [hcandidate, Option.isSome_none] at hone
      rw [List.filterMap_cons_none hcandidate, List.filter_cons_of_neg (by simp [← hone]), hrest]
    | some candidate =>
      rw [hcandidate, Option.isSome_some] at hone
      rw [List.filterMap_cons_some hcandidate, List.filter_cons_of_pos hone.symm,
        List.length_cons, List.length_cons, hrest]

theorem assertsLimit_of_le {limit count : Nat} {files rest : List PreparedFile}
    (hnamed : ∀ file ∈ rest, ∀ sessionId ∈ file.sessionId, Named sessionId)
    (h : count + (rest.filter (promoted files)).length ≤ limit) :
    source.assertsLimit view limit files count rest := by
  induction rest generalizing count with
  | nil => trivial
  | cons file rest ih =>
    constructor
    · intro hpromoted
      rw [List.filter_cons_of_pos hpromoted, List.length_cons] at h
      omega
    · intro settled hsettled
      apply ih fun other hother => hnamed other (by simp [hother])
      have hcandidate := candidate_settleFile (hnamed file (by simp)) hsettled
      cases hpromoted : promoted files file with
      | true =>
        rw [hpromoted] at hcandidate
        have ⟨candidate, hsome⟩ := Option.isSome_iff_exists.mp hcandidate
        rw [List.filter_cons_of_pos hpromoted, List.length_cons] at h
        rw [hsome, Option.toList_some, List.length_singleton]
        omega
      | false =>
        rw [hpromoted, Option.isSome_eq_false_iff, Option.isNone_iff_eq_none] at hcandidate
        rw [List.filter_cons_of_neg (by simp [hpromoted])] at h
        rw [hcandidate, Option.toList_none, List.length_nil]
        omega

/-! ## The files of a page -/

/-- What the candidate loop relies on of a file of the page. -/
structure Sound (previous : WatermarkMap) (file : PreparedFile) : Prop where
  named : ∀ sessionId ∈ file.sessionId, Named sessionId
  fresh : file.changed = true → file.watermark.duplicate = false
  accepted : file.error = none → file.watermark.duplicate = true →
    previous[file.key]? = some file.watermark

variable {previous : WatermarkMap} {relative : RelativePath} {state : FileState}

theorem sound_keptFile {entry : WatermarkEntry} (hnamed : entry.Named)
    (hentry : previous[watermarkKey relative]? = some entry) :
    Sound previous (source.keptFile relative state entry) where
  named := hnamed
  fresh h := absurd h Bool.false_ne_true
  accepted _ _ := hentry

theorem sound_postponedFile {entry : WatermarkEntry} (hnamed : entry.Named)
    (hentry : previous[watermarkKey relative]? = some entry) :
    Sound previous (postponedFile relative state entry) where
  named := hnamed
  fresh h := absurd h Bool.false_ne_true
  accepted _ _ := hentry

theorem sound_failedFile (error : SourceError) :
    Sound previous (source.failedFile relative state error) where
  named _ h := nomatch h
  fresh h := absurd h Bool.false_ne_true
  accepted h := nomatch h

/-- A scan clears the flag of its entry. -/
theorem duplicate_scanFile {entry : Option WatermarkEntry} {byteBudget : Nat}
    {cancelled : ScanCancellation} {scanned : ScannedFile}
    (h : source.scanFile relative view entry byteBudget cancelled = .ok scanned) :
    scanned.watermark.duplicate = false := by
  have ⟨_, _, h⟩ := bind_eq_ok_iff.mp h
  have ⟨_, _, h⟩ := bind_eq_ok_iff.mp h
  have ⟨_, _, h⟩ := bind_eq_ok_iff.mp h
  have ⟨_, _, h⟩ := bind_eq_ok_iff.mp h
  have ⟨_, _, h⟩ := bind_eq_ok_iff.mp h
  have ⟨_, _, h⟩ := bind_eq_ok_iff.mp h
  have ⟨_, _, h⟩ := bind_eq_ok_iff.mp h
  cases Except.ok.inj h
  rfl

theorem sound_inspectFile
    (hnamed : ∀ (key : String) (entry : WatermarkEntry), previous[key]? = some entry → entry.Named)
    (cancelled : ScanCancellation) :
    Sound previous (source.inspectFile view previous cancelled relative state).1 := by
  have hentry : ∀ entry ∈ previous[watermarkKey relative]?, entry.Named :=
    fun entry hentry => hnamed _ entry (Option.mem_def.mp hentry)
  simp only [inspectFile]
  split
  next scanned hscan =>
    have hduplicate := duplicate_scanFile hscan
    exact {
      named := fun sessionId hid => by
        obtain ⟨metadata, hmetadata, hsame⟩ := Option.map_eq_some_iff.mp hid
        rw [← hsame]
        exact named_scanFile hentry hscan metadata hmetadata
      fresh := fun _ => hduplicate
      accepted := fun _ h => absurd (hduplicate.symm.trans h) Bool.false_ne_true }
  next error _ =>
    split
    next entry hsome =>
      split
      next => exact ⟨hnamed _ entry hsome, fun h => absurd h Bool.false_ne_true, fun h => by cases h⟩
      next => exact sound_failedFile error
    next => exact sound_failedFile error

theorem changed_inspectFile_le (cancelled : ScanCancellation) (rest : List PreparedFile) :
    (((source.inspectFile view previous cancelled relative state).1 :: rest).filter
      (·.changed)).length ≤ (rest.filter (·.changed)).length + 1 := by
  rw [List.filter_cons]
  split <;> simp

/-- The files of a page are sound, and no more than the budget are new. -/
theorem sound_prepareFiles
    (hnamed : ∀ (key : String) (entry : WatermarkEntry), previous[key]? = some entry → entry.Named)
    {cancelled : PageCancellation} {index budget : Nat} {keys : List String}
    {files : List (RelativePath × FileState)} {prepared : Prepared}
    (h : source.prepareFiles view previous cancelled index budget keys files = .ok prepared) :
    (∀ file ∈ prepared.files, Sound previous file) ∧
      (prepared.files.filter (·.changed)).length ≤ budget := by
  induction files generalizing index budget keys prepared with
  | nil =>
    cases Except.ok.inj h
    simp
  | cons file rest ih =>
    obtain ⟨relative, state⟩ := file
    simp only [prepareFiles] at h
    split at h
    next => contradiction
    next =>
      split at h
      next =>
        obtain ⟨others, hothers, h⟩ := bind_eq_ok_iff.mp h
        obtain ⟨hsound, hcount⟩ := ih hothers
        cases Except.ok.inj h
        exact ⟨hsound, hcount⟩
      next =>
        split at h
        next entry hunchanged =>
          obtain ⟨others, hothers, h⟩ := bind_eq_ok_iff.mp h
          cases Except.ok.inj h
          obtain ⟨hsound, hcount⟩ := ih hothers
          have hentry := (Option.filter_eq_some_iff.mp hunchanged).1
          have hkept : Sound previous (source.keptFile relative state entry) :=
            sound_keptFile (hnamed _ entry hentry) hentry
          refine ⟨List.forall_mem_cons.mpr ⟨hkept, hsound⟩, ?_⟩
          rw [List.filter_cons_of_neg (by simp [keptFile])]
          exact hcount
        next =>
          split at h
          next =>
            obtain ⟨others, hothers, h⟩ := bind_eq_ok_iff.mp h
            cases Except.ok.inj h
            obtain ⟨hsound, hcount⟩ := ih hothers
            cases hentry : previous[watermarkKey relative]? with
            | none => exact ⟨hsound, hcount⟩
            | some entry =>
              have hpostponed : Sound previous (postponedFile relative state entry) :=
                sound_postponedFile (hnamed _ entry hentry) hentry
              simp only [Option.map_some, Option.toList_some, List.singleton_append]
              refine ⟨List.forall_mem_cons.mpr ⟨hpostponed, hsound⟩, ?_⟩
              rw [List.filter_cons_of_neg (by simp [postponedFile])]
              exact hcount
          next budget =>
            obtain ⟨others, hothers, h⟩ := bind_eq_ok_iff.mp h
            cases Except.ok.inj h
            obtain ⟨hsound, hcount⟩ := ih hothers
            refine ⟨List.forall_mem_cons.mpr ⟨sound_inspectFile hnamed _, hsound⟩, ?_⟩
            exact (changed_inspectFile_le _ _).trans (Nat.succ_le_succ hcount)

/-- An accepted entry of a file that is alone is flagged exactly if the file's is. -/
theorem any_flagged_of_alone {files : List PreparedFile} {file : PreparedFile}
    (hsound : Sound previous file) (halone : alone files file = true) :
    (previous[file.key]?.any fun entry => entry.duplicate && decide (entry = file.watermark)) =
      file.watermark.duplicate := by
  have hreadable : file.error = none := by
    simp only [alone, Bool.and_eq_true, Option.isNone_iff_eq_none] at halone
    exact halone.1
  cases hduplicate : file.watermark.duplicate with
  | true => simp [hsound.accepted hreadable hduplicate, hduplicate]
  | false =>
    cases previous[file.key]? with
    | none => rfl
    | some entry =>
      rw [Option.any_some, Bool.and_eq_false_iff, decide_eq_false_iff_not]
      by_cases hsame : entry = file.watermark
      · exact Or.inl (hsame ▸ hduplicate)
      · exact Or.inr hsame

/-- Promoted files are new, or their duplicate is gone. -/
theorem length_promoted {files : List PreparedFile} (rest : List PreparedFile)
    (hsound : ∀ file ∈ rest, Sound previous file) :
    (rest.filter (promoted files)).length =
      (rest.filter fun file => alone files file && file.changed).length +
        (rest.filter fun file => alone files file && previous[file.key]?.any fun entry =>
          entry.duplicate && decide (entry = file.watermark)).length := by
  induction rest with
  | nil => rfl
  | cons file rest ih =>
    have hfile := hsound file (by simp)
    have hrest := ih fun other hother => hsound other (by simp [hother])
    by_cases halone : alone files file = true
    · have hflagged := any_flagged_of_alone hfile halone
      cases hchanged : file.changed with
      | true =>
        have hfresh := hfile.fresh hchanged
        simp only [List.filter_cons, promoted, halone, hchanged, hflagged, hfresh, Bool.true_and,
          Bool.or_false, if_true, Bool.false_eq_true, if_false, List.length_cons]
        omega
      | false =>
        cases hduplicate : file.watermark.duplicate with
        | false => simpa [List.filter_cons, promoted, halone, hchanged, hflagged, hduplicate]
        | true =>
          simp only [List.filter_cons, promoted, halone, hchanged, hflagged, hduplicate,
            Bool.true_and, Bool.or_true, if_true, Bool.false_eq_true, if_false, List.length_cons]
          omega
    · simpa [List.filter_cons, promoted, halone] using hrest

/-! ## The page -/

variable {project : ProjectIdentity} {after : Option SourceWatermark} {limit : DiscoveryLimit}
  {cancelled : PageCancellation}

theorem candidates_discoverRaw {page : KnownPage}
    (h : source.discoverRaw view project after limit cancelled = .ok page) :
    ∃ assembled, source.assemble view project after limit cancelled = .ok assembled ∧
      page.batch.candidates = assembled.batch.candidates := by
  have ⟨assembled, hassembled, h⟩ := bind_eq_ok_iff.mp h
  have ⟨batch, hbatch, h⟩ := bind_eq_ok_iff.mp h
  cases Except.ok.inj h
  refine ⟨assembled, hassembled, ?_⟩
  simp only [DiscoveryBatch.new] at hbatch
  split at hbatch
  next => contradiction
  next =>
    split at hbatch
    next => contradiction
    next =>
      cases Except.ok.inj hbatch
      rfl

/-- The candidates of a page are the promoted files. -/
theorem length_candidates_discoverRaw {page : KnownPage}
    (h : source.discoverRaw view project after limit cancelled = .ok page) :
    ∃ previous files, source.pageFiles view after limit cancelled = .ok (previous, files) ∧
      (∀ file ∈ files, Sound previous file) ∧
      (files.filter (·.changed)).length ≤ limit.val ∧
      page.batch.candidates.length = (files.filter (promoted files)).length := by
  have ⟨assembled, hassembled, hcandidates⟩ := candidates_discoverRaw h
  rw [hcandidates]
  have ⟨_, _, hassembled⟩ := bind_eq_ok_iff.mp hassembled
  have ⟨_, _, hassembled⟩ := bind_eq_ok_iff.mp hassembled
  have ⟨probed, hprobed, hassembled⟩ := bind_eq_ok_iff.mp hassembled
  cases probed with
  | unavailable reason =>
    have ⟨watermark, _, hpage⟩ := bind_eq_ok_iff.mp hassembled
    cases Except.ok.inj hpage
    refine ⟨∅, [], ?_, by simp, Nat.zero_le _, rfl⟩
    rw [pageFiles, hprobed]
    rfl
  | available =>
    have ⟨previous, hprevious, hassembled⟩ := bind_eq_ok_iff.mp hassembled
    have ⟨inventory, hinventory, hassembled⟩ := bind_eq_ok_iff.mp hassembled
    have ⟨prepared, hprepared, hassembled⟩ := bind_eq_ok_iff.mp hassembled
    have ⟨settled, hsettled, hassembled⟩ := bind_eq_ok_iff.mp hassembled
    have ⟨removals, _, hassembled⟩ := bind_eq_ok_iff.mp hassembled
    have ⟨watermark, _, hpage⟩ := bind_eq_ok_iff.mp hassembled
    cases Except.ok.inj hpage
    have ⟨hsound, hbudget⟩ := sound_prepareFiles
      (fun _ _ hentry => entry_named_of_valid (valid_of_decodeWatermark hprevious hentry)) hprepared
    refine ⟨previous, prepared.files, ?_, hsound, hbudget,
      length_candidates (fun file hfile => (hsound file hfile).named)
        (forall₂_of_mapM_eq_ok hsettled)⟩
    rw [pageFiles, hprobed]
    simp only [ok_bind, hprevious, hinventory, hprepared]
    rfl

theorem length_renewed_le {files : List PreparedFile} {count : Nat}
    (h : (files.filter (·.changed)).length ≤ count) : (renewed files).length ≤ count := by
  have hsub : (renewed files).length ≤ (files.filter (·.changed)).length := by
    rw [renewed, ← List.filter_filter]
    exact List.length_filter_le _ _
  omega

/-- A page keeps to its limit, and its assertion holds, exactly if the files
that are candidates again without a scan fit in beside the new ones. -/
theorem page_limit (source : KnownJsonlSource) (view : StoreView) (project : ProjectIdentity)
    (after : Option SourceWatermark) (limit : DiscoveryLimit) (cancelled : PageCancellation)
    (page : KnownPage) (h : source.discoverRaw view project after limit cancelled = .ok page) :
    ∃ previous files, source.pageFiles view after limit cancelled = .ok (previous, files) ∧
      ((page.batch.candidates.length ≤ limit.val ∧
          source.assertsLimit view limit.val files 0 files) ↔
        (resolved previous files).length ≤ limit.val - (renewed files).length) := by
  have ⟨previous, files, hfiles, hsound, hbudget, hcandidates⟩ := length_candidates_discoverRaw h
  have hrenewed := length_renewed_le hbudget
  have hpromoted : (files.filter (promoted files)).length =
      (renewed files).length + (resolved previous files).length := length_promoted files hsound
  refine ⟨previous, files, hfiles, ?_⟩
  rw [hcandidates]
  constructor
  · rintro ⟨hle, _⟩
    omega
  · intro hfits
    refine ⟨by omega, assertsLimit_of_le (fun file hfile => (hsound file hfile).named) ?_⟩
    omega

end KnownJsonlSource

/-! ## Two duplicates resolved at once -/

namespace Sample

/-- The state of a file with one record that is read completely. -/
def readState (inode : UInt64) : FileState where
  len := 120
  modified := ⟨1767225600000000000, by decide⟩
  device := 1
  inode := inode
  changedSeconds := 1767225600
  changedNanoseconds := 0

def readMetadata (id : String) : ParsedMetadata where
  sessionId := id
  title := none
  createdAt := ⟨1767225600000000000, by decide⟩
  updatedAt := ⟨1767225600000000000, by decide⟩
  chainUpdatedAt := ⟨1767225600000000000, by decide⟩
  cwd := ⟨ascii "/p"⟩
  chainTail := none
  recordCount := 1

def readEntry (inode : UInt64) (id : String) (duplicate : Bool) : WatermarkEntry where
  state := (readState inode).fingerprint
  fingerprint := some (snapshotFingerprint (readState inode) 7 (readMetadata id))
  sessionId := some id
  safeOffset := 120
  complete := true
  rejected := false
  rejection := none
  duplicate := duplicate
  prefixHash := some 7
  contentHash := 7
  summary := some (StoredMetadata.fromParsed (readMetadata id))
  pending := none
  identity := (readState inode).identity
  adapterRevision := 0

def firstId : String := "01890000-0000-7000-8000-00000000000a"
def secondId : String := "01890000-0000-7000-8000-00000000000b"

def firstName : FileName :=
  ⟨ascii "2026-01-01T00-00-00Z_01890000-0000-7000-8000-00000000000a.jsonl", by decide +kernel⟩
def secondName : FileName :=
  ⟨ascii "2026-01-01T00-00-00Z_01890000-0000-7000-8000-00000000000b.jsonl", by decide +kernel⟩

def directoryName : FileName := ⟨ascii "--p--", directory_normal⟩

/-- Both sessions, which a second file each carried at the page before. -/
def sessions (duplicate : Bool) : WatermarkMap :=
  ((∅ : WatermarkMap).insert (watermarkKey [directoryName, firstName])
    (readEntry 1 firstId duplicate)).insert (watermarkKey [directoryName, secondName])
      (readEntry 2 secondId duplicate)

/-! The text of these entries, in the order of the fields. -/

def quoted (text : List Char) : List Char := '"' :: text ++ ['"']

def partsText (parts : SystemTime.Parts) : List Char :=
  '[' :: (toString parts.1).toList ++ ',' :: decimal parts.2.1.toNat ++
    ',' :: decimal parts.2.2.toNat ++ [']']

def summaryText (summary : StoredMetadata) : List Char :=
  "\x7b\"session_id\":".toList ++ quoted summary.sessionId.toList ++
    ",\"title\":null,\"created_at\":".toList ++ partsText summary.createdAt ++
    ",\"updated_at\":".toList ++ partsText summary.updatedAt ++ ",\"chain_updated_at\":".toList ++
    summary.chainUpdatedAt.elim "null".toList partsText ++
    ",\"chain_tail\":null,\"record_count\":".toList ++ decimal summary.recordCount.toNat ++
    ",\"cwd\":\"/p\"\x7d".toList

def entryText (entry : WatermarkEntry) : List Char :=
  "\x7b\"state\":".toList ++ quoted entry.state.toList ++ ",\"fingerprint\":".toList ++
    entry.fingerprint.elim "null".toList (quoted ·.toList) ++ ",\"session_id\":".toList ++
    entry.sessionId.elim "null".toList (quoted ·.toList) ++ ",\"safe_offset\":".toList ++
    decimal entry.safeOffset.toNat ++ ",\"complete\":".toList ++ (toString entry.complete).toList ++
    ",\"rejected\":".toList ++ (toString entry.rejected).toList ++
    ",\"rejection\":null,\"duplicate\":".toList ++ (toString entry.duplicate).toList ++
    ",\"prefix_hash\":".toList ++ entry.prefixHash.elim "null".toList (decimal ·.toNat) ++
    ",\"content_hash\":".toList ++ decimal entry.contentHash.toNat ++ ",\"summary\":".toList ++
    entry.summary.elim "null".toList summaryText ++ ",\"pending\":null,\"identity\":".toList ++
    quoted entry.identity.toList ++ ",\"adapter_revision\":".toList ++
    decimal entry.adapterRevision.toNat ++ ['\x7d']

def mapText (entries : WatermarkMap) : List Char :=
  '\x7b' :: List.intercalate [','] (entries.toList.map fun stored =>
    quoted stored.1.toList ++ ':' :: entryText stored.2) ++ ['\x7d']

theorem mapText_sessions_ne (duplicate : Bool) : mapText (sessions duplicate) ≠ ['\x7b', '\x7d'] := by
  cases duplicate <;> decide +kernel

theorem mapText_sessions_distinct : mapText (sessions false) ≠ mapText (sessions true) := by
  decide +kernel

/-- The JSON of two maps and the empty one, which is all that this store needs. -/
def codecOf (render : WatermarkMap → List Char) (first second : WatermarkMap)
    (hfirst : render first ≠ ['\x7b', '\x7d']) (hsecond : render second ≠ ['\x7b', '\x7d'])
    (hdistinct : render second ≠ render first) : WatermarkCodec where
  encode entries :=
    if entries.toList = [] then some "\x7b\x7d"
    else if entries.toList = first.toList then some (String.ofList (render first))
    else if entries.toList = second.toList then some (String.ofList (render second))
    else none
  decode token :=
    if token.toList = ['\x7b', '\x7d'] then some ∅
    else if token.toList = render first then some first
    else if token.toList = render second then some second
    else none
  decode_encode {entries token} h := by
    split at h
    next hempty =>
      cases Option.some.inj h
      rw [if_pos (by decide), Std.ExtTreeMap.toList_eq_nil_iff.mp hempty]
    next =>
      split at h
      next hsame =>
        cases Option.some.inj h
        rw [String.toList_ofList, if_neg hfirst, if_pos rfl,
          Std.ExtTreeMap.ext_toList (List.Perm.of_eq hsame)]
      next =>
        split at h
        next hsame =>
          cases Option.some.inj h
          rw [String.toList_ofList, if_neg hsecond, if_neg hdistinct, if_pos rfl,
            Std.ExtTreeMap.ext_toList (List.Perm.of_eq hsame)]
        next => exact absurd h.symm (Option.some_ne_none token)
  encode_empty := rfl

def pi : KnownJsonlSource where
  id := Tool.pi.sourceId
  project := project
  root := ⟨ascii "/x"⟩
  format := .pi
  decoders := decoders
  codec := codecOf mapText (sessions true) (sessions false) (mapText_sessions_ne true)
    (mapText_sessions_ne false) mapText_sessions_distinct

/-- The store after the second file of each session was deleted. -/
def sessionsView : StoreView where
  canon := canon
  probe _ := .ok true
  entries relative :=
    if relative = [directoryName] then .ok [.ok (firstName, .file), .ok (secondName, .file)]
    else .error .notFound
  fileState relative :=
    if relative = [directoryName, firstName] then .ok (readState 1)
    else if relative = [directoryName, secondName] then .ok (readState 2)
    else .error .notFound
  openFile _ := .error .notFound
  recheck _ _ := .error .notFound

/-- The watermark of the page at which both sessions were duplicates. -/
def flagged : SourceWatermark :=
  ⟨Tool.pi.sourceId, String.ofList (mapText (sessions true)), by simp [mapText]⟩

def resolvedPage : Except SourceError KnownPage :=
  pi.discoverRaw sessionsView project (some flagged) ⟨1, one_pos⟩ uncancelled

theorem decode_flagged :
    pi.decodeWatermark sessionsView.canon (some flagged) = .ok (sessions true) := by
  have hshort : strLen flagged.token ≤ maxWatermarkBytes := by
    change strLen (String.ofList (mapText (sessions true))) ≤ maxWatermarkBytes
    rw [strLen_ofList]
    decide +kernel
  have hdecoded : pi.codec.decode flagged.token = some (sessions true) := by
    simp only [pi, codecOf, flagged, String.toList_ofList, if_neg (mapText_sessions_ne true),
      if_true]
  have hsize : (sessions true).size ≤ maxStoreFiles := by decide +kernel
  have haccepted : pi.acceptsEntries sessionsView.canon (sessions true) = true := by decide +kernel
  have hcurrent : pi.currentRevision (sessions true) = sessions true :=
    Std.ExtTreeMap.ext_toList (List.Perm.of_eq (by decide +kernel))
  unfold KnownJsonlSource.decodeWatermark
  refine bind_eq_ok_iff.mpr ⟨(), rejectIf_eq_ok_iff.mpr (not_lt.mpr hshort), ?_⟩
  refine bind_eq_ok_iff.mpr ⟨sessions true, okOr_eq_ok_iff.mpr hdecoded, ?_⟩
  refine bind_eq_ok_iff.mpr ⟨(), rejectIf_eq_ok_iff.mpr (not_lt.mpr hsize), ?_⟩
  refine bind_eq_ok_iff.mpr ⟨(), rejectIf_eq_ok_iff.mpr (not_not.mpr haccepted), ?_⟩
  rw [hcurrent, pure_eq_ok]

theorem encode_resolved {next : WatermarkMap} (h : next.toList = (sessions false).toList) :
    ∃ watermark, pi.encodeWatermark next = .ok watermark ∧ watermark.sourceId = pi.id := by
  have hshort : Text.byteLen (mapText (sessions false)) ≤ maxWatermarkBytes := by decide +kernel
  have hencoded : pi.codec.encode next = some (String.ofList (mapText (sessions false))) := by
    have hsome : (sessions false).toList ≠ [] := by decide +kernel
    have hother : (sessions false).toList ≠ (sessions true).toList := by decide +kernel
    simp only [pi, codecOf, h, if_neg hsome, if_neg hother, if_true]
  refine ⟨⟨pi.id, String.ofList (mapText (sessions false)), by simp [mapText]⟩, ?_, rfl⟩
  unfold KnownJsonlSource.encodeWatermark
  refine bind_eq_ok_iff.mpr ⟨_, okOr_eq_ok_iff.mpr hencoded, ?_⟩
  refine bind_eq_ok_iff.mpr ⟨(), rejectIf_eq_ok_iff.mpr ?_, ?_⟩
  · rwa [strLen_ofList, not_lt]
  · exact SourceWatermark.new_eq_ok_iff.mpr ⟨rfl, rfl⟩

/-- The page up to its watermark, and the entries of the next one. -/
def unencoded : Except SourceError (DiscoveryBatch × WatermarkMap) := do
  let inventory ← pi.inventoryFiles sessionsView uncancelled
  let prepared ← pi.prepareFiles sessionsView (sessions true) uncancelled 0 1 [] inventory.files
  let duplicate := KnownJsonlSource.isDuplicate prepared.files
  let settled ← prepared.files.mapM (pi.settleFile sessionsView duplicate)
  let next := KnownJsonlSource.settledEntries settled
  let next :=
    if inventory.incomplete then KnownJsonlSource.carryOver (sessions true) next else next
  let removals ← (KnownJsonlSource.removedSessions (sessions true) inventory.incomplete
    (inventory.files.map fun file => watermarkKey file.1) duplicate next).mapM pi.removalOf
  return ({
    candidates := settled.filterMap (·.candidate)
    nextWatermark := none
    removals
    errors := inventory.errors ++ prepared.errors ++ settled.flatMap (·.errors)
    hasMore := prepared.hasMore }, next)

theorem assemble_resolved {batch : DiscoveryBatch} {next : WatermarkMap}
    {watermark : SourceWatermark} (h : unencoded = .ok (batch, next))
    (hwatermark : pi.encodeWatermark next = .ok watermark) :
    ∃ snapshots, pi.assemble sessionsView project (some flagged) ⟨1, one_pos⟩ uncancelled =
      .ok ⟨{ batch with nextWatermark := some watermark }, snapshots⟩ := by
  have ⟨inventory, hinventory, h⟩ := bind_eq_ok_iff.mp h
  have ⟨prepared, hprepared, h⟩ := bind_eq_ok_iff.mp h
  have ⟨settled, hsettled, h⟩ := bind_eq_ok_iff.mp h
  have ⟨removals, hremovals, h⟩ := bind_eq_ok_iff.mp h
  have ⟨hbatch, hnext⟩ := Prod.mk.inj (Except.ok.inj h)
  rw [← hnext] at hwatermark
  have hprobe : pi.probe sessionsView .discovery = .ok .available := rfl
  refine ⟨settled.filterMap (·.snapshot), ?_⟩
  unfold KnownJsonlSource.assemble
  rw [rejectIf_of_not (by simp [pi]), rejectIf_of_not (by simp [uncancelled]), hprobe]
  simp only [ok_bind, decode_flagged, hinventory]
  refine bind_eq_ok_iff.mpr ⟨prepared, hprepared, ?_⟩
  refine bind_eq_ok_iff.mpr ⟨settled, hsettled, ?_⟩
  refine bind_eq_ok_iff.mpr ⟨removals, hremovals, ?_⟩
  refine bind_eq_ok_iff.mpr ⟨watermark, hwatermark, ?_⟩
  rw [← hbatch, pure_eq_ok]

theorem resolvedPage_eq_ok : ∃ page, resolvedPage = .ok page := by
  have hunencoded : (unencoded.toOption.map fun found =>
      (found.1.sourcesMatch pi.id, found.1.candidates.all (·.projectIdentity = project),
        found.2.toList)) = some (true, true, (sessions false).toList) := by
    decide +kernel
  cases hfound : unencoded with
  | error error =>
    rw [hfound] at hunencoded
    contradiction
  | ok found =>
    rw [hfound] at hunencoded
    have hparts := Option.some.inj hunencoded
    simp only [Prod.mk.injEq, List.all_eq_true, decide_eq_true_eq] at hparts
    have ⟨hsources, hprojects, hnext⟩ := hparts
    have ⟨watermark, hwatermark, hid⟩ := encode_resolved hnext
    have ⟨snapshots, hassembled⟩ := assemble_resolved hfound hwatermark
    have hmatch : DiscoveryBatch.sourcesMatch
        { found.1 with nextWatermark := some watermark } pi.id = true := by
      simp only [DiscoveryBatch.sourcesMatch, Bool.and_eq_true, Option.all_some, hid,
        decide_true] at hsources ⊢
      exact ⟨⟨⟨hsources.1.1.1, trivial⟩, hsources.1.2⟩, hsources.2⟩
    have hbatch := DiscoveryBatch.new_eq_ok_iff.mpr ⟨rfl, hmatch, hprojects⟩
    refine ⟨⟨{ found.1 with nextWatermark := some watermark }, snapshots⟩, ?_⟩
    rw [resolvedPage, KnownJsonlSource.discoverRaw, hassembled, ok_bind, hbatch, ok_bind,
      pure_eq_ok]

theorem promoted_resolved :
    ((pi.pageFiles sessionsView (some flagged) ⟨1, one_pos⟩ uncancelled).toOption.map fun found =>
      (found.2.filter (KnownJsonlSource.promoted found.2)).length) = some 2 := by
  have hprobe : pi.probe sessionsView .discovery = .ok .available := rfl
  rw [KnownJsonlSource.pageFiles, hprobe]
  simp only [ok_bind, decode_flagged]
  decide +kernel

end Sample

/-- Both sessions have one file again, and the page takes both beyond its limit. -/
theorem resolvedPage_exceeds :
    ¬ ∀ page, Sample.resolvedPage = .ok page → page.batch.candidates.length ≤ 1 := by
  intro hall
  have ⟨page, hpage⟩ := Sample.resolvedPage_eq_ok
  have ⟨previous, files, hfiles, _, _, hcandidates⟩ :=
    KnownJsonlSource.length_candidates_discoverRaw hpage
  have hpromoted := Sample.promoted_resolved
  rw [hfiles] at hpromoted
  have htwo : (files.filter (KnownJsonlSource.promoted files)).length = 2 :=
    Option.some.inj hpromoted
  have hone := hall page hpage
  omega

theorem page_limit_resolvedPage : ∃ page, Sample.resolvedPage = .ok page ∧
    ∃ previous files, Sample.pi.pageFiles Sample.sessionsView (some Sample.flagged) ⟨1, one_pos⟩
        Sample.uncancelled = .ok (previous, files) ∧
      ((page.batch.candidates.length ≤ 1 ∧
          Sample.pi.assertsLimit Sample.sessionsView 1 files 0 files) ↔
        (KnownJsonlSource.resolved previous files).length ≤
          1 - (KnownJsonlSource.renewed files).length) := by
  have ⟨page, hpage⟩ := Sample.resolvedPage_eq_ok
  exact ⟨page, hpage, KnownJsonlSource.page_limit Sample.pi Sample.sessionsView Sample.project
    (some Sample.flagged) ⟨1, one_pos⟩ Sample.uncancelled page hpage⟩

end HerdrContext.KnownStores
