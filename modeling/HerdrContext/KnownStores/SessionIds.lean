import HerdrContext.KnownStores.Discover

/-! The session identifiers of a page, scanned or stored, are never blank. -/
namespace HerdrContext.KnownStores

open Library IncrementalParser

/-- `ConversationCandidate::new` takes the identifier. -/
def Named (sessionId : String) : Prop := trim sessionId ≠ ""

theorem named_of_normalizeNonempty {value normal : String}
    (h : normalizeNonempty value = some normal) : Named value := by
  have ⟨htrim, hne⟩ := normalizeNonempty_eq_some h
  rw [Named, htrim]
  exact hne

theorem named_of_validateUuid {value : String} {version : Char} {u : Unit}
    (h : validateUuid value version = .ok u) : Named value := by
  rw [validateUuid, rejectIf_eq_ok_iff, not_not] at h
  have hdash : value.toList[8]? = some '-' := by
    simp only [uuidShape, Bool.and_eq_true, decide_eq_true_eq] at h
    exact h.1.1.1.1.1.1.2
  have ⟨normal, hnormal⟩ :=
    exists_normalizeNonempty (List.mem_of_getElem? hdash) (by decide)
  exact named_of_normalizeNonempty hnormal

theorem named_of_reference {nameSpace sessionId : String}
    (h : (SessionReference.new nameSpace sessionId).isOk = true) : Named sessionId := by
  cases hreference : SessionReference.new nameSpace sessionId with
  | error error =>
    rw [hreference] at h
    contradiction
  | ok reference =>
    have ⟨_, _, hid⟩ := bind_eq_ok_iff.mp hreference
    have ⟨_, hnormal, _⟩ := bind_eq_ok_iff.mp hid
    exact named_of_normalizeNonempty (normalizedIdentifier_eq_ok_iff.mp hnormal)

/-- An outcome with an identity names it. -/
def ParseOutcome.Named (outcome : ParseOutcome) : Prop :=
  ∀ parsed ∈ outcome.identified, KnownStores.Named parsed.sessionId

/-! ## What a scan finds -/

theorem Pi.named_parse {canon : Canonicalizer} {rfc3339 : Rfc3339}
    {decode : Bytes → Option PiRecord} {relative : RelativePath} {project : ProjectIdentity}
    {cancelled : Nat → Bool} {previous : Option ParseOutcome} {records : List Bytes}
    {outcome : ParseOutcome} (hprevious : ∀ earlier ∈ previous, earlier.Named)
    (h : parse canon rfc3339 decode relative project cancelled previous records = .ok outcome) :
    outcome.Named := by
  apply parse_keeps (parser canon rfc3339 decode relative project)
    (fun state : PiState => Named state.sessionId) ?_ ?_ ?_ ?_ hprevious h
  · intro records state unread hstart
    cases records with
    | nil => contradiction
    | cons first rest =>
      obtain ⟨opened, hopened, hpair⟩ := bind_eq_ok_iff.mp hstart
      cases Except.ok.inj hpair
      simp only [header, bind_eq_ok_iff, pure_eq_ok, Except.ok.injEq] at hopened
      obtain ⟨_, _, _, _, _, huuid, _, _, _, _, _, _, _, _, hstate⟩ := hopened
      rw [← hstate]
      exact named_of_validateUuid huuid
  · intro earlier state hnamed hresume
    obtain ⟨parsed, hparsed, hstate⟩ := Option.map_eq_some_iff.mp hresume
    cases Except.ok.inj hstate
    exact hnamed parsed hparsed
  · intro state record next hnamed hstep
    simp only [parser, step, bind_eq_ok_iff, pure_eq_ok, Except.ok.injEq] at hstep
    obtain ⟨_, _, _, _, _, _, _, _, _, _, _, _, _, _, hnext⟩ := hstep
    rw [← hnext]
    exact hnamed
  · intro state earlier hnamed hfinish
    cases Except.ok.inj hfinish
    intro parsed hparsed
    cases Option.mem_some_iff.mp hparsed
    exact hnamed

theorem CodexCli.named_parse {canon : Canonicalizer} {rfc3339 : Rfc3339}
    {decode : Bytes → Option CodexRecord} {relative : RelativePath} {project : ProjectIdentity}
    {cancelled : Nat → Bool} {previous : Option ParseOutcome} {records : List Bytes}
    {outcome : ParseOutcome} (hprevious : ∀ earlier ∈ previous, earlier.Named)
    (h : parse canon rfc3339 decode relative project cancelled previous records = .ok outcome) :
    outcome.Named := by
  apply parse_keeps (parser canon rfc3339 decode relative project)
    (fun state : CodexState => Named state.id) ?_ ?_ ?_ ?_ hprevious h
  · intro records state unread hstart
    cases records with
    | nil => contradiction
    | cons first rest =>
      obtain ⟨opened, hopened, hpair⟩ := bind_eq_ok_iff.mp hstart
      cases Except.ok.inj hpair
      obtain ⟨_, _, hopened⟩ := bind_eq_ok_iff.mp hopened
      obtain ⟨_, _, hopened⟩ := bind_eq_ok_iff.mp hopened
      obtain ⟨id, _, hopened⟩ := bind_eq_ok_iff.mp hopened
      obtain ⟨_, huuid, hopened⟩ := bind_eq_ok_iff.mp hopened
      simp only [bind_eq_ok_iff, pure_eq_ok, Except.ok.injEq] at hopened
      obtain ⟨_, _, _, _, _, _, _, _, _, _, _, _, _, _, _, _, _, _, _, _, hstate⟩ := hopened
      rw [← hstate]
      exact named_of_validateUuid huuid
  · intro earlier state hnamed hresume
    obtain ⟨parsed, hparsed, hstate⟩ := Option.map_eq_some_iff.mp hresume
    obtain ⟨_, _, hopened⟩ := bind_eq_ok_iff.mp hstate
    cases Except.ok.inj hopened
    exact hnamed parsed hparsed
  · intro state record next hnamed hstep
    simp only [parser, step, bind_eq_ok_iff, pure_eq_ok, Except.ok.injEq] at hstep
    obtain ⟨_, _, _, _, _, _, _, _, _, _, hnext⟩ := hstep
    rw [← hnext]
    exact hnamed
  · intro state earlier hnamed hfinish
    cases Except.ok.inj hfinish
    intro parsed hparsed
    cases Option.mem_some_iff.mp hparsed
    exact hnamed

theorem Omp.named_parse {canon : Canonicalizer} {rfc3339 : Rfc3339} {decode : Decoders}
    {home temp : PathBuf} {relative : RelativePath} {project : ProjectIdentity}
    {cancelled : Nat → Bool} {previous : Option ParseOutcome} {records : List Bytes}
    {outcome : ParseOutcome} (hprevious : ∀ earlier ∈ previous, earlier.Named)
    (h : parse canon rfc3339 decode home temp relative project cancelled previous records =
      .ok outcome) : outcome.Named := by
  apply parse_keeps (parser canon rfc3339 decode home temp relative project)
    (fun state : OmpState => Named state.sessionId) ?_ ?_ ?_ ?_ hprevious h
  · intro records state unread hstart
    cases records with
    | nil => contradiction
    | cons slot records =>
      cases records with
      | nil => contradiction
      | cons head rest =>
        obtain ⟨opened, hopened, hpair⟩ := bind_eq_ok_iff.mp hstart
        cases Except.ok.inj hpair
        simp only [opening, bind_eq_ok_iff, pure_eq_ok, Except.ok.injEq] at hopened
        obtain ⟨_, _, _, _, _, _, _, huuid, _, _, _, _, _, _, _, _, _, _, hstate⟩ := hopened
        rw [← hstate]
        exact named_of_validateUuid huuid
  · intro earlier state hnamed hresume
    obtain ⟨parsed, hparsed, hstate⟩ := Option.map_eq_some_iff.mp hresume
    cases Except.ok.inj hstate
    exact hnamed parsed hparsed
  · intro state record next hnamed hstep
    simp only [parser, step, bind_eq_ok_iff, pure_eq_ok, Except.ok.injEq] at hstep
    obtain ⟨_, _, _, _, _, _, _, _, _, _, _, _, _, _, hnext⟩ := hstep
    rw [← hnext]
    exact hnamed
  · intro state earlier hnamed hfinish
    cases Except.ok.inj hfinish
    intro parsed hparsed
    cases Option.mem_some_iff.mp hparsed
    exact hnamed

namespace ClaudeCode

variable {canon : Canonicalizer} {rfc3339 : Rfc3339} {decode : Bytes → Option ClaudeRecord}
  {relative : RelativePath} {project : ProjectIdentity}

theorem named_identityRecord {state next : ClaudeState} {record : ClaudeRecord}
    {recorded : Option PathBuf}
    (h : identityRecord canon rfc3339 relative project state record recorded = .ok next) :
    ∀ id ∈ next.sessionId, Named id := by
  simp only [identityRecord, bind_eq_ok_iff, pure_eq_ok, Except.ok.injEq] at h
  obtain ⟨_, _, nativeId, hsession, _, _, _, _, _, _, cwd, _, uuid, _, _, _, _, _, _, _,
    timestamp, _, hnext⟩ := h
  simp only [validateClaudeSession, bind_eq_ok_iff, pure_eq_ok, Except.ok.injEq] at hsession
  obtain ⟨id, _, _, huuid, _, _, hsame⟩ := hsession
  intro named hnamed
  rw [← hnext] at hnamed
  cases Option.some.inj hnamed
  rw [← hsame]
  exact named_of_validateUuid huuid

theorem named_step {state next : ClaudeState} {bytes : Bytes}
    (hnamed : ∀ id ∈ state.sessionId, Named id)
    (h : step canon rfc3339 decode relative project state bytes = .ok next) :
    ∀ id ∈ next.sessionId, Named id := by
  have ⟨record, _, h⟩ := bind_eq_ok_iff.mp h
  have ⟨_, _, h⟩ := bind_eq_ok_iff.mp h
  have ⟨recorded, _, h⟩ := bind_eq_ok_iff.mp h
  have ⟨middle, hmiddle, h⟩ := bind_eq_ok_iff.mp h
  cases Except.ok.inj h
  change ∀ id ∈ middle.sessionId, Named id
  unfold transcriptRecord at hmiddle
  split at hmiddle
  next => exact named_identityRecord hmiddle
  next =>
    rcases auxiliaryRecord_cases hmiddle with rfl | ⟨timestamp, rfl⟩ | ⟨title, rfl, _⟩
    · exact hnamed
    · exact hnamed
    · exact hnamed

theorem named_finish {state : ClaudeState} {outcome : ParseOutcome}
    (hnamed : ∀ id ∈ state.sessionId, Named id) (h : finish state = .ok outcome) :
    outcome.Named := by
  intro parsed hparsed
  unfold finish at h
  split at h
  next =>
    cases Except.ok.inj h
    contradiction
  next id hid =>
    have ⟨_, _, h⟩ := bind_eq_ok_iff.mp h
    have ⟨_, _, h⟩ := bind_eq_ok_iff.mp h
    have ⟨_, _, h⟩ := bind_eq_ok_iff.mp h
    cases Except.ok.inj h
    cases Option.mem_some_iff.mp hparsed
    exact hnamed id hid

theorem named_parse {cancelled : Nat → Bool} {previous : Option ParseOutcome}
    {records : List Bytes} {outcome : ParseOutcome}
    (hprevious : ∀ earlier ∈ previous, earlier.Named)
    (h : parse canon rfc3339 decode relative project cancelled previous records = .ok outcome) :
    outcome.Named := by
  apply parse_keeps (parser canon rfc3339 decode relative project)
    (fun state : ClaudeState => ∀ id ∈ state.sessionId, Named id) ?_ ?_ (fun _ _ _ => named_step)
    (fun _ _ => named_finish) hprevious h
  · intro records state unread hstart
    obtain ⟨expected, _, hpair⟩ := bind_eq_ok_iff.mp hstart
    cases Except.ok.inj hpair
    simp [initial]
  · intro earlier state hnamed hresume
    obtain ⟨expected, _, hresumed⟩ := bind_eq_ok_iff.mp (Option.some.inj hresume)
    cases earlier with
    | metadata parsed =>
      obtain ⟨_, _, hstate⟩ := bind_eq_ok_iff.mp hresumed
      cases Except.ok.inj hstate
      intro id hid
      cases Option.some.inj hid
      exact hnamed parsed rfl
    | identityPending pending =>
      cases Except.ok.inj hresumed
      simp

end ClaudeCode

theorem KnownFormat.named_parse {format : KnownFormat} {decoders : Decoders}
    {canon : Canonicalizer} {relative : RelativePath} {project : ProjectIdentity}
    {cancelled : Nat → Bool} {previous : Option ParseOutcome} {records : List Bytes}
    {outcome : ParseOutcome} (hprevious : ∀ earlier ∈ previous, earlier.Named)
    (h : format.parse decoders canon relative project cancelled previous records = .ok outcome) :
    outcome.Named := by
  cases format with
  | claudeCode => exact ClaudeCode.named_parse hprevious h
  | codexCli => exact CodexCli.named_parse hprevious h
  | pi => exact Pi.named_parse hprevious h
  | omp home temp => exact Omp.named_parse hprevious h

/-! ## What is stored -/

/-- The identifier of an entry can be that of a candidate. -/
def WatermarkEntry.Named (entry : WatermarkEntry) : Prop :=
  ∀ sessionId ∈ entry.sessionId, KnownStores.Named sessionId

namespace KnownJsonlSource

variable {source : KnownJsonlSource} {view : StoreView}

theorem entry_named_of_valid {canon : Canonicalizer} {entry : WatermarkEntry} {key : String}
    (h : entry.valid source canon key = true) : entry.Named := by
  intro sessionId hid
  simp only [WatermarkEntry.valid, Bool.and_eq_true] at h
  have hsummary := h.1.1.1.1.2
  unfold WatermarkEntry.summaryValid at hsummary
  split at hsummary
  next summary stored hsome hstored _ =>
    rw [hstored] at hid
    cases Option.mem_some_iff.mp hid
    simp only [Bool.and_eq_true] at hsummary
    exact named_of_reference hsummary.2
  next hnone _ =>
    rw [hnone] at hid
    contradiction
  next hnone _ =>
    rw [hnone] at hid
    contradiction
  next => contradiction

/-- The entries an accepted watermark brings are valid. -/
theorem valid_of_decodeWatermark {canon : Canonicalizer} {after : Option SourceWatermark}
    {previous : WatermarkMap} (h : source.decodeWatermark canon after = .ok previous)
    {key : String} {entry : WatermarkEntry} (hentry : previous[key]? = some entry) :
    entry.valid source canon key = true := by
  cases after with
  | none =>
    cases Except.ok.inj h
    simp at hentry
  | some after =>
    have ⟨_, _, h⟩ := bind_eq_ok_iff.mp h
    have ⟨entries, _, h⟩ := bind_eq_ok_iff.mp h
    have ⟨_, _, h⟩ := bind_eq_ok_iff.mp h
    have ⟨_, haccepts, h⟩ := bind_eq_ok_iff.mp h
    cases Except.ok.inj h
    rw [rejectIf_eq_ok_iff, not_not, acceptsEntries, List.all_eq_true] at haccepts
    have hstored : entries[key]? = some entry := by
      rw [currentRevision, Std.ExtTreeMap.getElem?_filter', Option.filter_eq_some_iff] at hentry
      exact hentry.1
    exact haccepts (key, entry) (Std.ExtTreeMap.mem_toList_iff_getElem?_eq_some.mpr hstored)

theorem named_storedOutcome {canon : Canonicalizer} {entry : WatermarkEntry}
    {outcome : ParseOutcome} (hnamed : entry.Named)
    (h : source.storedOutcome canon entry = some outcome) : outcome.Named := by
  simp only [storedOutcome] at h
  split at h
  next sessionId summary hid _ _ =>
    split at h
    next hsame =>
      cases Option.some.inj h
      intro parsed hparsed
      cases Option.mem_some_iff.mp hparsed
      rw [← hsame]
      exact hnamed sessionId hid
    next => contradiction
  next =>
    cases Option.some.inj h
    intro parsed hparsed
    contradiction
  next => contradiction

/-- The metadata of a scan carries an identifier of a candidate. -/
theorem named_scanFile {relative : RelativePath} {entry : Option WatermarkEntry}
    {byteBudget : Nat} {cancelled : ScanCancellation} {scanned : ScannedFile}
    (hentry : ∀ stored ∈ entry, stored.Named)
    (h : source.scanFile relative view entry byteBudget cancelled = .ok scanned) :
    ∀ metadata ∈ scanned.metadata, Named metadata.sessionId := by
  obtain ⟨file, _, h⟩ := bind_eq_ok_iff.mp h
  obtain ⟨snapshot, hsnapshot, h⟩ := bind_eq_ok_iff.mp h
  obtain ⟨_, _, h⟩ := bind_eq_ok_iff.mp h
  obtain ⟨outcome, houtcome, h⟩ := bind_eq_ok_iff.mp h
  obtain ⟨after, _, h⟩ := bind_eq_ok_iff.mp h
  obtain ⟨_, _, h⟩ := bind_eq_ok_iff.mp h
  obtain ⟨_, _, h⟩ := bind_eq_ok_iff.mp h
  cases Except.ok.inj h
  have hresume : ∀ point ∈ snapshot.resume, point.outcome.Named := by
    simp only [readSnapshot, bind_eq_ok_iff, pure_eq_ok, Except.ok.injEq] at hsnapshot
    obtain ⟨before, _, _, _, _, _, _, _, _, _, _, _, _, _, hread⟩ := hsnapshot
    rw [← hread]
    intro point hpoint
    simp only [resumePoint, Option.mem_def, Option.bind_eq_bind, Option.bind_eq_some_iff,
      Option.ite_none_right_eq_some, Option.some.injEq] at hpoint
    obtain ⟨stored, hstored, earlier, hearlier, _, hsame⟩ := hpoint
    rw [← hsame]
    exact named_storedOutcome (hentry stored hstored) hearlier
  have hnamed : outcome.Named := by
    unfold parseSnapshot at houtcome
    split at houtcome
    next =>
      obtain ⟨metadata, hmetadata, hsame⟩ :=
        Option.map_eq_some_iff.mp (okOr_eq_ok_iff.mp houtcome)
      obtain ⟨point, hpoint, hidentified⟩ := Option.bind_eq_some_iff.mp hmetadata
      rw [← hsame]
      intro parsed hparsed
      cases Option.mem_some_iff.mp hparsed
      exact hresume point hpoint metadata hidentified
    next =>
      obtain ⟨records, _, hparse⟩ := bind_eq_ok_iff.mp (mapError_eq_ok_iff.mp houtcome)
      apply KnownFormat.named_parse ?_ hparse
      intro earlier hearlier
      obtain ⟨point, hpoint, hsame⟩ := Option.map_eq_some_iff.mp hearlier
      rw [← hsame]
      exact hresume point hpoint
  exact hnamed

end KnownJsonlSource

end HerdrContext.KnownStores
