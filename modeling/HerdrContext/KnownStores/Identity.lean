import HerdrContext.KnownStores.Discover

/-! Whose id the parts of a discovery batch carry. Everything the source itself
makes carries its own id; what the listing reports carries the built-in one. -/
namespace HerdrContext.KnownStores

open Library

namespace KnownJsonlSource

variable {source : KnownJsonlSource} {view : StoreView}

/-- The error is the source's own. -/
def OwnError (source : KnownJsonlSource) (error : SourceError) : Prop := error.sourceId = source.id

theorem own_error (kind : SourceErrorKind) (message : String) (relative : RelativePath) :
    source.OwnError (source.error kind message relative) := rfl

theorem own_ioError (message : String) (relative : RelativePath) (error : IoErrorKind) :
    source.OwnError (source.ioError message relative error) := rfl

theorem failsOnly_readSnapshot {canon : Canonicalizer} {relative : RelativePath} {file : OpenFile}
    {previous : Option WatermarkEntry} {byteBudget : Nat} {cancelled : ScanCancellation} :
    FailsOnly source.OwnError
      (source.readSnapshot canon relative file previous byteBudget cancelled) := by
  refine (failsOnly_mapError fun _ _ => own_ioError _ _ _).bind fun before _ => ?_
  refine (failsOnly_rejectIf (own_error _ _ _)).bind fun _ _ => ?_
  refine (failsOnly_mapError fun _ _ => own_ioError _ _ _).bind fun _ _ => ?_
  refine (failsOnly_rejectIf (own_error _ _ _)).bind fun _ _ => ?_
  refine (failsOnly_mapError fun _ _ => own_ioError _ _ _).bind fun bytes _ => ?_
  refine (failsOnly_rejectIf (own_error _ _ _)).bind fun _ _ => ?_
  exact (failsOnly_rejectIf (own_error _ _ _)).bind fun _ _ => failsOnly_ok _

theorem failsOnly_checkParked {relative : RelativePath} {file : OpenFile} {snapshot : Snapshot} :
    FailsOnly source.OwnError (source.checkParked relative file snapshot) := by
  unfold checkParked
  split
  next =>
    refine (failsOnly_mapError fun _ _ => own_ioError _ _ _).bind fun final _ => ?_
    exact failsOnly_rejectIf (own_error _ _ _)
  next => exact failsOnly_ok ()

theorem failsOnly_parseSnapshot {canon : Canonicalizer} {relative : RelativePath}
    {snapshot : Snapshot} {cancelled : ScanCancellation} :
    FailsOnly source.OwnError (source.parseSnapshot canon relative snapshot cancelled) := by
  unfold parseSnapshot
  split
  next => exact failsOnly_okOr (own_error _ _ _) _
  next => exact failsOnly_mapError fun _ _ => own_error _ _ _

theorem failsOnly_scanFile {relative : RelativePath} {previous : Option WatermarkEntry}
    {byteBudget : Nat} {cancelled : ScanCancellation} :
    FailsOnly source.OwnError (source.scanFile relative view previous byteBudget cancelled) := by
  refine (failsOnly_mapError fun _ _ => own_ioError _ _ _).bind fun file _ => ?_
  refine failsOnly_readSnapshot.bind fun snapshot _ => ?_
  refine failsOnly_checkParked.bind fun _ _ => ?_
  refine failsOnly_parseSnapshot.bind fun outcome _ => ?_
  refine (failsOnly_mapError fun _ _ => own_ioError _ _ _).bind fun after _ => ?_
  refine (failsOnly_rejectIf (own_error _ _ _)).bind fun _ _ => ?_
  exact (failsOnly_rejectIf (own_error _ _ _)).bind fun _ _ => failsOnly_ok _

theorem own_statFiles {cancelled : Nat → Bool} {index : Nat} {paths : List RelativePath}
    {inventory : FileInventory} (h : source.statFiles view cancelled index paths = .ok inventory) :
    ∀ error ∈ inventory.errors, source.OwnError error := by
  induction paths generalizing index inventory with
  | nil =>
    cases Except.ok.inj h
    simp
  | cons relative rest ih =>
    unfold statFiles at h
    split at h
    next => contradiction
    next =>
      obtain ⟨others, hothers, h⟩ := bind_eq_ok_iff.mp h
      have hrest := ih hothers
      split at h
      next =>
        cases Except.ok.inj h
        exact hrest
      next =>
        cases Except.ok.inj h
        intro error herror
        rcases List.mem_cons.mp herror with rfl | hmem
        · rfl
        · exact hrest error hmem

theorem errors_boundPaths (source : KnownJsonlSource) (listed : Inventory) : ∃ own,
    (source.boundPaths listed).1.errors = listed.errors ++ own ∧
      ∀ error ∈ own, source.OwnError error := by
  simp only [boundPaths]
  split
  next => exact ⟨_, rfl, by simp [OwnError, plainError]⟩
  next => exact ⟨[], (List.append_nil _).symm, by simp⟩

theorem errors_boundFiles (source : KnownJsonlSource) (inventory : FileInventory) : ∃ own,
    (source.boundFiles inventory).errors = inventory.errors ++ own ∧
      ∀ error ∈ own, source.OwnError error := by
  simp only [boundFiles]
  split
  next => exact ⟨_, rfl, by simp [OwnError, plainError]⟩
  next => exact ⟨[], (List.append_nil _).symm, by simp⟩

/-- The errors of an inventory: those of the listing, then the source's own. -/
theorem errors_inventoryFiles {cancelled : PageCancellation} {inventory : FileInventory}
    (h : source.inventoryFiles view cancelled = .ok inventory) :
    ∃ own, inventory.errors =
        (source.format.listCandidates source.root view source.project).errors ++ own ∧
      ∀ error ∈ own, source.OwnError error := by
  simp only [inventoryFiles, bind_eq_ok_iff, pure_eq_ok, Except.ok.injEq] at h
  obtain ⟨-, -, stated, hstated, rfl⟩ := h
  obtain ⟨limits, hlimits, hlimitsOwn⟩ := errors_boundPaths source
    (source.format.listCandidates source.root view source.project)
  obtain ⟨total, htotal, htotalOwn⟩ := errors_boundFiles source { stated with
    errors := (source.boundPaths
      (source.format.listCandidates source.root view source.project)).1.errors ++ stated.errors
    incomplete := (source.boundPaths
      (source.format.listCandidates source.root view source.project)).2 || stated.incomplete }
  refine ⟨limits ++ stated.errors ++ total, ?_, ?_⟩
  · rw [htotal]
    simp only [hlimits, List.append_assoc]
  · intro error herror
    simp only [List.mem_append, or_assoc] at herror
    rcases herror with hlimit | hstat | hbound
    · exact hlimitsOwn error hlimit
    · exact own_statFiles hstated error hstat
    · exact htotalOwn error hbound

theorem own_inspectFile {previous : WatermarkMap} {cancelled : ScanCancellation}
    {relative : RelativePath} {state : FileState} :
    ∀ error ∈ (source.inspectFile view previous cancelled relative state).1.error,
      source.OwnError error := by
  intro error herror
  simp only [inspectFile] at herror
  split at herror
  next => simp [scannedFile] at herror
  next failure hscan =>
    have hown := failsOnly_scanFile failure hscan
    split at herror
    next =>
      split at herror
      next =>
        cases Option.mem_some_iff.mp herror
        exact hown
      next =>
        cases Option.mem_some_iff.mp herror
        exact hown
    next =>
      cases Option.mem_some_iff.mp herror
      exact hown

theorem own_prepareFiles {previous : WatermarkMap} {cancelled : PageCancellation}
    {index budget : Nat} {keys : List String} {files : List (RelativePath × FileState)}
    {prepared : Prepared}
    (h : source.prepareFiles view previous cancelled index budget keys files = .ok prepared) :
    (∀ error ∈ prepared.errors, source.OwnError error) ∧
      ∀ file ∈ prepared.files, ∀ error ∈ file.error, source.OwnError error := by
  induction files generalizing index budget keys prepared with
  | nil =>
    cases Except.ok.inj h
    simp
  | cons file rest ih =>
    obtain ⟨relative, state⟩ := file
    simp only [prepareFiles] at h
    split at h
    next => contradiction
    next =>
      split at h
      next =>
        obtain ⟨others, hothers, h⟩ := bind_eq_ok_iff.mp h
        obtain ⟨herrors, hfiles⟩ := ih hothers
        cases Except.ok.inj h
        refine ⟨fun error herror => ?_, hfiles⟩
        rcases List.mem_cons.mp herror with rfl | hmem
        · rfl
        · exact herrors error hmem
      next =>
        split at h
        next entry hentry =>
          obtain ⟨others, hothers, h⟩ := bind_eq_ok_iff.mp h
          obtain ⟨herrors, hfiles⟩ := ih hothers
          cases Except.ok.inj h
          refine ⟨herrors, fun file hfile => ?_⟩
          rcases List.mem_cons.mp hfile with rfl | hmem
          · intro error herror
            obtain ⟨rejection, -, rfl⟩ := Option.map_eq_some_iff.mp herror
            rfl
          · exact hfiles file hmem
        next =>
          split at h
          next =>
            obtain ⟨others, hothers, h⟩ := bind_eq_ok_iff.mp h
            obtain ⟨herrors, hfiles⟩ := ih hothers
            cases Except.ok.inj h
            refine ⟨herrors, fun file hfile => ?_⟩
            rcases List.mem_append.mp hfile with hnew | hmem
            · obtain ⟨entry, -, rfl⟩ := Option.map_eq_some_iff.mp (Option.mem_toList.mp hnew)
              simp [postponedFile]
            · exact hfiles file hmem
          next =>
            obtain ⟨others, hothers, h⟩ := bind_eq_ok_iff.mp h
            obtain ⟨herrors, hfiles⟩ := ih hothers
            cases Except.ok.inj h
            refine ⟨herrors, fun file hfile => ?_⟩
            rcases List.mem_cons.mp hfile with rfl | hmem
            · exact own_inspectFile
            · exact hfiles file hmem

theorem failsOnly_snapshotOf {condition : SourceError → Prop} {relative : RelativePath}
    {state : FileState} {entry : WatermarkEntry}
    (h : condition (source.error .invalidData "known conversation watermark metadata is invalid"
      relative)) :
    FailsOnly condition (source.snapshotOf view relative state entry) := by
  refine (failsOnly_okOr h _).bind fun fingerprint _ => ?_
  refine (failsOnly_okOr h _).bind fun metadata _ => ?_
  exact failsOnly_ok _

section

variable {id : SourceId} {project : ProjectIdentity} {reference : String} {path : Option PathBuf}
  {size : Option UInt64} {modified : Option SystemTime} {fingerprint : Option String}

theorem own_candidate {candidate : ConversationCandidate}
    (h : ConversationCandidate.new id project reference path size modified fingerprint =
      .ok candidate) : candidate.sourceId = id ∧ candidate.projectIdentity = project := by
  unfold ConversationCandidate.new at h
  split at h
  next => exact absurd h (by simp)
  next =>
    cases Except.ok.inj h
    exact ⟨rfl, rfl⟩

theorem own_candidateError {error : SourceError}
    (h : ConversationCandidate.new id project reference path size modified fingerprint =
      .error error) : error.sourceId = id := by
  unfold ConversationCandidate.new at h
  split at h
  next =>
    cases Except.error.inj h
    rfl
  next => exact absurd h (by simp)

end

theorem own_settleSession {duplicate : String → Bool} {file : PreparedFile} {sessionId : String}
    {settled : Settled} (h : source.settleSession view duplicate file sessionId = .ok settled) :
    (∀ error ∈ settled.errors, source.OwnError error) ∧
      ∀ candidate ∈ settled.candidate, candidate.sourceId = source.id ∧
        candidate.projectIdentity = source.project := by
  simp only [settleSession] at h
  split at h
  next =>
    cases Except.ok.inj h
    simp [own_error]
  next =>
    split at h
    next =>
      split at h
      next =>
        obtain ⟨snapshot, -, h⟩ := bind_eq_ok_iff.mp h
        cases Except.ok.inj h
        simp
      next =>
        cases Except.ok.inj h
        simp
    next =>
      obtain ⟨snapshot, -, h⟩ := bind_eq_ok_iff.mp h
      split at h
      next found hnew =>
        cases Except.ok.inj h
        simp [own_candidate hnew]
      next failure hnew =>
        cases Except.ok.inj h
        simp [OwnError, own_candidateError hnew]

/-- What one settled file adds is the source's own. -/
theorem own_settleFile {duplicate : String → Bool} {file : PreparedFile} {settled : Settled}
    (hfile : ∀ error ∈ file.error, source.OwnError error)
    (h : source.settleFile view duplicate file = .ok settled) :
    (∀ error ∈ settled.errors, source.OwnError error) ∧
      ∀ candidate ∈ settled.candidate, candidate.sourceId = source.id ∧
        candidate.projectIdentity = source.project := by
  unfold settleFile at h
  split at h
  next failure _ hfailure =>
    cases Except.ok.inj h
    refine ⟨fun error herror => ?_, by simp⟩
    rw [List.mem_ite_nil_right, List.mem_singleton] at herror
    obtain ⟨-, rfl⟩ := herror
    exact hfile _ hfailure
  next =>
    cases Except.ok.inj h
    simp
  next => exact own_settleSession h

theorem own_removalOf {sessionId : String} {removal : ConversationRemoval}
    (h : source.removalOf sessionId = .ok removal) : removal.sourceId = source.id := by
  unfold removalOf at h
  split at h
  next =>
    cases Except.ok.inj h
    rfl
  next => exact absurd h (by simp)

theorem own_encodeWatermark {next : WatermarkMap} {watermark : SourceWatermark}
    (h : source.encodeWatermark next = .ok watermark) : watermark.sourceId = source.id := by
  obtain ⟨token, -, h⟩ := bind_eq_ok_iff.mp h
  obtain ⟨-, -, h⟩ := bind_eq_ok_iff.mp h
  exact (SourceWatermark.new_eq_ok_iff.mp h).1

/-- What a settled page hands over is the source's own, apart from what the
inventory reports. -/
theorem own_settlePage {previous : WatermarkMap} {inventory : FileInventory} {prepared : Prepared}
    {page : KnownPage} (herrors : ∀ error ∈ prepared.errors, source.OwnError error)
    (hfiles : ∀ file ∈ prepared.files, ∀ error ∈ file.error, source.OwnError error)
    (h : source.settlePage view previous inventory prepared = .ok page) :
    (∃ own, page.batch.errors = inventory.errors ++ own ∧ ∀ error ∈ own, source.OwnError error) ∧
      (∀ candidate ∈ page.batch.candidates, candidate.sourceId = source.id ∧
        candidate.projectIdentity = source.project) ∧
      (∀ watermark ∈ page.batch.nextWatermark, watermark.sourceId = source.id) ∧
      ∀ removal ∈ page.batch.removals, removal.sourceId = source.id := by
  simp only [settlePage, bind_eq_ok_iff, pure_eq_ok, Except.ok.injEq] at h
  obtain ⟨settled, hsettled, removals, hremovals, watermark, hwatermark, rfl⟩ := h
  have hown : ∀ one ∈ settled, (∀ error ∈ one.errors, source.OwnError error) ∧
      ∀ candidate ∈ one.candidate, candidate.sourceId = source.id ∧
        candidate.projectIdentity = source.project := by
    intro one hone
    obtain ⟨file, hfile, hsettle⟩ := mem_of_mapM_eq_ok hsettled hone
    exact own_settleFile (hfiles file hfile) hsettle
  refine ⟨⟨prepared.errors ++ settled.flatMap (·.errors), ?_, ?_⟩, ?_, ?_, ?_⟩
  · simp only [List.append_assoc]
  · intro error herror
    rcases List.mem_append.mp herror with hprepared | hsettle
    · exact herrors error hprepared
    · obtain ⟨one, hone, hmem⟩ := List.mem_flatMap.mp hsettle
      exact (hown one hone).1 error hmem
  · intro candidate hcandidate
    obtain ⟨one, hone, hmem⟩ := List.mem_filterMap.mp hcandidate
    exact (hown one hone).2 candidate hmem
  · intro next hnext
    cases Option.mem_some_iff.mp hnext
    exact own_encodeWatermark hwatermark
  · intro removal hremoval
    obtain ⟨sessionId, -, hnew⟩ := mem_of_mapM_eq_ok hremovals hremoval
    exact own_removalOf hnew

/-! ## Before the batch is checked, no failure speaks of a stray id -/

def NotStray (error : SourceError) : Prop := error.kind ≠ .sourceMismatch

theorem notStray_error (source : KnownJsonlSource) {kind : SourceErrorKind} (message : String)
    (relative : RelativePath) (h : kind ≠ .sourceMismatch) :
    NotStray (source.error kind message relative) := h

theorem notStray_plainError (source : KnownJsonlSource) {kind : SourceErrorKind}
    (message : String) (h : kind ≠ .sourceMismatch) :
    NotStray (source.plainError kind message) := h

theorem notStray_storeIoError (id : SourceId) (path : PathBuf) (message : String)
    (error : IoErrorKind) : NotStray (storeIoError id path message error) := by
  unfold NotStray
  rcases storeIoError_kind id path message error with h | h | h
  · simp [h]
  · simp [h]
  · simp [h]

theorem failsOnly_probe {moment : ProbeMoment} : FailsOnly NotStray (source.probe view moment) := by
  unfold probe
  split
  next => exact failsOnly_ok _
  next => exact failsOnly_ok _
  next => exact failsOnly_error (notStray_storeIoError _ _ _ _)

theorem failsOnly_decodeWatermark {canon : Canonicalizer} {after : Option SourceWatermark} :
    FailsOnly NotStray (source.decodeWatermark canon after) := by
  cases after with
  | none => exact failsOnly_ok _
  | some after =>
    refine (failsOnly_rejectIf (notStray_plainError source _ (by decide))).bind fun _ _ => ?_
    refine (failsOnly_okOr (notStray_plainError source _ (by decide)) _).bind fun _ _ => ?_
    refine (failsOnly_rejectIf (notStray_plainError source _ (by decide))).bind fun _ _ => ?_
    refine (failsOnly_rejectIf (notStray_plainError source _ (by decide))).bind fun _ _ => ?_
    exact failsOnly_ok _

theorem failsOnly_statFiles {cancelled : Nat → Bool} {index : Nat} {paths : List RelativePath} :
    FailsOnly NotStray (source.statFiles view cancelled index paths) := by
  induction paths generalizing index with
  | nil => exact failsOnly_ok _
  | cons relative rest ih =>
    unfold statFiles
    split
    next => exact failsOnly_error (notStray_plainError source _ (by decide))
    next =>
      refine ih.bind fun others _ => ?_
      split
      next => exact failsOnly_ok _
      next => exact failsOnly_ok _

theorem failsOnly_inventoryFiles {cancelled : PageCancellation} :
    FailsOnly NotStray (source.inventoryFiles view cancelled) := by
  refine (failsOnly_rejectIf (notStray_plainError source _ (by decide))).bind fun _ _ => ?_
  exact failsOnly_statFiles.bind fun stated _ => failsOnly_ok _

theorem failsOnly_prepareFiles {previous : WatermarkMap} {cancelled : PageCancellation}
    {index budget : Nat} {keys : List String} {files : List (RelativePath × FileState)} :
    FailsOnly NotStray
      (source.prepareFiles view previous cancelled index budget keys files) := by
  induction files generalizing index budget keys with
  | nil => exact failsOnly_ok _
  | cons file rest ih =>
    obtain ⟨relative, state⟩ := file
    simp only [prepareFiles]
    split
    next => exact failsOnly_error (notStray_plainError source _ (by decide))
    next =>
      split
      next => exact ih.bind fun _ _ => failsOnly_ok _
      next =>
        split
        next => exact ih.bind fun _ _ => failsOnly_ok _
        next =>
          split
          next => exact ih.bind fun _ _ => failsOnly_ok _
          next => exact ih.bind fun _ _ => failsOnly_ok _

theorem failsOnly_settleFile {duplicate : String → Bool} {file : PreparedFile} :
    FailsOnly NotStray (source.settleFile view duplicate file) := by
  unfold settleFile
  split
  next => exact failsOnly_ok _
  next => exact failsOnly_ok _
  next =>
    simp only [settleSession]
    split
    next => exact failsOnly_ok _
    next =>
      split
      next =>
        split
        next =>
          refine (failsOnly_snapshotOf (notStray_error source _ _ (by decide))).bind fun _ _ => ?_
          exact failsOnly_ok _
        next => exact failsOnly_ok _
      next =>
        refine (failsOnly_snapshotOf (notStray_error source _ _ (by decide))).bind fun _ _ => ?_
        split
        next => exact failsOnly_ok _
        next => exact failsOnly_ok _

theorem failsOnly_encodeWatermark {next : WatermarkMap} :
    FailsOnly NotStray (source.encodeWatermark next) := by
  refine (failsOnly_okOr (notStray_plainError source _ (by decide)) _).bind fun token _ => ?_
  refine (failsOnly_rejectIf (notStray_plainError source _ (by decide))).bind fun _ _ => ?_
  unfold SourceWatermark.new
  split
  next => exact failsOnly_error (by simp [NotStray])
  next => exact failsOnly_ok _

theorem failsOnly_settlePage {previous : WatermarkMap} {inventory : FileInventory}
    {prepared : Prepared} :
    FailsOnly NotStray (source.settlePage view previous inventory prepared) := by
  refine (failsOnly_mapM fun _ _ => failsOnly_settleFile).bind fun settled _ => ?_
  refine FailsOnly.bind (failsOnly_mapM fun sessionId _ => ?_) fun removals _ => ?_
  · unfold removalOf
    split
    next => exact failsOnly_ok _
    next => exact failsOnly_error (notStray_plainError source _ (by decide))
  · exact failsOnly_encodeWatermark.bind fun watermark _ => failsOnly_ok _

variable {project : ProjectIdentity} {after : Option SourceWatermark} {limit : DiscoveryLimit}
  {cancelled : PageCancellation}

theorem failsOnly_assemble :
    FailsOnly NotStray (source.assemble view project after limit cancelled) := by
  refine (failsOnly_rejectIf (notStray_plainError source _ (by decide))).bind fun _ _ => ?_
  refine (failsOnly_rejectIf (notStray_plainError source _ (by decide))).bind fun _ _ => ?_
  refine failsOnly_probe.bind fun probed _ => ?_
  cases probed with
  | unavailable reason => exact failsOnly_encodeWatermark.bind fun _ _ => failsOnly_ok _
  | available =>
    refine failsOnly_decodeWatermark.bind fun previous _ => ?_
    refine failsOnly_inventoryFiles.bind fun inventory _ => ?_
    refine failsOnly_prepareFiles.bind fun prepared _ => ?_
    exact failsOnly_settlePage

/-! ## The batch -/

theorem probe_eq_unavailable {moment : ProbeMoment} {reason : String}
    (h : source.probe view moment = .ok (.unavailable reason)) : view.probe moment = .ok false := by
  unfold probe at h
  split at h
  next => exact absurd h (by simp)
  next habsent => exact habsent
  next => exact absurd h (by simp)

theorem probe_eq_available {moment : ProbeMoment}
    (h : source.probe view moment = .ok .available) : view.probe moment = .ok true := by
  unfold probe at h
  split at h
  next hpresent => exact hpresent
  next => exact absurd h (by simp)
  next => exact absurd h (by simp)

/-- A batch carries one id throughout exactly if the listing reports nothing or
reports it under that id. -/
theorem sourcesMatch_assemble {page : KnownPage}
    (h : source.assemble view project after limit cancelled = .ok page) :
    page.batch.sourcesMatch source.id = true ↔
      source.id = source.format.tool.sourceId ∨ view.probe .discovery = .ok false ∨
        (source.format.listCandidates source.root view source.project).errors = [] := by
  obtain ⟨-, -, h⟩ := bind_eq_ok_iff.mp h
  obtain ⟨-, -, h⟩ := bind_eq_ok_iff.mp h
  obtain ⟨probed, hprobed, h⟩ := bind_eq_ok_iff.mp h
  rw [DiscoveryBatch.sourcesMatch_iff]
  cases probed with
  | unavailable reason =>
    obtain ⟨watermark, hwatermark, h⟩ := bind_eq_ok_iff.mp h
    cases Except.ok.inj h
    simp [probe_eq_unavailable hprobed, own_encodeWatermark hwatermark]
  | available =>
    obtain ⟨previous, -, h⟩ := bind_eq_ok_iff.mp h
    obtain ⟨inventory, hinventory, h⟩ := bind_eq_ok_iff.mp h
    obtain ⟨prepared, hprepared, h⟩ := bind_eq_ok_iff.mp h
    obtain ⟨hpreparedErrors, hpreparedFiles⟩ := own_prepareFiles hprepared
    obtain ⟨⟨own, herrors, hown⟩, hcandidates, hwatermark, hremovals⟩ :=
      own_settlePage hpreparedErrors hpreparedFiles h
    obtain ⟨others, hlisted, hothers⟩ := errors_inventoryFiles hinventory
    have hlisting := source.format.owned_listCandidates source.root view source.project
    have hpresent := probe_eq_available hprobed
    simp only [hpresent, Except.ok.injEq, Bool.true_eq_false, false_or]
    constructor
    · rintro ⟨-, -, -, hall⟩
      cases hlist : (source.format.listCandidates source.root view source.project).errors with
      | nil => exact Or.inr rfl
      | cons first rest =>
        have hmem : first ∈ (source.format.listCandidates source.root view source.project).errors :=
          by simp [hlist]
        have hfirst := hall first (by
          rw [herrors, hlisted]
          exact List.mem_append_left _ (List.mem_append_left _ hmem))
        exact Or.inl (hfirst.symm.trans (hlisting first hmem))
    · intro hcase
      refine ⟨fun candidate hmem => (hcandidates candidate hmem).1, hwatermark, hremovals, ?_⟩
      intro error herror
      rw [herrors, hlisted] at herror
      simp only [List.mem_append, or_assoc] at herror
      rcases herror with hlist | hother | hsettle
      · rcases hcase with hid | hempty
        · exact (hlisting error hlist).trans hid.symm
        · rw [hempty] at hlist
          contradiction
      · exact hothers error hother
      · exact hown error hsettle

/-- A discovery call never fails for a stray id before its batch is complete,
and the complete batch is accepted under the source's own id exactly if that is
the built-in one, the store is absent, or its listing reports nothing. -/
theorem discovery_keeps_its_id (source : KnownJsonlSource) (view : StoreView)
    (project : ProjectIdentity) (after : Option SourceWatermark) (limit : DiscoveryLimit)
    (cancelled : PageCancellation) :
    FailsOnly NotStray (source.assemble view project after limit cancelled) ∧
    ∀ page, source.assemble view project after limit cancelled = .ok page →
      ((page.batch.sourcesMatch source.id = true ∧
          FailsOnly NotStray (source.discoverRaw view project after limit cancelled)) ↔
        (source.id = source.format.tool.sourceId ∨ view.probe .discovery = .ok false ∨
          (source.format.listCandidates source.root view source.project).errors = [])) := by
  refine ⟨failsOnly_assemble, fun page hpage => ?_⟩
  rw [← sourcesMatch_assemble hpage, and_iff_left_iff_imp]
  intro hmatch
  unfold discoverRaw
  rw [hpage, ok_bind]
  refine FailsOnly.bind ?_ fun batch _ => failsOnly_ok _
  simp only [DiscoveryBatch.new]
  split
  next hmismatch => exact absurd hmatch hmismatch
  next =>
    split
    next => exact failsOnly_error (by simp [NotStray])
    next => exact failsOnly_ok _

end KnownJsonlSource

/-! ## A text file beside the sessions of an extra root -/

namespace Sample

/-- The text of the empty map, which is all that this store needs. -/
def codec : WatermarkCodec where
  encode entries := if entries.isEmpty then some "\x7b\x7d" else none
  decode token := if token = "\x7b\x7d" then some ∅ else none
  decode_encode {entries token} h := by
    split at h
    next hempty =>
      cases Option.some.inj h
      rw [if_pos rfl, Std.ExtTreeMap.isEmpty_iff.mp hempty]
    next => contradiction
  encode_empty := rfl

def extraRoot : ExternalHistoryRoot := ⟨.pi, ⟨ascii "/x"⟩⟩

def extraPi : KnownJsonlSource where
  id := configuredExternalSourceId extraRoot
  project := project
  root := extraRoot.path
  format := .pi
  decoders := decoders
  codec := codec

def notesView : StoreView where
  canon := canon
  probe _ := .ok true
  entries relative :=
    if relative = [⟨ascii "--p--", directory_normal⟩] then
      .ok [.ok (⟨ascii "notes.txt", by decide⟩, .file)]
    else .error .notFound
  fileState _ := .error .notFound
  openFile _ := .error .notFound
  recheck _ _ := .error .notFound

def uncancelled : PageCancellation where
  started := false
  listed := false
  stat _ := false
  file _ := false
  scan _ := ⟨false, false, fun _ => false⟩

end Sample

theorem discovery_keeps_its_id_sample : ∃ page,
    Sample.extraPi.assemble Sample.notesView Sample.project none ⟨1, one_pos⟩
      Sample.uncancelled = .ok page ∧
    ((page.batch.sourcesMatch Sample.extraPi.id = true ∧
        FailsOnly KnownJsonlSource.NotStray (Sample.extraPi.discoverRaw Sample.notesView
          Sample.project none ⟨1, one_pos⟩ Sample.uncancelled)) ↔
      (Sample.extraPi.id = Sample.extraPi.format.tool.sourceId ∨
        Sample.notesView.probe .discovery = .ok false ∨
        (Sample.extraPi.format.listCandidates Sample.extraPi.root Sample.notesView
          Sample.extraPi.project).errors = [])) := by
  have hok : (Sample.extraPi.assemble Sample.notesView Sample.project none ⟨1, one_pos⟩
      Sample.uncancelled).isOk = true := by decide +kernel
  cases hpage : Sample.extraPi.assemble Sample.notesView Sample.project none ⟨1, one_pos⟩
      Sample.uncancelled with
  | error error =>
    rw [hpage] at hok
    exact absurd hok Bool.false_ne_true
  | ok page =>
    exact ⟨page, rfl, (KnownJsonlSource.discovery_keeps_its_id Sample.extraPi Sample.notesView
      Sample.project none ⟨1, one_pos⟩ Sample.uncancelled).2 page hpage⟩

/-- The kind of error a call ends with. -/
def failureKind {α : Type} : Except SourceError α → Option SourceErrorKind
  | .ok _ => none
  | .error error => some error.kind

/-- A stray text file makes discovery of a whole extra root fail. -/
theorem stray_file_fails_source :
    Sample.extraPi.id = configuredExternalSourceId Sample.extraRoot ∧
    failureKind (Sample.extraPi.discoverRaw Sample.notesView Sample.project none ⟨1, one_pos⟩
      Sample.uncancelled) = some .sourceMismatch :=
  ⟨rfl, by decide +kernel⟩

end HerdrContext.KnownStores
