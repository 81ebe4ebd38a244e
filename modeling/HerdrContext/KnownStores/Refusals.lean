import HerdrContext.KnownStores.Format

/-! How a format ends on the records of a file that is only read: with an
outcome that can be stored, or with a refusal that can. -/
namespace HerdrContext.KnownStores

open Library IncrementalParser

/-- `StoredRejection::from_error` keeps failures of this kind. -/
def FormatFailure.Stored (failure : FormatFailure) : Prop :=
  failure.kind = .unsupportedFormat ∨ failure.kind = .projectMismatch

/-- Every failure of the computation can be stored. -/
abbrev Refuses {α : Type} (x : Except FormatFailure α) : Prop := FailsOnly FormatFailure.Stored x

@[simp] theorem FormatFailure.stored_unsupported (message : String) :
    (FormatFailure.unsupported message).Stored := Or.inl rfl

@[simp] theorem FormatFailure.stored_projectMismatch (message : String) :
    (FormatFailure.projectMismatch message).Stored := Or.inr rfl

/-! ## Shared checks -/

@[simp] theorem refuses_parseRfc3339 (rfc3339 : Rfc3339) (value : String) :
    Refuses (parseRfc3339 rfc3339 value) := by
  unfold parseRfc3339
  split <;> simp

@[simp] theorem refuses_validateToolVersion (value : Option String) :
    Refuses (validateToolVersion value) := by
  unfold validateToolVersion
  split <;> simp

@[simp] theorem refuses_canonicalCwd (canon : Canonicalizer) (value : String)
    (project : ProjectIdentity) : Refuses (canonicalCwd canon value project) := by
  simp [canonicalCwd]

@[simp] theorem refuses_validateUuid (value : String) (version : Char) :
    Refuses (validateUuid value version) := by
  simp [validateUuid]

theorem refuses_collectRecords (count : Nat) (lines : List Bytes) :
    Refuses (collectRecords count lines) := by
  induction lines generalizing count with
  | nil => simp [collectRecords]
  | cons line lines ih => simp [collectRecords, ih]

/-! ## Pi -/

namespace Pi

variable (canon : Canonicalizer) (rfc3339 : Rfc3339) (decode : Bytes → Option PiRecord)
  (relative : RelativePath) (project : ProjectIdentity)

theorem refuses_start (records : List Bytes) :
    Refuses (start canon rfc3339 decode relative project records) := by
  cases records with
  | nil => simp [start]
  | cons first rest => simp [start, header, validatePiPath]

theorem refuses_step (state : PiState) (bytes : Bytes) :
    Refuses (step rfc3339 decode state bytes) := by
  have hparent (hasPrevious : Bool) (record : PiRecord) :
      Refuses (validateParent hasPrevious record) := by
    unfold validateParent
    split
    next => simp
    next => split <;> simp [validateEntryId]
    next => simp
  have hmessage (record : PiRecord) : Refuses (validateMessage record) := by
    unfold validateMessage
    split <;> simp
  simp [step, hparent, hmessage, validateEntryId]

theorem refuses_parse (previous : Option ParseOutcome) (records : List Bytes) :
    Refuses (parse canon rfc3339 decode relative project never previous records) := by
  apply failsOnly_parse
  · exact refuses_start canon rfc3339 decode relative project
  · intro outcome resumed hresumed
    have ⟨_, _, hstate⟩ := Option.map_eq_some_iff.mp hresumed
    rw [← hstate]
    exact failsOnly_ok _
  · exact refuses_step rfc3339 decode
  · exact fun state => failsOnly_ok _

end Pi

/-! ## Codex -/

namespace CodexCli

variable (canon : Canonicalizer) (rfc3339 : Rfc3339) (decode : Bytes → Option CodexRecord)
  (relative : RelativePath) (project : ProjectIdentity)

theorem refuses_start (records : List Bytes) :
    Refuses (start canon rfc3339 decode relative project records) := by
  have hhistory (mode : Option String) (ordinal : Option UInt64) :
      Refuses (CodexHistory.fromHeader mode ordinal) := by
    unfold CodexHistory.fromHeader
    split <;> simp
  have hpath (id : String) : Refuses (validateCodexPath relative id) := by
    simp only [validateCodexPath, failsOnly_bind_iff, failsOnly_okOr_iff]
    refine ⟨by simp, fun components _ => ?_⟩
    split <;> simp
  cases records with
  | nil => simp [start]
  | cons first rest => simp [start, header, hhistory, hpath]

theorem refuses_step (state : CodexState) (bytes : Bytes) :
    Refuses (step rfc3339 decode state bytes) := by
  have hadvance (history : CodexHistory) (ordinal : Option UInt64) :
      Refuses (history.advance ordinal) := by
    unfold CodexHistory.advance
    split
    next => split <;> simp
    next => simp
  simp [step, hadvance]

theorem refuses_resumed (previous : ParsedMetadata) : Refuses (resumed previous) := by
  have hcursor (value : Option String) : Refuses (CodexHistory.fromWatermark value) := by
    unfold CodexHistory.fromWatermark
    split
    next => split <;> simp
    next => simp
  simp [resumed, hcursor]

theorem refuses_parse (previous : Option ParseOutcome) (records : List Bytes) :
    Refuses (parse canon rfc3339 decode relative project never previous records) := by
  apply failsOnly_parse
  · exact refuses_start canon rfc3339 decode relative project
  · intro outcome again hagain
    have ⟨metadata, _, hstate⟩ := Option.map_eq_some_iff.mp hagain
    rw [← hstate]
    exact refuses_resumed metadata
  · exact refuses_step rfc3339 decode
  · exact fun state => failsOnly_ok _

end CodexCli

/-! ## OMP -/

namespace Omp

variable (canon : Canonicalizer) (rfc3339 : Rfc3339) (decode : Decoders) (home temp : PathBuf)
  (relative : RelativePath) (project : ProjectIdentity)

theorem refuses_start (records : List Bytes) :
    Refuses (start canon rfc3339 decode home temp relative project records) := by
  unfold start
  split
  next => simp [opening, parseTitleSlot, validateOmpPath]
  next => simp

theorem refuses_step (state : OmpState) (bytes : Bytes) :
    Refuses (step rfc3339 decode state bytes) := by
  have hparent (record : OmpRecord) : Refuses (validateParent record) := by
    unfold validateParent
    split <;> simp [validateEntryId]
  simp [step, hparent, validateEntryId]

theorem refuses_parse (previous : Option ParseOutcome) (records : List Bytes) :
    Refuses (parse canon rfc3339 decode home temp relative project never previous records) := by
  apply failsOnly_parse
  · exact refuses_start canon rfc3339 decode home temp relative project
  · intro outcome resumed hresumed
    have ⟨_, _, hstate⟩ := Option.map_eq_some_iff.mp hresumed
    rw [← hstate]
    exact failsOnly_ok _
  · exact refuses_step rfc3339 decode
  · exact fun state => failsOnly_ok _

end Omp

/-! ## Claude -/

namespace ClaudeCode

variable (canon : Canonicalizer) (rfc3339 : Rfc3339) (decode : Bytes → Option ClaudeRecord)
  (relative : RelativePath) (project : ProjectIdentity)

@[simp] theorem refuses_validateClaudeSession (record : ClaudeRecord) (expected : String) :
    Refuses (validateClaudeSession record expected) := by
  simp [validateClaudeSession]

@[simp] theorem refuses_timedRecord (state : ClaudeState) (record : ClaudeRecord)
    (missing : String) : Refuses (timedRecord rfc3339 state record missing) := by
  simp [timedRecord]

@[simp] theorem refuses_expectedId : Refuses (expectedId relative) := by
  simp [expectedId]

theorem refuses_auxiliaryRecord (state : ClaudeState) (record : ClaudeRecord) :
    Refuses (auxiliaryRecord rfc3339 state record) := by
  unfold auxiliaryRecord
  split <;> simp [markerRecord]

theorem refuses_identityRecord (state : ClaudeState) (record : ClaudeRecord)
    (recorded : Option PathBuf) :
    Refuses (identityRecord canon rfc3339 relative project state record recorded) := by
  have hcwd : Refuses (recordCwd canon relative project recorded) := by
    unfold recordCwd
    split
    next => simp
    next => split <;> simp
  have hchain (hasPrevious : Bool) (uuid : String) :
      Refuses (validateChain hasPrevious record uuid) := by
    unfold validateChain
    split
    next => simp
    next => split <;> simp
    next => split <;> simp
    next => simp
  simp [identityRecord, hcwd, hchain]

theorem refuses_step (state : ClaudeState) (bytes : Bytes) :
    Refuses (step canon rfc3339 decode relative project state bytes) := by
  have hrecord (record : ClaudeRecord) (recorded : Option PathBuf) :
      Refuses (transcriptRecord canon rfc3339 relative project state record recorded) := by
    unfold transcriptRecord
    split
    next => exact refuses_identityRecord canon rfc3339 relative project state record recorded
    next => exact refuses_auxiliaryRecord rfc3339 state record
  simp [step, hrecord]

theorem refuses_finish (state : ClaudeState) : Refuses (finish state) := by
  unfold finish
  split <;> simp

theorem refuses_resumed (expected : String) (outcome : ParseOutcome) :
    Refuses (resumed expected outcome) := by
  unfold resumed
  split <;> simp

theorem refuses_parse (previous : Option ParseOutcome) (records : List Bytes) :
    Refuses (parse canon rfc3339 decode relative project never previous records) := by
  apply failsOnly_parse
  · intro records
    simp [parser]
  · intro outcome again hagain
    cases Option.some.inj hagain
    exact (refuses_expectedId relative).bind fun expected _ => refuses_resumed expected outcome
  · exact refuses_step canon rfc3339 decode relative project
  · exact refuses_finish

end ClaudeCode

/-! ## Every format -/

namespace KnownFormat

variable (format : KnownFormat) (decoders : Decoders) (canon : Canonicalizer)
  (relative : RelativePath) (project : ProjectIdentity)

theorem refuses_parse (previous : Option ParseOutcome) (records : List Bytes) :
    Refuses (format.parse decoders canon relative project never previous records) := by
  cases format with
  | claudeCode => exact ClaudeCode.refuses_parse canon _ _ relative project previous records
  | codexCli => exact CodexCli.refuses_parse canon _ _ relative project previous records
  | pi => exact Pi.refuses_parse canon _ _ relative project previous records
  | omp home temp => exact Omp.refuses_parse canon _ _ home temp relative project previous records

/-- The outcomes of a file that has been read from its start. -/
def Reached (outcome : ParseOutcome) : Prop :=
  match format with
  | claudeCode =>
    (ClaudeCode.parser canon decoders.rfc3339 decoders.claude relative project).Finished
      (ClaudeCode.Inv canon relative project) (·.recordCount ≠ 0) outcome
  | codexCli =>
    (CodexCli.parser canon decoders.rfc3339 decoders.codex relative project).Finished
      (CodexCli.Inv canon project) (fun _ => True) outcome
  | pi =>
    (Pi.parser canon decoders.rfc3339 decoders.pi relative project).Finished
      (Pi.Inv canon project) (fun _ => True) outcome
  | omp home temp =>
    (Omp.parser canon decoders.rfc3339 decoders.omp home temp relative project).Finished
      (Omp.Inv canon project) (fun _ => True) outcome

variable {format decoders canon relative project}

theorem Reached.parse {previous : Option ParseOutcome} {records : List Bytes}
    {outcome : ParseOutcome}
    (hprevious : ∀ earlier ∈ previous, format.Reached decoders canon relative project earlier)
    (hrecords : records ≠ [])
    (h : format.parse decoders canon relative project never previous records = .ok outcome) :
    format.Reached decoders canon relative project outcome := by
  cases format with
  | claudeCode => exact ClaudeCode.lawful.finished_parse hprevious hrecords h
  | codexCli => exact CodexCli.lawful.finished_parse hprevious hrecords h
  | pi => exact Pi.lawful.finished_parse hprevious hrecords h
  | omp home temp => exact Omp.lawful.finished_parse hprevious hrecords h

theorem Reached.restore {outcome : ParseOutcome}
    (h : format.Reached decoders canon relative project outcome) :
    outcome.restore canon project = some outcome := by
  cases format with
  | claudeCode =>
    have ⟨state, hinv, hfed, hfinish⟩ := h
    exact ClaudeCode.lawful.finish_restore state outcome hinv hfed hfinish
  | codexCli =>
    have ⟨state, hinv, hfed, hfinish⟩ := h
    exact CodexCli.lawful.finish_restore state outcome hinv hfed hfinish
  | pi =>
    have ⟨state, hinv, hfed, hfinish⟩ := h
    exact Pi.lawful.finish_restore state outcome hinv hfed hfinish
  | omp home temp =>
    have ⟨state, hinv, hfed, hfinish⟩ := h
    exact Omp.lawful.finish_restore state outcome hinv hfed hfinish

end KnownFormat

end HerdrContext.KnownStores
