import HerdrContext.Vcs.Paths

/-! The status template of Jujutsu: seven fields a record, each with a NUL
behind it. -/
namespace HerdrContext.Vcs.Jujutsu

open Library
open Files (VcsEntryStatus VcsStatusKind VcsStatusSnapshot VcsError)

def invalidOutput (message : String) : VcsError := ⟨.invalidData, message⟩

inductive FileType where
  | absent | file | symlink | tree | gitSubmodule | conflict
  deriving DecidableEq

def nextField : List Bytes → Except VcsError (Bytes × List Bytes)
  | [] => .error (invalidOutput "truncated Jujutsu status record")
  | field :: fields => .ok (field, fields)

def parseStatus (value : Bytes) : Except VcsError VcsStatusKind :=
  if value = ascii "M" then .ok .modified
  else if value = ascii "A" then .ok .added
  else if value = ascii "D" then .ok .deleted
  else if value = ascii "C" then .ok .copied
  else if value = ascii "R" then .ok .renamed
  else .error (invalidOutput "unknown Jujutsu status code")

def parseBool (value : Bytes) : Except VcsError Bool :=
  if value = ascii "true" then .ok true
  else if value = ascii "false" then .ok false
  else .error (invalidOutput "invalid Jujutsu conflict field")

def parseFileType (value : Bytes) : Except VcsError FileType :=
  if value = [] then .ok .absent
  else if value = ascii "file" then .ok .file
  else if value = ascii "symlink" then .ok .symlink
  else if value = ascii "tree" then .ok .tree
  else if value = ascii "git-submodule" then .ok .gitSubmodule
  else if value = ascii "conflict" then .ok .conflict
  else .error (invalidOutput "invalid Jujutsu file type")

/-- On Unix every path can be read as one. -/
def validateStatusPath (path : Bytes) (inEntry : Bool) : Except VcsError Unit :=
  if inEntry = false then .ok ()
  else match components ⟨path⟩ with
    | [] => .error (invalidOutput "Jujutsu status path is empty")
    | first :: rest =>
      if !first.isNormal || rest.any fun component => !component.isNormal then
        .error (invalidOutput "Jujutsu status path is not normalized")
      else .ok ()

def isMove (kind : VcsStatusKind) : Bool := kind = .renamed || kind = .copied

def isStructural (type : FileType) : Bool := type = .absent || type = .tree

def entryKind (baseKind : VcsStatusKind) (sourceConflict targetConflict : Bool)
    (sourceType targetType : FileType) : VcsStatusKind :=
  if sourceConflict || targetConflict || sourceType = .conflict || targetType = .conflict then
    .conflicted
  else if baseKind = .modified ∧ sourceType ≠ .absent ∧ targetType ≠ .absent ∧
      sourceType ≠ targetType then
    .typeChanged
  else baseKind

def parseRecord (status : Bytes) (fields : List Bytes) :
    Except VcsError (Option VcsEntryStatus × List Bytes) := do
  let (sourcePath, fields) ← nextField fields
  let (targetPath, fields) ← nextField fields
  let (sourceFlag, fields) ← nextField fields
  let sourceConflict ← parseBool sourceFlag
  let (targetFlag, fields) ← nextField fields
  let targetConflict ← parseBool targetFlag
  let (sourceName, fields) ← nextField fields
  let sourceType ← parseFileType sourceName
  let (targetName, fields) ← nextField fields
  let targetType ← parseFileType targetName
  let baseKind ← parseStatus status
  validateStatusPath sourcePath (isMove baseKind)
  validateStatusPath targetPath true
  if isStructural sourceType && isStructural targetType then
    .ok (none, fields)
  else
    let entry ← mapError (fun error => invalidOutput ("invalid Jujutsu status path: " ++ error))
      (newEntry ⟨targetPath⟩ (if isMove baseKind then some ⟨sourcePath⟩ else none)
        (entryKind baseKind sourceConflict targetConflict sourceType targetType)
        (if sourceConflict then some .conflicted else none)
        (if targetConflict then some .conflicted else none))
    .ok (some entry, fields)

theorem nextField_eq_ok_iff {fields rest : List Bytes} {field : Bytes} :
    nextField fields = .ok (field, rest) ↔ fields = field :: rest := by
  cases fields with
  | nil => simp [nextField]
  | cons first fields => simp [nextField]

def FileType.name : FileType → Bytes
  | absent => []
  | file => ascii "file"
  | symlink => ascii "symlink"
  | tree => ascii "tree"
  | gitSubmodule => ascii "git-submodule"
  | conflict => ascii "conflict"

def flag (value : Bool) : Bytes := if value then ascii "true" else ascii "false"

theorem parseBool_eq_ok_iff {value : Bytes} {result : Bool} :
    parseBool value = .ok result ↔ value = flag result := by
  unfold parseBool
  constructor
  · intro h
    split at h
    next htrue =>
      cases h
      exact htrue
    next =>
      split at h
      next hfalse =>
        cases h
        exact hfalse
      next => contradiction
  · intro h
    rw [h]
    cases result
    · decide
    · decide

theorem parseFileType_eq_ok_iff {value : Bytes} {type : FileType} :
    parseFileType value = .ok type ↔ value = type.name := by
  constructor
  · intro h
    unfold parseFileType at h
    split_ifs at h with hvalue hvalue hvalue hvalue hvalue hvalue
    all_goals
      cases h
      exact hvalue
  · intro h
    rw [h]
    cases type <;> decide

/-- What a record that could be read consists of. -/
theorem parseRecord_eq_ok_iff {status : Bytes} {fields rest : List Bytes}
    {entry : Option VcsEntryStatus} :
    parseRecord status fields = .ok (entry, rest) ↔
      ∃ source target sourceConflict targetConflict sourceType targetType kind,
        fields = [source, target, flag sourceConflict, flag targetConflict, FileType.name sourceType,
          FileType.name targetType] ++ rest ∧
        parseStatus status = .ok kind ∧ validateStatusPath source (isMove kind) = .ok () ∧
        validateStatusPath target true = .ok () ∧
        if isStructural sourceType && isStructural targetType then entry = none
        else ∃ found, newEntry ⟨target⟩ (if isMove kind then some ⟨source⟩ else none)
            (entryKind kind sourceConflict targetConflict sourceType targetType)
            (if sourceConflict then some .conflicted else none)
            (if targetConflict then some .conflicted else none) = .ok found ∧
          entry = some found := by
  simp only [parseRecord, bind_eq_ok_iff, Prod.exists, nextField_eq_ok_iff, parseBool_eq_ok_iff,
    parseFileType_eq_ok_iff]
  constructor
  · intro ⟨source, _, hsource, target, _, htarget, _, _, hsourceFlag, sourceConflict, hsourceConflict,
      _, _, htargetFlag, targetConflict, htargetConflict, _, _, hsourceName, sourceType, hsourceType,
      _, _, htargetName, targetType, htargetType, kind, hkind, _, hsourceValid, _, htargetValid,
      hlast⟩
    refine ⟨source, target, sourceConflict, targetConflict, sourceType, targetType, kind, ?_, hkind,
      hsourceValid, htargetValid, ?_⟩
    · split at hlast
      next =>
        cases hlast
        simp [*]
      next =>
        have ⟨_, _, hok⟩ := bind_eq_ok_iff.mp hlast
        cases hok
        simp [*]
    · split at hlast
      next =>
        cases hlast
        simp [*]
      next hneither =>
        have ⟨found, hfound, hok⟩ := bind_eq_ok_iff.mp hlast
        cases hok
        rw [if_neg hneither]
        exact ⟨found, mapError_eq_ok_iff.mp hfound, rfl⟩
  · intro ⟨source, target, sourceConflict, targetConflict, sourceType, targetType, kind, hfields,
      hkind, hsourceValid, htargetValid, hentry⟩
    refine ⟨source, _, hfields, target, _, rfl, _, _, rfl, sourceConflict, rfl, _, _, rfl,
      targetConflict, rfl, _, _, rfl, sourceType, rfl, _, _, rfl, targetType, rfl, kind, hkind, (),
      hsourceValid, (), htargetValid, ?_⟩
    split
    next hboth =>
      rw [if_pos hboth] at hentry
      rw [hentry]
      rfl
    next hneither =>
      rw [if_neg hneither] at hentry
      have ⟨found, hfound, hsome⟩ := hentry
      rw [hfound, hsome]
      rfl

theorem length_parseRecord {status : Bytes} {fields rest : List Bytes}
    {entry : Option VcsEntryStatus} (h : parseRecord status fields = .ok (entry, rest)) :
    rest.length < fields.length := by
  have ⟨_, _, _, _, _, _, _, hfields, _⟩ := parseRecord_eq_ok_iff.mp h
  rw [hfields]
  simp only [List.length_append, List.length_cons]
  omega

def parseRecords (fields : List Bytes) (entries : List VcsEntryStatus) (records : Nat) :
    Except VcsError (List VcsEntryStatus) :=
  match fields with
  | [] => .ok entries
  | status :: fields =>
    if records = maxStatusEntries then
      .error (invalidOutput "Jujutsu status entry limit exceeded")
    else
      match h : parseRecord status fields with
      | .error error => .error error
      | .ok (entry, rest) => parseRecords rest (entries ++ entry.toList) (records + 1)
termination_by fields.length
decreasing_by
  have := length_parseRecord h
  simp only [List.length_cons]
  omega

def parseTemplatedDiff (output : Bytes) (stale : Bool) : Except VcsError VcsStatusSnapshot :=
  if output = [] then .ok ⟨[], stale⟩
  else if output.getLast? = some 0 then do
    let entries ← parseRecords (output.dropLast.splitOn 0) [] 0
    .ok ⟨entries, stale⟩
  else .error (invalidOutput "Jujutsu status record is not NUL terminated")

/-! ## Records -/

/-- A path that stayed, whose source is printed and not read, or one that was
moved from a source. -/
inductive DiffStatus where
  | modified (source : Bytes) (nul_free : 0 ∉ source)
  | added (source : Bytes) (nul_free : 0 ∉ source)
  | deleted (source : Bytes) (nul_free : 0 ∉ source)
  | copied (source : StatusPath)
  | renamed (source : StatusPath)

namespace DiffStatus

def letter : DiffStatus → Bytes
  | modified _ _ => ascii "M"
  | added _ _ => ascii "A"
  | deleted _ _ => ascii "D"
  | copied _ => ascii "C"
  | renamed _ => ascii "R"

def kind : DiffStatus → VcsStatusKind
  | modified _ _ => .modified
  | added _ _ => .added
  | deleted _ _ => .deleted
  | copied _ => .copied
  | renamed _ => .renamed

def source : DiffStatus → Bytes
  | modified source _ | added source _ | deleted source _ => source
  | copied source | renamed source => source.raw

def moved : DiffStatus → Option StatusPath
  | copied source | renamed source => some source
  | _ => none

end DiffStatus

structure DiffRecord where
  status : DiffStatus
  target : StatusPath
  sourceConflict : Bool
  targetConflict : Bool
  sourceType : FileType
  targetType : FileType

namespace DiffRecord

variable (record : DiffRecord)

def fields : List Bytes :=
  [record.status.letter, record.status.source, record.target.raw, flag record.sourceConflict,
    flag record.targetConflict, record.sourceType.name, record.targetType.name]

/-- Each side is absent or a tree. -/
def Structural : Prop :=
  (record.sourceType = .absent ∨ record.sourceType = .tree) ∧
    (record.targetType = .absent ∨ record.targetType = .tree)

instance : Decidable record.Structural := inferInstanceAs (Decidable (_ ∧ _))

def Conflicts : Prop :=
  record.sourceConflict ∨ record.targetConflict ∨ record.sourceType = .conflict ∨
    record.targetType = .conflict

instance : Decidable record.Conflicts := inferInstanceAs (Decidable (_ ∨ _ ∨ _ ∨ _))

/-- A modification between two types that are there. -/
def Retypes : Prop :=
  record.status.kind = .modified ∧ record.sourceType ≠ .absent ∧ record.targetType ≠ .absent ∧
    record.sourceType ≠ record.targetType

instance : Decidable record.Retypes := inferInstanceAs (Decidable (_ ∧ _ ∧ _ ∧ _))

def change : Option Change :=
  if record.Structural then none
  else some {
    path := record.target.path
    sourcePath := record.status.moved.map StatusPath.path
    kind :=
      if record.Conflicts then .conflicted else if record.Retypes then .typeChanged
      else record.status.kind
    indexState := if record.sourceConflict then some .conflicted else none
    worktreeState := if record.targetConflict then some .conflicted else none }

end DiffRecord

/-- The template's output. -/
def render (records : List DiffRecord) : Bytes := frame 0 (records.flatMap DiffRecord.fields)

/-! ## Reading a record -/

theorem validateStatusPath_iff {path : Bytes} (hnul : 0 ∉ path) :
    validateStatusPath path true = .ok () ↔ ∃ names, names ≠ [] ∧ Normalizes ⟨path⟩ names := by
  have hvalid : validateStatusPath path true = .ok () ↔ components ⟨path⟩ ≠ [] ∧
      ∀ component ∈ components ⟨path⟩, component.isNormal := by
    unfold validateStatusPath
    cases components ⟨path⟩ with
    | nil => simp
    | cons first rest =>
      simp only [Bool.true_eq_false, if_false, ne_eq, reduceCtorEq, not_false_eq_true, true_and,
        List.forall_mem_cons]
      split
      next h =>
        simp only [reduceCtorEq, false_iff, not_and, not_forall]
        intro hfirst
        simp only [hfirst, Bool.not_true, Bool.false_or, List.any_eq_true] at h
        have ⟨component, hmem, hkind⟩ := h
        exact ⟨component, hmem, by simpa using hkind⟩
      next h =>
        simp only [true_iff]
        simpa using h
  rw [hvalid]
  constructor
  · intro ⟨hne, hnormal⟩
    have ⟨names, hnames⟩ := exists_normalizes hnul hnormal
    refine ⟨names, fun hnil => hne ?_, hnames⟩
    rw [hnames, hnil, List.map_nil]
  · intro ⟨names, hne, hnames⟩
    refine ⟨?_, hnames.isNormal⟩
    rw [hnames]
    simpa using hne

theorem validate_statusPath (path : StatusPath) (inEntry : Bool) :
    validateStatusPath path.raw inEntry = .ok () := by
  cases inEntry with
  | false => rfl
  | true =>
    exact (validateStatusPath_iff path.nul_free).mpr ⟨path.path, path.path_ne_nil, path.normalizes⟩

theorem exists_statusPath {path : Bytes} (hnul : 0 ∉ path)
    (hvalid : validateStatusPath path true = .ok ()) : ∃ printed : StatusPath, printed.raw = path := by
  have ⟨names, hne, hnames⟩ := (validateStatusPath_iff hnul).mp hvalid
  exact ⟨⟨path, names, hnul, hne, hnames⟩, rfl⟩

theorem parseStatus_letter (status : DiffStatus) : parseStatus status.letter = .ok status.kind := by
  cases status <;> rfl

theorem isMove_kind (status : DiffStatus) : isMove status.kind = status.moved.isSome := by
  cases status <;> rfl

theorem moved_eq_source {status : DiffStatus} {source : StatusPath}
    (h : status.moved = some source) : status.source = source.raw := by
  cases status <;> cases h <;> rfl

theorem validate_source (status : DiffStatus) :
    validateStatusPath status.source (isMove status.kind) = .ok () := by
  rw [isMove_kind]
  cases hmoved : status.moved with
  | none => rfl
  | some source =>
    rw [moved_eq_source hmoved]
    exact validate_statusPath source _

theorem exists_status {letter source : Bytes} {kind : VcsStatusKind} (hnul : 0 ∉ source)
    (hletter : parseStatus letter = .ok kind)
    (hsource : validateStatusPath source (isMove kind) = .ok ()) :
    ∃ status : DiffStatus, status.letter = letter ∧ status.source = source ∧ status.kind = kind := by
  unfold parseStatus at hletter
  split_ifs at hletter with hvalue hvalue hvalue hvalue hvalue
  · cases hletter
    exact ⟨.modified source hnul, hvalue.symm, rfl, rfl⟩
  · cases hletter
    exact ⟨.added source hnul, hvalue.symm, rfl, rfl⟩
  · cases hletter
    exact ⟨.deleted source hnul, hvalue.symm, rfl, rfl⟩
  · cases hletter
    have ⟨printed, hprinted⟩ := exists_statusPath hnul hsource
    exact ⟨.copied printed, hvalue.symm, hprinted, rfl⟩
  · cases hletter
    have ⟨printed, hprinted⟩ := exists_statusPath hnul hsource
    exact ⟨.renamed printed, hvalue.symm, hprinted, rfl⟩

theorem structural_iff (record : DiffRecord) :
    (isStructural record.sourceType && isStructural record.targetType) = true ↔
      record.Structural := by
  simp [isStructural, DiffRecord.Structural]

theorem entryKind_eq (record : DiffRecord) :
    entryKind record.status.kind record.sourceConflict record.targetConflict record.sourceType
        record.targetType =
      if record.Conflicts then .conflicted else if record.Retypes then .typeChanged
      else record.status.kind := by
  have hconflict : (record.sourceConflict || record.targetConflict ||
      record.sourceType = .conflict || record.targetType = .conflict) = true ↔
      record.Conflicts := by
    simp [DiffRecord.Conflicts, or_assoc]
  exact if_congr hconflict rfl (if_congr Iff.rfl rfl rfl)

theorem moved_of_entryKind (record : DiffRecord) {kind : VcsStatusKind}
    (hkind : entryKind record.status.kind record.sourceConflict record.targetConflict
      record.sourceType record.targetType = kind) :
    kind = .renamed ∨ kind = .copied → record.status.moved.isSome := by
  intro hmove
  rw [entryKind_eq] at hkind
  rw [← isMove_kind]
  split at hkind
  next => simp [← hkind] at hmove
  next =>
    split at hkind
    next => simp [← hkind] at hmove
    next => simpa [hkind, isMove] using hmove

theorem printed_source (status : DiffStatus) :
    (if isMove status.kind then some (PathBuf.mk status.source) else none) =
      status.moved.map fun source => ⟨source.raw⟩ := by
  rw [isMove_kind]
  cases hmoved : status.moved with
  | none => rfl
  | some source =>
    rw [moved_eq_source hmoved]
    rfl

theorem newEntry_record (record : DiffRecord) :
    ∃ entry, newEntry ⟨record.target.raw⟩
        (if isMove record.status.kind then some ⟨record.status.source⟩ else none)
        (entryKind record.status.kind record.sourceConflict record.targetConflict
          record.sourceType record.targetType)
        (if record.sourceConflict then some .conflicted else none)
        (if record.targetConflict then some .conflicted else none) = .ok entry ∧
      (¬ record.Structural → some (changeOf entry) = record.change) := by
  have ⟨entry, hentry, hchange⟩ := exists_newEntry record.target record.status.moved
    (moved_of_entryKind record rfl) (if record.sourceConflict then some .conflicted else none)
    (if record.targetConflict then some .conflicted else none)
  refine ⟨entry, ?_, fun hproper => ?_⟩
  · rw [printed_source]
    exact hentry
  · rw [DiffRecord.change, if_neg hproper, hchange, entryKind_eq]

/-- Every record is read as its change. -/
theorem parseRecord_record (record : DiffRecord) (rest : List Bytes) :
    ∃ entry, parseRecord record.status.letter (record.fields.tail ++ rest) = .ok (entry, rest) ∧
      entry.map changeOf = record.change := by
  have ⟨entry, hentry, hchange⟩ := newEntry_record record
  have hread (found : Option VcsEntryStatus)
      (hfound : if isStructural record.sourceType && isStructural record.targetType then
          found = none
        else ∃ other, newEntry ⟨record.target.raw⟩
            (if isMove record.status.kind then some ⟨record.status.source⟩ else none)
            (entryKind record.status.kind record.sourceConflict record.targetConflict
              record.sourceType record.targetType)
            (if record.sourceConflict then some .conflicted else none)
            (if record.targetConflict then some .conflicted else none) = .ok other ∧
          found = some other) :
      parseRecord record.status.letter (record.fields.tail ++ rest) = .ok (found, rest) :=
    parseRecord_eq_ok_iff.mpr ⟨_, _, _, _, _, _, _, rfl, parseStatus_letter record.status,
      validate_source record.status, validate_statusPath record.target true, hfound⟩
  by_cases hstructural : record.Structural
  · refine ⟨none, hread none ?_, ?_⟩
    · rw [if_pos ((structural_iff record).mpr hstructural)]
    · rw [DiffRecord.change, if_pos hstructural, Option.map_none]
  · refine ⟨some entry, hread (some entry) ?_, hchange hstructural⟩
    rw [if_neg ((structural_iff record).not.mpr hstructural)]
    exact ⟨entry, hentry, rfl⟩

/-- What is read is a record. -/
theorem exists_record {status : Bytes} {fields rest : List Bytes} {entry : Option VcsEntryStatus}
    (h : parseRecord status fields = .ok (entry, rest)) (hnul : Unseparated 0 fields) :
    ∃ record : DiffRecord, status :: fields = record.fields ++ rest ∧
      entry.map changeOf = record.change := by
  have ⟨source, target, sourceConflict, targetConflict, sourceType, targetType, kind, hfields,
    hkind, hsource, htarget, _⟩ := parseRecord_eq_ok_iff.mp h
  have hsourceNul : 0 ∉ source := hnul source (by simp [hfields])
  have htargetNul : 0 ∉ target := hnul target (by simp [hfields])
  have ⟨diffStatus, hletter, hsameSource, hsameKind⟩ := exists_status hsourceNul hkind hsource
  have ⟨printed, hprinted⟩ := exists_statusPath htargetNul htarget
  let record : DiffRecord :=
    ⟨diffStatus, printed, sourceConflict, targetConflict, sourceType, targetType⟩
  have hrecord : status :: fields = record.fields ++ rest := by
    rw [hfields, ← hletter, ← hsameSource, ← hprinted]
    rfl
  refine ⟨record, hrecord, ?_⟩
  have ⟨other, hother, hchange⟩ := parseRecord_record record rest
  have hstatus : status = record.status.letter := (List.cons.inj hrecord).1
  have htail : fields = record.fields.tail ++ rest := (List.cons.inj hrecord).2
  rw [hstatus, htail, hother] at h
  cases h
  exact hchange

/-! ## Reading the output -/

theorem parseRecords_nil (entries : List VcsEntryStatus) (count : Nat) :
    parseRecords [] entries count = .ok entries := by
  rw [parseRecords]

theorem parseRecords_cons {status : Bytes} {fields rest : List Bytes}
    {entry : Option VcsEntryStatus} {entries : List VcsEntryStatus} {count : Nat}
    (hcount : count ≠ maxStatusEntries) (h : parseRecord status fields = .ok (entry, rest)) :
    parseRecords (status :: fields) entries count =
      parseRecords rest (entries ++ entry.toList) (count + 1) := by
  rw [parseRecords, if_neg hcount]
  split
  next error herror =>
    rw [h] at herror
    contradiction
  next found others hfound =>
    rw [h] at hfound
    cases hfound
    rfl

theorem map_toList_changeOf (entry : Option VcsEntryStatus) :
    entry.toList.map changeOf = (entry.map changeOf).toList := by
  cases entry <;> rfl

theorem filterMap_cons_toList (record : DiffRecord) (records : List DiffRecord) :
    (record :: records).filterMap DiffRecord.change =
      record.change.toList ++ records.filterMap DiffRecord.change := by
  rw [List.filterMap_cons]
  cases record.change <;> rfl

theorem parseRecords_records (records : List DiffRecord) (entries : List VcsEntryStatus)
    {count : Nat} (hcount : count + records.length ≤ maxStatusEntries) :
    ∃ more, parseRecords (records.flatMap DiffRecord.fields) entries count = .ok (entries ++ more) ∧
      more.map changeOf = records.filterMap DiffRecord.change := by
  induction records generalizing entries count with
  | nil => exact ⟨[], by rw [List.flatMap_nil, parseRecords_nil, List.append_nil], rfl⟩
  | cons record records ih =>
    rw [List.length_cons] at hcount
    have ⟨entry, hentry, hchange⟩ :=
      parseRecord_record record (records.flatMap DiffRecord.fields)
    have ⟨more, hmore, hchanges⟩ :=
      ih (entries ++ entry.toList) (show count + 1 + records.length ≤ maxStatusEntries by omega)
    refine ⟨entry.toList ++ more, ?_, ?_⟩
    · rw [List.flatMap_cons, ← List.append_assoc, ← hmore]
      exact parseRecords_cons (by omega) hentry
    · rw [List.map_append, map_toList_changeOf, hchange, hchanges, filterMap_cons_toList]

theorem exists_records {fields : List Bytes} {entries result : List VcsEntryStatus} {count : Nat}
    (h : parseRecords fields entries count = .ok result) (hnul : Unseparated 0 fields)
    (hcount : count ≤ maxStatusEntries) :
    ∃ records : List DiffRecord, fields = records.flatMap DiffRecord.fields ∧
      count + records.length ≤ maxStatusEntries ∧
      result.map changeOf = entries.map changeOf ++ records.filterMap DiffRecord.change := by
  induction hlength : fields.length using Nat.strong_induction_on
    generalizing fields entries count with
  | _ size ih =>
    cases fields with
    | nil =>
      rw [parseRecords_nil] at h
      cases h
      exact ⟨[], rfl, hcount, by simp⟩
    | cons status fields =>
      have hbelow : count ≠ maxStatusEntries := by
        intro heq
        rw [parseRecords, if_pos heq] at h
        contradiction
      cases hrecord : parseRecord status fields with
      | error error =>
        rw [parseRecords, if_neg hbelow] at h
        split at h
        next => contradiction
        next _ _ hok =>
          rw [hrecord] at hok
          contradiction
      | ok read =>
        have ⟨entry, rest⟩ := read
        rw [parseRecords_cons hbelow hrecord] at h
        have ⟨record, hfields, hchange⟩ := exists_record hrecord (unseparated_cons.mp hnul).2
        have hrest : Unseparated 0 rest := by
          rw [hfields] at hnul
          exact (unseparated_append.mp hnul).2
        have hshorter : rest.length < size := by
          have := length_parseRecord hrecord
          rw [← hlength, List.length_cons]
          omega
        have ⟨records, hrecords, hfits, hresult⟩ := ih _ hshorter h hrest (by omega) rfl
        refine ⟨record :: records, ?_, ?_, ?_⟩
        · rw [hfields, hrecords, List.flatMap_cons]
        · rw [List.length_cons]
          omega
        · rw [hresult, List.map_append, map_toList_changeOf, hchange, filterMap_cons_toList,
            List.append_assoc]

theorem unseparated_fields (records : List DiffRecord) :
    Unseparated 0 (records.flatMap DiffRecord.fields) := by
  intro field hfield
  have ⟨record, _, hmem⟩ := List.mem_flatMap.mp hfield
  have hletter : 0 ∉ record.status.letter := by
    cases record.status <;> simp only [DiffStatus.letter] <;> decide
  have hsource : 0 ∉ record.status.source := by
    cases record.status with
    | modified _ h | added _ h | deleted _ h => exact h
    | copied source | renamed source => exact source.nul_free
  have hflag (value : Bool) : 0 ∉ flag value := by
    cases value <;> decide
  have hname (type : FileType) : 0 ∉ type.name := by
    cases type <;> decide
  simp only [DiffRecord.fields, List.mem_cons, List.not_mem_nil, or_false] at hmem
  rcases hmem with heq | heq | heq | heq | heq | heq | heq
  · exact heq ▸ hletter
  · exact heq ▸ hsource
  · exact heq ▸ record.target.nul_free
  · exact heq ▸ hflag _
  · exact heq ▸ hflag _
  · exact heq ▸ hname _
  · exact heq ▸ hname _

theorem length_fields (records : List DiffRecord) :
    (records.flatMap DiffRecord.fields).length = 7 * records.length := by
  induction records with
  | nil => rfl
  | cons record records ih =>
    rw [List.flatMap_cons, List.length_append, ih, List.length_cons]
    simp only [DiffRecord.fields, List.length_cons, List.length_nil]
    omega

theorem render_eq_nil_iff {records : List DiffRecord} : render records = [] ↔ records = [] := by
  constructor
  · intro h
    cases records with
    | nil => rfl
    | cons record records =>
      simp [render, DiffRecord.fields] at h
  · intro h
    rw [h]
    rfl

/-- What the parser takes is exactly what the template prints for a list of
records within the limit. -/
theorem parseTemplatedDiff_eq_ok_iff {output : Bytes} {stale : Bool}
    {snapshot : VcsStatusSnapshot} :
    parseTemplatedDiff output stale = .ok snapshot ↔
      ∃ records : List DiffRecord, records.length ≤ maxStatusEntries ∧ output = render records ∧
        snapshot.stale = stale ∧
        snapshot.entries.map changeOf = records.filterMap DiffRecord.change := by
  unfold parseTemplatedDiff
  constructor
  · intro h
    split at h
    next hempty =>
      cases h
      exact ⟨[], Nat.zero_le _, hempty, rfl, rfl⟩
    next =>
      split at h
      next hlast =>
        have ⟨entries, hentries, hok⟩ := bind_eq_ok_iff.mp h
        cases hok
        have ⟨houtput, hnul, _⟩ := eq_frame_iff.mpr ⟨hlast, rfl⟩
        have ⟨records, hfields, hfits, hchanges⟩ := exists_records hentries hnul (Nat.zero_le _)
        refine ⟨records, by omega, ?_, rfl, by simpa using hchanges⟩
        rw [render, ← hfields]
        exact houtput
      next => contradiction
  · intro ⟨records, hfits, houtput, hstale, hchanges⟩
    by_cases hnone : records = []
    · rw [hnone] at houtput hchanges
      have hentries : snapshot.entries = [] := List.map_eq_nil_iff.mp hchanges
      rw [if_pos (show output = [] from houtput), ← hstale, ← hentries]
    · have hfields : records.flatMap DiffRecord.fields ≠ [] := by
        intro hnil
        have hlength := congrArg List.length hnil
        rw [length_fields] at hlength
        have := List.length_pos_iff.mpr hnone
        simp only [List.length_nil] at hlength
        omega
      have ⟨hlast, hsplit⟩ := eq_frame_iff.mp ⟨houtput, unseparated_fields records, hfields⟩
      have hne : output ≠ [] := by
        intro hnil
        rw [hnil] at hlast
        contradiction
      have ⟨more, hmore, hsame⟩ := parseRecords_records records [] ((Nat.zero_add _).trans_le hfits)
      have hentries : snapshot.entries = more :=
        List.map_injective_iff.mpr changeOf_injective (hchanges.trans hsame.symm)
      rw [if_neg hne, if_pos hlast, hsplit, hmore, ← hstale]
      simp only [List.nil_append, ok_bind, ← hentries]

/-- A prefix that is accepted ends behind a record. -/
theorem accepted_prefix {records : List DiffRecord} {cut : Bytes} {stale : Bool}
    {snapshot : VcsStatusSnapshot} (hcut : cut <+: render records)
    (h : parseTemplatedDiff cut stale = .ok snapshot) :
    ∃ count, cut = render (records.take count) := by
  have ⟨others, _, hothers, _⟩ := parseTemplatedDiff_eq_ok_iff.mp h
  rw [hothers] at hcut
  have hprefix := frame_prefix (unseparated_fields records) (unseparated_fields others) hcut
  have hfields : others.flatMap DiffRecord.fields =
      (records.take others.length).flatMap DiffRecord.fields := by
    have hsplit := congrArg (List.flatMap DiffRecord.fields)
      (List.take_append_drop others.length records)
    have hshort : others.length ≤ records.length := by
      have hlength := hprefix.length_le
      rw [length_fields, length_fields] at hlength
      omega
    rw [List.flatMap_append] at hsplit
    have htaken : (records.take others.length).flatMap DiffRecord.fields <+:
        records.flatMap DiffRecord.fields := ⟨_, hsplit⟩
    have hsame : (others.flatMap DiffRecord.fields).length =
        ((records.take others.length).flatMap DiffRecord.fields).length := by
      rw [length_fields, length_fields, List.length_take, Nat.min_eq_left hshort]
    exact (List.prefix_of_prefix_length_le hprefix htaken hsame.le).eq_of_length hsame
  exact ⟨others.length, by rw [hothers, render, render, hfields]⟩

theorem change_eq_some_iff {record : DiffRecord} {change : Change} :
    record.change = some change ↔ ¬ record.Structural ∧ change = {
      path := record.target.path
      sourcePath := record.status.moved.map StatusPath.path
      kind :=
        if record.Conflicts then .conflicted else if record.Retypes then .typeChanged
        else record.status.kind
      indexState := if record.sourceConflict then some .conflicted else none
      worktreeState := if record.targetConflict then some .conflicted else none } := by
  unfold DiffRecord.change
  split
  next h => exact iff_of_false nofun fun hproper => hproper.1 h
  next h =>
    rw [Option.some.injEq, eq_comm]
    exact (and_iff_right h).symm

/-- The output for records within the limit is read as their changes, and no
other output is read. -/
theorem templated_diff_decoded (stale : Bool) :
    (∀ path : RelativePath, path ≠ [] →
      ∃ printed : StatusPath, printed.raw = path.bytes ∧ printed.path = path) ∧
    (∀ records : List DiffRecord, records.length ≤ maxStatusEntries →
      ∃ snapshot, parseTemplatedDiff (render records) stale = .ok snapshot ∧
        snapshot.stale = stale ∧
        snapshot.entries.map changeOf = records.filterMap DiffRecord.change) ∧
    (∀ record : DiffRecord, (record.change = none ↔ record.Structural) ∧
      ∀ change, record.change = some change →
        change.path = record.target.path ∧
        (change.kind = .conflicted ↔ record.Conflicts) ∧
        (change.kind = .typeChanged ↔ ¬ record.Conflicts ∧ record.Retypes) ∧
        (¬ record.Conflicts → ¬ record.Retypes → change.kind = record.status.kind) ∧
        change.sourcePath = record.status.moved.map StatusPath.path ∧
        (change.sourcePath.isSome ↔
          record.status.kind = .renamed ∨ record.status.kind = .copied)) ∧
    (∀ output snapshot, parseTemplatedDiff output stale = .ok snapshot →
      ∃ records : List DiffRecord, records.length ≤ maxStatusEntries ∧ output = render records ∧
        snapshot.entries.map changeOf = records.filterMap DiffRecord.change) ∧
    ∀ (records : List DiffRecord) (cut : Bytes), cut <+: render records →
      (∃ snapshot, parseTemplatedDiff cut stale = .ok snapshot) →
      ∃ count, cut = render (records.take count) := by
  refine ⟨fun path hne => ⟨StatusPath.ofRelative path hne, rfl, rfl⟩, ?_, ?_, ?_, ?_⟩
  · intro records hfits
    have ⟨more, _, hsame⟩ := parseRecords_records records [] ((Nat.zero_add _).trans_le hfits)
    exact ⟨⟨more, stale⟩, parseTemplatedDiff_eq_ok_iff.mpr ⟨records, hfits, rfl, rfl, hsame⟩,
      rfl, hsame⟩
  · intro record
    constructor
    · unfold DiffRecord.change
      split
      next h => simp [h]
      next h => simp [h]
    · intro change hchange
      have ⟨_, heq⟩ := change_eq_some_iff.mp hchange
      have hplain : record.status.kind ≠ .conflicted ∧ record.status.kind ≠ .typeChanged := by
        cases record.status <;> exact ⟨nofun, nofun⟩
      have hmoved : record.status.moved.isSome ↔
          record.status.kind = .renamed ∨ record.status.kind = .copied := by
        rw [← isMove_kind]
        simp [isMove]
      rw [heq]
      refine ⟨rfl, ?_, ?_, ?_, rfl, ?_⟩
      · by_cases hconflict : record.Conflicts
        · simp [hconflict]
        · by_cases hretype : record.Retypes
          · simp [hconflict, hretype]
          · simp [hconflict, hretype, hplain.1]
      · by_cases hconflict : record.Conflicts
        · simp [hconflict]
        · by_cases hretype : record.Retypes
          · simp [hconflict, hretype]
          · simp [hconflict, hretype, hplain.2]
      · intro hconflict hretype
        simp [hconflict, hretype]
      · rw [Option.isSome_map]
        exact hmoved
  · intro output snapshot h
    have ⟨records, hfits, houtput, _, hchanges⟩ := parseTemplatedDiff_eq_ok_iff.mp h
    exact ⟨records, hfits, houtput, hchanges⟩
  · intro records cut hcut ⟨snapshot, h⟩
    exact accepted_prefix hcut h

end HerdrContext.Vcs.Jujutsu
