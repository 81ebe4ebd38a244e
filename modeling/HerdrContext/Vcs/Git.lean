import HerdrContext.Vcs.Paths

/-! Git's porcelain v2 status with NULs behind the records. -/
namespace HerdrContext.Vcs.Git

open Library
open Files (VcsEntryStatus VcsStatusKind VcsStatusSnapshot VcsError)

def space : UInt8 := 32

def invalidOutput (message : String) : VcsError := ⟨.invalidData, message⟩

/-! ## Fields -/

def nextField (fields : List Bytes) (recordName : String) :
    Except VcsError (Bytes × List Bytes) :=
  match fields with
  | [] => .error (invalidOutput ("malformed " ++ recordName ++ " record"))
  | field :: rest =>
    if field = [] then .error (invalidOutput ("malformed " ++ recordName ++ " record"))
    else .ok (field, rest)

def expectMarker (fields : List Bytes) (expected : Bytes) (recordName : String) :
    Except VcsError (List Bytes) := do
  let (marker, fields) ← nextField fields recordName
  if marker = expected then .ok fields
  else .error (invalidOutput ("invalid " ++ recordName ++ " record marker"))

def validateFields (validate : Bytes → Except VcsError Unit) (recordName : String) :
    Nat → List Bytes → Except VcsError (List Bytes)
  | 0, fields => .ok fields
  | count + 1, fields => do
    let (field, fields) ← nextField fields recordName
    validate field
    validateFields validate recordName count fields

def IsSubmodule (field : Bytes) : Prop :=
  field = ascii "N..." ∨ ∃ commit modified untracked,
    field = ascii "S" ++ [commit, modified, untracked] ∧ commit ∈ ascii ".C" ∧
      modified ∈ ascii ".M" ∧ untracked ∈ ascii ".U"

def IsMode (field : Bytes) : Prop := field.length = 6 ∧ ∀ byte ∈ field, 48 ≤ byte ∧ byte ≤ 55

instance (field : Bytes) : Decidable (IsMode field) := inferInstanceAs (Decidable (_ ∧ _))

/-- `u8::is_ascii_hexdigit`. -/
def IsHexDigit (byte : UInt8) : Prop :=
  48 ≤ byte ∧ byte ≤ 57 ∨ 97 ≤ byte ∧ byte ≤ 102 ∨ 65 ≤ byte ∧ byte ≤ 70

instance (byte : UInt8) : Decidable (IsHexDigit byte) := inferInstanceAs (Decidable (_ ∨ _ ∨ _))

def IsObjectId (field : Bytes) : Prop :=
  (field.length = 40 ∨ field.length = 64) ∧ ∀ byte ∈ field, IsHexDigit byte

instance (field : Bytes) : Decidable (IsObjectId field) := inferInstanceAs (Decidable (_ ∧ _))

def validateSubmodule (field : Bytes) : Except VcsError Unit :=
  match field with
  | [tag, commit, modified, untracked] =>
    if field = ascii "N..." ∨ [tag] = ascii "S" ∧ commit ∈ ascii ".C" ∧ modified ∈ ascii ".M" ∧
        untracked ∈ ascii ".U" then .ok ()
    else .error (invalidOutput "invalid submodule state")
  | _ => .error (invalidOutput "invalid submodule state")

def validateMode (field : Bytes) : Except VcsError Unit :=
  if IsMode field then .ok () else .error (invalidOutput "invalid file mode")

def validateObjectId (field : Bytes) : Except VcsError Unit :=
  if IsObjectId field then .ok () else .error (invalidOutput "invalid object id")

def validateOrdinaryXy (field : Bytes) : Except VcsError Unit :=
  if (∀ state ∈ field, state ∈ ascii ".MTAD") ∧ field ≠ ascii ".." then .ok ()
  else .error (invalidOutput "invalid ordinary status field")

def validateRenameXy (field : Bytes) : Except VcsError Unit :=
  if (∀ state ∈ field, state ∈ ascii ".MTADRC") ∧ field ≠ ascii ".." then .ok ()
  else .error (invalidOutput "invalid rename/copy status field")

def validateUnmergedXy (field : Bytes) : Except VcsError Unit :=
  if field ∈ ["DD", "AU", "UD", "UA", "DU", "AA", "UU"].map ascii then .ok ()
  else .error (invalidOutput "invalid unmerged status field")

/-! ## States -/

def mapState (state : UInt8) : Except VcsError (Option VcsStatusKind) :=
  if [state] = ascii "." then .ok none
  else if [state] = ascii "M" then .ok (some .modified)
  else if [state] = ascii "A" then .ok (some .added)
  else if [state] = ascii "D" then .ok (some .deleted)
  else if [state] = ascii "R" then .ok (some .renamed)
  else if [state] = ascii "C" then .ok (some .copied)
  else if [state] = ascii "T" then .ok (some .typeChanged)
  else if [state] = ascii "U" then .ok (some .conflicted)
  else .error (invalidOutput "unknown status code")

abbrev States := Option VcsStatusKind × Option VcsStatusKind

def parseXy (field : Bytes) : Except VcsError States :=
  match field with
  | [first, second] => do
    let index ← mapState first
    let worktree ← mapState second
    .ok (index, worktree)
  | _ => .error (invalidOutput "status field must contain two bytes")

def precedence : List VcsStatusKind :=
  [.conflicted, .renamed, .copied, .typeChanged, .deleted, .added, .modified, .untracked]

def combinedKind (index worktree : Option VcsStatusKind) : Except VcsError VcsStatusKind :=
  okOr (invalidOutput "ordinary record has no change")
    (precedence.find? fun kind => index = some kind || worktree = some kind)

/-! ## Records -/

def makeEntry (path : Bytes) (sourcePath : Option Bytes) (kind : VcsStatusKind)
    (states : States) : Except VcsError VcsEntryStatus :=
  mapError invalidOutput (newEntry ⟨path⟩ (sourcePath.map PathBuf.mk) kind states.1 states.2)

/-- The fields before the score or the path, which the three records of tracked
paths have in common. -/
def parseColumns (marker : Bytes) (recordName : String) (readXy : Bytes → Except VcsError States)
    (modes objectIds : Nat) (fields : List Bytes) : Except VcsError (States × List Bytes) := do
  let fields ← expectMarker fields marker recordName
  let (xy, fields) ← nextField fields recordName
  let states ← readXy xy
  let (submodule, fields) ← nextField fields recordName
  validateSubmodule submodule
  let fields ← validateFields validateMode recordName modes fields
  let fields ← validateFields validateObjectId recordName objectIds fields
  .ok (states, fields)

def readOrdinaryXy (xy : Bytes) : Except VcsError States := do
  let states ← parseXy xy
  validateOrdinaryXy xy
  .ok states

def readRenameXy (xy : Bytes) : Except VcsError States := do
  let states ← parseXy xy
  validateRenameXy xy
  .ok states

/-- Checked before it is read. -/
def readUnmergedXy (xy : Bytes) : Except VcsError States := do
  validateUnmergedXy xy
  parseXy xy

def parseOrdinary (record : Bytes) : Except VcsError VcsEntryStatus := do
  let (states, fields) ← parseColumns (ascii "1") "ordinary" readOrdinaryXy 3 2 (splitN space 9 record)
  let (path, _) ← nextField fields "ordinary"
  let kind ← combinedKind states.1 states.2
  makeEntry path none kind states

/-- At most three digits, and no number above 100. -/
def IsSimilarity (similarity : Bytes) : Prop :=
  similarity ≠ [] ∧ similarity.length ≤ 3 ∧ (∀ digit ∈ similarity, 48 ≤ digit ∧ digit ≤ 57) ∧
    similarity.foldl (fun value digit => value * 10 + (digit.toNat - 48)) 0 ≤ 100

instance (similarity : Bytes) : Decidable (IsSimilarity similarity) :=
  inferInstanceAs (Decidable (_ ∧ _ ∧ _ ∧ _))

def parseScore (score : Bytes) : Except VcsError VcsStatusKind :=
  match score with
  | [] => .error (invalidOutput "invalid rename/copy score")
  | tag :: similarity =>
    if ¬ IsSimilarity similarity then .error (invalidOutput "invalid rename/copy score")
    else if [tag] = ascii "R" then .ok .renamed
    else if [tag] = ascii "C" then .ok .copied
    else .error (invalidOutput "invalid rename/copy score")

def parseRenameOrCopy (record source : Bytes) : Except VcsError VcsEntryStatus := do
  let (states, fields) ←
    parseColumns (ascii "2") "rename/copy" readRenameXy 3 2 (splitN space 10 record)
  let (score, fields) ← nextField fields "rename/copy"
  let kind ← parseScore score
  rejectIf (states.1 ≠ some kind ∧ states.2 ≠ some kind)
    (invalidOutput "rename/copy score does not match the status field")
  let (path, _) ← nextField fields "rename/copy"
  makeEntry path (some source) kind states

def parseUnmerged (record : Bytes) : Except VcsError VcsEntryStatus := do
  let (states, fields) ←
    parseColumns (ascii "u") "unmerged" readUnmergedXy 4 3 (splitN space 11 record)
  let (path, _) ← nextField fields "unmerged"
  makeEntry path none .conflicted states

/-- `strip_prefix` of the tag and the space behind it. -/
def stripTag (tag : String) (record : Bytes) : Option Bytes :=
  if (ascii tag).isPrefixOf record then some (record.drop (ascii tag).length) else none

def parseUntracked (record : Bytes) : Except VcsError VcsEntryStatus := do
  let path ← okOr (invalidOutput "malformed untracked record") (stripTag "? " record)
  makeEntry path none .untracked (none, some .untracked)

/-! ## The output -/

def pushEntry (entries : List VcsEntryStatus) (entry : VcsEntryStatus) :
    Except VcsError (List VcsEntryStatus) :=
  if entries.length = maxStatusEntries then
    .error (invalidOutput "Git status contains too many entries")
  else .ok (entries ++ [entry])

def parseRecords : List Bytes → List VcsEntryStatus → Except VcsError (List VcsEntryStatus)
  | [], entries => .ok entries
  | record :: records, entries =>
    match record.head? with
    | none => .error (invalidOutput "porcelain output contains an empty record")
    | some tag =>
      if [tag] = ascii "#" then parseRecords records entries
      else if [tag] = ascii "1" then do
        let entry ← parseOrdinary record
        let entries ← pushEntry entries entry
        parseRecords records entries
      else if [tag] = ascii "2" then
        match records with
        | [] => .error (invalidOutput "rename/copy record has no source path")
        | source :: records => do
          let entry ← parseRenameOrCopy record source
          let entries ← pushEntry entries entry
          parseRecords records entries
      else if [tag] = ascii "u" then do
        let entry ← parseUnmerged record
        let entries ← pushEntry entries entry
        parseRecords records entries
      else if [tag] = ascii "?" then do
        let entry ← parseUntracked record
        let entries ← pushEntry entries entry
        parseRecords records entries
      else if [tag] = ascii "!" then do
        -- The path is cut off and, on Unix, not looked at.
        let _ ← okOr (invalidOutput "malformed ignored record") (stripTag "! " record)
        parseRecords records entries
      else .error (invalidOutput "unknown porcelain v2 record type")

/-- `sort_unstable_by` on the paths: entries of one path in any order. -/
structure UnstableSort where
  sort : List VcsEntryStatus → List VcsEntryStatus
  perm : ∀ entries, (sort entries).Perm entries
  sorted : ∀ entries, (sort entries).Pairwise fun left right => left.path ≤ right.path

def parsePorcelainV2 (unstable : UnstableSort) (output : Bytes) :
    Except VcsError VcsStatusSnapshot :=
  if output ≠ [] ∧ output.getLast? ≠ some 0 then
    .error (invalidOutput "porcelain output is not NUL-terminated")
  else if output = [] then .ok ⟨[], false⟩
  else do
    let entries ← parseRecords (output.dropLast.splitOn 0) []
    .ok ⟨unstable.sort entries, false⟩

/-! ## Printed records -/

inductive StateLetter where
  | unchanged | modified | added | deleted | renamed | copied | typeChanged | unmerged
  deriving DecidableEq

namespace StateLetter

def byte : StateLetter → UInt8
  | unchanged => 46
  | modified => 77
  | added => 65
  | deleted => 68
  | renamed => 82
  | copied => 67
  | typeChanged => 84
  | unmerged => 85

def state : StateLetter → Option VcsStatusKind
  | unchanged => none
  | modified => some .modified
  | added => some .added
  | deleted => some .deleted
  | renamed => some .renamed
  | copied => some .copied
  | typeChanged => some .typeChanged
  | unmerged => some .conflicted

end StateLetter

/-- The stronger of the states there are. -/
def strongest (index worktree : Option VcsStatusKind) : Option VcsStatusKind :=
  Option.merge min index worktree

def Plain (letter : StateLetter) : Prop :=
  letter ∈ [.unchanged, .modified, .typeChanged, .added, .deleted]

instance (letter : StateLetter) : Decidable (Plain letter) := inferInstanceAs (Decidable (_ ∈ _))

def OrdinaryXy (x y : StateLetter) (kind : VcsStatusKind) : Prop :=
  Plain x ∧ Plain y ∧ strongest x.state y.state = some kind

def RenameXy (x y : StateLetter) (kind : VcsStatusKind) : Prop :=
  x ≠ .unmerged ∧ y ≠ .unmerged ∧ (x.state = some kind ∨ y.state = some kind)

def UnmergedXy (x y : StateLetter) : Prop :=
  (x, y) ∈ [(.deleted, .deleted), (.added, .unmerged), (.unmerged, .deleted), (.unmerged, .added),
    (.deleted, .unmerged), (.added, .added), (.unmerged, .unmerged)]

instance (x y : StateLetter) : Decidable (UnmergedXy x y) := inferInstanceAs (Decidable (_ ∈ _))

structure Columns (modes objectIds : Nat) where
  submodule : Bytes
  modeFields : List Bytes
  objectIdFields : List Bytes
  submodule_valid : IsSubmodule submodule
  length_modeFields : modeFields.length = modes
  modes_valid : ∀ field ∈ modeFields, IsMode field
  length_objectIdFields : objectIdFields.length = objectIds
  objectIds_valid : ∀ field ∈ objectIdFields, IsObjectId field

def Columns.fields {modes objectIds : Nat} (columns : Columns modes objectIds) : List Bytes :=
  columns.submodule :: (columns.modeFields ++ columns.objectIdFields)

structure Score where
  copied : Bool
  similarity : Bytes
  valid : IsSimilarity similarity

def Score.kind (score : Score) : VcsStatusKind := if score.copied then .copied else .renamed

def Score.text (score : Score) : Bytes :=
  (if score.copied then 67 else 82) :: score.similarity

inductive GitRecord where
  | header (text : Bytes) (nul_free : 0 ∉ text)
  | ordinary (x y : StateLetter) (kind : VcsStatusKind) (valid : OrdinaryXy x y kind)
      (columns : Columns 3 2) (path : StatusPath)
  | renameOrCopy (x y : StateLetter) (score : Score) (valid : RenameXy x y score.kind)
      (columns : Columns 3 2) (path source : StatusPath)
  | unmerged (x y : StateLetter) (valid : UnmergedXy x y) (columns : Columns 4 3)
      (path : StatusPath)
  | untracked (path : StatusPath)
  | ignored (path : Bytes) (nul_free : 0 ∉ path)

namespace GitRecord

/-- The texts with NULs behind them. -/
def rows : GitRecord → List Bytes
  | header text _ => [ascii "#" ++ text]
  | ordinary x y _ _ columns path =>
    [frame space (ascii "1" :: [x.byte, y.byte] :: columns.fields) ++ path.raw]
  | renameOrCopy x y score _ columns path source =>
    [frame space (ascii "2" :: [x.byte, y.byte] :: (columns.fields ++ [score.text])) ++ path.raw,
      source.raw]
  | unmerged x y _ columns path =>
    [frame space (ascii "u" :: [x.byte, y.byte] :: columns.fields) ++ path.raw]
  | untracked path => [ascii "? " ++ path.raw]
  | ignored path _ => [ascii "! " ++ path]

def change : GitRecord → Option Change
  | header _ _ => none
  | ordinary x y kind _ _ path => some ⟨path.path, none, kind, x.state, y.state⟩
  | renameOrCopy x y score _ _ path source =>
    some ⟨path.path, some source.path, score.kind, x.state, y.state⟩
  | unmerged x y _ _ path => some ⟨path.path, none, .conflicted, x.state, y.state⟩
  | untracked path => some ⟨path.path, none, .untracked, none, some .untracked⟩
  | ignored _ _ => none

end GitRecord

/-- `git status --porcelain=v2 -z`. -/
def render (records : List GitRecord) : Bytes := frame 0 (records.flatMap GitRecord.rows)

/-! ## Reading fields -/

theorem nextField_eq_ok_iff {fields rest : List Bytes} {recordName : String} {field : Bytes} :
    nextField fields recordName = .ok (field, rest) ↔ fields = field :: rest ∧ field ≠ [] := by
  unfold nextField
  cases fields with
  | nil => simp
  | cons first fields =>
    simp only
    split
    next hnil =>
      simp only [reduceCtorEq, List.cons.injEq, false_iff, not_and, not_not, and_imp]
      intro hfirst _
      rw [← hfirst, hnil]
    next hne =>
      simp only [Except.ok.injEq, Prod.mk.injEq, List.cons.injEq]
      constructor
      · intro h
        exact ⟨h, h.1 ▸ hne⟩
      · intro h
        exact h.1

theorem expectMarker_eq_ok_iff {fields rest : List Bytes} {recordName : String}
    {expected : Bytes} (hne : expected ≠ []) :
    expectMarker fields expected recordName = .ok rest ↔ fields = expected :: rest := by
  simp only [expectMarker, bind_eq_ok_iff, Prod.exists, nextField_eq_ok_iff]
  constructor
  · intro ⟨marker, others, ⟨hfields, _⟩, hmarker⟩
    split at hmarker
    next heq =>
      cases hmarker
      rw [hfields, heq]
    next => contradiction
  · intro hfields
    exact ⟨expected, rest, ⟨hfields, hne⟩, if_pos rfl⟩

theorem validateFields_eq_ok_iff {validate : Bytes → Except VcsError Unit} {recordName : String}
    {count : Nat} {fields rest : List Bytes} :
    validateFields validate recordName count fields = .ok rest ↔
      ∃ taken, fields = taken ++ rest ∧ taken.length = count ∧
        ∀ field ∈ taken, field ≠ [] ∧ validate field = .ok () := by
  induction count generalizing fields with
  | zero =>
    constructor
    · intro h
      cases h
      exact ⟨[], rfl, rfl, by simp⟩
    · intro ⟨taken, hfields, hlength, _⟩
      rw [hfields, List.length_eq_zero_iff.mp hlength]
      rfl
  | succ count ih =>
    simp only [validateFields, bind_eq_ok_iff, Prod.exists, nextField_eq_ok_iff, ih]
    constructor
    · intro ⟨field, _, ⟨hfields, hne⟩, _, hvalid, taken, hrest, hlength, hall⟩
      refine ⟨field :: taken, ?_, ?_, ?_⟩
      · rw [hfields, hrest, List.cons_append]
      · rw [List.length_cons, hlength]
      · exact List.forall_mem_cons.mpr ⟨⟨hne, hvalid⟩, hall⟩
    · intro ⟨taken, hfields, hlength, hall⟩
      cases taken with
      | nil => simp at hlength
      | cons field taken =>
        have ⟨⟨hne, hvalid⟩, hrest⟩ := List.forall_mem_cons.mp hall
        exact ⟨field, _, ⟨hfields, hne⟩, (), hvalid, taken, rfl, by simpa using hlength, hrest⟩

theorem accept_eq_ok_iff {condition : Prop} [Decidable condition] {error : VcsError} {u : Unit} :
    (if condition then .ok () else .error error : Except VcsError Unit) = .ok u ↔ condition := by
  split
  next h => simp [h]
  next h => simp [h]

theorem validateMode_eq_ok_iff {field : Bytes} : validateMode field = .ok () ↔ IsMode field :=
  accept_eq_ok_iff

theorem validateObjectId_eq_ok_iff {field : Bytes} :
    validateObjectId field = .ok () ↔ IsObjectId field :=
  accept_eq_ok_iff

theorem validateSubmodule_eq_ok_iff {field : Bytes} {u : Unit} :
    validateSubmodule field = .ok u ↔ IsSubmodule field := by
  unfold validateSubmodule
  split
  next tag commit modified untracked =>
    have hcondition : ([tag, commit, modified, untracked] = ascii "N..." ∨
        [tag] = ascii "S" ∧ commit ∈ ascii ".C" ∧ modified ∈ ascii ".M" ∧ untracked ∈ ascii ".U") ↔
        IsSubmodule [tag, commit, modified, untracked] := by
      apply or_congr_right
      constructor
      · intro ⟨htag, hcommit, hmodified, huntracked⟩
        exact ⟨commit, modified, untracked, by rw [← htag]; rfl, hcommit, hmodified, huntracked⟩
      · intro ⟨_, _, _, hfield, hcommit, hmodified, huntracked⟩
        cases hfield
        exact ⟨rfl, hcommit, hmodified, huntracked⟩
    rw [accept_eq_ok_iff, hcondition]
  next hother =>
    simp only [reduceCtorEq, false_iff]
    intro h
    cases h with
    | inl hplain => exact hother _ _ _ _ hplain
    | inr hrest =>
      have ⟨_, _, _, hfield, _⟩ := hrest
      exact hother _ _ _ _ hfield

theorem mode_ne_nil {field : Bytes} (h : IsMode field) : field ≠ [] := by
  intro hnil
  simp [hnil, IsMode] at h

theorem objectId_ne_nil {field : Bytes} (h : IsObjectId field) : field ≠ [] := by
  intro hnil
  simp [hnil, IsObjectId] at h

theorem submodule_ne_nil {field : Bytes} (h : IsSubmodule field) : field ≠ [] := by
  intro hnil
  rw [hnil] at h
  cases h with
  | inl hplain => exact absurd hplain (by decide)
  | inr hrest =>
    have ⟨_, _, _, hfield, _⟩ := hrest
    exact absurd hfield (by simp)

/-- The fields in front of a tracked path. -/
theorem parseColumns_eq_ok_iff {marker : Bytes} {recordName : String}
    {readXy : Bytes → Except VcsError States} {modes objectIds : Nat} {fields rest : List Bytes}
    {states : States} (hmarker : marker ≠ []) :
    parseColumns marker recordName readXy modes objectIds fields = .ok (states, rest) ↔
      ∃ xy, ∃ columns : Columns modes objectIds,
        fields = marker :: xy :: (columns.fields ++ rest) ∧ xy ≠ [] ∧ readXy xy = .ok states := by
  simp only [parseColumns, bind_eq_ok_iff, Prod.exists, nextField_eq_ok_iff,
    expectMarker_eq_ok_iff hmarker, validateFields_eq_ok_iff, validateMode_eq_ok_iff,
    validateObjectId_eq_ok_iff, validateSubmodule_eq_ok_iff, Except.ok.injEq, Prod.mk.injEq]
  constructor
  · intro ⟨_, hfields, xy, _, ⟨hxy, hne⟩, _, _, hread, submodule, _, ⟨hsubmodule, _⟩, _, hvalid, _,
      ⟨modeFields, hmodes, hmodeCount, hmodesValid⟩, _,
      ⟨objectIdFields, hids, hidCount, hidsValid⟩, hstates, hrest⟩
    refine ⟨xy, ⟨submodule, modeFields, objectIdFields, hvalid, hmodeCount,
      fun field hfield => (hmodesValid field hfield).2, hidCount,
      fun field hfield => (hidsValid field hfield).2⟩, ?_, hne, hstates ▸ hread⟩
    rw [hfields, hxy, hsubmodule, hmodes, hids, hrest, Columns.fields, List.cons_append,
      List.append_assoc]
  · intro ⟨xy, columns, hfields, hne, hread⟩
    refine ⟨_, hfields, xy, _, ⟨rfl, hne⟩, states.1, states.2, hread, columns.submodule, _,
      ⟨rfl, submodule_ne_nil columns.submodule_valid⟩, (), columns.submodule_valid, _,
      ⟨columns.modeFields, List.append_assoc _ _ _, columns.length_modeFields,
        fun field hfield => ⟨mode_ne_nil (columns.modes_valid field hfield),
          columns.modes_valid field hfield⟩⟩, rest,
      ⟨columns.objectIdFields, rfl, columns.length_objectIdFields,
        fun field hfield => ⟨objectId_ne_nil (columns.objectIds_valid field hfield),
          columns.objectIds_valid field hfield⟩⟩, rfl, rfl⟩

/-! ## Reading states -/

theorem mapState_eq_ok_iff {byte : UInt8} {state : Option VcsStatusKind} :
    mapState byte = .ok state ↔ ∃ letter : StateLetter, letter.byte = byte ∧ letter.state = state := by
  constructor
  · intro h
    unfold mapState at h
    split_ifs at h with hbyte hbyte hbyte hbyte hbyte hbyte hbyte hbyte
    · exact ⟨.unchanged, (List.cons.inj hbyte).1.symm, Except.ok.inj h⟩
    · exact ⟨.modified, (List.cons.inj hbyte).1.symm, Except.ok.inj h⟩
    · exact ⟨.added, (List.cons.inj hbyte).1.symm, Except.ok.inj h⟩
    · exact ⟨.deleted, (List.cons.inj hbyte).1.symm, Except.ok.inj h⟩
    · exact ⟨.renamed, (List.cons.inj hbyte).1.symm, Except.ok.inj h⟩
    · exact ⟨.copied, (List.cons.inj hbyte).1.symm, Except.ok.inj h⟩
    · exact ⟨.typeChanged, (List.cons.inj hbyte).1.symm, Except.ok.inj h⟩
    · exact ⟨.unmerged, (List.cons.inj hbyte).1.symm, Except.ok.inj h⟩
  · intro ⟨letter, hbyte, hstate⟩
    rw [← hbyte, ← hstate]
    cases letter <;> rfl

theorem parseXy_eq_ok_iff {xy : Bytes} {states : States} :
    parseXy xy = .ok states ↔
      ∃ x y : StateLetter, xy = [x.byte, y.byte] ∧ states = (x.state, y.state) := by
  constructor
  · intro h
    unfold parseXy at h
    split at h
    next first second =>
      have ⟨_, hindex, hrest⟩ := bind_eq_ok_iff.mp h
      have ⟨_, hworktree, hstates⟩ := bind_eq_ok_iff.mp hrest
      have ⟨x, hx, hxState⟩ := mapState_eq_ok_iff.mp hindex
      have ⟨y, hy, hyState⟩ := mapState_eq_ok_iff.mp hworktree
      cases hstates
      exact ⟨x, y, by rw [hx, hy], by rw [hxState, hyState]⟩
    next => contradiction
  · intro ⟨x, y, hxy, hstates⟩
    have hindex := mapState_eq_ok_iff.mpr ⟨x, rfl, rfl⟩
    have hworktree := mapState_eq_ok_iff.mpr ⟨y, rfl, rfl⟩
    rw [hxy, hstates, parseXy, hindex, ok_bind, hworktree, ok_bind]

theorem StateLetter.byte_injective : Function.Injective StateLetter.byte := by
  intro x y h
  cases x <;> cases y <;> first | rfl | exact absurd h (by decide)

theorem byte_mem_ordinary (letter : StateLetter) : letter.byte ∈ ascii ".MTAD" ↔ Plain letter := by
  cases letter <;> decide

theorem byte_mem_rename (letter : StateLetter) :
    letter.byte ∈ ascii ".MTADRC" ↔ letter ≠ .unmerged := by
  cases letter <;> decide

theorem bytes_eq_iff {x y x' y' : StateLetter} :
    [x.byte, y.byte] = [x'.byte, y'.byte] ↔ x = x' ∧ y = y' := by
  simp only [List.cons.injEq, StateLetter.byte_injective.eq_iff, and_true]

theorem validateOrdinaryXy_eq_ok_iff (x y : StateLetter) {u : Unit} :
    validateOrdinaryXy [x.byte, y.byte] = .ok u ↔
      Plain x ∧ Plain y ∧ ¬ (x = .unchanged ∧ y = .unchanged) := by
  have hdots : ascii ".." = [StateLetter.unchanged.byte, StateLetter.unchanged.byte] := rfl
  rw [validateOrdinaryXy, accept_eq_ok_iff, hdots, ne_eq, bytes_eq_iff]
  simp only [List.forall_mem_cons, List.not_mem_nil, false_implies, implies_true, and_true,
    byte_mem_ordinary, and_assoc]

theorem validateRenameXy_eq_ok_iff (x y : StateLetter) {u : Unit} :
    validateRenameXy [x.byte, y.byte] = .ok u ↔
      x ≠ .unmerged ∧ y ≠ .unmerged ∧ ¬ (x = .unchanged ∧ y = .unchanged) := by
  have hdots : ascii ".." = [StateLetter.unchanged.byte, StateLetter.unchanged.byte] := rfl
  rw [validateRenameXy, accept_eq_ok_iff, hdots, ne_eq, bytes_eq_iff]
  simp only [List.forall_mem_cons, List.not_mem_nil, false_implies, implies_true, and_true,
    byte_mem_rename, and_assoc]

theorem validateUnmergedXy_eq_ok_iff (x y : StateLetter) {u : Unit} :
    validateUnmergedXy [x.byte, y.byte] = .ok u ↔ UnmergedXy x y := by
  have hpairs : ["DD", "AU", "UD", "UA", "DU", "AA", "UU"].map ascii =
      ([(.deleted, .deleted), (.added, .unmerged), (.unmerged, .deleted), (.unmerged, .added),
        (.deleted, .unmerged), (.added, .added), (.unmerged, .unmerged)] :
          List (StateLetter × StateLetter)).map fun pair => [pair.1.byte, pair.2.byte] := rfl
  rw [validateUnmergedXy, accept_eq_ok_iff, hpairs, List.mem_map, UnmergedXy]
  constructor
  · intro ⟨pair, hmem, hbytes⟩
    have ⟨hx, hy⟩ := bytes_eq_iff.mp hbytes
    rw [← hx, ← hy]
    exact hmem
  · intro hmem
    exact ⟨(x, y), hmem, rfl⟩

theorem combinedKind_eq_ok_iff {index worktree : Option VcsStatusKind} {kind : VcsStatusKind} :
    combinedKind index worktree = .ok kind ↔ strongest index worktree = some kind := by
  have hfind : (precedence.find? fun kind => index = some kind || worktree = some kind) =
      strongest index worktree := by
    cases index with
    | none => cases worktree with
      | none => rfl
      | some state => cases state <;> rfl
    | some state => cases worktree with
      | none => cases state <;> rfl
      | some other => cases state <;> cases other <;> rfl
  rw [combinedKind, okOr_eq_ok_iff, hfind]

/-! ## Reading records -/

/-- No blank and no NUL. -/
def Solid (field : Bytes) : Prop := space ∉ field ∧ 0 ∉ field

theorem solid_of_range {field : Bytes} (h : ∀ byte ∈ field, 46 ≤ byte) : Solid field := by
  constructor
  · intro hmem
    exact absurd (h space hmem) (by decide)
  · intro hmem
    exact absurd (h 0 hmem) (by decide)

theorem solid_mode {field : Bytes} (h : IsMode field) : Solid field := by
  apply solid_of_range
  intro byte hbyte
  exact UInt8.le_trans (by decide) (h.2 byte hbyte).1

theorem solid_objectId {field : Bytes} (h : IsObjectId field) : Solid field := by
  apply solid_of_range
  intro byte hbyte
  cases h.2 byte hbyte with
  | inl hdigit => exact UInt8.le_trans (by decide) hdigit.1
  | inr hletter =>
    cases hletter with
    | inl hlower => exact UInt8.le_trans (by decide) hlower.1
    | inr hupper => exact UInt8.le_trans (by decide) hupper.1

theorem solid_submodule {field : Bytes} (h : IsSubmodule field) : Solid field := by
  apply solid_of_range
  have hstates : ∀ text ∈ [".C", ".M", ".U"], ∀ byte ∈ ascii text, 46 ≤ byte := by
    decide +kernel
  cases h with
  | inl hplain =>
    rw [hplain]
    decide +kernel
  | inr hrest =>
    have ⟨commit, modified, untracked, hfield, hcommit, hmodified, huntracked⟩ := hrest
    intro byte hbyte
    rw [hfield] at hbyte
    simp only [List.mem_append, List.mem_cons, List.not_mem_nil, or_false] at hbyte
    rcases hbyte with htag | heq | heq | heq
    · exact (by decide +kernel : ∀ byte ∈ ascii "S", 46 ≤ byte) byte htag
    · exact heq ▸ hstates ".C" (by decide) commit hcommit
    · exact heq ▸ hstates ".M" (by decide) modified hmodified
    · exact heq ▸ hstates ".U" (by decide) untracked huntracked

theorem solid_columns {modes objectIds : Nat} (columns : Columns modes objectIds) :
    ∀ field ∈ columns.fields, Solid field := by
  intro field hfield
  cases List.mem_cons.mp hfield with
  | inl hsubmodule => exact hsubmodule ▸ solid_submodule columns.submodule_valid
  | inr hrest =>
    cases List.mem_append.mp hrest with
    | inl hmode => exact solid_mode (columns.modes_valid field hmode)
    | inr hid => exact solid_objectId (columns.objectIds_valid field hid)

theorem solid_xy (x y : StateLetter) : Solid [x.byte, y.byte] := by
  apply solid_of_range
  intro byte hbyte
  have hletter (letter : StateLetter) : 46 ≤ letter.byte := by
    cases letter <;> decide
  simp only [List.mem_cons, List.not_mem_nil, or_false] at hbyte
  rcases hbyte with heq | heq
  · exact heq ▸ hletter x
  · exact heq ▸ hletter y

theorem solid_score (score : Score) : Solid score.text := by
  apply solid_of_range
  intro byte hbyte
  cases List.mem_cons.mp hbyte with
  | inl htag =>
    rw [htag]
    split
    · decide
    · decide
  | inr hdigit => exact UInt8.le_trans (by decide) (score.valid.2.2.1 byte hdigit).1

@[simp] theorem length_columns {modes objectIds : Nat} (columns : Columns modes objectIds) :
    columns.fields.length = modes + objectIds + 1 := by
  rw [Columns.fields, List.length_cons, List.length_append, columns.length_modeFields,
    columns.length_objectIdFields]

theorem readOrdinaryXy_eq_ok_iff {xy : Bytes} {states : States} :
    readOrdinaryXy xy = .ok states ↔ ∃ x y : StateLetter, xy = [x.byte, y.byte] ∧
      states = (x.state, y.state) ∧ Plain x ∧ Plain y ∧ ¬ (x = .unchanged ∧ y = .unchanged) := by
  simp only [readOrdinaryXy, bind_eq_ok_iff, parseXy_eq_ok_iff]
  constructor
  · intro ⟨_, ⟨x, y, hxy, hstates⟩, _, hvalid, hsame⟩
    cases hsame
    rw [hxy] at hvalid
    exact ⟨x, y, hxy, hstates, (validateOrdinaryXy_eq_ok_iff x y).mp hvalid⟩
  · intro ⟨x, y, hxy, hstates, hvalid⟩
    exact ⟨states, ⟨x, y, hxy, hstates⟩, (), hxy ▸ (validateOrdinaryXy_eq_ok_iff x y).mpr hvalid, rfl⟩

theorem readRenameXy_eq_ok_iff {xy : Bytes} {states : States} :
    readRenameXy xy = .ok states ↔ ∃ x y : StateLetter, xy = [x.byte, y.byte] ∧
      states = (x.state, y.state) ∧ x ≠ .unmerged ∧ y ≠ .unmerged ∧
        ¬ (x = .unchanged ∧ y = .unchanged) := by
  simp only [readRenameXy, bind_eq_ok_iff, parseXy_eq_ok_iff]
  constructor
  · intro ⟨_, ⟨x, y, hxy, hstates⟩, _, hvalid, hsame⟩
    cases hsame
    rw [hxy] at hvalid
    exact ⟨x, y, hxy, hstates, (validateRenameXy_eq_ok_iff x y).mp hvalid⟩
  · intro ⟨x, y, hxy, hstates, hvalid⟩
    exact ⟨states, ⟨x, y, hxy, hstates⟩, (), hxy ▸ (validateRenameXy_eq_ok_iff x y).mpr hvalid, rfl⟩

theorem readUnmergedXy_eq_ok_iff {xy : Bytes} {states : States} :
    readUnmergedXy xy = .ok states ↔ ∃ x y : StateLetter, xy = [x.byte, y.byte] ∧
      states = (x.state, y.state) ∧ UnmergedXy x y := by
  simp only [readUnmergedXy, bind_eq_ok_iff, parseXy_eq_ok_iff]
  constructor
  · intro ⟨_, hvalid, x, y, hxy, hstates⟩
    rw [hxy] at hvalid
    exact ⟨x, y, hxy, hstates, (validateUnmergedXy_eq_ok_iff x y).mp hvalid⟩
  · intro ⟨x, y, hxy, hstates, hvalid⟩
    exact ⟨(), hxy ▸ (validateUnmergedXy_eq_ok_iff x y).mpr hvalid, x, y, hxy, hstates⟩

theorem parseOrdinary_eq_ok_iff {record : Bytes} {entry : VcsEntryStatus} :
    parseOrdinary record = .ok entry ↔
      ∃ x y kind, OrdinaryXy x y kind ∧ ∃ (columns : Columns 3 2) (path : Bytes),
        record = frame space (ascii "1" :: [x.byte, y.byte] :: columns.fields) ++ path ∧
        path ≠ [] ∧ makeEntry path none kind (x.state, y.state) = .ok entry := by
  have hmarker : ascii "1" ≠ [] := by decide
  simp only [parseOrdinary, bind_eq_ok_iff, Prod.exists, parseColumns_eq_ok_iff hmarker,
    nextField_eq_ok_iff, readOrdinaryXy_eq_ok_iff, combinedKind_eq_ok_iff, Prod.mk.injEq]
  constructor
  · intro ⟨_, _, _, ⟨_, columns, hfields, _, x, y, hxy, ⟨hindex, hworktree⟩, hx, hy, _⟩, path, others,
      ⟨hpath, hne⟩, kind, hkind, hentry⟩
    rw [hpath, hxy] at hfields
    have hsplit : splitN space ((ascii "1" :: [x.byte, y.byte] :: columns.fields).length + 1) record =
        (ascii "1" :: [x.byte, y.byte] :: columns.fields) ++ path :: others := by
      simpa using hfields
    have ⟨hrecord, _, _⟩ := splitN_eq_iff.mp hsplit
    rw [hindex, hworktree] at hkind hentry
    exact ⟨x, y, kind, ⟨hx, hy, hkind⟩, columns, path, hrecord, hne, hentry⟩
  · intro ⟨x, y, kind, ⟨hx, hy, hkind⟩, columns, path, hrecord, hne, hentry⟩
    have hsolid : Unseparated space (ascii "1" :: [x.byte, y.byte] :: columns.fields) := by
      rw [unseparated_cons, unseparated_cons]
      exact ⟨by decide, (solid_xy x y).1, fun field hfield => (solid_columns columns field hfield).1⟩
    have hsplit := splitN_eq_iff.mpr ⟨hrecord, hsolid, rfl⟩
    have hchanged : ¬ (x = .unchanged ∧ y = .unchanged) := by
      intro ⟨hx, hy⟩
      rw [hx, hy] at hkind
      contradiction
    refine ⟨_, _, [path], ⟨[x.byte, y.byte], columns, ?_, by simp, x, y, rfl, ⟨rfl, rfl⟩, hx, hy, hchanged⟩,
      path, [], ⟨rfl, hne⟩, kind, hkind, hentry⟩
    simpa using hsplit

theorem parseScore_eq_ok_iff {text : Bytes} {kind : VcsStatusKind} :
    parseScore text = .ok kind ↔ ∃ score : Score, text = score.text ∧ score.kind = kind := by
  unfold parseScore
  constructor
  · intro h
    split at h
    next => contradiction
    next tag similarity =>
      split_ifs at h with hsimilarity hrenamed hcopied
      · cases h
        exact ⟨⟨false, similarity, hsimilarity⟩,
          by rw [(List.cons.inj hrenamed).1]; rfl, rfl⟩
      · cases h
        exact ⟨⟨true, similarity, hsimilarity⟩,
          by rw [(List.cons.inj hcopied).1]; rfl, rfl⟩
  · intro ⟨score, htext, hkind⟩
    rw [htext, ← hkind]
    have ⟨copied, similarity, hvalid⟩ := score
    simp only [Score.text, not_not.mpr hvalid, if_false]
    cases copied <;> rfl

theorem parseRenameOrCopy_eq_ok_iff {record source : Bytes} {entry : VcsEntryStatus} :
    parseRenameOrCopy record source = .ok entry ↔
      ∃ x y, ∃ score : Score, RenameXy x y score.kind ∧ ∃ (columns : Columns 3 2) (path : Bytes),
        record = frame space
          (ascii "2" :: [x.byte, y.byte] :: (columns.fields ++ [score.text])) ++ path ∧
        path ≠ [] ∧ makeEntry path (some source) score.kind (x.state, y.state) = .ok entry := by
  have hmarker : ascii "2" ≠ [] := by decide
  simp only [parseRenameOrCopy, bind_eq_ok_iff, Prod.exists, parseColumns_eq_ok_iff hmarker,
    nextField_eq_ok_iff, readRenameXy_eq_ok_iff, parseScore_eq_ok_iff, rejectIf_eq_ok_iff,
    Prod.mk.injEq]
  constructor
  · intro ⟨_, _, _, ⟨_, columns, hfields, _, x, y, hxy, ⟨hindex, hworktree⟩, hx, hy, _⟩, _, _,
      ⟨hscored, _⟩, _, ⟨score, htext, hkind⟩, _, hmatch, path, others, ⟨hpath, hne⟩, hentry⟩
    rw [hscored, hpath, htext, hxy] at hfields
    have hsplit : splitN space
        ((ascii "2" :: [x.byte, y.byte] :: (columns.fields ++ [score.text])).length + 1) record =
        (ascii "2" :: [x.byte, y.byte] :: (columns.fields ++ [score.text])) ++ path :: others := by
      simpa using hfields
    have ⟨hrecord, _, _⟩ := splitN_eq_iff.mp hsplit
    rw [hindex, hworktree, ← hkind] at hmatch hentry
    have hstates : x.state = some score.kind ∨ y.state = some score.kind := by
      by_contra hneither
      exact hmatch (not_or.mp hneither)
    exact ⟨x, y, score, ⟨hx, hy, hstates⟩, columns, path, hrecord, hne, hentry⟩
  · intro ⟨x, y, score, ⟨hx, hy, hstates⟩, columns, path, hrecord, hne, hentry⟩
    have hsolid : Unseparated space
        (ascii "2" :: [x.byte, y.byte] :: (columns.fields ++ [score.text])) := by
      rw [unseparated_cons, unseparated_cons, unseparated_append, unseparated_cons]
      exact ⟨by decide, (solid_xy x y).1, fun field hfield => (solid_columns columns field hfield).1,
        (solid_score score).1, unseparated_nil⟩
    have hsplit := splitN_eq_iff.mpr ⟨hrecord, hsolid, rfl⟩
    have hchanged : ¬ (x = .unchanged ∧ y = .unchanged) := by
      intro ⟨hx, hy⟩
      rw [hx, hy] at hstates
      cases hstates <;> contradiction
    refine ⟨_, _, [score.text, path], ⟨[x.byte, y.byte], columns, ?_, by simp, x, y, rfl, ⟨rfl, rfl⟩,
      hx, hy, hchanged⟩, score.text, [path], ⟨rfl, by simp [Score.text]⟩, score.kind,
      ⟨score, rfl, rfl⟩, (), ?_, path, [], ⟨rfl, hne⟩, hentry⟩
    · simpa using hsplit
    · intro ⟨hindex, hworktree⟩
      cases hstates with
      | inl h => exact hindex h
      | inr h => exact hworktree h

theorem parseUnmerged_eq_ok_iff {record : Bytes} {entry : VcsEntryStatus} :
    parseUnmerged record = .ok entry ↔
      ∃ x y, UnmergedXy x y ∧ ∃ (columns : Columns 4 3) (path : Bytes),
        record = frame space (ascii "u" :: [x.byte, y.byte] :: columns.fields) ++ path ∧
        path ≠ [] ∧ makeEntry path none .conflicted (x.state, y.state) = .ok entry := by
  have hmarker : ascii "u" ≠ [] := by decide
  simp only [parseUnmerged, bind_eq_ok_iff, Prod.exists, parseColumns_eq_ok_iff hmarker,
    nextField_eq_ok_iff, readUnmergedXy_eq_ok_iff, Prod.mk.injEq]
  constructor
  · intro ⟨_, _, _, ⟨_, columns, hfields, _, x, y, hxy, ⟨hindex, hworktree⟩, hvalid⟩, path, others,
      ⟨hpath, hne⟩, hentry⟩
    rw [hpath, hxy] at hfields
    have hsplit : splitN space ((ascii "u" :: [x.byte, y.byte] :: columns.fields).length + 1) record =
        (ascii "u" :: [x.byte, y.byte] :: columns.fields) ++ path :: others := by
      simpa using hfields
    have ⟨hrecord, _, _⟩ := splitN_eq_iff.mp hsplit
    rw [hindex, hworktree] at hentry
    exact ⟨x, y, hvalid, columns, path, hrecord, hne, hentry⟩
  · intro ⟨x, y, hvalid, columns, path, hrecord, hne, hentry⟩
    have hsolid : Unseparated space (ascii "u" :: [x.byte, y.byte] :: columns.fields) := by
      rw [unseparated_cons, unseparated_cons]
      exact ⟨by decide, (solid_xy x y).1, fun field hfield => (solid_columns columns field hfield).1⟩
    have hsplit := splitN_eq_iff.mpr ⟨hrecord, hsolid, rfl⟩
    refine ⟨_, _, [path], ⟨[x.byte, y.byte], columns, ?_, by simp, x, y, rfl, ⟨rfl, rfl⟩, hvalid⟩,
      path, [], ⟨rfl, hne⟩, hentry⟩
    simpa using hsplit

theorem stripTag_eq_some_iff {tag : String} {record path : Bytes} :
    stripTag tag record = some path ↔ record = ascii tag ++ path := by
  unfold stripTag
  split
  next h =>
    have ⟨rest, hrest⟩ := List.isPrefixOf_iff_prefix.mp h
    rw [← hrest, List.drop_left, Option.some.injEq, List.append_cancel_left_eq]
  next h =>
    simp only [reduceCtorEq, false_iff]
    intro heq
    exact h (List.isPrefixOf_iff_prefix.mpr ⟨path, heq.symm⟩)

theorem parseUntracked_eq_ok_iff {record : Bytes} {entry : VcsEntryStatus} :
    parseUntracked record = .ok entry ↔ ∃ path, record = ascii "? " ++ path ∧
      makeEntry path none .untracked (none, some .untracked) = .ok entry := by
  simp only [parseUntracked, bind_eq_ok_iff, okOr_eq_ok_iff, stripTag_eq_some_iff]

theorem exists_makeEntry (path : StatusPath) (source : Option StatusPath) (kind : VcsStatusKind)
    (hkind : kind = .renamed ∨ kind = .copied → source.isSome) (states : States) :
    ∃ entry, makeEntry path.raw (source.map StatusPath.raw) kind states = .ok entry ∧
      changeOf entry = ⟨path.path, source.map StatusPath.path, kind, states.1, states.2⟩ := by
  have ⟨entry, hentry, hchange⟩ := exists_newEntry path source hkind states.1 states.2
  refine ⟨entry, mapError_eq_ok_iff.mpr ?_, hchange⟩
  rw [Option.map_map]
  exact hentry

theorem of_makeEntry {path : Bytes} {source : Option Bytes} {kind : VcsStatusKind} {states : States}
    {entry : VcsEntryStatus} (h : makeEntry path source kind states = .ok entry) (hpath : 0 ∉ path)
    (hsource : ∀ bytes ∈ source, 0 ∉ bytes) :
    ∃ (printed : StatusPath) (printedSource : Option StatusPath),
      path = printed.raw ∧ source = printedSource.map StatusPath.raw := by
  have ⟨printed, printedSource, hsame, hsameSource, _⟩ :=
    of_newEntry (mapError_eq_ok_iff.mp h) hpath hsource
  exact ⟨printed, printedSource, hsame, hsameSource⟩

/-! ## Reading the output -/

def GitRecord.tag : GitRecord → UInt8
  | header _ _ => 35
  | ordinary _ _ _ _ _ _ => 49
  | renameOrCopy _ _ _ _ _ _ _ => 50
  | unmerged _ _ _ _ _ => 117
  | untracked _ => 63
  | ignored _ _ => 33

/-- The texts behind the first. -/
def GitRecord.more : GitRecord → List Bytes
  | renameOrCopy _ _ _ _ _ _ source => [source.raw]
  | _ => []

theorem rows_eq (record : GitRecord) :
    ∃ row, record.rows = row :: record.more ∧ row.head? = some record.tag := by
  cases record <;> exact ⟨_, rfl, rfl⟩

theorem length_more (record : GitRecord) :
    record.more.length = if record.tag = 50 then 1 else 0 := by
  cases record <;> rfl

theorem pushEntry_eq_ok_iff {entries result : List VcsEntryStatus} {entry : VcsEntryStatus} :
    pushEntry entries entry = .ok result ↔
      entries.length ≠ maxStatusEntries ∧ result = entries ++ [entry] := by
  unfold pushEntry
  split
  next h => simp [h]
  next h => simp [h, eq_comm]

theorem strongest_mem {index worktree : Option VcsStatusKind} {kind : VcsStatusKind}
    (h : strongest index worktree = some kind) : index = some kind ∨ worktree = some kind := by
  cases index with
  | none => cases worktree with
    | none => contradiction
    | some other => exact Or.inr h
  | some state => cases worktree with
    | none => exact Or.inl h
    | some other =>
      have hmin : min state other = kind := Option.some.inj h
      cases min_choice state other with
      | inl hstate => exact Or.inl (congrArg some (hstate.symm.trans hmin))
      | inr hother => exact Or.inr (congrArg some (hother.symm.trans hmin))

/-- The states of an ordinary record are no moves. -/
theorem kind_of_ordinaryXy {x y : StateLetter} {kind : VcsStatusKind} (h : OrdinaryXy x y kind) :
    kind ≠ .renamed ∧ kind ≠ .copied := by
  have hletter (letter : StateLetter) (hplain : Plain letter) (hstate : letter.state = some kind) :
      kind ≠ .renamed ∧ kind ≠ .copied := by
    cases letter <;> first
      | exact absurd hplain (by decide)
      | cases hstate <;> exact ⟨nofun, nofun⟩
  cases strongest_mem h.2.2 with
  | inl hx => exact hletter x h.1 hx
  | inr hy => exact hletter y h.2.1 hy

/-- A record that can be read adds its entry, if it has one. -/
theorem parseRecords_rows (record : GitRecord) (rest : List Bytes) (entries : List VcsEntryStatus)
    (hroom : record.change.isSome → entries.length ≠ maxStatusEntries) :
    ∃ more, parseRecords (record.rows ++ rest) entries = parseRecords rest (entries ++ more) ∧
      more.map changeOf = record.change.toList := by
  have hplain {kind : VcsStatusKind} (hkind : kind ≠ .renamed ∧ kind ≠ .copied) :
      kind = .renamed ∨ kind = .copied → (none : Option StatusPath).isSome := by
    intro h
    cases h with
    | inl h => exact absurd h hkind.1
    | inr h => exact absurd h hkind.2
  have hpush (hfits : entries.length ≠ maxStatusEntries) (entry : VcsEntryStatus) :
      pushEntry entries entry = .ok (entries ++ [entry]) :=
    pushEntry_eq_ok_iff.mpr ⟨hfits, rfl⟩
  cases record with
  | header text hnul =>
    have hrows : (GitRecord.header text hnul).rows ++ rest = (35 :: text) :: rest := rfl
    refine ⟨[], ?_, rfl⟩
    rw [hrows, parseRecords.eq_def, List.append_nil]
    exact if_pos rfl
  | ordinary x y kind hvalid columns path =>
    have ⟨entry, hentry, hchange⟩ :=
      exists_makeEntry path none kind (hplain (kind_of_ordinaryXy hvalid)) (x.state, y.state)
    have hread := parseOrdinary_eq_ok_iff.mpr
      ⟨x, y, kind, hvalid, columns, path.raw, rfl, path.raw_ne_nil, hentry⟩
    refine ⟨[entry], ?_, congrArg (fun change => [change]) hchange⟩
    have hrows : (GitRecord.ordinary x y kind hvalid columns path).rows ++ rest =
      (frame space (ascii "1" :: [x.byte, y.byte] :: columns.fields) ++ path.raw) :: rest := rfl
    rw [hrows, parseRecords.eq_def]
    change (parseOrdinary _ >>= _) = _
    rw [hread, ok_bind, hpush (hroom rfl), ok_bind]
  | renameOrCopy x y score hvalid columns path source =>
    have ⟨entry, hentry, hchange⟩ :=
      exists_makeEntry path (some source) score.kind (fun _ => rfl) (x.state, y.state)
    have hread := parseRenameOrCopy_eq_ok_iff.mpr
      ⟨x, y, score, hvalid, columns, path.raw, rfl, path.raw_ne_nil, hentry⟩
    refine ⟨[entry], ?_, congrArg (fun change => [change]) hchange⟩
    change (parseRenameOrCopy _ _ >>= _) = _
    rw [hread, ok_bind, hpush (hroom rfl), ok_bind]
    rfl
  | unmerged x y hvalid columns path =>
    have ⟨entry, hentry, hchange⟩ :=
      exists_makeEntry path none .conflicted (hplain ⟨nofun, nofun⟩) (x.state, y.state)
    have hread := parseUnmerged_eq_ok_iff.mpr
      ⟨x, y, hvalid, columns, path.raw, rfl, path.raw_ne_nil, hentry⟩
    refine ⟨[entry], ?_, congrArg (fun change => [change]) hchange⟩
    have hrows : (GitRecord.unmerged x y hvalid columns path).rows ++ rest =
      (frame space (ascii "u" :: [x.byte, y.byte] :: columns.fields) ++ path.raw) :: rest := rfl
    rw [hrows, parseRecords.eq_def]
    change (parseUnmerged _ >>= _) = _
    rw [hread, ok_bind, hpush (hroom rfl), ok_bind]
  | untracked path =>
    have ⟨entry, hentry, hchange⟩ :=
      exists_makeEntry path none .untracked (hplain ⟨nofun, nofun⟩) (none, some .untracked)
    have hread := parseUntracked_eq_ok_iff.mpr ⟨path.raw, rfl, hentry⟩
    refine ⟨[entry], ?_, congrArg (fun change => [change]) hchange⟩
    have hrows : (GitRecord.untracked path).rows ++ rest =
      (ascii "? " ++ path.raw) :: rest := rfl
    rw [hrows, parseRecords.eq_def]
    change (parseUntracked _ >>= _) = _
    rw [hread, ok_bind, hpush (hroom rfl), ok_bind]
  | ignored path hnul =>
    have hread := stripTag_eq_some_iff.mpr (rfl : ascii "! " ++ path = ascii "! " ++ path)
    have hrows : (GitRecord.ignored path hnul).rows ++ rest = (ascii "! " ++ path) :: rest := rfl
    refine ⟨[], ?_, rfl⟩
    rw [hrows, parseRecords.eq_def, List.append_nil]
    simp only [hread]
    rfl

theorem eq_cons_of_head? {row : Bytes} {tag : UInt8} (h : row.head? = some tag) :
    ∃ text, row = tag :: text := by
  cases row with
  | nil => contradiction
  | cons first text => exact ⟨text, by rw [Option.some.inj h]⟩

/-- What is read starts with a record. -/
theorem exists_record {row : Bytes} {fields : List Bytes} {entries result : List VcsEntryStatus}
    (h : parseRecords (row :: fields) entries = .ok result) (hnul : Unseparated 0 (row :: fields)) :
    ∃ record : GitRecord, ∃ rest, row :: fields = record.rows ++ rest ∧
      (record.change.isSome → entries.length ≠ maxStatusEntries) := by
  have hrow : 0 ∉ row := (unseparated_cons.mp hnul).1
  have hpathNul {start path : Bytes} (hsame : row = start ++ path) : 0 ∉ path := by
    intro hmem
    exact hrow (hsame ▸ List.mem_append_right _ hmem)
  have hnone : ∀ bytes ∈ (none : Option Bytes), (0 : UInt8) ∉ bytes := nofun
  rw [parseRecords.eq_def] at h
  simp only at h
  split at h
  next => contradiction
  next tag htag =>
    split_ifs at h with hheader hordinary hrename hunmerged huntracked hignored
    · have ⟨text, htext⟩ := eq_cons_of_head? htag
      have htextNul : 0 ∉ text := fun hmem => hrow (htext ▸ List.mem_cons_of_mem _ hmem)
      refine ⟨.header text htextNul, fields, ?_, nofun⟩
      rw [htext, (List.cons.inj hheader).1]
      rfl
    · have ⟨entry, hentry, hrest⟩ := bind_eq_ok_iff.mp h
      have ⟨_, hpush, _⟩ := bind_eq_ok_iff.mp hrest
      have ⟨x, y, kind, hvalid, columns, path, hsame, _, hmade⟩ := parseOrdinary_eq_ok_iff.mp hentry
      have ⟨printed, _, hprinted, _⟩ := of_makeEntry hmade (hpathNul hsame) hnone
      refine ⟨.ordinary x y kind hvalid columns printed, fields, ?_,
        fun _ => (pushEntry_eq_ok_iff.mp hpush).1⟩
      rw [hsame, hprinted]
      rfl
    · cases fields with
      | nil => contradiction
      | cons source fields =>
        have ⟨entry, hentry, hrest⟩ := bind_eq_ok_iff.mp h
        have ⟨_, hpush, _⟩ := bind_eq_ok_iff.mp hrest
        have ⟨x, y, score, hvalid, columns, path, hsame, _, hmade⟩ :=
          parseRenameOrCopy_eq_ok_iff.mp hentry
        have hsourceNul : ∀ bytes ∈ some source, (0 : UInt8) ∉ bytes := by
          intro bytes hbytes
          rw [← Option.some.inj hbytes]
          exact hnul source (by simp)
        have ⟨printed, printedSource, hprinted, hprintedSource⟩ :=
          of_makeEntry hmade (hpathNul hsame) hsourceNul
        cases printedSource with
        | none => contradiction
        | some printedSource =>
          refine ⟨.renameOrCopy x y score hvalid columns printed printedSource, fields, ?_,
            fun _ => (pushEntry_eq_ok_iff.mp hpush).1⟩
          rw [hsame, hprinted, Option.some.inj hprintedSource]
          rfl
    · have ⟨entry, hentry, hrest⟩ := bind_eq_ok_iff.mp h
      have ⟨_, hpush, _⟩ := bind_eq_ok_iff.mp hrest
      have ⟨x, y, hvalid, columns, path, hsame, _, hmade⟩ := parseUnmerged_eq_ok_iff.mp hentry
      have ⟨printed, _, hprinted, _⟩ := of_makeEntry hmade (hpathNul hsame) hnone
      refine ⟨.unmerged x y hvalid columns printed, fields, ?_,
        fun _ => (pushEntry_eq_ok_iff.mp hpush).1⟩
      rw [hsame, hprinted]
      rfl
    · have ⟨entry, hentry, hrest⟩ := bind_eq_ok_iff.mp h
      have ⟨_, hpush, _⟩ := bind_eq_ok_iff.mp hrest
      have ⟨path, hsame, hmade⟩ := parseUntracked_eq_ok_iff.mp hentry
      have ⟨printed, _, hprinted, _⟩ := of_makeEntry hmade (hpathNul hsame) hnone
      refine ⟨.untracked printed, fields, ?_, fun _ => (pushEntry_eq_ok_iff.mp hpush).1⟩
      rw [hsame, hprinted]
      rfl
    · have ⟨path, hpath, _⟩ := bind_eq_ok_iff.mp h
      have hsame := stripTag_eq_some_iff.mp (okOr_eq_ok_iff.mp hpath)
      refine ⟨.ignored path (hpathNul hsame), fields, ?_, nofun⟩
      rw [hsame]
      rfl

theorem filterMap_cons_toList (record : GitRecord) (records : List GitRecord) :
    (record :: records).filterMap GitRecord.change =
      record.change.toList ++ records.filterMap GitRecord.change := by
  rw [List.filterMap_cons]
  cases record.change <;> rfl

theorem parseRecords_records (records : List GitRecord) (entries : List VcsEntryStatus)
    (hroom : entries.length + (records.filterMap GitRecord.change).length ≤ maxStatusEntries) :
    ∃ more, parseRecords (records.flatMap GitRecord.rows) entries = .ok (entries ++ more) ∧
      more.map changeOf = records.filterMap GitRecord.change := by
  induction records generalizing entries with
  | nil => exact ⟨[], by rw [List.append_nil]; rfl, rfl⟩
  | cons record records ih =>
    rw [filterMap_cons_toList, List.length_append] at hroom
    have hfits : record.change.isSome → entries.length ≠ maxStatusEntries := by
      intro hsome
      have ⟨change, hchange⟩ := Option.isSome_iff_exists.mp hsome
      rw [hchange] at hroom
      simp only [Option.toList_some, List.length_singleton] at hroom
      omega
    have ⟨more, hmore, hchange⟩ :=
      parseRecords_rows record (records.flatMap GitRecord.rows) entries hfits
    have hcount : more.length = record.change.toList.length := by
      rw [← hchange, List.length_map]
    have ⟨others, hothers, hchanges⟩ := ih (entries ++ more) (by
      rw [List.length_append]
      omega)
    refine ⟨more ++ others, ?_, ?_⟩
    · rw [List.flatMap_cons, hmore, hothers, List.append_assoc]
    · rw [List.map_append, hchange, hchanges, filterMap_cons_toList]

theorem exists_records {fields : List Bytes} {entries result : List VcsEntryStatus}
    (h : parseRecords fields entries = .ok result) (hnul : Unseparated 0 fields)
    (hroom : entries.length ≤ maxStatusEntries) :
    ∃ records : List GitRecord, fields = records.flatMap GitRecord.rows ∧
      result.length ≤ maxStatusEntries ∧
      result.map changeOf = entries.map changeOf ++ records.filterMap GitRecord.change := by
  induction hlength : fields.length using Nat.strong_induction_on generalizing fields entries with
  | _ size ih =>
    cases fields with
    | nil =>
      cases h
      exact ⟨[], rfl, hroom, by simp⟩
    | cons row fields =>
      have ⟨record, rest, hrows, hfits⟩ := exists_record h hnul
      have ⟨more, hmore, hchange⟩ := parseRecords_rows record rest entries hfits
      rw [hrows, hmore] at h
      have hrest : Unseparated 0 rest := by
        rw [hrows] at hnul
        exact (unseparated_append.mp hnul).2
      have hcount : more.length = record.change.toList.length := by
        rw [← hchange, List.length_map]
      have hmoreRoom : (entries ++ more).length ≤ maxStatusEntries := by
        rw [List.length_append, hcount]
        cases hkind : record.change with
        | none => simpa using hroom
        | some change =>
          have := hfits (by rw [hkind]; rfl)
          simp only [Option.toList_some, List.length_singleton]
          omega
      have hshorter : rest.length < size := by
        have ⟨first, hfirst, _⟩ := rows_eq record
        have hsize := congrArg List.length hrows
        rw [hlength, hfirst, List.length_append, List.length_cons] at hsize
        omega
      have ⟨records, hrecords, hbound, hresult⟩ := ih _ hshorter h hrest hmoreRoom rfl
      refine ⟨record :: records, ?_, hbound, ?_⟩
      · rw [hrows, hrecords, List.flatMap_cons]
      · rw [hresult, List.map_append, hchange, filterMap_cons_toList, List.append_assoc]

theorem nul_notMem_frame {rows : List Bytes} (h : ∀ row ∈ rows, 0 ∉ row) :
    0 ∉ frame space rows := by
  intro hmem
  have ⟨row, hrow, hzero⟩ := List.mem_flatMap.mp hmem
  cases List.mem_append.mp hzero with
  | inl hin => exact h row hrow hin
  | inr hseparator => exact absurd hseparator (by decide)

theorem unseparated_rows (records : List GitRecord) :
    Unseparated 0 (records.flatMap GitRecord.rows) := by
  intro row hrow
  have ⟨record, _, hmem⟩ := List.mem_flatMap.mp hrow
  have htracked {marker : String} (hmarker : 0 ∉ ascii marker) (x y : StateLetter)
      {fields : List Bytes} (hfields : ∀ field ∈ fields, Solid field) (path : StatusPath) :
      0 ∉ frame space (ascii marker :: [x.byte, y.byte] :: fields) ++ path.raw := by
    rw [List.mem_append, not_or]
    refine ⟨nul_notMem_frame ?_, path.nul_free⟩
    rw [List.forall_mem_cons, List.forall_mem_cons]
    exact ⟨hmarker, (solid_xy x y).2, fun field hfield => (hfields field hfield).2⟩
  have htagged {tag : String} (htag : 0 ∉ ascii tag) {text : Bytes} (htext : 0 ∉ text) :
      0 ∉ ascii tag ++ text := by
    rw [List.mem_append, not_or]
    exact ⟨htag, htext⟩
  cases record with
  | header text hnul => exact List.mem_singleton.mp hmem ▸ htagged (by decide) hnul
  | ordinary x y kind hvalid columns path =>
    exact List.mem_singleton.mp hmem ▸ htracked (by decide) x y (solid_columns columns) path
  | renameOrCopy x y score hvalid columns path source =>
    cases List.mem_cons.mp hmem with
    | inl hfirst =>
      rw [hfirst]
      apply htracked (by decide) x y _ path
      intro field hfield
      cases List.mem_append.mp hfield with
      | inl hcolumn => exact solid_columns columns field hcolumn
      | inr hscore => exact List.mem_singleton.mp hscore ▸ solid_score score
    | inr hsource => exact List.mem_singleton.mp hsource ▸ source.nul_free
  | unmerged x y hvalid columns path =>
    exact List.mem_singleton.mp hmem ▸ htracked (by decide) x y (solid_columns columns) path
  | untracked path => exact List.mem_singleton.mp hmem ▸ htagged (by decide) path.nul_free
  | ignored path hnul => exact List.mem_singleton.mp hmem ▸ htagged (by decide) hnul

theorem flatMap_rows_ne_nil {records : List GitRecord} (hne : records ≠ []) :
    records.flatMap GitRecord.rows ≠ [] := by
  have ⟨record, rest, hrecords⟩ := List.exists_cons_of_ne_nil hne
  have ⟨row, hrow, _⟩ := rows_eq record
  simp [hrecords, hrow]

/-- What the parser takes is exactly what is printed for a list of records with
few enough changes. -/
theorem parsePorcelainV2_eq_ok_iff {unstable : UnstableSort} {output : Bytes}
    {snapshot : VcsStatusSnapshot} :
    parsePorcelainV2 unstable output = .ok snapshot ↔
      ∃ records : List GitRecord,
        (records.filterMap GitRecord.change).length ≤ maxStatusEntries ∧ output = render records ∧
        snapshot.stale = false ∧
        ∃ entries, entries.map changeOf = records.filterMap GitRecord.change ∧
          snapshot.entries = unstable.sort entries := by
  have hempty : unstable.sort [] = [] := (unstable.perm []).eq_nil
  unfold parsePorcelainV2
  constructor
  · intro h
    split at h
    next => contradiction
    next hterminated =>
      split at h
      next hnil =>
        cases h
        exact ⟨[], Nat.zero_le _, hnil, rfl, [], rfl, hempty.symm⟩
      next hne =>
        have hlast : output.getLast? = some 0 := by
          by_contra hlast
          exact hterminated ⟨hne, hlast⟩
        have ⟨entries, hentries, hok⟩ := bind_eq_ok_iff.mp h
        cases hok
        have ⟨houtput, hnul, _⟩ := eq_frame_iff.mpr ⟨hlast, rfl⟩
        have ⟨records, hrows, hbound, hchanges⟩ := exists_records hentries hnul (Nat.zero_le _)
        rw [List.map_nil, List.nil_append] at hchanges
        refine ⟨records, ?_, ?_, rfl, entries, hchanges, rfl⟩
        · rw [← hchanges, List.length_map]
          exact hbound
        · rw [render, ← hrows]
          exact houtput
  · intro ⟨records, hbound, houtput, hstale, entries, hchanges, hentries⟩
    have hsnapshot : snapshot = ⟨unstable.sort entries, false⟩ := by
      rw [← hentries, ← hstale]
    rw [hsnapshot]
    by_cases hnone : records = []
    · rw [hnone] at houtput hchanges
      have hnil : entries = [] := List.map_eq_nil_iff.mp hchanges
      have houtputNil : output = [] := houtput
      rw [houtputNil, hnil, hempty, if_neg (by simp), if_pos rfl]
    · have ⟨hlast, hsplit⟩ :=
        eq_frame_iff.mp ⟨houtput, unseparated_rows records, flatMap_rows_ne_nil hnone⟩
      have hne : output ≠ [] := by
        intro hnil
        rw [hnil] at hlast
        contradiction
      have ⟨more, hmore, hsame⟩ := parseRecords_records records [] ((Nat.zero_add _).trans_le hbound)
      have hread : more = entries :=
        List.map_injective_iff.mpr changeOf_injective (hsame.trans hchanges.symm)
      rw [if_neg (fun h => h.2 hlast), if_neg hne, hsplit, hmore, List.nil_append, ok_bind, hread]

/-- Records are told apart by their first texts. -/
theorem flatMap_rows_prefix {records others : List GitRecord}
    (h : others.flatMap GitRecord.rows <+: records.flatMap GitRecord.rows) :
    ∃ count, others.flatMap GitRecord.rows = (records.take count).flatMap GitRecord.rows := by
  induction others generalizing records with
  | nil => exact ⟨0, by rw [List.take_zero]⟩
  | cons other others ih =>
    have ⟨otherRow, hotherRows, hotherTag⟩ := rows_eq other
    cases records with
    | nil =>
      have hnil := List.prefix_nil.mp h
      exact absurd hnil (flatMap_rows_ne_nil (by simp))
    | cons record records =>
      have ⟨row, hrows, htag⟩ := rows_eq record
      rw [List.flatMap_cons, List.flatMap_cons] at h
      have hfirst : otherRow = row := by
        rw [hotherRows, hrows, List.cons_append, List.cons_append] at h
        exact (List.cons_prefix_cons.mp h).1
      have htags : other.tag = record.tag := by
        rw [hfirst, htag] at hotherTag
        exact (Option.some.inj hotherTag).symm
      have hlength : other.rows.length = record.rows.length := by
        rw [hotherRows, hrows, List.length_cons, List.length_cons, length_more, length_more, htags]
      have ⟨rest, hrest⟩ := h
      rw [List.append_assoc] at hrest
      have ⟨hsame, htail⟩ := List.append_inj hrest hlength
      have ⟨count, hcount⟩ := ih ⟨rest, htail⟩
      exact ⟨count + 1, by rw [List.flatMap_cons, hsame, hcount, List.take_succ_cons,
        List.flatMap_cons]⟩

/-- A prefix that is accepted ends behind a record. -/
theorem accepted_prefix {unstable : UnstableSort} {records : List GitRecord} {cut : Bytes}
    {snapshot : VcsStatusSnapshot} (hcut : cut <+: render records)
    (h : parsePorcelainV2 unstable cut = .ok snapshot) :
    ∃ count, cut = render (records.take count) := by
  have ⟨others, _, hothers, _⟩ := parsePorcelainV2_eq_ok_iff.mp h
  rw [hothers] at hcut
  have hprefix := frame_prefix (unseparated_rows records) (unseparated_rows others) hcut
  have ⟨count, hcount⟩ := flatMap_rows_prefix hprefix
  exact ⟨count, by rw [hothers, render, render, hcount]⟩

/-- Records are read as their changes in the order of the paths, and nothing
but records is read. -/
theorem porcelain_v2_decoded (unstable : UnstableSort) :
    (∀ path : RelativePath, path ≠ [] →
      ∃ printed : StatusPath, printed.raw = path.bytes ∧ printed.path = path) ∧
    (∀ records : List GitRecord, records.length ≤ maxStatusEntries →
      ∃ snapshot, parsePorcelainV2 unstable (render records) = .ok snapshot ∧
        snapshot.stale = false ∧
        (snapshot.entries.map changeOf).Perm (records.filterMap GitRecord.change) ∧
        snapshot.entries.Pairwise fun left right => left.path ≤ right.path) ∧
    (∀ output snapshot, parsePorcelainV2 unstable output = .ok snapshot →
      ∃ records : List GitRecord, output = render records ∧
        (snapshot.entries.map changeOf).Perm (records.filterMap GitRecord.change)) ∧
    ∀ (records : List GitRecord) (cut : Bytes), cut <+: render records →
      (∃ snapshot, parsePorcelainV2 unstable cut = .ok snapshot) →
      ∃ count, cut = render (records.take count) := by
  refine ⟨fun path hne => ⟨StatusPath.ofRelative path hne, rfl, rfl⟩, ?_, ?_, ?_⟩
  · intro records hfits
    have hbound : (records.filterMap GitRecord.change).length ≤ maxStatusEntries :=
      Nat.le_trans (List.length_filterMap_le _ _) hfits
    have ⟨more, _, hsame⟩ := parseRecords_records records [] ((Nat.zero_add _).trans_le hbound)
    have hread : parsePorcelainV2 unstable (render records) = .ok ⟨unstable.sort more, false⟩ :=
      parsePorcelainV2_eq_ok_iff.mpr ⟨records, hbound, rfl, rfl, more, hsame, rfl⟩
    refine ⟨_, hread, rfl, ?_, unstable.sorted more⟩
    rw [← hsame]
    exact (unstable.perm more).map changeOf
  · intro output snapshot h
    have ⟨records, _, houtput, _, entries, hchanges, hentries⟩ := parsePorcelainV2_eq_ok_iff.mp h
    refine ⟨records, houtput, ?_⟩
    rw [hentries, ← hchanges]
    exact (unstable.perm entries).map changeOf
  · intro records cut hcut ⟨snapshot, h⟩
    exact accepted_prefix hcut h

/-- A stable sort is one of the sorts. -/
def pathSort : UnstableSort where
  sort entries := entries.mergeSort fun left right => decide (left.path ≤ right.path)
  perm entries := List.mergeSort_perm _ _
  sorted entries := by
    have htrans (first second third : VcsEntryStatus)
        (hfirst : decide (first.path ≤ second.path) = true)
        (hsecond : decide (second.path ≤ third.path) = true) :
        decide (first.path ≤ third.path) = true := by
      rw [decide_eq_true_eq] at hfirst hsecond ⊢
      exact le_trans hfirst hsecond
    have htotal (left right : VcsEntryStatus) :
        (decide (left.path ≤ right.path) || decide (right.path ≤ left.path)) = true := by
      rw [Bool.or_eq_true, decide_eq_true_eq, decide_eq_true_eq]
      exact le_total left.path right.path
    have hsorted := List.pairwise_mergeSort htrans htotal entries
    simpa using hsorted

/-- Every path names something below the root. -/
def GitRecord.Rooted : GitRecord → Prop
  | ignored path _ => ∃ names, names ≠ [] ∧ Normalizes ⟨path⟩ names
  | _ => True

/-- The path of an ignored record is not checked. -/
theorem ignored_path_unchecked :
    parsePorcelainV2 pathSort (ascii "! ../x" ++ [0]) = .ok ⟨[], false⟩ ∧
      ¬ ∃ records : List GitRecord, (∀ record ∈ records, record.Rooted) ∧
        ascii "! ../x" ++ [0] = render records := by
  constructor
  · have hsorted : pathSort.sort [] = [] := (pathSort.perm []).eq_nil
    apply parsePorcelainV2_eq_ok_iff.mpr
    exact ⟨[.ignored (ascii "../x") (by decide)], Nat.zero_le _, by decide, rfl, [], rfl,
      hsorted.symm⟩
  · intro ⟨records, hrooted, houtput⟩
    cases records with
    | nil => exact absurd houtput (by decide)
    | cons record records =>
      have ⟨_, hsplit⟩ := eq_frame_iff.mp
        ⟨houtput, unseparated_rows _, flatMap_rows_ne_nil (List.cons_ne_nil record records)⟩
      have hrow : (ascii "! ../x" ++ [0]).dropLast.splitOn 0 = [ascii "! ../x"] := by
        decide +kernel
      have hkept := hrooted record List.mem_cons_self
      rw [hrow, List.flatMap_cons] at hsplit
      cases record with
      | ignored path hnul =>
        have hpath := (List.cons.inj hsplit).1
        have ⟨names, _, hnormal⟩ := hkept
        have hbytes : path = ascii "../x" := by
          have hdropped := congrArg (List.drop 2) hpath
          exact hdropped.symm
        have hcomponents : components ⟨ascii "../x"⟩ = [.parentDir, .normal (ascii "x")] := by
          decide +kernel
        rw [hbytes, Normalizes, hcomponents] at hnormal
        cases names with
        | nil => contradiction
        | cons name names => exact absurd (List.cons.inj hnormal).1 (by simp)
      | header text hnul => exact absurd (List.cons.inj (List.cons.inj hsplit).1).1 (by decide)
      | ordinary x y kind hvalid columns path =>
        exact absurd (List.cons.inj (List.cons.inj hsplit).1).1 (by decide)
      | renameOrCopy x y score hvalid columns path source =>
        exact absurd (List.cons.inj (List.cons.inj hsplit).1).1 (by decide)
      | unmerged x y hvalid columns path =>
        exact absurd (List.cons.inj (List.cons.inj hsplit).1).1 (by decide)
      | untracked path => exact absurd (List.cons.inj (List.cons.inj hsplit).1).1 (by decide)

end HerdrContext.Vcs.Git
