import HerdrContext.KnownStores.Metadata

/-! Checks that several session formats share: timestamps, tool versions,
identifiers, the recorded working directory and encoded project directories. -/
namespace HerdrContext.KnownStores

open Library

/-- A value that only needs to be there. -/
abbrev IgnoredAny := Unit

/-- `OffsetDateTime::parse(value, &Rfc3339)`, as nanoseconds from the epoch. -/
abbrev Rfc3339 := String → Option Int

def parseRfc3339 (rfc3339 : Rfc3339) (value : String) : Except FormatFailure SystemTime :=
  match rfc3339 value with
  | none => .error (.unsupported "native timestamp is not RFC 3339")
  | some nanos =>
    okOr (.unsupported "native timestamp is out of range") (SystemTime.ofNanos? nanos)

def validateToolVersion : Option String → Except FormatFailure Unit
  | none =>
    .error (.unsupported "tool version is missing from the validated record shape")
  | some value =>
    let components := value.toList.splitOn '.'
    rejectIf (components.length ≠ 3 ∨ components.any fun part => part = [] || !part.all Char.isDigit)
      (.unsupported "tool version is not a dotted numeric release")

/-- `PathBuf::from` of a string. -/
def pathOfString (value : String) : PathBuf := ⟨value.toUTF8.data.toList⟩

def canonicalCwd (canon : Canonicalizer) (value : String) (project : ProjectIdentity) :
    Except FormatFailure PathBuf := do
  let cwd ← okOr (.projectMismatch "native cwd is missing or cannot be canonicalized")
    (canon.canonicalPath (pathOfString value))
  rejectIf (¬ PathBuf.isWithin project.root cwd)
    (.projectMismatch "native cwd is outside the canonical project root")
  return cwd

theorem located_of_canonicalCwd {canon : Canonicalizer} {value : String} {project : ProjectIdentity}
    {cwd : PathBuf} (h : canonicalCwd canon value project = .ok cwd) :
    Located canon project cwd := by
  obtain ⟨path, hpath, h⟩ := bind_eq_ok_iff.mp h
  obtain ⟨⟨⟩, hwithin, h⟩ := bind_eq_ok_iff.mp h
  cases Except.ok.inj h
  apply located_of_within
  · exact Canonicalizer.canonicalPath_idem (okOr_eq_ok_iff.mp hpath)
  · simpa using hwithin

def isLowerHex (c : Char) : Bool := c.isDigit || ('a' ≤ c && c ≤ 'f')

/-- Lower-case hexadecimal in groups of 8-4-4-4-12, with the version and a
variant from `8` to `b`. -/
def uuidShape (version : Char) (value : List Char) : Bool :=
  value.length = 36 && value[8]? = some '-' && value[13]? = some '-' && value[18]? = some '-' &&
    value[23]? = some '-' && value[14]? = some version &&
    value[19]?.any (fun c => c = '8' || c = '9' || c = 'a' || c = 'b') &&
    value.zipIdx.all fun entry => [8, 13, 18, 23].contains entry.2 || isLowerHex entry.1

def validateUuid (value : String) (version : Char) : Except FormatFailure Unit :=
  rejectIf (¬ uuidShape version value.toList)
    (.unsupported "native session identifier is not the verified UUID variant")

/-- Native entry identifiers: eight lower-case hexadecimal digits. -/
def entryIdShape (value : List Char) : Bool := value.length = 8 && value.all isLowerHex

/-- `format!("{}_{id}.jsonl", timestamp.replace([':', '.'], "-"))`. -/
def stampedName (timestamp id : String) : List Char :=
  timestamp.toList.map (fun c => if c = ':' ∨ c = '.' then '-' else c) ++ '_' :: id.toList ++
    ".jsonl".toList

/-! ## Encoded project directories -/

def base36Digit (digit : Nat) : UInt8 :=
  if digit < 10 then UInt8.ofNat (48 + digit) else UInt8.ofNat (97 + (digit - 10))

def base36Digits : Nat → Nat → Bytes
  | 0, _ => []
  | fuel + 1, value =>
    if value = 0 then [] else base36Digits fuel (value / 36) ++ [base36Digit (value % 36)]

/-- `push_base36`. -/
def base36 (value : Nat) : Bytes := if value = 0 then [48] else base36Digits 13 value

def isAsciiAlphanumeric (byte : UInt8) : Bool :=
  (48 ≤ byte && byte ≤ 57) || (65 ≤ byte && byte ≤ 90) || (97 ≤ byte && byte ≤ 122)

def claudeUnit (unit : UInt16) : UInt8 :=
  if unit.toNat < 256 ∧ isAsciiAlphanumeric unit.toUInt8 then unit.toUInt8 else 45

/-- The 31-polynomial hash of the code units, as a wrapping 32-bit integer. -/
def claudeHash (units : List UInt16) : UInt32 :=
  units.foldl (fun hash unit => hash * 31 + unit.toUInt32) 0

/-- `i64::from(hash).unsigned_abs()` of the signed hash. -/
def claudeHashMagnitude (hash : UInt32) : Nat :=
  if hash.toNat < 2 ^ 31 then hash.toNat else 2 ^ 32 - hash.toNat

def claudePrefixLen : Nat := 200

def claudeProjectDirectory (path : PathBuf) : OsString :=
  let units := encodeUtf16 (toStringLossy path.bytes)
  let encoded := units.map claudeUnit
  if claudePrefixLen < encoded.length then
    encoded.take claudePrefixLen ++ 45 :: base36 (claudeHashMagnitude (claudeHash units))
  else encoded

/-- Path components with a slash between them. -/
def joinSlash : List OsString → Bytes
  | [] => []
  | [name] => name
  | name :: rest => name ++ slash :: joinSlash rest

/-- `bytes.strip_prefix(b"/").unwrap_or(bytes)`. -/
def stripSlash : Bytes → Bytes
  | [] => []
  | byte :: rest => if byte = slash then rest else byte :: rest

def piProjectDirectory (path : PathBuf) : OsString :=
  [45, 45] ++ (stripSlash path.bytes).map (fun byte => if byte = slash then 45 else byte) ++ [45, 45]

/-! ## Records -/

def maxRecordBytes : Nat := 256 * 1024
def maxRecords : Nat := 32768
def newline : UInt8 := 10
def carriageReturn : UInt8 := 13

/-- `line.strip_suffix(b"\r").unwrap_or(line)`. -/
def stripCarriageReturn (line : Bytes) : Bytes :=
  if line.getLast? = some carriageReturn then line.dropLast else line

/-- The lines of a snapshot, the last of them without its newline. -/
def collectRecords : Nat → List Bytes → Except FormatFailure (List Bytes)
  | _, [] => .ok []
  | count, line :: rest => do
    let line := stripCarriageReturn line
    rejectIf (line = []) (.unsupported "known JSONL contains an empty record")
    rejectIf (maxRecordBytes < line.length) (.unsupported "known JSONL record exceeds the byte limit")
    rejectIf (maxRecords < count + 1) (.unsupported "known JSONL exceeds the record limit")
    let records ← collectRecords (count + 1) rest
    return line :: records

/-- `complete_records` of a snapshot that ends with a newline. -/
def completeRecords (snapshot : Bytes) : Except FormatFailure (List Bytes) :=
  collectRecords 0 (snapshot.dropLast.splitOn newline)

theorem collectRecords_length {count : Nat} {lines records : List Bytes}
    (h : collectRecords count lines = .ok records) : records.length = lines.length := by
  induction lines generalizing count records with
  | nil =>
    cases Except.ok.inj h
    rfl
  | cons line lines ih =>
    simp only [collectRecords, bind_eq_ok_iff] at h
    obtain ⟨-, -, -, -, -, -, rest, hrest, h⟩ := h
    cases Except.ok.inj h
    simp [ih hrest]

end HerdrContext.KnownStores
