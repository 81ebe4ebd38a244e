import HerdrContext.Library.Outcome
import HerdrContext.Library.Text
import Mathlib

/-! What the program takes from the language and the operating system: byte
strings and paths, error kinds, file times, the FNV-1a hash, and the text
normalization shared by every identifier. -/
namespace HerdrContext

open Library

abbrev Bytes := List UInt8
abbrev OsString := Bytes

/-- The kinds of `io::Error` the code tells apart. -/
inductive IoErrorKind where
  | notFound | permissionDenied | invalidData | invalidInput | unexpectedEof | interrupted
  | notADirectory | other
  deriving DecidableEq, Repr

/-- `u64::saturating_add(1)`. -/
def saturatingSucc (value : UInt64) : UInt64 :=
  if value.toNat + 1 < 2 ^ 64 then value + 1 else value

theorem saturatingSucc_ne_zero (value : UInt64) : saturatingSucc value ≠ 0 := by
  unfold saturatingSucc
  split
  next h =>
    intro heq
    have hnat := congrArg UInt64.toNat heq
    rw [UInt64.toNat_add, Nat.mod_eq_of_lt (by simpa using h)] at hnat
    simp at hnat
  next h =>
    rintro rfl
    simp at h

/-! ## FNV-1a -/

def fnvOffset : UInt64 := 14695981039346656037
def fnvPrime : UInt64 := 1099511628211

def fnv1a (bytes : Bytes) (seed : UInt64) : UInt64 :=
  bytes.foldl (fun hash byte => (hash ^^^ byte.toUInt64) * fnvPrime) seed

theorem fnv1a_append (left right : Bytes) (seed : UInt64) :
    fnv1a (left ++ right) seed = fnv1a right (fnv1a left seed) := by
  simp [fnv1a]

/-- `{value:016x}`. -/
def hex16 (value : UInt64) : List Char := Text.fixedDigits 16 16 value.toNat

@[simp] theorem byteLen_hex16 (value : UInt64) : Text.byteLen (hex16 value) = 16 :=
  Text.byteLen_fixedDigits (by decide) (by decide) 16 _

@[simp] theorem length_hex16 (value : UInt64) : (hex16 value).length = 16 := by
  simp [hex16]

theorem isHexDigit_hex16 (value : UInt64) : ∀ c ∈ hex16 value, Text.isHexDigit c = true :=
  fun c hc => (Text.isHexDigit_fixedDigits (by decide) (by decide) 16 _ c hc).1

/-! ## Text -/

/-- `str::len`. -/
def strLen (text : String) : Nat := Text.byteLen text.toList

@[simp] theorem strLen_ofList (text : List Char) :
    strLen (String.ofList text) = Text.byteLen text := by
  simp [strLen]

/-- `char::is_whitespace`, the Unicode White_Space property. -/
def isWhitespace (c : Char) : Bool :=
  let n := c.toNat
  (9 ≤ n && n ≤ 13) || n == 0x20 || n == 0x85 || n == 0xA0 || n == 0x1680 ||
    (0x2000 ≤ n && n ≤ 0x200A) || n == 0x2028 || n == 0x2029 || n == 0x202F ||
    n == 0x205F || n == 0x3000

/-- `char::is_control`, the Unicode category Cc. -/
def isControl (c : Char) : Bool :=
  c.toNat < 0x20 || (0x7F ≤ c.toNat && c.toNat < 0xA0)

def trimChars (text : List Char) : List Char :=
  ((text.dropWhile isWhitespace).reverse.dropWhile isWhitespace).reverse

/-- `str::trim`. -/
def trim (text : String) : String := String.ofList (trimChars text.toList)

theorem trimChars_eq_self_of_ends {text : List Char}
    (hfirst : ∀ c ∈ text.head?, isWhitespace c = false)
    (hlast : ∀ c ∈ text.getLast?, isWhitespace c = false) :
    trimChars text = text := by
  have hdrop : text.dropWhile isWhitespace = text := by
    cases text with
    | nil => rfl
    | cons c rest => simp [hfirst c (by simp)]
  have hreverse : text.reverse.dropWhile isWhitespace = text.reverse := by
    cases hrev : text.reverse with
    | nil => rfl
    | cons c rest =>
      have hc : c ∈ text.getLast? := by
        rw [← List.head?_reverse, hrev]
        simp
      simp [hlast c hc]
  rw [trimChars, hdrop, hreverse, List.reverse_reverse]

theorem head?_dropWhile_not (p : Char → Bool) (text : List Char) :
    ∀ c ∈ (text.dropWhile p).head?, p c = false := by
  intro c hc
  have := List.head?_dropWhile_not p text
  rw [Option.mem_def.mp hc] at this
  simpa using this

theorem trimChars_ends (text : List Char) :
    (∀ c ∈ (trimChars text).head?, isWhitespace c = false) ∧
      ∀ c ∈ (trimChars text).getLast?, isWhitespace c = false := by
  constructor
  · intro c hc
    -- the back trim keeps a prefix of the front-trimmed text
    have hprefix : trimChars text <+: text.dropWhile isWhitespace := by
      have := List.dropWhile_suffix isWhitespace (l := (text.dropWhile isWhitespace).reverse)
      simpa [trimChars] using List.reverse_prefix.mpr this
    obtain ⟨rest, hrest⟩ := hprefix
    apply head?_dropWhile_not isWhitespace text
    rw [← hrest]
    cases htrim : trimChars text with
    | nil => rw [htrim] at hc; simp at hc
    | cons d tail => rw [htrim] at hc; simpa using hc
  · intro c hc
    rw [trimChars, List.getLast?_reverse] at hc
    exact head?_dropWhile_not _ _ c hc

@[simp] theorem trim_trim (text : String) : trim (trim text) = trim text := by
  simp only [trim, String.toList_ofList]
  rw [trimChars_eq_self_of_ends (trimChars_ends _).1 (trimChars_ends _).2]

/-- `normalize_nonempty`. -/
def normalizeNonempty (value : String) : Option String :=
  if strLen (trim value) = 0 then none else some (trim value)

theorem strLen_eq_zero {text : String} : strLen text = 0 ↔ text = "" := by
  rw [strLen, Text.byteLen_eq_zero, ← String.toList_inj]
  simp

theorem normalizeNonempty_eq_some {value normal : String}
    (h : normalizeNonempty value = some normal) : trim value = normal ∧ normal ≠ "" := by
  unfold normalizeNonempty at h
  split at h
  next => contradiction
  next hlen =>
    cases Option.some.inj h
    exact ⟨rfl, fun hempty => hlen (strLen_eq_zero.mpr hempty)⟩

theorem normalizeNonempty_idem {value normal : String}
    (h : normalizeNonempty value = some normal) : normalizeNonempty normal = some normal := by
  obtain ⟨rfl, hne⟩ := normalizeNonempty_eq_some h
  rw [normalizeNonempty, trim_trim, if_neg fun hlen => hne (strLen_eq_zero.mp hlen)]

theorem normalizeNonempty_of_trimmed {value : String} (htrim : trim value = value)
    (hne : value ≠ "") : normalizeNonempty value = some value := by
  rw [normalizeNonempty, htrim, if_neg fun hlen => hne (strLen_eq_zero.mp hlen)]

/-- A text with a character that is not white space has a normal form. -/
theorem exists_normalizeNonempty {value : String} {c : Char} (hmem : c ∈ value.toList)
    (hc : isWhitespace c = false) : ∃ normal, normalizeNonempty value = some normal := by
  refine ⟨trim value, if_neg fun hlen => ?_⟩
  have htrim : trimChars value.toList = [] := by
    have := congrArg String.toList (strLen_eq_zero.mp hlen)
    simpa [trim] using this
  have hback : ∀ d ∈ value.toList.dropWhile isWhitespace, isWhitespace d = true := by
    rw [trimChars, List.reverse_eq_nil_iff, List.dropWhile_eq_nil_iff] at htrim
    exact fun d hd => htrim d (List.mem_reverse.mpr hd)
  have hfront : value.toList.dropWhile isWhitespace = [] := by
    cases hdrop : value.toList.dropWhile isWhitespace with
    | nil => rfl
    | cons d rest =>
      have hfalse := head?_dropWhile_not isWhitespace value.toList d (by rw [hdrop]; rfl)
      have htrue := hback d (by simp [hdrop])
      rw [hfalse] at htrue
      contradiction
  rw [List.dropWhile_eq_nil_iff.mp hfront c hmem] at hc
  contradiction

/-- A text that is nonempty and already trimmed, as every identifier and title
of the conversation model is. -/
structure NormalText where
  text : String
  normal : normalizeNonempty text = some text
  deriving DecidableEq

@[ext] theorem NormalText.ext {left right : NormalText} (h : left.text = right.text) :
    left = right := by
  cases left
  cases right
  simp_all

/-- `normalize_nonempty`, with its result's shape kept in the type. -/
def NormalText.new (value : String) : Option NormalText :=
  match h : normalizeNonempty value with
  | some normal => some ⟨normal, normalizeNonempty_idem h⟩
  | none => none

theorem NormalText.new_eq_some_iff {value : String} {id : NormalText} :
    NormalText.new value = some id ↔ normalizeNonempty value = some id.text := by
  unfold NormalText.new
  split
  next normal h =>
    constructor
    · intro heq
      cases Option.some.inj heq
      exact h
    · intro heq
      rw [h] at heq
      exact congrArg some (NormalText.ext (Option.some.inj heq))
  next h => simp [h]

@[simp] theorem NormalText.new_text (id : NormalText) : NormalText.new id.text = some id :=
  NormalText.new_eq_some_iff.mpr id.normal

theorem NormalText.trim_text (id : NormalText) : trim id.text = id.text :=
  (normalizeNonempty_eq_some id.normal).1

theorem NormalText.text_ne_empty (id : NormalText) : id.text ≠ "" :=
  (normalizeNonempty_eq_some id.normal).2

/-- Normalized texts are ordered as their strings. -/
instance : LinearOrder NormalText :=
  LinearOrder.lift' NormalText.text fun _ _ h => NormalText.ext h

instance : Std.LawfulEqOrd NormalText where
  eq_of_compare h := compare_eq_iff_eq.mp h

/-! ## UTF-8 -/

/-- What a lead byte announces: the number of continuation bytes, the range of
the first of them, and the bits it carries itself. -/
def utf8Lead (byte : UInt8) : Option (Nat × UInt8 × UInt8 × Nat) :=
  if 0xC2 ≤ byte ∧ byte ≤ 0xDF then some (1, 0x80, 0xBF, byte.toNat - 0xC0)
  else if byte = 0xE0 then some (2, 0xA0, 0xBF, 0)
  else if byte = 0xED then some (2, 0x80, 0x9F, 0xD)
  else if 0xE1 ≤ byte ∧ byte ≤ 0xEF then some (2, 0x80, 0xBF, byte.toNat - 0xE0)
  else if byte = 0xF0 then some (3, 0x90, 0xBF, 0)
  else if 0xF1 ≤ byte ∧ byte ≤ 0xF3 then some (3, 0x80, 0xBF, byte.toNat - 0xF0)
  else if byte = 0xF4 then some (3, 0x80, 0x8F, 4)
  else none

/-- Continuation bytes, as far as they are in range. -/
def utf8Tail : Nat → UInt8 → UInt8 → Nat → Bytes → Option Nat × Bytes
  | 0, _, _, value, rest => (some value, rest)
  | _ + 1, _, _, _, [] => (none, [])
  | count + 1, low, high, value, byte :: rest =>
    if low ≤ byte ∧ byte ≤ high then
      utf8Tail count 0x80 0xBF (value * 64 + (byte.toNat - 0x80)) rest
    else (none, byte :: rest)

/-- Characters, with `none` for each maximal part that is not UTF-8. -/
def utf8Decode : Nat → Bytes → List (Option Char)
  | 0, _ => []
  | _ + 1, [] => []
  | fuel + 1, byte :: rest =>
    if byte < 0x80 then some (Char.ofNat byte.toNat) :: utf8Decode fuel rest
    else match utf8Lead byte with
      | none => none :: utf8Decode fuel rest
      | some (count, low, high, bits) =>
        let (value, rest) := utf8Tail count low high bits rest
        value.map Char.ofNat :: utf8Decode fuel rest

/-- `OsStr::to_str`. -/
def toStr (text : OsString) : Option String :=
  ((utf8Decode text.length text).mapM id).map String.ofList

/-- `OsStr::to_string_lossy`. -/
def toStringLossy (text : OsString) : List Char :=
  (utf8Decode text.length text).map fun c => c.getD (Char.ofNat 0xFFFD)

/-- `str::encode_utf16`. -/
def encodeUtf16 (text : List Char) : List UInt16 :=
  text.flatMap fun c =>
    if c.toNat < 0x10000 then [UInt16.ofNat c.toNat]
    else
      [UInt16.ofNat (0xD800 + (c.toNat - 0x10000) / 0x400),
        UInt16.ofNat (0xDC00 + (c.toNat - 0x10000) % 0x400)]

/-! ## Paths -/

def slash : UInt8 := 47

/-- `PathBuf` on Unix: its raw bytes. -/
structure PathBuf where
  bytes : Bytes
  deriving DecidableEq

namespace PathBuf

def isAbsolute (path : PathBuf) : Bool := path.bytes.head? = some slash

/-- Bytes between slashes. -/
def segments : Bytes → List OsString
  | [] => [[]]
  | byte :: rest =>
    if byte = slash then [] :: segments rest
    else match segments rest with
      | [] => [[byte]]
      | first :: others => (byte :: first) :: others

/-- `Path::components` of an absolute path below the root: repeated slashes
and `.` disappear, `..` stays. -/
def components (path : PathBuf) : List OsString :=
  (segments path.bytes).filter fun name => name ≠ [] ∧ name ≠ [46]

/-- `Path == Path`, which compares components. -/
def same (left right : PathBuf) : Bool :=
  left.isAbsolute == right.isAbsolute && left.components == right.components

@[simp] theorem same_refl (path : PathBuf) : same path path = true := by
  simp [same]

/-- `path_is_within`: `candidate.starts_with(root)`, by components. -/
def isWithin (root candidate : PathBuf) : Bool :=
  root.components.isPrefixOf candidate.components

theorem isWithin_refl (root : PathBuf) : isWithin root root = true := by
  simp [isWithin]

end PathBuf

/-- The name of a directory entry: one normal path component. -/
structure FileName where
  bytes : OsString
  normal : bytes ≠ [] ∧ bytes ≠ [46] ∧ bytes ≠ [46, 46] ∧ slash ∉ bytes ∧ 0 ∉ bytes
  deriving DecidableEq

/-- A normalized path below a store root, outermost directory first. -/
abbrev RelativePath := List FileName

def RelativePath.bytes : RelativePath → Bytes
  | [] => []
  | [name] => name.bytes
  | name :: rest => name.bytes ++ slash :: RelativePath.bytes rest

/-- The bytes before the last dot, unless that dot comes first. -/
def FileName.stem (name : FileName) : OsString :=
  match name.bytes.reverse.dropWhile (· ≠ 46) with
  | [] => name.bytes
  | _ :: before => if before = [] then name.bytes else before.reverse

/-- The bytes behind the last dot, unless that dot comes first. -/
def FileName.extension (name : FileName) : Option OsString :=
  match name.bytes.reverse.dropWhile (· ≠ 46) with
  | [] => none
  | _ :: before =>
    if before = [] then none else some (name.bytes.reverse.takeWhile (· ≠ 46)).reverse

/-- `Path::file_name`. -/
def RelativePath.fileName (path : RelativePath) : Option FileName := path.getLast?

/-- `path.parent().and_then(Path::file_name)`. -/
def RelativePath.parentName (path : RelativePath) : Option FileName := path.dropLast.getLast?

/-- `PathBuf::join` with a relative path. -/
def PathBuf.join (root : PathBuf) (relative : RelativePath) : PathBuf :=
  if root.bytes.getLast? = some slash then ⟨root.bytes ++ RelativePath.bytes relative⟩
  else ⟨root.bytes ++ slash :: RelativePath.bytes relative⟩

/-- `Ord` of two names compares their bytes. -/
instance : LinearOrder FileName :=
  LinearOrder.lift' (fun name => name.bytes.map UInt8.toNat) fun left right h => by
    have hbytes := List.map_injective_iff.mpr (fun _ _ => UInt8.toNat_inj.mp) h
    cases left
    cases right
    simp_all

instance : Std.TransOrd RelativePath := inferInstance
instance : LawfulBEq RelativePath := inferInstance

/-! ## Times -/

def nanosPerSecond : Nat := 1000000000

/-- `SystemTime` on Unix, in nanoseconds from the epoch: signed 64-bit seconds
and a nanosecond part. -/
structure SystemTime where
  nanos : Int
  range : -(2 ^ 63 * 1000000000) ≤ nanos ∧ nanos < 2 ^ 63 * 1000000000
  deriving DecidableEq

theorem epoch_range : -(2 ^ 63 * 1000000000) ≤ (0 : Int) ∧ (0 : Int) < 2 ^ 63 * 1000000000 := by
  decide

instance : LinearOrder SystemTime :=
  LinearOrder.lift' SystemTime.nanos fun left right h => by
    cases left
    cases right
    simp_all

namespace SystemTime

/-- `checked_add` and `checked_sub` from the epoch. -/
def ofNanos? (nanos : Int) : Option SystemTime :=
  if h : -(2 ^ 63 * 1000000000) ≤ nanos ∧ nanos < 2 ^ 63 * 1000000000 then some ⟨nanos, h⟩
  else none

@[simp] theorem ofNanos?_nanos (time : SystemTime) : ofNanos? time.nanos = some time := by
  exact dif_pos time.range

/-- Sign, seconds and nanoseconds of the distance to the epoch. -/
abbrev Parts := Bool × UInt64 × UInt32

/-- `system_time_parts`: `duration_since(UNIX_EPOCH)`, or the duration of its error. -/
def parts (time : SystemTime) : Parts :=
  (0 ≤ time.nanos, UInt64.ofNat (time.nanos.natAbs / nanosPerSecond),
    UInt32.ofNat (time.nanos.natAbs % nanosPerSecond))

/-- `system_time_from_parts`. -/
def ofParts (parts : Parts) : Option SystemTime :=
  let distance : Int := (parts.2.1.toNat * nanosPerSecond + parts.2.2.toNat : Nat)
  if parts.1 then ofNanos? distance else ofNanos? (-distance)

theorem natAbs_le (time : SystemTime) : time.nanos.natAbs ≤ 2 ^ 63 * nanosPerSecond := by
  have := time.range
  unfold nanosPerSecond
  omega

theorem parts_seconds (time : SystemTime) :
    time.parts.2.1.toNat = time.nanos.natAbs / nanosPerSecond := by
  have hle : time.nanos.natAbs / nanosPerSecond ≤ 2 ^ 63 :=
    Nat.div_le_of_le_mul (by rw [Nat.mul_comm]; exact natAbs_le time)
  simp only [parts, UInt64.toNat_ofNat']
  exact Nat.mod_eq_of_lt (Nat.lt_of_le_of_lt hle (by decide))

theorem parts_nanos (time : SystemTime) :
    time.parts.2.2.toNat = time.nanos.natAbs % nanosPerSecond := by
  have hlt : time.nanos.natAbs % nanosPerSecond < nanosPerSecond := Nat.mod_lt _ (by decide)
  simp only [parts, UInt32.toNat_ofNat']
  exact Nat.mod_eq_of_lt (Nat.lt_trans hlt (by decide))

theorem parts_nanos_lt (time : SystemTime) : time.parts.2.2.toNat < nanosPerSecond := by
  rw [parts_nanos]
  exact Nat.mod_lt _ (by decide)

/-- Every time survives the split into parts, before the epoch as well as after it. -/
@[simp] theorem ofParts_parts (time : SystemTime) : ofParts time.parts = some time := by
  have hdistance :
      time.parts.2.1.toNat * nanosPerSecond + time.parts.2.2.toNat = time.nanos.natAbs := by
    rw [parts_seconds, parts_nanos, Nat.mul_comm]
    exact Nat.div_add_mod _ _
  simp only [ofParts, hdistance]
  by_cases hsign : 0 ≤ time.nanos
  · have hafter : time.parts.1 = true := by simp [parts, hsign]
    rw [hafter, if_pos rfl, Int.natAbs_of_nonneg hsign, ofNanos?_nanos]
  · have hbefore : time.parts.1 = false := by simp [parts, hsign]
    have hneg : -((time.nanos.natAbs : Nat) : Int) = time.nanos := by omega
    rw [hbefore, hneg]
    simp

end SystemTime

/-! ## Canonical paths -/

/-- `fs::canonicalize` while one job runs. A canonical path is absolute and
resolves to itself. -/
structure Canonicalizer where
  resolve : PathBuf → Option PathBuf
  resolve_absolute : ∀ path canonical, resolve path = some canonical → canonical.isAbsolute = true
  resolve_canonical : ∀ path canonical, resolve path = some canonical →
    resolve canonical = some canonical

/-- `CanonicalPath::new`. -/
def Canonicalizer.canonicalPath (canon : Canonicalizer) (path : PathBuf) : Option PathBuf :=
  if path.isAbsolute then canon.resolve path else none

theorem Canonicalizer.canonicalPath_idem {canon : Canonicalizer} {path canonical : PathBuf}
    (h : canon.canonicalPath path = some canonical) :
    canon.canonicalPath canonical = some canonical := by
  unfold canonicalPath at h ⊢
  split at h
  next =>
    rw [if_pos (canon.resolve_absolute _ _ h)]
    exact canon.resolve_canonical _ _ h
  next => contradiction

/-- The canonical project root conversations are associated with. -/
structure ProjectIdentity where
  root : PathBuf
  deriving DecidableEq

end HerdrContext
