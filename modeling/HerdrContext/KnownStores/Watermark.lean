import HerdrContext.KnownStores.Store
import HerdrContext.Library.Wire
import Std.Data.ExtTreeMap

/-! The incremental state of a known store: one entry for each session file, and
the conditions under which a stored state is read back. -/
namespace HerdrContext.KnownStores

open Library

inductive StoredRejectionKind where
  | unsupportedFormat | projectMismatch
  deriving DecidableEq

structure StoredRejection where
  kind : StoredRejectionKind
  message : String
  deriving DecidableEq

namespace StoredRejection

def fromError (error : SourceError) : Option StoredRejection :=
  match error.kind with
  | .unsupportedFormat => some ⟨.unsupportedFormat, error.message⟩
  | .projectMismatch => some ⟨.projectMismatch, error.message⟩
  | _ => none

def errorKind (rejection : StoredRejection) : SourceErrorKind :=
  match rejection.kind with
  | .unsupportedFormat => .unsupportedFormat
  | .projectMismatch => .projectMismatch

end StoredRejection

structure WatermarkEntry where
  state : String
  fingerprint : Option String
  sessionId : Option String
  safeOffset : UInt64
  complete : Bool
  rejected : Bool
  rejection : Option StoredRejection
  duplicate : Bool
  prefixHash : Option UInt64
  contentHash : UInt64
  summary : Option StoredMetadata
  pending : Option StoredPendingMetadata
  identity : String
  adapterRevision : UInt32
  deriving DecidableEq

/-- `BTreeMap<String, WatermarkEntry>`. -/
abbrev WatermarkMap := Std.ExtTreeMap String WatermarkEntry compare

/-- `serde_json` on the map. Encoding fails for paths that are not UTF-8. -/
structure WatermarkCodec extends Codec WatermarkMap String where
  encode_empty : encode ∅ = some "\x7b\x7d"

/-- `KnownJsonlSource` with its `KnownStore`. -/
structure KnownJsonlSource where
  id : SourceId
  project : ProjectIdentity
  root : PathBuf
  format : KnownFormat
  decoders : Decoders
  codec : WatermarkCodec

def maxWatermarkBytes : Nat := 4 * 1024 * 1024

/-! ## Texts of a file state -/

def colonSeparated : List (List Char) → List Char
  | [] => []
  | [part] => part
  | part :: rest => part ++ ':' :: colonSeparated rest

def decimal (value : Nat) : List Char := Nat.toDigits 10 value

def signedDecimal (value : Int) : List Char :=
  if value < 0 then '-' :: decimal value.natAbs else decimal value.natAbs

namespace FileState

def identity (state : FileState) : String :=
  String.ofList (colonSeparated [decimal state.device.toNat, decimal state.inode.toNat])

def fingerprint (state : FileState) : String :=
  let parts := state.modified.parts
  String.ofList (colonSeparated [
    decimal state.len.toNat, [if parts.1 then '+' else '-'], decimal parts.2.1.toNat,
    decimal parts.2.2.toNat, decimal state.device.toNat, decimal state.inode.toNat,
    signedDecimal state.changedSeconds.toInt, signedDecimal state.changedNanoseconds.toInt])

end FileState

/-- The seed of the second of two FNV-1a hashes. -/
def secondSeed : UInt64 := fnvOffset ^^^ 0x9e3779b97f4a7c15

def watermarkKey (relative : RelativePath) : String :=
  String.ofList (hex16 (fnv1a relative.bytes fnvOffset) ++ hex16 (fnv1a relative.bytes secondSeed))

/-! ## Reading a stored state -/

/-- The file length at the front of a state text. -/
def stateLen (state : String) : Option Nat :=
  Text.parseUnsigned UInt64.size (state.toList.takeWhile (· ≠ ':'))

def keyValid (key : String) : Bool := strLen key = 32 && key.toList.all Text.isHexDigit

namespace WatermarkEntry

variable (source : KnownJsonlSource) (canon : Canonicalizer) (entry : WatermarkEntry)

def scalarBoundsHold (fileLen : Nat) : Bool :=
  entry.state ≠ "" && strLen entry.state ≤ 256 && entry.identity ≠ "" &&
    strLen entry.identity ≤ 128 && entry.fingerprint.all (strLen · ≤ 512) &&
    entry.safeOffset.toNat ≤ fileLen

def summaryValid : Bool :=
  match entry.summary, entry.sessionId, entry.pending with
  | some summary, some sessionId, none =>
    summary.sessionId = sessionId && summary.recordCount ≠ 0 &&
      (summary.toParsed canon source.project).isSome &&
      (SessionReference.new source.format.tool.name sessionId).isOk
  | none, none, some pending =>
    !entry.rejected && !entry.complete && entry.safeOffset ≠ 0 && entry.fingerprint.isNone &&
      pending.toPending.isSome
  | none, none, none =>
    entry.rejected && !entry.complete && entry.safeOffset = 0 && entry.fingerprint.isNone
  | _, _, _ => false

def completionValid : Bool :=
  if entry.rejected then !entry.complete && entry.fingerprint.isNone && entry.summary.isNone
  else !entry.complete || (entry.fingerprint.isSome && entry.summary.isSome)

def prefixValid : Bool :=
  (entry.safeOffset = 0 && entry.prefixHash.isNone) ||
    (entry.safeOffset ≠ 0 && entry.prefixHash.isSome)

def duplicateValid : Bool :=
  !entry.duplicate || (!entry.rejected && entry.complete && entry.summary.isSome)

def rejectionValid : Bool :=
  match entry.rejection, entry.rejected with
  | some rejection, true =>
    rejection.message ≠ "" && strLen rejection.message ≤ 256 &&
      !rejection.message.toList.any isControl
  | none, false => true
  | _, _ => false

def valid (key : String) : Bool :=
  (stateLen entry.state).any entry.scalarBoundsHold && keyValid key &&
    entry.summaryValid source canon && entry.completionValid && entry.prefixValid &&
    entry.duplicateValid && entry.rejectionValid

end WatermarkEntry

namespace KnownJsonlSource

variable (source : KnownJsonlSource) (canon : Canonicalizer)

def malformedWatermark : SourceError :=
  .new source.id .invalidData "known source watermark is malformed"

def oversizedWatermark : SourceError :=
  .new source.id .invalidData "known source watermark exceeds the byte limit"

/-- Every entry of the map passes its checks. -/
def acceptsEntries (entries : WatermarkMap) : Bool :=
  entries.toList.all fun stored => stored.2.valid source canon stored.1

def currentRevision (entries : WatermarkMap) : WatermarkMap :=
  entries.filter fun _ entry => entry.adapterRevision = source.format.adapterRevision

def decodeWatermark (after : Option SourceWatermark) : Except SourceError WatermarkMap :=
  match after with
  | none => .ok ∅
  | some after => do
    rejectIf (maxWatermarkBytes < strLen after.token) source.oversizedWatermark
    let entries ← okOr source.malformedWatermark (source.codec.decode after.token)
    rejectIf (maxStoreFiles < entries.size) source.malformedWatermark
    rejectIf (¬ source.acceptsEntries canon entries) source.malformedWatermark
    return source.currentRevision entries

end KnownJsonlSource

end HerdrContext.KnownStores
