import HerdrContext.KnownStores.Format

/-! What the file system shows of a known store while one page of it is
discovered, and the errors made of it. -/
namespace HerdrContext.KnownStores

open Library

inductive EntryKind where
  | file | directory | symlink | other
  deriving DecidableEq

structure FileState where
  len : UInt64
  modified : SystemTime
  device : UInt64
  inode : UInt64
  changedSeconds : Int64
  changedNanoseconds : Int64
  deriving DecidableEq

/-- An open file: its metadata before and after the scan, and its reads. -/
structure OpenFile where
  before : Except IoErrorKind FileState
  readPrefix : Nat → Except IoErrorKind Bytes
  seek : Nat → Except IoErrorKind Unit
  readFrom : Nat → Except IoErrorKind Bytes
  finalByte : Nat → Except IoErrorKind (Option UInt8)
  after : Except IoErrorKind FileState

/-- The moments at which one page looks at the same thing twice: the root before
and during discovery, a candidate for its metadata and for its evidence. -/
inductive ProbeMoment where
  | registry | discovery

inductive RecheckMoment where
  | extraction | evidence

/-- The answers of the file system, each of which may be taken at another moment
of the page. -/
structure StoreView where
  canon : Canonicalizer
  probe : ProbeMoment → Except IoErrorKind Bool
  entries : RelativePath → Except IoErrorKind (List (Except IoErrorKind (FileName × EntryKind)))
  fileState : RelativePath → Except IoErrorKind FileState
  openFile : RelativePath → Except IoErrorKind OpenFile
  recheck : RecheckMoment → RelativePath → Except IoErrorKind FileState

def maxStoreFiles : Nat := 4096
def maxDirectoryEntries : Nat := 8192
def maxCandidatePaths : Nat := maxDirectoryEntries

namespace StoreView

def listDirectory (view : StoreView) (relative : RelativePath) :
    Except IoErrorKind (List (FileName × EntryKind)) := do
  let results ← view.entries relative
  let entries ← (results.take (maxDirectoryEntries + 1)).mapM id
  rejectIf (maxDirectoryEntries < entries.length) .invalidData
  return entries.insertionSort fun left right => right.1 ≤ left.1

end StoreView

def FileName.new? (bytes : OsString) : Option FileName :=
  if h : bytes ≠ [] ∧ bytes ≠ [46] ∧ bytes ≠ [46, 46] ∧ slash ∉ bytes ∧ 0 ∉ bytes then
    some ⟨bytes, h⟩
  else none

/-! ## Errors -/

/-- `store.absolute(Path::new("."))`. -/
def storeItself (root : PathBuf) : PathBuf := ⟨root.bytes ++ [slash, 46]⟩

def storeIoError (sourceId : SourceId) (path : PathBuf) (message : String) (error : IoErrorKind) :
    SourceError :=
  let kind : SourceErrorKind :=
    match error with
    | .permissionDenied => .permissionDenied
    | .invalidData | .invalidInput => .invalidData
    | _ => .io
  (SourceError.new sourceId kind message).withPath path

@[simp] theorem storeIoError_sourceId (id : SourceId) (path : PathBuf) (message : String)
    (error : IoErrorKind) : (storeIoError id path message error).sourceId = id := rfl

theorem storeIoError_kind (id : SourceId) (path : PathBuf) (message : String)
    (error : IoErrorKind) : (storeIoError id path message error).kind = .permissionDenied ∨
      (storeIoError id path message error).kind = .invalidData ∨
      (storeIoError id path message error).kind = .io := by
  cases error <;> simp [storeIoError]

/-- `push_listing_error`, which files the error under the tool's built-in id. -/
def listingError (tool : Tool) (path : PathBuf) (message : String) (error : IoErrorKind) :
    SourceError :=
  storeIoError tool.sourceId path message error

/-- `push_shape_error`. -/
def shapeError (tool : Tool) (path : PathBuf) (message : String) : SourceError :=
  (SourceError.new tool.sourceId .unsupportedFormat message).withPath path

/-- `push_inventory_error`. -/
def inventoryError (tool : Tool) (path : PathBuf) (message : String) : SourceError :=
  (SourceError.new tool.sourceId .invalidData message).withPath path

end HerdrContext.KnownStores
