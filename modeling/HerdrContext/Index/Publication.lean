import HerdrContext.Index.Names
import HerdrContext.Index.Refresh
import HerdrContext.Library.Disk

/-! The file-system steps of `persist_cancellable`, each of which may fail, be
cancelled or be the last one before a crash, and the reading side of `open`. -/
namespace HerdrContext.Index

open Library

abbrev CacheDir := Directory EntryName Bytes
abbrev CacheOp := DirOp EntryName Bytes
abbrev CacheDisk := Disk EntryName Bytes

def nameBytes (name : EntryName) : Bytes := name.map fun c => c.val.toUInt8

def nameOfBytes (bytes : Bytes) : EntryName := bytes.map fun byte => Char.ofNat byte.toNat

/-! ## Reading -/

/-- `read_private_cache`: a file beyond the byte limit reads as empty. -/
def readPrivateCache (content : Bytes) : Bytes :=
  if maxCacheBytes < content.length then [] else content

/-- `latest_cache_file`: the pointed file and the generation its name tells. -/
def latestCacheFile (dir : CacheDir) : Except IndexError (Option (Bytes × UInt64)) :=
  match dir pointerName with
  | none => .ok none
  | some pointer =>
    match PathBuf.segments (readPrivateCache pointer) with
    | [] => .ok none
    | name :: rest =>
      match cacheGeneration (nameOfBytes name), dir (nameOfBytes name) with
      | some generation, some content =>
        if rest = [] then .ok (some (content, generation))
        -- `name/` has one component, but a regular file is not a directory
        else if rest.all fun segment => segment = [] ∨ segment = [46] then
          .error (.io "inspect pointed metadata index" .other)
        else .ok none
      | _, _ => .ok none

/-- `open_with_max_entries` on a private directory that can be read. -/
def openIndex (codec : IndexCodec) (project : ProjectIdentity) (maxEntries : MaxEntries)
    (dir : CacheDir) : Except IndexError ConversationIndex := do
  let file ← latestCacheFile dir
  return ConversationIndex.openCache codec project maxEntries
    (file.map fun found => (readPrivateCache found.1, found.2))

/-! ## Writing -/

/-- One run of `persist_cancellable` behind its encoder. -/
structure Publication where
  generation : UInt64
  bytes : Bytes
  process : UInt32
  nonce : UInt64
  deriving DecidableEq

namespace Publication

@[irreducible] def temporary (run : Publication) : EntryName :=
  temporaryName run.generation run.process run.nonce

@[irreducible] def published (run : Publication) : EntryName :=
  publishedName run.generation run.process run.nonce

@[irreducible] def pointerTemporary (run : Publication) : EntryName :=
  pointerTemporaryName run.process run.nonce

variable (run : Publication)

@[simp] theorem cacheGeneration_published :
    cacheGeneration run.published = some run.generation := by
  unfold published
  exact cacheGeneration_publishedName _ _ _

@[simp] theorem cacheGeneration_temporary : cacheGeneration run.temporary = none := by
  unfold temporary
  exact cacheGeneration_temporaryName _ _ _

@[simp] theorem cacheGeneration_pointerTemporary :
    cacheGeneration run.pointerTemporary = none := by
  unfold pointerTemporary
  exact cacheGeneration_pointerTemporaryName _ _

theorem plainChar_published : ∀ c ∈ run.published, plainChar c = true := by
  unfold published
  exact plainChar_publishedName _ _ _

theorem length_published : run.published.length = 57 := by
  unfold published
  exact length_publishedName _ _ _

theorem published_ne {name : EntryName} (h : cacheGeneration name = none) :
    run.published ≠ name := by
  unfold published
  exact publishedName_ne h

theorem temporary_ne_pointerName : run.temporary ≠ pointerName := by
  unfold temporary
  exact (pointerName_ne _ _ _).2.1.symm

theorem pointerTemporary_ne_pointerName : run.pointerTemporary ≠ pointerName := by
  unfold pointerTemporary
  exact (pointerName_ne 0 _ _).2.2.symm

theorem pointerTemporary_ne_temporary (other : Publication) :
    run.pointerTemporary ≠ other.temporary := by
  unfold pointerTemporary temporary
  exact pointerTemporaryName_ne_temporaryName _ _ _ _ _

/-- Each name of a run tells its process and nonce. -/
theorem names_injective {run other : Publication}
    (h : run.temporary = other.temporary ∨ run.published = other.published ∨
      run.pointerTemporary = other.pointerTemporary) :
    run.process = other.process ∧ run.nonce = other.nonce := by
  unfold temporary published pointerTemporary at h
  rcases h with h | h | h
  · exact temporaryName_injective h
  · exact publishedName_injective h
  · exact pointerTemporaryName_injective h

end Publication

/-- Where the run is. `failed` has returned an error, before or after the
pointer was replaced; `cancelled` has returned `Ok(false)`, `done` `Ok(true)`. -/
inductive Phase where
  | start | creating | written | published | synced | creatingPointer | pointerWritten | replaced
  | cleaning | failed (pointerReplaced : Bool) | cancelled | done
  deriving DecidableEq

/-- How `refresh_page_cancellable` returned; `err true` is an error behind the
pointer's replacement. -/
inductive Ending where
  | err (pointerReplaced : Bool)
  | cancelled
  | refreshed
  deriving DecidableEq

/-- What the caller gets from a run that stopped in this phase. -/
def Phase.ending : Phase → Option Ending
  | .failed pointerReplaced => some (.err pointerReplaced)
  | .cancelled => some .cancelled
  | .done => some .refreshed
  | _ => none

/-- An entry `remove_older_generations` removes. -/
def isOlder (run : Publication) (name : EntryName) : Prop :=
  name ≠ run.published ∧ ∃ value, cacheGeneration name = some value ∧ value < run.generation

/-- What one step does to the directory. -/
inductive Effect where
  | none
  | op (op : CacheOp)
  | sync

/-- `let _ = fs::remove_file(..)` after a failure, which may itself fail. -/
def Effect.discards (name : EntryName) (effect : Effect) : Prop :=
  effect = .none ∨ effect = .op (.unlink name)

/-- Writing through an open file; without its name it is no entry any more. -/
def writeThrough (dir : CacheDir) (name : EntryName) (content : Bytes) : Effect :=
  if dir name = none then .none else .op (.write name content)

theorem writeThrough_of_present {dir : CacheDir} {name : EntryName} {content : Bytes}
    (h : dir name ≠ none) : writeThrough dir name content = .op (.write name content) :=
  if_neg h

/-- The steps of one run on a directory that shows `dir`. -/
inductive Step (run : Publication) (dir : CacheDir) : Phase → Effect → Phase → Prop where
  | create (fresh : dir run.temporary = none) :
    Step run dir .start (.op (.write run.temporary [])) .creating
  | chunk (content : Bytes) :
    Step run dir .creating (writeThrough dir run.temporary content) .creating
  | fill : Step run dir .creating (writeThrough dir run.temporary run.bytes) .written
  | cancel (present : dir run.temporary ≠ none) :
    Step run dir .written (.op (.unlink run.temporary)) .cancelled
  | publish (present : dir run.temporary ≠ none) :
    Step run dir .written (.op (.rename run.temporary run.published)) .published
  | failTemporary {phase : Phase} {effect : Effect}
    (phases : phase = .start ∨ phase = .creating ∨ phase = .written)
    (discards : effect.discards run.temporary) : Step run dir phase effect (.failed false)
  | syncPublished : Step run dir .published .sync .synced
  | failSyncPublished : Step run dir .published .none (.failed false)
  | createPointer (fresh : dir run.pointerTemporary = none) :
    Step run dir .synced (.op (.write run.pointerTemporary [])) .creatingPointer
  | chunkPointer (content : Bytes) :
    Step run dir .creatingPointer (writeThrough dir run.pointerTemporary content) .creatingPointer
  | fillPointer :
    Step run dir .creatingPointer (writeThrough dir run.pointerTemporary (nameBytes run.published))
      .pointerWritten
  | replacePointer (present : dir run.pointerTemporary ≠ none) :
    Step run dir .pointerWritten (.op (.rename run.pointerTemporary pointerName)) .replaced
  | failPointer {phase : Phase} {effect : Effect}
    (phases : phase = .synced ∨ phase = .creatingPointer ∨ phase = .pointerWritten)
    (discards : effect.discards run.pointerTemporary) : Step run dir phase effect (.failed false)
  | syncReplaced : Step run dir .replaced .sync .cleaning
  | removeOlder {name : EntryName} (present : dir name ≠ none) (older : isOlder run name) :
    Step run dir .cleaning (.op (.unlink name)) .cleaning
  | failLate {phase : Phase} (phases : phase = .replaced ∨ phase = .cleaning) :
    Step run dir phase .none (.failed true)
  | finish : Step run dir .cleaning .none .done

end HerdrContext.Index
