import HerdrContext.Host.DockState
import HerdrContext.Library.Transition
import HerdrContext.Platform
import Mathlib.Logic.Function.Basic

/-! Processes that toggle docks and restore them over one state directory. -/
namespace HerdrContext.Host

open Library

/-! ## Tab locks -/

/-- The two hashes in a lock file's name. -/
abbrev LockName := UInt64 × UInt64

def utf8Bytes (value : String) : List UInt8 := value.toUTF8.data.toList

def toLeBytes (length : UInt64) : List UInt8 :=
  (List.range 8).map fun i => (length >>> (8 * i).toUInt64).toUInt8

def lockHash (seed : UInt64) (workspaceId tabId : String) : UInt64 :=
  [utf8Bytes workspaceId, utf8Bytes tabId].foldl (fun hash value =>
    (toLeBytes value.length.toUInt64 ++ value).foldl (fun hash byte =>
      (hash ^^^ byte.toUInt64) * 0x00000100000001b3) hash) seed

/-- `TabLock::file_name`. -/
def tabLockName (workspaceId tabId : String) : LockName :=
  (lockHash 0xcbf29ce484222325 workspaceId tabId, lockHash 0x84222325cbf29ce4 workspaceId tabId)

/-! ## One record of a restore -/

inductive HostErrorKind where
  | unavailable | notFound | permissionDenied | invalidResponse | operationFailed
  deriving DecidableEq, Repr

/-- What the host says to a restore about one tab: its panes, the dock among
them that is kept, and the dock that is opened where there is none. -/
structure HostAnswers where
  panesInTab : Except HostErrorKind (List String)
  reconcileDocks : Except HostErrorKind (Option String)
  openRestoredDock : Except HostErrorKind String

inductive RecordOutcome where
  | kept (record : DockRecord)
  | dropped
  deriving DecidableEq

def recordIds (record : DockRecord) : Option (String × String) :=
  match normalizeNonempty record.workspaceId, normalizeNonempty record.tabId with
  | some workspaceId, some tabId => some (workspaceId, tabId)
  | _, _ => none

/-- `restore_record`; there are no answers where the tab lock is not acquired. -/
def restoreRecord (record : DockRecord) (answers : Option HostAnswers) : RecordOutcome :=
  match recordIds record with
  | none => .dropped
  | some _ =>
    match answers with
    | none => .kept record
    | some host =>
      match host.panesInTab with
      | .error .notFound => .dropped
      | .error _ => .kept record
      | .ok [] => .dropped
      | .ok (_ :: _) =>
        match host.reconcileDocks with
        | .error _ => .kept record
        | .ok (some keeper) => .kept { record with dockPaneId := keeper }
        | .ok none =>
          match host.openRestoredDock with
          | .error _ => .kept record
          | .ok keeper => .kept { record with dockPaneId := keeper }

/-- The records a restore keeps. -/
def restoredRecords (records : List DockRecord) (answers : List (Option HostAnswers)) :
    List DockRecord :=
  (records.zip answers).filterMap fun entry =>
    match restoreRecord entry.1 entry.2 with
    | .kept kept => some kept
    | .dropped => none

/-! ## What a process does to the state -/

inductive Operation where
  | opened (socket : String) (record : DockRecord)
  | closed (socket workspaceId tabId : String)
  /-- The records a restore read and what it was told about each of them. -/
  | restored (socket : String) (read : List DockRecord) (answers : List (Option HostAnswers))
    (nonempty : read ≠ []) (complete : answers.length = read.length)

namespace Operation

/-- The closure under the state lock; the flag says whether anything is written. -/
def apply (state : DockStateFile) : Operation → Except DockStateError (DockStateFile × Bool)
  | .opened socket record => (state.upsert socket record).map fun after => (after, true)
  | .closed socket workspaceId tabId => .ok (state.remove socket workspaceId tabId)
  | .restored socket read answers _ _ =>
    .ok (state.setRecords socket (restoredRecords read answers), true)

/-- What the operation makes of a state that nothing else changes meanwhile. -/
def alone (state : DockStateFile) : Operation → DockStateFile
  | .opened socket record =>
    match state.upsert socket record with
    | .ok after => after
    | .error _ => state
  | .closed socket workspaceId tabId => (state.remove socket workspaceId tabId).1
  | .restored socket _ answers _ _ =>
    if state.recordsFor socket = [] then state
    else state.setRecords socket (restoredRecords (state.recordsFor socket) answers)

/-- The record for a tab is taken out. -/
def Removes (socket workspaceId tabId : String) : Operation → Prop
  | .opened _ _ => False
  | .closed removedSocket removedWorkspace removedTab =>
    removedSocket = socket ∧ removedWorkspace = workspaceId ∧ removedTab = tabId
  | .restored restoredSocket read answers _ _ => restoredSocket = socket ∧
    ∃ entry ∈ read.zip answers, entry.1.IsFor workspaceId tabId ∧
      restoreRecord entry.1 entry.2 = .dropped

/-- A record for a tab is entered. -/
def Enters (socket workspaceId tabId : String) : Operation → Prop
  | .opened openedSocket record => openedSocket = socket ∧ record.IsFor workspaceId tabId
  | .closed _ _ _ => False
  | .restored _ _ _ _ _ => False

end Operation

/-! ## Processes -/

/-- Where a process stands, with the tab lock it holds. -/
inductive Phase where
  | idle
  | toggling (workspaceId tabId : String)
  | restoring (socket : String) (read : List DockRecord) (answers : List (Option HostAnswers))
    (nonempty : read ≠ [])
  | probing (socket : String) (read : List DockRecord) (answers : List (Option HostAnswers))
    (nonempty : read ≠ []) (held : LockName)
  | saving (op : Operation) (held : Option LockName)
  | locked (op : Operation) (held : Option LockName)
  | loaded (op : Operation) (held : Option LockName) (state : DockStateFile)
  | stored (held : Option LockName)
  | finishing (held : Option LockName)

/-- The state lock is held. -/
def Phase.Inside : Phase → Prop
  | .locked _ _ => True
  | .loaded _ _ _ => True
  | .stored _ => True
  | _ => False

structure System (Process : Type) where
  /-- The bytes of `docks.json`. -/
  file : Option (List UInt8)
  stateLock : Option Process
  tabLocks : LockName → Option Process
  phases : Process → Phase

inductive Event where
  | internal
  /-- `docks.json` is replaced. -/
  | published (op : Operation)

section
variable {Process : Type} [DecidableEq Process]

namespace System

def enter (s : System Process) (p : Process) (phase : Phase) : System Process :=
  { s with phases := Function.update s.phases p phase }

def lockTab (s : System Process) (p : Process) (name : LockName) : System Process :=
  { s with tabLocks := Function.update s.tabLocks name (some p) }

def unlockTab (s : System Process) : Option LockName → System Process
  | none => s
  | some name => { s with tabLocks := Function.update s.tabLocks name none }

end System

/-- One step of one process. Whatever may fail may fail at any time, and the
file is replaced whole. -/
inductive Step (codec : Codec DockStateFile (List UInt8)) (s : System Process) :
    Event → System Process → Prop where
  | toggle (p : Process) (workspaceId tabId : String) (hphase : s.phases p = .idle)
    (hfree : s.tabLocks (tabLockName workspaceId tabId) = none) :
    Step codec s .internal
      ((s.lockTab p (tabLockName workspaceId tabId)).enter p (.toggling workspaceId tabId))
  /-- The dock is focused, the host fails or there is no socket. -/
  | leave (p : Process) (workspaceId tabId : String)
    (hphase : s.phases p = .toggling workspaceId tabId) :
    Step codec s .internal (s.enter p (.finishing (some (tabLockName workspaceId tabId))))
  | persistOpen (p : Process) (socket : String) (record : DockRecord)
    (hphase : s.phases p = .toggling record.workspaceId record.tabId) :
    Step codec s .internal (s.enter p (.saving (.opened socket record)
      (some (tabLockName record.workspaceId record.tabId))))
  | persistClose (p : Process) (socket workspaceId tabId : String)
    (hphase : s.phases p = .toggling workspaceId tabId) :
    Step codec s .internal (s.enter p (.saving (.closed socket workspaceId tabId)
      (some (tabLockName workspaceId tabId))))
  /-- The records are read without the state lock; there is nothing to do for none. -/
  | restore (p : Process) (socket : String) (hphase : s.phases p = .idle)
    (hrecords : (DockStateFile.load codec s.file).recordsFor socket ≠ []) :
    Step codec s .internal (s.enter p
      (.restoring socket ((DockStateFile.load codec s.file).recordsFor socket) [] hrecords))
  | lockRecord (p : Process) (socket : String) (read : List DockRecord)
    (answers : List (Option HostAnswers)) (nonempty : read ≠ []) (record : DockRecord)
    (workspaceId tabId : String) (hphase : s.phases p = .restoring socket read answers nonempty)
    (hrecord : read[answers.length]? = some record)
    (hids : recordIds record = some (workspaceId, tabId))
    (hfree : s.tabLocks (tabLockName workspaceId tabId) = none) :
    Step codec s .internal ((s.lockTab p (tabLockName workspaceId tabId)).enter p
      (.probing socket read answers nonempty (tabLockName workspaceId tabId)))
  /-- The tab lock is not acquired, or the record names no tab. -/
  | deferRecord (p : Process) (socket : String) (read : List DockRecord)
    (answers : List (Option HostAnswers)) (nonempty : read ≠ []) (record : DockRecord)
    (hphase : s.phases p = .restoring socket read answers nonempty)
    (hrecord : read[answers.length]? = some record) :
    Step codec s .internal (s.enter p (.restoring socket read (answers ++ [none]) nonempty))
  | restoreRecord (p : Process) (socket : String) (read : List DockRecord)
    (answers : List (Option HostAnswers)) (nonempty : read ≠ []) (held : LockName)
    (host : HostAnswers) (hphase : s.phases p = .probing socket read answers nonempty held) :
    Step codec s .internal ((s.unlockTab (some held)).enter p
      (.restoring socket read (answers ++ [some host]) nonempty))
  | replaceRecords (p : Process) (socket : String) (read : List DockRecord)
    (answers : List (Option HostAnswers)) (nonempty : read ≠ [])
    (hphase : s.phases p = .restoring socket read answers nonempty)
    (complete : answers.length = read.length) :
    Step codec s .internal
      (s.enter p (.saving (.restored socket read answers nonempty complete) none))
  | lock (p : Process) (op : Operation) (held : Option LockName)
    (hphase : s.phases p = .saving op held) (hfree : s.stateLock = none) :
    Step codec s .internal ({ s with stateLock := some p }.enter p (.locked op held))
  | giveUp (p : Process) (op : Operation) (held : Option LockName)
    (hphase : s.phases p = .saving op held) :
    Step codec s .internal (s.enter p (.finishing held))
  | load (p : Process) (op : Operation) (held : Option LockName)
    (hphase : s.phases p = .locked op held) :
    Step codec s .internal (s.enter p (.loaded op held (DockStateFile.load codec s.file)))
  | publish (p : Process) (op : Operation) (held : Option LockName) (state after : DockStateFile)
    (bytes : List UInt8) (hphase : s.phases p = .loaded op held state)
    (happly : op.apply state = .ok (after, true)) (hencode : codec.encode after = some bytes) :
    Step codec s (.published op) ({ s with file := some bytes }.enter p (.stored held))
  /-- Nothing changed, the change is refused or the write fails. -/
  | abandon (p : Process) (op : Operation) (held : Option LockName) (state : DockStateFile)
    (hphase : s.phases p = .loaded op held state) :
    Step codec s .internal (s.enter p (.stored held))
  | unlock (p : Process) (held : Option LockName) (hphase : s.phases p = .stored held) :
    Step codec s .internal ({ s with stateLock := none }.enter p (.finishing held))
  | finish (p : Process) (held : Option LockName) (hphase : s.phases p = .finishing held) :
    Step codec s .internal ((s.unlockTab held).enter p .idle)

end

end HerdrContext.Host
