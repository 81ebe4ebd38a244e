import HerdrContext.Host.Launch
import HerdrContext.Host.Resume
import HerdrContext.Library.Interaction

/-! The dock launcher: what a toggle and a restore ask of the host. -/
namespace HerdrContext.Host

open Library

/-! ## Panes -/

abbrev PaneId := NormalText

inductive DockIdentity where
  | pluginMetadata
  | oscTitle
  deriving DecidableEq

structure HostPane where
  paneId : PaneId
  cwd : Option PathBuf
  foregroundCwd : Option PathBuf
  focused : Bool
  dockIdentity : Option DockIdentity

def HostPane.isDock (pane : HostPane) : Bool := pane.dockIdentity.isSome

def HostPane.withDockIdentity (pane : HostPane) (identity : DockIdentity) : HostPane :=
  { pane with dockIdentity := some identity }

structure LaunchContext where
  workspaceId : NormalText
  tabId : NormalText
  focusedPaneId : PaneId
  cwd : PathBuf
  foregroundCwd : Option PathBuf

def minDockWidth : UInt16 := 24
def maxDockWidth : UInt16 := 60

structure DockWidth where
  columns : UInt16
  nonzero : columns ≠ 0

def clampWidth (columns : UInt16) : UInt16 :=
  if columns < minDockWidth then minDockWidth
  else if maxDockWidth < columns then maxDockWidth else columns

theorem clampWidth_ne_zero (columns : UInt16) : clampWidth columns ≠ 0 := by
  unfold clampWidth minDockWidth maxDockWidth
  split
  next => decide
  next hmin =>
    split
    next => decide
    next =>
      intro h
      rw [h] at hmin
      exact hmin (by decide)

def DockWidth.clamped (columns : UInt16) : DockWidth :=
  ⟨clampWidth columns, clampWidth_ne_zero columns⟩

structure OpenDockRequest where
  originPaneId : PaneId
  tabId : String
  cwd : PathBuf
  width : DockWidth
  focus : Bool

/-! ## Calls -/

/-- What the launcher asks of the host, and what it does to the lock of a tab, to
the state file and to standard error. -/
inductive HostRequest where
  | pane (paneId : PaneId)
  | panesInTab (workspaceId tabId : String)
  | focusOriginPane (dockPaneId originPaneId : PaneId)
  | verifiedDockIdentity (pane : HostPane)
  | openDock (request : OpenDockRequest)
  | focusPane (paneId : PaneId)
  | closePane (paneId : PaneId)
  | closeTerminalPane (paneId : PaneId)
  | moveToRightEdge (paneId : PaneId)
  | resizePane (paneId : PaneId) (width : DockWidth)
  | acquireTabLock (workspaceId tabId : String)
  | upsertRecord (socket : String) (record : DockRecord)
  | removeRecord (socket workspaceId tabId : String)
  | replaceSocketRecords (socket : String) (records : List DockRecord)
  | note (text : String)

/-- Errors of locks and of the state file are told apart by what they display. -/
@[reducible] def HostRequest.Reply : HostRequest → Type
  | .pane _ => Except HostError (Option HostPane)
  | .panesInTab _ _ => Except HostError (List HostPane)
  | .verifiedDockIdentity _ => Except HostError (Option DockIdentity)
  | .openDock _ => Except HostError PaneId
  | .focusOriginPane _ _ | .focusPane _ | .closePane _ | .closeTerminalPane _
  | .moveToRightEdge _ | .resizePane _ _ => Except HostError Unit
  | .acquireTabLock _ _ | .upsertRecord _ _ | .removeRecord _ _ _
  | .replaceSocketRecords _ _ => Except String Unit
  | .note _ => Unit

inductive LauncherError where
  | lock (error : String)
  | host (error : HostError)
  | state (error : String)
  | invariant (message : String)

def LauncherError.display : LauncherError → String
  | .lock error => "dock lock failed: " ++ error
  | .host error => "Herdr operation failed: " ++ error.message
  | .invariant message => "dock invariant failed: " ++ message
  | .state error => "dock state failed: " ++ error

abbrev Launch (α : Type) := Interaction HostRequest HostRequest.Reply α
abbrev HostCalls := ExceptT HostError (Interaction HostRequest HostRequest.Reply)
abbrev LauncherCalls := ExceptT LauncherError (Interaction HostRequest HostRequest.Reply)

def call (request : HostRequest) : Launch request.Reply := .request request

def note (text : String) : Launch Unit := call (.note text)

def pane (paneId : PaneId) : HostCalls (Option HostPane) := .mk (call (.pane paneId))

def panesInTab (workspaceId tabId : String) : HostCalls (List HostPane) :=
  .mk (call (.panesInTab workspaceId tabId))

def verifiedDockIdentity (pane : HostPane) : HostCalls (Option DockIdentity) :=
  .mk (call (.verifiedDockIdentity pane))

def openDock (request : OpenDockRequest) : HostCalls PaneId := .mk (call (.openDock request))

def focusPane (paneId : PaneId) : HostCalls Unit := .mk (call (.focusPane paneId))

def closePane (paneId : PaneId) : HostCalls Unit := .mk (call (.closePane paneId))

def closeTerminalPane (paneId : PaneId) : HostCalls Unit := .mk (call (.closeTerminalPane paneId))

def moveToRightEdge (paneId : PaneId) : HostCalls Unit := .mk (call (.moveToRightEdge paneId))

def resizePane (paneId : PaneId) (width : DockWidth) : HostCalls Unit :=
  .mk (call (.resizePane paneId width))

def focusOriginPane (dockPaneId originPaneId : PaneId) : HostCalls Unit :=
  .mk (call (.focusOriginPane dockPaneId originPaneId))

def acquireTabLock (workspaceId tabId : String) :
    ExceptT String (Interaction HostRequest HostRequest.Reply) Unit :=
  .mk (call (.acquireTabLock workspaceId tabId))

/-- A host error becomes a launcher's. -/
def orHost {α : Type} (calls : HostCalls α) : LauncherCalls α := calls.adapt .host

/-! ## One dock in a tab -/

def dockIdentityRank (pane : HostPane) : Nat :=
  match pane.dockIdentity with
  | some .pluginMetadata => 0
  | some .oscTitle => 1
  | none => 2

/-- The order in which docks are kept. -/
def keptBefore (left right : HostPane) : Bool :=
  decide (dockIdentityRank left < dockIdentityRank right) ||
    decide (dockIdentityRank left = dockIdentityRank right) &&
      (compare left.paneId.text right.paneId.text).isLE

/-- Panes that are listed as docks, the focused ones first. -/
def dockCandidates (panes : List HostPane) : List HostPane :=
  (panes.filter (·.isDock)).mergeSort fun left right => decide (!left.focused ≤ !right.focused)

def forSome {α : Type} (value : Option α) (calls : α → HostCalls Unit) : HostCalls Unit :=
  match value with
  | some value => calls value
  | none => pure ()

/-- Keep the candidates that the host verifies. A verified candidate that was
focused is remembered, since verifying the ones behind it takes the focus. -/
def verifyCandidates (docks : List HostPane) (originallyFocusedDock : Option PaneId) :
    List HostPane → HostCalls (List HostPane × Option PaneId)
  | [] => pure (docks, originallyFocusedDock)
  | pane :: rest => do
    match ← ExceptT.lift (verifiedDockIdentity pane).run with
    | .ok (some identity) =>
      verifyCandidates (docks ++ [pane.withDockIdentity identity])
        (if pane.focused then some pane.paneId else originallyFocusedDock) rest
    | .ok none => verifyCandidates docks originallyFocusedDock rest
    | .error error => do
      forSome originallyFocusedDock fun paneId => discard (ExceptT.lift (focusPane paneId).run)
      throw error

/-- The first dock is kept and the others are closed. -/
def closeDuplicates (docks : List HostPane) : HostCalls (Option HostPane) :=
  match docks.mergeSort keptBefore with
  | [] => pure none
  | keeper :: duplicates => do
    forM duplicates fun duplicate => closePane duplicate.paneId
    pure (some keeper)

def reconcileDocks (panes : List HostPane) : HostCalls (Option HostPane) := do
  let (docks, originallyFocusedDock) ← verifyCandidates [] none (dockCandidates panes)
  forSome originallyFocusedDock focusPane
  closeDuplicates docks

/-! ## The toggle -/

inductive DockState where
  | absent
  | present (dockPaneId focusedPaneId : PaneId)

inductive ToggleDecision where
  | openDock
  | focus (paneId : PaneId)
  | close (paneId : PaneId)

def decideToggle : DockState → ToggleDecision
  | .absent => .openDock
  | .present dockPaneId focusedPaneId =>
    if dockPaneId = focusedPaneId then .close dockPaneId else .focus dockPaneId

inductive ToggleOutcome where
  | opened
  | focused
  | closed
  deriving DecidableEq

structure DockLauncher where
  width : DockWidth
  socket : Option String
  /-- The directory of the process. -/
  currentDir : PathBuf

def absentAfterOpening (openedPaneId : PaneId) : LauncherError :=
  .invariant ("opened dock " ++ openedPaneId.text ++ " was absent from the post-open pane query")

def noPaneToSplit : LauncherError := .invariant "target tab has no pane to split"

def orThrow {α : Type} (value : Option α) (error : LauncherError) : LauncherCalls α :=
  match value with
  | some value => pure value
  | none => throw error

/-- A dock is opened, and becomes the only one. -/
def openAndReconcile (workspaceId tabId : String) (request : OpenDockRequest) :
    LauncherCalls HostPane := do
  let openedPaneId ← orHost (openDock request)
  let panes ← orHost (panesInTab workspaceId tabId)
  orThrow (← orHost (reconcileDocks panes)) (absentAfterOpening openedPaneId)

namespace DockLauncher

variable (launcher : DockLauncher)

/-- Persistence is best-effort. -/
def persistOpen (context : LaunchContext) (dockPaneId : PaneId) (width : DockWidth) : Launch Unit :=
  match launcher.socket with
  | none => pure ()
  | some socket => do
    match ← call (.upsertRecord socket
        ⟨context.workspaceId.text, context.tabId.text, dockPaneId.text, width.columns⟩) with
    | .ok () => pure ()
    | .error error => note ("herdr-context: could not record the open dock: " ++ error)

def persistClose (context : LaunchContext) : Launch Unit :=
  match launcher.socket with
  | none => pure ()
  | some socket => do
    match ← call (.removeRecord socket context.workspaceId.text context.tabId.text) with
    | .ok () => pure ()
    | .error error => note ("herdr-context: could not drop the closed dock record: " ++ error)

/-- The pane that a new dock splits. -/
def openTarget (context : LaunchContext) (panes : List HostPane) : Option PaneId :=
  (((panes.find? (·.paneId = context.focusedPaneId)).or (panes.find? (·.focused))).or
    panes.head?).map HostPane.paneId

/-- What a decision does. -/
def act (context : LaunchContext) (panes : List HostPane) (capturedCwd : PathBuf) :
    ToggleDecision → LauncherCalls ToggleOutcome
  | .openDock => do
    let targetPaneId ← orThrow (openTarget context panes) noPaneToSplit
    let dock ← openAndReconcile context.workspaceId.text context.tabId.text
      ⟨targetPaneId, context.tabId.text, capturedCwd, launcher.width, true⟩
    -- Persisted before placement: a dock that cannot be placed still restores.
    ExceptT.lift (launcher.persistOpen context dock.paneId launcher.width)
    orHost (moveToRightEdge dock.paneId)
    orHost (resizePane dock.paneId launcher.width)
    orHost (focusPane dock.paneId)
    pure .opened
  | .focus paneId => do
    orHost (focusPane paneId)
    pure .focused
  | .close paneId => do
    orHost (closePane paneId)
    ExceptT.lift (launcher.persistClose context)
    pure .closed

def toggle (context : LaunchContext) : LauncherCalls ToggleOutcome := do
  let origin ← orHost (pane context.focusedPaneId)
  let capturedCwd := (((origin.bind HostPane.foregroundCwd).or context.foregroundCwd).or
    (origin.bind HostPane.cwd)).getD context.cwd
  ExceptT.adapt .lock (acquireTabLock context.workspaceId.text context.tabId.text)
  let panes ← orHost (panesInTab context.workspaceId.text context.tabId.text)
  let dock ← orHost (reconcileDocks panes)
  let focusedPaneId := ((panes.find? (·.focused)).map HostPane.paneId).getD context.focusedPaneId
  let state := match dock with
    | none => DockState.absent
    | some pane => .present pane.paneId focusedPaneId
  launcher.act context panes capturedCwd (decideToggle state)

end DockLauncher

/-! ## The restore -/

def deferral (workspaceId tabId error : String) : String :=
  "herdr-context: restore deferred " ++ workspaceId ++ "/" ++ tabId ++ ": " ++ error

def noteRestoreDeferred (workspaceId tabId error : String) : Launch Unit :=
  note (deferral workspaceId tabId error)

/-- Move the focus back to the pane that had it. -/
def refocusFocusedPane (workspaceId tabId : String) : Option PaneId → Launch Unit
  | none => pure ()
  | some target => do
    match ← (panesInTab workspaceId tabId).run with
    | .error _ => pure ()
    | .ok panes =>
      match panes.find? (·.focused) with
      | none => pure ()
      | some current =>
        if current.paneId = target then pure ()
        else
          match ← (focusOriginPane current.paneId target).run with
          | .ok () => pure ()
          | .error error =>
            note ("herdr-context: restore could not refocus " ++ target.text ++ ": " ++
              error.message)

/-- Close the old dock's pane, unless it has become a dock. -/
def closeRestoredShell (workspaceId tabId : String) (paneId : PaneId) : HostCalls Unit := do
  let panes ← panesInTab workspaceId tabId
  match panes.find? (·.paneId = paneId) with
  | none => pure ()
  | some pane => do
    match ← verifiedDockIdentity pane with
    | none => closeTerminalPane paneId
    | some _ => pure ()

def deferRecord (workspaceId tabId : String) (focused : Option PaneId) (error : String)
    (record : DockRecord) : Launch RecordOutcome := do
  refocusFocusedPane workspaceId tabId focused
  noteRestoreDeferred workspaceId tabId error
  pure (.kept record)

/-- The pane that a dock was recorded in, where another ordinary terminal is kept. -/
def stalePaneId (record : DockRecord) (panes : List HostPane) : Option PaneId :=
  (panes.find? (·.paneId.text = record.dockPaneId)).bind fun stale =>
    if panes.any fun pane => pane.paneId ≠ stale.paneId && !pane.isDock then some stale.paneId
    else none

/-- The pane that a restored dock splits. -/
def restoreTarget (panes : List HostPane) (stale : Option PaneId) : Option HostPane :=
  (((panes.filter fun pane => some pane.paneId ≠ stale).find? (·.focused)).or
    (panes.find? fun pane => some pane.paneId ≠ stale && !pane.isDock)).or panes.head?

/-- Failures of a call that is best-effort are noted. -/
def orNote (calls : HostCalls Unit) (text : String) : Launch Unit := do
  match ← calls.run with
  | .ok () => pure ()
  | .error error => note (text ++ error.message)

/-- The old dock's pane is closed, unless it has become the dock that is kept. -/
def shedOldShell (workspaceId tabId : String) (stale : Option PaneId) (keeper : PaneId) :
    Launch Unit :=
  match stale with
  | none => pure ()
  | some paneId =>
    if paneId = keeper then pure ()
    else
      orNote (closeRestoredShell workspaceId tabId paneId)
        ("herdr-context: restore could not close old dock shell " ++ paneId.text ++ ": ")

/-- The pane that a restore leaves the focus with. -/
def restoredFocus (panes : List HostPane) (focused stale : Option PaneId) (keeper : PaneId) :
    Option PaneId :=
  if focused = stale ∧ stale.any (· ≠ keeper) then
    (panes.find? fun pane => some pane.paneId ≠ stale && !pane.isDock).map HostPane.paneId
  else focused

/-- What is left to do once one dock is kept. -/
def settleRecord (workspaceId tabId : String) (panes : List HostPane)
    (focused stale : Option PaneId) (keeper : PaneId) (record : DockRecord) :
    Launch RecordOutcome := do
  shedOldShell workspaceId tabId stale keeper
  refocusFocusedPane workspaceId tabId (restoredFocus panes focused stale keeper)
  pure (.kept { record with dockPaneId := keeper.text })

namespace DockLauncher

variable (launcher : DockLauncher)

def openRestoredDock (workspaceId tabId : String) (panes : List HostPane) (stale : Option PaneId)
    (record : DockRecord) : LauncherCalls PaneId := do
  let target ← orThrow (restoreTarget panes stale) noPaneToSplit
  let width := DockWidth.clamped record.width
  let dock ← openAndReconcile workspaceId tabId
    ⟨target.paneId, tabId, target.cwd.getD launcher.currentDir, width, false⟩
  ExceptT.lift (orNote (moveToRightEdge dock.paneId)
    ("herdr-context: restore could not move " ++ dock.paneId.text ++ ": "))
  ExceptT.lift (orNote (resizePane dock.paneId width)
    ("herdr-context: restore could not resize " ++ dock.paneId.text ++ " to " ++
      toString width.columns ++ " columns: "))
  pure dock.paneId

/-- The dock of a tab that shows panes. -/
def restorePanes (workspaceId tabId : String) (panes : List HostPane) (record : DockRecord) :
    Launch RecordOutcome := do
  let stale := stalePaneId record panes
  -- Verifying candidates takes the focus, so it is read before.
  let focused := (panes.find? (·.focused)).map HostPane.paneId
  match ← (reconcileDocks panes).run with
  | .error error => deferRecord workspaceId tabId focused error.message record
  | .ok (some dock) =>
    settleRecord workspaceId tabId panes focused stale dock.paneId record
  | .ok none =>
    match ← (launcher.openRestoredDock workspaceId tabId panes stale record).run with
    | .error error => deferRecord workspaceId tabId focused error.display record
    | .ok keeper => settleRecord workspaceId tabId panes focused stale keeper record

def restoreRecord (record : DockRecord) : Launch RecordOutcome :=
  match recordIds record with
  | none => pure .dropped
  | some (workspaceId, tabId) => do
    match ← (acquireTabLock workspaceId tabId).run with
    | .error error => do
      noteRestoreDeferred workspaceId tabId error
      pure (.kept record)
    | .ok () =>
      match ← (panesInTab workspaceId tabId).run with
      | .error error =>
        if error.kind = .notFound then pure .dropped
        else do
          noteRestoreDeferred workspaceId tabId error.message
          pure (.kept record)
      | .ok panes =>
        if panes.isEmpty then pure .dropped
        else launcher.restorePanes workspaceId tabId panes record

/-- The records that are kept, one after the other. -/
def restoreRecords : List DockRecord → Launch (List DockRecord)
  | [] => pure []
  | record :: rest => do
    match ← launcher.restoreRecord record with
    | .kept kept => do
      let others ← restoreRecords rest
      pure (kept :: others)
    | .dropped => restoreRecords rest

/-- The records of the state file are read before. -/
def restore (socket : String) (records : List DockRecord) : LauncherCalls Unit :=
  if records.isEmpty then pure ()
  else do
    let kept ← ExceptT.lift (launcher.restoreRecords records)
    ExceptT.adapt .state (.mk (call (.replaceSocketRecords socket kept)))

end DockLauncher

end HerdrContext.Host
