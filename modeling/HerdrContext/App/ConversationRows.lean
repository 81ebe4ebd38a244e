import HerdrContext.App.ConversationsView
import HerdrContext.KeyBindings
import HerdrContext.Library.Rows
import HerdrContext.Library.Transition

/-! The rows of the Conversations view: a row for each tool and, where it is
not collapsed, one for each of its conversations, as the filter leaves them. -/
namespace HerdrContext.App

open Library

/-- The state of the view with what its rows are laid out by. -/
structure ConversationRows extends ConversationsViewState where
  collapsedProviders : Finset String
  scroll : Nat
  filter : String

inductive ConversationRowTarget where
  | provider (provider : String)
  | session (provider : String) (reference : SessionReference)
  deriving DecidableEq

/-- A terminal area. -/
structure Rect where
  x : Nat
  y : Nat
  width : Nat
  height : Nat

/-- `u16::saturating_add`. -/
def saturatingAdd (a b : Nat) : Nat := min (a + b) 65535

namespace ConversationRows

def initial : ConversationRows where
  toConversationsViewState := .initial
  collapsedProviders := ∅
  scroll := 0
  filter := ""

section
variable (toLowercase : List Char → List Char) (self : ConversationRows)

def providerIsCollapsed (provider : String) : Bool := provider ∈ self.collapsedProviders

def providerMatchesFilter (provider : String) : Bool :=
  let filter := toLowercase self.filter.toList
  filter.isEmpty || filter <:+: toLowercase provider.toList

def conversationMatchesFilter (conversation : Conversation) (providerMatches : Bool) : Bool :=
  if providerMatches then true
  else
    let filter := toLowercase self.filter.toList
    conversation.title.any fun title => filter <:+: toLowercase title.text.toList

def providerIsVisible (provider : String) : Bool :=
  let providerMatches := self.providerMatchesFilter toLowercase provider
  providerMatches || self.items.any fun conversation =>
    conversation.tool.text = provider && self.conversationMatchesFilter toLowercase conversation false

def filteredProviderCount (provider : String) : Nat :=
  let providerMatches := self.providerMatchesFilter toLowercase provider
  self.items.countP fun conversation =>
    conversation.tool.text = provider &&
      self.conversationMatchesFilter toLowercase conversation providerMatches

def targetAtRow (target : Nat) : Option ConversationRowTarget :=
  answered <| self.providers.foldlM (fun row provider =>
    if !self.providerIsVisible toLowercase provider then .ok row
    else if row = target then .error (.provider provider)
    else
      let row := row + 1
      if self.providerIsCollapsed provider then .ok row
      else
        let providerMatches := self.providerMatchesFilter toLowercase provider
        (self.items.filter fun conversation =>
          conversation.tool.text = provider &&
            self.conversationMatchesFilter toLowercase conversation providerMatches).foldlM
          (fun row conversation =>
            if row = target then .error (.session provider conversation.sessionReference)
            else .ok (row + 1)) row) 0

def selectedRow : Option Nat :=
  self.selectedProvider.bind fun selectedProvider =>
    answered <| self.providers.foldlM (fun row provider =>
      if !self.providerIsVisible toLowercase provider then .ok row
      else if provider = selectedProvider ∧ self.selection = none then .error row
      else
        let row := row + 1
        if self.providerIsCollapsed provider then .ok row
        else
          let providerMatches := self.providerMatchesFilter toLowercase provider
          (self.items.filter fun conversation =>
            conversation.tool.text = provider &&
              self.conversationMatchesFilter toLowercase conversation providerMatches).foldlM
            (fun row conversation =>
              if provider = selectedProvider ∧ self.selection = some conversation.sessionReference
              then .error row
              else .ok (row + 1)) row) 0

def visibleRowCount : Nat :=
  ((self.providers.filter fun provider => self.providerIsVisible toLowercase provider).map
    fun provider =>
      1 + if self.providerIsCollapsed provider then 0
        else self.filteredProviderCount toLowercase provider).sum

def ensureSelectedRowVisible (viewportHeight : Nat) : ConversationRows :=
  match self.selectedRow toLowercase with
  | none => { self with scroll := 0 }
  | some row =>
    let scroll :=
      if row < self.scroll then row
      else if viewportHeight ≠ 0 ∧ self.scroll + viewportHeight ≤ row then row + 1 - viewportHeight
      else self.scroll
    { self with scroll := min scroll (self.visibleRowCount toLowercase - viewportHeight) }

/-- The flags of this and the next operations say whether the view changed. -/
def selectRow (row viewportHeight : Nat) : ConversationRows × Bool :=
  match self.targetAtRow toLowercase row with
  | none => (self, false)
  | some target =>
    let (provider, selection) :=
      match target with
      | .provider provider => (provider, none)
      | .session provider reference => (provider, some reference)
    let changed := self.selectedProvider ≠ some provider ∨ self.selection ≠ selection
    let selected : ConversationRows := { self with selectedProvider := some provider, selection }
    (selected.ensureSelectedRowVisible toLowercase viewportHeight, changed)

def moveRowSelection (delta : Int) (viewportHeight : Nat) : ConversationRows × Bool :=
  let count := self.visibleRowCount toLowercase
  if count = 0 then (self, false)
  else
    let next :=
      match self.selectedRow toLowercase with
      | none => if delta < 0 then count - 1 else 0
      | some current =>
        if delta < 0 then current - delta.natAbs else min (current + delta.toNat) (count - 1)
    self.selectRow toLowercase next viewportHeight

def setSelectedProviderCollapsed (collapsed : Bool) (viewportHeight : Nat) :
    ConversationRows × Bool :=
  match self.selectedProvider with
  | none => (self, false)
  | some provider =>
    if self.selection.isSome then
      if !collapsed then (self, false)
      else
        let ascended : ConversationRows := { self with selection := none }
        (ascended.ensureSelectedRowVisible toLowercase viewportHeight, true)
    else
      let (collapsedProviders, changed) :=
        if collapsed then
          (insert provider self.collapsedProviders, !self.providerIsCollapsed provider)
        else (self.collapsedProviders.erase provider, self.providerIsCollapsed provider)
      let turned : ConversationRows := { self with collapsedProviders }
      (turned.ensureSelectedRowVisible toLowercase viewportHeight, changed)

def toggleSelectedProvider (viewportHeight : Nat) : ConversationRows × Bool :=
  if self.selection.isSome then (self, false)
  else
    match self.selectedProvider with
    | none => (self, false)
    | some provider =>
      let collapse := !self.providerIsCollapsed provider
      self.setSelectedProviderCollapsed toLowercase collapse viewportHeight

def handlePointer (column row : Nat) (action : PointerAction) (area : Rect) (warningHeight : Nat) :
    ConversationRows × Bool :=
  let contentY := saturatingAdd area.y warningHeight
  let contentHeight := area.height - warningHeight
  if row < contentY ∨ saturatingAdd contentY contentHeight ≤ row then (self, false)
  else
    let absoluteRow := self.scroll + (row - contentY)
    let isProvider : Bool :=
      match self.targetAtRow toLowercase absoluteRow with
      | some (.provider _) => true
      | _ => false
    let (selected, changed) := self.selectRow toLowercase absoluteRow contentHeight
    if isProvider ∧ (action = .toggle ∨ action = .select ∧ column = area.x) then
      let (toggled, turned) := selected.toggleSelectedProvider toLowercase contentHeight
      (toggled, changed || turned)
    else (selected, changed)

/-- The notices take the first line of the area. -/
def warningHeight (area : Rect) : Nat :=
  min (if self.visibleErrors ≠ [] ∨ self.liveLoading then 1 else 0) area.height

def viewportHeight (area : Rect) : Nat := area.height - self.warningHeight area

def handleIntent (intent : Intent) (area : Rect) : ConversationRows × Bool :=
  let viewportHeight := self.viewportHeight area
  match intent with
  | .selectPrevious => self.moveRowSelection toLowercase (-1) viewportHeight
  | .selectNext => self.moveRowSelection toLowercase 1 viewportHeight
  | .selectFirst => self.selectRow toLowercase 0 viewportHeight
  | .selectLast => self.selectRow toLowercase (self.visibleRowCount toLowercase - 1) viewportHeight
  | .expandOrDescend => self.setSelectedProviderCollapsed toLowercase false viewportHeight
  | .collapseOrAscend => self.setSelectedProviderCollapsed toLowercase true viewportHeight
  | .toggleSelected => self.toggleSelectedProvider toLowercase viewportHeight
  | .pointer column row action =>
    self.handlePointer toLowercase column row action area (self.warningHeight area)
  | .scroll delta => self.moveRowSelection toLowercase delta viewportHeight
  | .toggleIgnoredFiles => (self, false)
  | .quit | .switchView _ | .nextView | .previousView | .refresh | .switchFilesPane
  | .beginFileSearch | .fileSearchInput _ | .fileSearchBackspace | .fileSearchClear
  | .fileSearchCommit | .fileSearchCancel | .resize => (self, false)

def reconcileViewport (area : Rect) : ConversationRows :=
  self.ensureSelectedRowVisible toLowercase (self.viewportHeight area)

def replaceItems (items : List Conversation) (generation : Nat) : ConversationRows :=
  { self with
    toConversationsViewState := (self.toConversationsViewState.replaceItems items generation).1 }

def replaceLiveItems (items : List Conversation) (generation : Nat) : ConversationRows :=
  { self with
    toConversationsViewState := (self.toConversationsViewState.replaceLiveItems items generation).1 }

end

end ConversationRows

/-- What changes the view: the answers of its jobs, an intent, the drawing of a
frame and its setters. -/
inductive RowsOperation where
  | replaceItems (items : List Conversation) (generation : Nat)
  | replaceLiveItems (items : List Conversation) (generation : Nat)
  | handleIntent (intent : Intent) (area : Rect)
  | reconcileViewport (area : Rect)
  | setFilter (filter : String)
  | setScroll (scroll : Nat)
  | setSelection (selection : Option SessionReference)
  | setSourceErrors (sourceErrors : List VisibleError)
  | setLiveError (liveError : Option String)
  | setLaunchError (launchError : Option String)
  | setLoading (loading : LoadingState)
  | setLiveLoading (loading : Bool)
  | setGenerations (requested applied : Nat)
  | setLiveGenerations (requested applied : Nat)

def RowsOperation.apply (toLowercase : List Char → List Char) (rows : ConversationRows) :
    RowsOperation → ConversationRows
  | replaceItems items generation => rows.replaceItems items generation
  | replaceLiveItems items generation => rows.replaceLiveItems items generation
  | handleIntent intent area => (rows.handleIntent toLowercase intent area).1
  | reconcileViewport area => rows.reconcileViewport toLowercase area
  | setFilter filter => { rows with filter }
  | setScroll scroll => { rows with scroll }
  | setSelection selection => { rows with selection }
  | setSourceErrors errors =>
    { rows with toConversationsViewState := rows.toConversationsViewState.setSourceErrors errors }
  | setLiveError error =>
    { rows with toConversationsViewState := rows.toConversationsViewState.setLiveError error }
  | setLaunchError error =>
    { rows with toConversationsViewState := rows.toConversationsViewState.setLaunchError error }
  | setLoading loading => { rows with loading }
  | setLiveLoading liveLoading => { rows with liveLoading }
  | setGenerations requestedGeneration appliedGeneration =>
    { rows with requestedGeneration, appliedGeneration }
  | setLiveGenerations liveRequestedGeneration liveAppliedGeneration =>
    { rows with liveRequestedGeneration, liveAppliedGeneration }

/-- Rows that replace the shown ones have references of their own. -/
def RowsOperation.Unique : RowsOperation → Prop
  | replaceItems items _ => (items.map (·.sessionReference)).Nodup
  | replaceLiveItems items _ => (items.map (·.sessionReference)).Nodup
  | _ => True

end HerdrContext.App
