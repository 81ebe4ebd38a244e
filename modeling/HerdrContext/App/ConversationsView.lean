import HerdrContext.Live.Merge

/-! State of the Conversations view, as far as the shown conversations, the
notices and the generations of its jobs go. -/
namespace HerdrContext.App

open Live

inductive LoadingState where
  | loading
  | ready
  | error (message : String)
  deriving DecidableEq

inductive NoticeSeverity where
  | quiet | alert
  deriving DecidableEq

/-- A surfaced conversation error with its presentation weight. -/
structure VisibleError where
  severity : NoticeSeverity
  message : String
  deriving DecidableEq

def VisibleError.alert (message : String) : VisibleError := ⟨.alert, message⟩

def showError (visible : List VisibleError) (error : String) : List VisibleError :=
  if visible.any (·.message = error) then visible else visible ++ [.alert error]

/-- The notices of the sources, then the live and the launch error. -/
def rebuildVisibleErrors (sourceErrors : List VisibleError) (liveError launchError : Option String) :
    List VisibleError :=
  (liveError.toList ++ launchError.toList).foldl showError sourceErrors

structure ConversationsViewState where
  items : List Conversation
  providers : List String
  selectedProvider : Option String
  selection : Option SessionReference
  loading : LoadingState
  sourceErrors : List VisibleError
  liveError : Option String
  launchError : Option String
  visibleErrors : List VisibleError
  liveLoading : Bool
  requestedGeneration : Nat
  appliedGeneration : Nat
  liveRequestedGeneration : Nat
  liveAppliedGeneration : Nat
  visible_eq : visibleErrors = rebuildVisibleErrors sourceErrors liveError launchError

namespace ConversationsViewState

/-- `ConversationsViewState::default`. -/
def initial : ConversationsViewState where
  items := []
  providers := []
  selectedProvider := none
  selection := none
  loading := .loading
  sourceErrors := []
  liveError := none
  launchError := none
  visibleErrors := []
  liveLoading := false
  requestedGeneration := 0
  appliedGeneration := 0
  liveRequestedGeneration := 0
  liveAppliedGeneration := 0
  visible_eq := rfl

/-- The row that takes over from a selected one that is gone: the only new row
with a file of its provenance. -/
def migratedSelection (view : ConversationsViewState) (items : List Conversation) :
    Option SessionReference := do
  let selection ← view.selection
  if items.any (·.sessionReference = selection) then none
  else
    let selected ← view.items.find? (·.sessionReference = selection)
    match items.filter fun candidate =>
        (selected.provenance.filter (·.path.isSome)).any fun provenance =>
          candidate.provenance.any (·.same provenance) with
    | [candidate] => some candidate.sessionReference
    | _ => none

def replaceVisibleItems (view : ConversationsViewState) (items : List Conversation) :
    ConversationsViewState :=
  let providers := (items.map (·.tool.text)).dedup.insertionSort (· ≤ ·)
  let selection :=
    if view.selection.any fun selection => items.all (·.sessionReference ≠ selection) then
      view.migratedSelection items
    else view.selection
  let selected := selection.bind fun selection => items.find? (·.sessionReference = selection)
  { view with
    items
    providers
    selection
    selectedProvider :=
      match selected with
      | some conversation => some conversation.tool.text
      | none =>
        if view.selectedProvider.all (· ∉ providers) then providers.head?
        else view.selectedProvider }

/-- The flag says whether the view changed. -/
def replaceItems (view : ConversationsViewState) (items : List Conversation) (generation : Nat) :
    ConversationsViewState × Bool :=
  if generation < view.requestedGeneration then (view, false)
  else
    ({ view with appliedGeneration := generation, loading := .ready }.replaceVisibleItems items,
      true)

def replaceLiveItems (view : ConversationsViewState) (items : List Conversation)
    (generation : Nat) : ConversationsViewState × Bool :=
  if generation < view.liveRequestedGeneration then (view, false)
  else
    ({ view with liveAppliedGeneration := generation, liveLoading := false }.replaceVisibleItems
      items, true)

def setSourceErrors (view : ConversationsViewState) (sourceErrors : List VisibleError) :
    ConversationsViewState :=
  { view with
    sourceErrors
    visibleErrors := rebuildVisibleErrors sourceErrors view.liveError view.launchError
    visible_eq := rfl }

def setLiveError (view : ConversationsViewState) (liveError : Option String) :
    ConversationsViewState :=
  { view with
    liveError
    visibleErrors := rebuildVisibleErrors view.sourceErrors liveError view.launchError
    visible_eq := rfl }

def setLaunchError (view : ConversationsViewState) (launchError : Option String) :
    ConversationsViewState :=
  { view with
    launchError
    visibleErrors := rebuildVisibleErrors view.sourceErrors view.liveError launchError
    visible_eq := rfl }

end ConversationsViewState

/-! ## Notices -/

theorem mem_showError {visible : List VisibleError} {error : VisibleError} (message : String)
    (h : error ∈ visible) : error ∈ showError visible message := by
  unfold showError
  split
  next => exact h
  next => exact List.mem_append_left _ h

theorem exists_showError (visible : List VisibleError) (message : String) :
    ∃ error ∈ showError visible message, error.message = message := by
  unfold showError
  split
  next h => simpa using h
  next => exact ⟨.alert message, by simp, rfl⟩

/-- A live error is among the notices. -/
theorem ConversationsViewState.live_error_visible (view : ConversationsViewState) {message : String}
    (h : view.liveError = some message) : ∃ error ∈ view.visibleErrors, error.message = message := by
  obtain ⟨error, hmem, hmessage⟩ := exists_showError view.sourceErrors message
  refine ⟨error, ?_, hmessage⟩
  rw [view.visible_eq, h, rebuildVisibleErrors]
  cases view.launchError with
  | none => exact hmem
  | some launch => exact mem_showError launch hmem

end HerdrContext.App
