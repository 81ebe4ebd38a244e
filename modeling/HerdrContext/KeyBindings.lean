import HerdrContext.App.Controller
import HerdrContext.Library.Fallback

/-! The key bindings of a configuration. -/
namespace HerdrContext

open App (View)

/-! ## Actions -/

inductive KeyAction where
  | quit | nextView | previousView | filesView | conversationsView | selectPrevious | selectNext
  | selectFirst | selectLast | expand | collapse | toggle | refresh | toggleFilesFocus | search
  | toggleIgnoredFiles
  deriving DecidableEq

inductive PointerAction where
  | select | toggle
  deriving DecidableEq

inductive Intent where
  | quit | switchView (view : View) | nextView | previousView | selectPrevious | selectNext
  | selectFirst | selectLast | expandOrDescend | collapseOrAscend | toggleSelected | refresh
  | toggleIgnoredFiles | switchFilesPane | beginFileSearch
  | fileSearchInput (text : String) | fileSearchBackspace | fileSearchClear | fileSearchCommit
  | fileSearchCancel
  | pointer (column row : Nat) (action : PointerAction)
  | scroll (delta : Int)
  | resize
  deriving DecidableEq

namespace KeyAction

def all : List KeyAction :=
  [.quit, .nextView, .previousView, .filesView, .conversationsView, .selectPrevious, .selectNext,
    .selectFirst, .selectLast, .expand, .collapse, .toggle, .refresh, .toggleFilesFocus, .search,
    .toggleIgnoredFiles]

theorem mem_all (action : KeyAction) : action ∈ all := by
  cases action <;> decide

def field : KeyAction → String
  | quit => "quit"
  | nextView => "next_view"
  | previousView => "previous_view"
  | filesView => "files_view"
  | conversationsView => "conversations_view"
  | selectPrevious => "select_previous"
  | selectNext => "select_next"
  | selectFirst => "select_first"
  | selectLast => "select_last"
  | expand => "expand"
  | collapse => "collapse"
  | toggle => "toggle"
  | refresh => "refresh"
  | toggleFilesFocus => "toggle_files_focus"
  | search => "search"
  | toggleIgnoredFiles => "toggle_ignored_files"

def intent : KeyAction → Intent
  | quit => .quit
  | nextView => .nextView
  | previousView => .previousView
  | filesView => .switchView .files
  | conversationsView => .switchView .conversations
  | selectPrevious => .selectPrevious
  | selectNext => .selectNext
  | selectFirst => .selectFirst
  | selectLast => .selectLast
  | expand => .expandOrDescend
  | collapse => .collapseOrAscend
  | toggle => .toggleSelected
  | refresh => .refresh
  | toggleFilesFocus => .switchFilesPane
  | search => .beginFileSearch
  | toggleIgnoredFiles => .toggleIgnoredFiles

end KeyAction

/-! ## Chords -/

/-- The codes a chord can have, and the others of a key event. -/
inductive KeyCode where
  | esc | tab | backTab | up | down | left | right | home | «end» | enter
  | char (character : Char)
  | other (code : Nat)
  deriving DecidableEq

/-- A set of bit flags. -/
abbrev KeyModifiers := BitVec 8

namespace KeyModifiers

def none : KeyModifiers := 0
def shift : KeyModifiers := 1
def control : KeyModifiers := 2
def alt : KeyModifiers := 4

end KeyModifiers

structure KeyEvent where
  code : KeyCode
  modifiers : KeyModifiers

/-- The label is what the user reads, and is not compared. -/
structure KeyChord where
  code : KeyCode
  modifiers : KeyModifiers
  label : String

namespace KeyChord

def key (chord : KeyChord) : KeyCode × KeyModifiers := (chord.code, chord.modifiers)

instance : BEq KeyChord := ⟨fun left right =>
  left.code == right.code && left.modifiers == right.modifiers⟩

theorem beq_iff {left right : KeyChord} : (left == right) = true ↔ left.key = right.key := by
  change (left.code == right.code && left.modifiers == right.modifiers) = true ↔ _
  simp [key]

theorem contains_iff {chords : List KeyChord} {chord : KeyChord} :
    chords.contains chord = true ↔ chord.key ∈ chords.map key := by
  simp only [List.contains_eq_any_beq, List.any_eq_true, beq_iff, List.mem_map]
  simp only [eq_comm]

def modifierFlag (modifier : List Char) : Option KeyModifiers :=
  if modifier = "ctrl".toList then some .control
  else if modifier = "alt".toList then some .alt
  else if modifier = "shift".toList then some .shift
  else none

/-- The modifiers before the key, none of them twice. -/
def parseModifiers : List (List Char) → KeyModifiers → Option KeyModifiers
  | [], modifiers => some modifiers
  | modifier :: parts, modifiers => do
    let flag ← modifierFlag modifier
    if modifiers &&& flag = flag then none else parseModifiers parts (modifiers ||| flag)

def parseKey (value : List Char) (modifiers : KeyModifiers) : Option (KeyCode × KeyModifiers) :=
  if value = "esc".toList then some (.esc, modifiers)
  else if value = "tab".toList then some (.tab, modifiers)
  else if value = "backtab".toList then some (.backTab, modifiers ||| .shift)
  else if value = "up".toList then some (.up, modifiers)
  else if value = "down".toList then some (.down, modifiers)
  else if value = "left".toList then some (.left, modifiers)
  else if value = "right".toList then some (.right, modifiers)
  else if value = "home".toList then some (.home, modifiers)
  else if value = "end".toList then some (.end, modifiers)
  else if value = "enter".toList then some (.enter, modifiers)
  else if value = "space".toList then some (.char ' ', modifiers)
  else match value with
    | [character] => some (.char character, modifiers)
    | _ => none

def parse (value : String) : Option KeyChord := do
  if trim value ≠ value ∨ value.toList = [] ∨ value.toList.any isControl then
    none
  else
    -- `to_ascii_lowercase`
    let normalized := value.toList.map Char.toLower
    let parts := normalized.splitOn '+'
    let key ← parts.getLast?
    let modifiers ← parseModifiers parts.dropLast .none
    let (code, modifiers) ← parseKey key modifiers
    some ⟨code, modifiers, String.ofList normalized⟩

def fromEvent (event : KeyEvent) : Option KeyChord := do
  let code ← match event.code with
    | .char character => some (.char character.toLower)
    | .other _ => none
    | code => some code
  let modifiers := event.modifiers &&& (KeyModifiers.control ||| .alt ||| .shift)
  some ⟨code, if code = .backTab then modifiers ||| .shift else modifiers, ""⟩

end KeyChord

/-! ## Bindings -/

/-- Every action has an entry, in the order of the actions. -/
abbrev Bindings := KeyAction → List KeyChord

structure KeyBindings where
  bindings : Bindings

namespace KeyBindings

variable (self : KeyBindings)

/-- `find_map` over the actions in some order. -/
def answer (order : List KeyAction) (chord : KeyChord) : Option Intent :=
  order.findSome? fun action =>
    if (self.bindings action).contains chord then some action.intent else none

def mapKey (event : KeyEvent) : Option Intent := do
  let chord ← KeyChord.fromEvent event
  self.answer KeyAction.all chord

def intentFor (chord : String) : Option Intent := do
  let chord ← KeyChord.parse chord
  self.answer KeyAction.all chord

def bindingsFor (action : KeyAction) : List String := (self.bindings action).map KeyChord.label

end KeyBindings

def defaultLabels : KeyAction → List String
  | .quit => ["q", "esc", "ctrl+c"]
  | .nextView => ["tab"]
  | .previousView => ["backtab"]
  | .filesView => ["1"]
  | .conversationsView => ["2"]
  | .selectPrevious => ["up", "k"]
  | .selectNext => ["down", "j"]
  | .selectFirst => ["home"]
  | .selectLast => ["end"]
  | .expand => ["right", "l"]
  | .collapse => ["left", "h"]
  | .toggle => ["enter", "space"]
  | .refresh => ["r"]
  | .toggleFilesFocus => ["w"]
  | .search => ["/"]
  | .toggleIgnoredFiles => ["i"]

/-- `KeyBindings::default`. -/
def defaultBindings : Bindings := fun action => (defaultLabels action).filterMap KeyChord.parse

/-- Every default chord is valid. -/
theorem parse_defaultLabels (action : KeyAction) :
    ∀ label ∈ defaultLabels action, (KeyChord.parse label).isSome := by
  cases action <;> decide

/-! ## The configured table -/

inductive TomlValue where
  | string (text : String)
  | integer (value : Int)
  /-- The bits of the number. -/
  | float (bits : UInt64)
  | boolean (value : Bool)
  | datetime (text : String)
  | array (values : List TomlValue)
  | table (fields : List (String × TomlValue))

abbrev TomlTable := List (String × TomlValue)

def TomlTable.get (table : TomlTable) (field : String) : Option TomlValue :=
  (table.find? fun entry => entry.1 == field).map Prod.snd

def maxKeyChordsPerAction : Nat := 16

def parseString : TomlValue → Option String
  | .string value =>
    if trim value = value ∧ value.toList ≠ [] ∧ value.toList.any isControl = false then some value
    else none
  | _ => none

def parseChord (value : TomlValue) : Option KeyChord := parseString value >>= KeyChord.parse

def collectChords : List TomlValue → List KeyChord → Option (List KeyChord)
  | [], chords => some chords
  | value :: values, chords => do
    let chord ← parseChord value
    collectChords values (if chords.contains chord then chords else chords ++ [chord])

def parseChords : TomlValue → Option (List KeyChord)
  | .array values =>
    if 1 ≤ values.length ∧ values.length ≤ maxKeyChordsPerAction then do
      let chords ← collectChords values []
      if chords = [] then none else some chords
    else none
  | _ => none

def invalidWarning (field : String) : String :=
  "Config: " ++ field ++ " is invalid; using safe fallback"

def invalid (field : String) (warnings : List String) : List String :=
  if invalidWarning field ∈ warnings then warnings else warnings ++ [invalidWarning field]

theorem mem_invalid {field warning : String} {warnings : List String} :
    warning ∈ invalid field warnings ↔ warning ∈ warnings ∨ warning = invalidWarning field := by
  unfold invalid
  split
  next hmem =>
    constructor
    · exact Or.inl
    · intro h
      cases h with
      | inl h => exact h
      | inr h => rwa [h]
  next => simp

structure Resolution where
  bindings : Bindings
  configured : Finset KeyAction
  warnings : List String

namespace Resolution

variable (state : Resolution)

def warn (action : KeyAction) : Resolution :=
  { state with warnings := invalid ("keybindings." ++ action.field) state.warnings }

def configure (table : TomlTable) (state : Resolution) (action : KeyAction) : Resolution :=
  match table.get action.field with
  | none => state
  | some value =>
    match parseChords value with
    | some chords =>
      { state with
        bindings := Function.update state.bindings action chords
        configured := insert action state.configured }
    | none => state.warn action

/-- The actions a chord is listed under, once for each time. -/
def owners (chord : KeyChord) : List KeyAction :=
  KeyAction.all.flatMap fun action =>
    ((state.bindings action).filter (· == chord)).map fun _ => action

def conflicts : List KeyAction :=
  KeyAction.all.filter fun action =>
    decide (action ∈ state.configured) &&
      (state.bindings action).any fun chord => decide (1 < (state.owners chord).length)

def reset (state : Resolution) (action : KeyAction) : Resolution :=
  { state with
    bindings := Function.update state.bindings action (defaultBindings action)
    configured := state.configured.erase action }.warn action

/-- A pass of the loop that finds conflicts. -/
def round : Resolution := state.conflicts.foldl reset state

theorem foldl_reset (actions : List KeyAction) (state : Resolution) :
    (∀ action, (actions.foldl reset state).bindings action =
      if action ∈ actions then defaultBindings action else state.bindings action) ∧
    ∀ action, action ∈ (actions.foldl reset state).configured ↔
      action ∈ state.configured ∧ action ∉ actions := by
  induction actions generalizing state with
  | nil => simp
  | cons first actions ih =>
    have ⟨hbindings, hconfigured⟩ := ih (state.reset first)
    constructor
    · intro action
      rw [List.foldl_cons, hbindings]
      by_cases hmem : action ∈ actions
      · simp [hmem]
      · by_cases hfirst : action = first
        · simp [hfirst, reset, warn]
        · simp [hmem, hfirst, reset, warn]
    · intro action
      rw [List.foldl_cons, hconfigured]
      simp only [reset, warn, Finset.mem_erase, List.mem_cons, not_or]
      tauto

theorem round_bindings (action : KeyAction) :
    state.round.bindings action =
      if action ∈ state.conflicts then defaultBindings action else state.bindings action :=
  (foldl_reset state.conflicts state).1 action

theorem mem_round_configured {action : KeyAction} :
    action ∈ state.round.configured ↔ action ∈ state.configured ∧ action ∉ state.conflicts :=
  (foldl_reset state.conflicts state).2 action

theorem configured_of_conflicts {action : KeyAction} (haction : action ∈ state.conflicts) :
    action ∈ state.configured := by
  simp only [conflicts, List.mem_filter, Bool.and_eq_true, decide_eq_true_eq] at haction
  exact haction.2.1

theorem card_round (hconflicts : state.conflicts ≠ []) :
    state.round.configured.card < state.configured.card := by
  have ⟨action, haction⟩ := List.exists_mem_of_ne_nil _ hconflicts
  apply Finset.card_lt_card
  rw [Finset.ssubset_iff_of_subset]
  · exact ⟨action, configured_of_conflicts state haction,
      fun hround => ((mem_round_configured state).mp hround).2 haction⟩
  · intro other hother
    exact ((mem_round_configured state).mp hother).1

/-- The loop. Each pass that finds a conflict has one configured action less. -/
def resolve (state : Resolution) : Resolution :=
  if state.conflicts = [] then state else state.round.resolve
termination_by state.configured.card
decreasing_by exact card_round state ‹_›

end Resolution

/-- The actions with valid chords of their own, before the loop. -/
def configuredBindings (table : TomlTable) (warnings : List String) : Resolution :=
  KeyAction.all.foldl (Resolution.configure table) ⟨defaultBindings, ∅, warnings⟩

def parseKeybindings (table : TomlTable) (warnings : List String) : KeyBindings × List String :=
  let state := (configuredBindings table warnings).resolve
  (⟨state.bindings⟩, state.warnings)

/-! ## Chords of an action -/

/-- A chord of one of the values. -/
def Parsed (values : List TomlValue) (key : KeyCode × KeyModifiers) : Prop :=
  ∃ value ∈ values, ∃ chord, parseChord value = some chord ∧ chord.key = key

theorem collectChords_spec {values : List TomlValue} {chords result : List KeyChord}
    (h : collectChords values chords = some result) (hdistinct : (chords.map KeyChord.key).Nodup) :
    (result.map KeyChord.key).Nodup ∧
      ∀ key, key ∈ result.map KeyChord.key ↔ key ∈ chords.map KeyChord.key ∨ Parsed values key := by
  induction values generalizing chords with
  | nil =>
    cases h
    simp [hdistinct, Parsed]
  | cons value values ih =>
    have ⟨chord, hchord, hrest⟩ := Option.bind_eq_some_iff.mp h
    have hadded : Parsed (value :: values) = fun key => key = chord.key ∨ Parsed values key := by
      funext key
      simp [Parsed, hchord, eq_comm]
    by_cases hcontains : chords.contains chord = true
    · rw [if_pos hcontains] at hrest
      have ⟨hnodup, hkeys⟩ := ih hrest hdistinct
      apply And.intro hnodup
      intro key
      rw [hkeys, hadded]
      have hknown := KeyChord.contains_iff.mp hcontains
      constructor
      · tauto
      · rintro (hkey | hkey | hkey)
        · exact Or.inl hkey
        · exact Or.inl (hkey ▸ hknown)
        · exact Or.inr hkey
    · rw [if_neg hcontains] at hrest
      have hnew : chord.key ∉ chords.map KeyChord.key := fun hmem =>
        hcontains (KeyChord.contains_iff.mpr hmem)
      have hextended : ((chords ++ [chord]).map KeyChord.key).Nodup := by
        rw [List.map_append, List.map_singleton, ← List.concat_eq_append]
        exact List.Nodup.concat hnew hdistinct
      have ⟨hnodup, hkeys⟩ := ih hrest hextended
      apply And.intro hnodup
      intro key
      rw [hkeys, hadded, List.map_append, List.mem_append, List.map_singleton, List.mem_singleton,
        or_assoc]

theorem collectChords_isSome {values : List TomlValue}
    (hvalid : ∀ value ∈ values, (parseChord value).isSome) (chords : List KeyChord) :
    (collectChords values chords).isSome := by
  induction values generalizing chords with
  | nil => rfl
  | cons value values ih =>
    have ⟨chord, hchord⟩ := Option.isSome_iff_exists.mp (hvalid value (by simp))
    rw [collectChords, hchord]
    exact ih (fun other hother => hvalid other (by simp [hother])) _

theorem parseChords_spec {value : TomlValue} {chords : List KeyChord}
    (h : parseChords value = some chords) :
    chords ≠ [] ∧ (chords.map KeyChord.key).Nodup ∧
      ∃ values, value = .array values ∧
        ∀ key, key ∈ chords.map KeyChord.key ↔ Parsed values key := by
  unfold parseChords at h
  split at h
  next values =>
    split at h
    next =>
      have ⟨collected, hcollected, hrest⟩ := Option.bind_eq_some_iff.mp h
      split at hrest
      next => contradiction
      next hne =>
        cases hrest
        have ⟨hnodup, hkeys⟩ := collectChords_spec hcollected List.nodup_nil
        refine ⟨hne, hnodup, values, rfl, fun key => ?_⟩
        rw [hkeys]
        simp
    next => contradiction
  next => contradiction

/-- Every list of at most as many valid chords as an action may have is taken. -/
theorem parseChords_of_valid {values : List TomlValue} (hne : values ≠ [])
    (hlength : values.length ≤ maxKeyChordsPerAction)
    (hvalid : ∀ value ∈ values, (parseChord value).isSome) :
    ∃ chords, parseChords (.array values) = some chords := by
  have ⟨chords, hchords⟩ := Option.isSome_iff_exists.mp (collectChords_isSome hvalid [])
  have hfilled : chords ≠ [] := by
    have ⟨value, hvalue⟩ := List.exists_mem_of_ne_nil _ hne
    have ⟨chord, hchord⟩ := Option.isSome_iff_exists.mp (hvalid value hvalue)
    have hmem := ((collectChords_spec hchords List.nodup_nil).2 chord.key).mpr
      (Or.inr ⟨value, hvalue, chord, hchord, rfl⟩)
    intro hnil
    simp [hnil] at hmem
  have hpositive : 1 ≤ values.length := List.length_pos_iff.mpr hne
  exact ⟨chords, by simp [parseChords, hpositive, hlength, hchords, hfilled]⟩

theorem defaultBindings_disjoint :
    (KeyAction.all.flatMap fun action => (defaultBindings action).map KeyChord.key).Nodup := by
  decide +kernel

/-- Default chords are distinct, also those of different actions. -/
theorem defaultBindings_unshared {action other : KeyAction} {key : KeyCode × KeyModifiers}
    (haction : key ∈ (defaultBindings action).map KeyChord.key)
    (hother : key ∈ (defaultBindings other).map KeyChord.key) : action = other := by
  by_contra hne
  have hpairwise := (List.nodup_flatMap.mp defaultBindings_disjoint).2
  have : Std.Symm (Function.onFun List.Disjoint fun action =>
      (defaultBindings action).map KeyChord.key) := ⟨fun _ _ h => h.symm⟩
  exact hpairwise.forall (KeyAction.mem_all action) (KeyAction.mem_all other) hne haction hother

theorem nodup_defaultBindings (action : KeyAction) :
    ((defaultBindings action).map KeyChord.key).Nodup :=
  (List.nodup_flatMap.mp defaultBindings_disjoint).1 action (KeyAction.mem_all action)

theorem defaultBindings_ne_nil (action : KeyAction) : defaultBindings action ≠ [] := by
  cases action <;> decide +kernel

/-! ## The loop -/

/-- The valid chords configured for an action. -/
def TomlTable.chords (table : TomlTable) (action : KeyAction) : Option (List KeyChord) :=
  table.get action.field >>= parseChords

/-- What the actions hold, by the set of those that have kept their own chords. -/
def TomlTable.fallback (table : TomlTable) :
    Library.Fallback KeyAction (KeyCode × KeyModifiers) where
  own action := {key | ∃ chords, table.chords action = some chords ∧ key ∈ chords.map KeyChord.key}
  default action := {key | key ∈ (defaultBindings action).map KeyChord.key}

namespace Resolution

/-- The bindings are the configured or the default ones, and what was configured
and is not bound is warned of. -/
structure Follows (table : TomlTable) (seen : List KeyAction) (state : Resolution) : Prop where
  kept : ∀ action ∈ state.configured, table.chords action = some (state.bindings action)
  fallback : ∀ action ∉ state.configured, state.bindings action = defaultBindings action
  warned : ∀ action ∈ seen, action ∉ state.configured → (table.get action.field).isSome →
    invalidWarning ("keybindings." ++ action.field) ∈ state.warnings

variable {table : TomlTable} {seen : List KeyAction} {state : Resolution} {action : KeyAction}

theorem Follows.configure (h : state.Follows table seen) (action : KeyAction) :
    (configure table state action).Follows table (action :: seen) := by
  cases hvalue : table.get action.field with
  | none =>
    simp only [Resolution.configure, hvalue]
    apply Follows.mk h.kept h.fallback
    intro other hother hkept hset
    cases List.mem_cons.mp hother with
    | inl hsame => simp [hsame, hvalue] at hset
    | inr hseen => exact h.warned other hseen hkept hset
  | some value =>
    cases hparsed : parseChords value with
    | some chords =>
      have hchords : table.chords action = some chords := by
        rw [TomlTable.chords, hvalue]
        exact hparsed
      simp only [Resolution.configure, hvalue, hparsed]
      constructor
      · intro other hother
        by_cases hsame : other = action
        · simp only [hsame, hchords, Function.update_self]
        · simp only [Function.update_of_ne hsame]
          exact h.kept other (Finset.mem_of_mem_insert_of_ne hother hsame)
      · intro other hother
        have ⟨hne, hmem⟩ := not_or.mp (Finset.mem_insert.not.mp hother)
        simp only [Function.update_of_ne hne]
        exact h.fallback other hmem
      · intro other hother hkept hset
        have ⟨hne, hmem⟩ := not_or.mp (Finset.mem_insert.not.mp hkept)
        exact h.warned other (List.mem_of_ne_of_mem hne hother) hmem hset
    | none =>
      simp only [Resolution.configure, hvalue, hparsed]
      refine ⟨h.kept, h.fallback, ?_⟩
      intro other hother hkept hset
      apply mem_invalid.mpr
      cases List.mem_cons.mp hother with
      | inl hsame => exact Or.inr (by rw [hsame])
      | inr hseen => exact Or.inl (h.warned other hseen hkept hset)

theorem Follows.reset (h : state.Follows table seen) (action : KeyAction) :
    (state.reset action).Follows table seen := by
  constructor
  · intro other hother
    have ⟨hne, hmem⟩ := Finset.mem_erase.mp hother
    simp only [Resolution.reset, warn, Function.update_of_ne hne]
    exact h.kept other hmem
  · intro other hother
    by_cases hsame : other = action
    · simp only [hsame, Resolution.reset, warn, Function.update_self]
    · simp only [Resolution.reset, warn, Function.update_of_ne hsame]
      apply h.fallback other
      intro hmem
      exact hother (Finset.mem_erase.mpr ⟨hsame, hmem⟩)
  · intro other hother hkept hset
    apply mem_invalid.mpr
    by_cases hsame : other = action
    · exact Or.inr (by rw [hsame])
    · apply Or.inl
      apply h.warned other hother _ hset
      intro hmem
      exact hkept (Finset.mem_erase.mpr ⟨hsame, hmem⟩)

theorem Follows.foldl_reset (h : state.Follows table seen) (actions : List KeyAction) :
    (actions.foldl Resolution.reset state).Follows table seen := by
  induction actions generalizing state with
  | nil => exact h
  | cons action actions ih => exact ih (h.reset action)

theorem Follows.foldl_configure (h : state.Follows table seen) (actions : List KeyAction) :
    (actions.foldl (Resolution.configure table) state).Follows table (actions.reverse ++ seen) := by
  induction actions generalizing state seen with
  | nil => exact h
  | cons action actions ih =>
    have hrest := ih (h.configure action)
    rwa [List.reverse_cons, List.append_assoc]

theorem mem_foldl_configure (actions : List KeyAction) :
    action ∈ (actions.foldl (configure table) state).configured ↔
      action ∈ state.configured ∨ action ∈ actions ∧ (table.chords action).isSome := by
  induction actions generalizing state with
  | nil => simp
  | cons first actions ih =>
    have hfirst : action ∈ (configure table state first).configured ↔
        action ∈ state.configured ∨ action = first ∧ (table.chords action).isSome := by
      by_cases hsame : action = first
      · subst hsame
        cases hvalue : table.get action.field with
        | none => simp [configure, TomlTable.chords, hvalue]
        | some value =>
          cases hparsed : parseChords value with
          | none => simp [configure, warn, TomlTable.chords, hvalue, hparsed]
          | some chords => simp [configure, TomlTable.chords, hvalue, hparsed]
      · unfold configure
        split
        next => simp [hsame]
        next =>
          split
          next => simp [hsame]
          next => simp [hsame, warn]
    rw [List.foldl_cons, ih, hfirst, List.mem_cons]
    tauto

theorem Follows.held (h : state.Follows table seen) (action : KeyAction) :
    table.fallback.held state.configured action =
      {key | key ∈ (state.bindings action).map KeyChord.key} := by
  by_cases hkept : action ∈ state.configured
  · rw [Library.Fallback.held_of_mem _ hkept]
    ext key
    simp [TomlTable.fallback, h.kept action hkept]
  · rw [Library.Fallback.held_of_not_mem _ hkept, h.fallback action hkept]
    rfl

theorem chords_spec {chords : List KeyChord} (h : table.chords action = some chords) :
    chords ≠ [] ∧ (chords.map KeyChord.key).Nodup := by
  have ⟨value, _, hparsed⟩ := Option.bind_eq_some_iff.mp h
  have ⟨hne, hnodup, _⟩ := parseChords_spec hparsed
  exact ⟨hne, hnodup⟩

theorem Follows.filled (h : state.Follows table seen) (action : KeyAction) :
    state.bindings action ≠ [] := by
  by_cases hkept : action ∈ state.configured
  · exact (chords_spec (h.kept action hkept)).1
  · rw [h.fallback action hkept]
    exact defaultBindings_ne_nil action

theorem Follows.nodup (h : state.Follows table seen) (action : KeyAction) :
    ((state.bindings action).map KeyChord.key).Nodup := by
  by_cases hkept : action ∈ state.configured
  · exact (chords_spec (h.kept action hkept)).2
  · rw [h.fallback action hkept]
    exact nodup_defaultBindings action

theorem map_filter_beq {chords : List KeyChord} {chord : KeyChord}
    (hnodup : (chords.map KeyChord.key).Nodup) (action : KeyAction) :
    ((chords.filter (· == chord)).map fun _ => action) =
      [action].filter fun _ => chords.contains chord := by
  induction chords with
  | nil => rfl
  | cons first chords ih =>
    rw [List.map_cons, List.nodup_cons] at hnodup
    have hrest := ih hnodup.2
    by_cases hfirst : (first == chord) = true
    · have hkey := KeyChord.beq_iff.mp hfirst
      have hgone : chords.contains chord = false := by
        rw [← Bool.not_eq_true, KeyChord.contains_iff, ← hkey]
        exact hnodup.1
      have hcontains : (first :: chords).contains chord = true :=
        KeyChord.contains_iff.mpr (by simp [hkey])
      rw [hgone] at hrest
      rw [List.filter_cons, if_pos hfirst, List.map_cons, hrest, hcontains]
      rfl
    · have hcontains : (first :: chords).contains chord = chords.contains chord := by
        rw [Bool.eq_iff_iff, KeyChord.contains_iff, KeyChord.contains_iff, List.map_cons,
          List.mem_cons]
        have hkey : chord.key ≠ first.key := fun h => hfirst (KeyChord.beq_iff.mpr h.symm)
        simp [hkey]
      rw [List.filter_cons, if_neg hfirst, hrest, hcontains]

theorem Follows.owners (h : state.Follows table seen) (chord : KeyChord) :
    state.owners chord = KeyAction.all.filter fun action =>
      (state.bindings action).contains chord := by
  unfold Resolution.owners
  simp only [map_filter_beq (h.nodup _)]
  induction KeyAction.all with
  | nil => rfl
  | cons action actions ih =>
    rw [List.flatMap_cons, ih, List.filter_cons, List.filter_cons, List.filter_nil]
    split
    next => rfl
    next => rfl

theorem one_lt_length_iff {owners : List KeyAction} (hnodup : owners.Nodup)
    (haction : action ∈ owners) : 1 < owners.length ↔ ∃ other, other ≠ action ∧ other ∈ owners := by
  rw [← List.toFinset_card_of_nodup hnodup, Finset.one_lt_card_iff_nontrivial]
  constructor
  · intro hmany
    have ⟨other, hother, hne⟩ := hmany.exists_ne action
    exact ⟨other, hne, List.mem_toFinset.mp hother⟩
  · intro ⟨other, hne, hother⟩
    exact ⟨other, by simpa using hother, action, by simpa using haction, hne⟩

/-- A configured action is in conflict when another action holds one of its chords. -/
theorem Follows.mem_conflicts (h : state.Follows table seen) :
    action ∈ state.conflicts ↔
      action ∈ state.configured ∧ table.fallback.Contested state.configured action := by
  have hall : KeyAction.all.Nodup := by decide
  simp only [conflicts, List.mem_filter, KeyAction.mem_all, true_and, Bool.and_eq_true,
    decide_eq_true_eq, List.any_eq_true]
  apply and_congr_right
  intro _
  simp only [Library.Fallback.Contested, h.held, Set.mem_ofPred_eq]
  have hshared (chord : KeyChord) (hchord : chord ∈ state.bindings action) :
      1 < (state.owners chord).length ↔
        ∃ other, other ≠ action ∧ chord.key ∈ (state.bindings other).map KeyChord.key := by
    have hmem (other : KeyAction) : other ∈ state.owners chord ↔
        chord.key ∈ (state.bindings other).map KeyChord.key := by
      rw [h.owners, List.mem_filter, KeyChord.contains_iff]
      simp [KeyAction.mem_all]
    have hnodup : (state.owners chord).Nodup := by
      rw [h.owners]
      exact hall.filter _
    rw [one_lt_length_iff hnodup ((hmem action).mpr (List.mem_map_of_mem hchord))]
    simp only [hmem]
  constructor
  · intro ⟨chord, hchord, hmany⟩
    exact ⟨chord.key, List.mem_map_of_mem hchord, (hshared chord hchord).mp hmany⟩
  · intro ⟨key, hkey, hother⟩
    have ⟨chord, hchord, hsame⟩ := List.mem_map.mp hkey
    rw [← hsame] at hother
    exact ⟨chord, hchord, (hshared chord hchord).mpr hother⟩

theorem Follows.round (h : state.Follows table seen) : state.round.Follows table seen :=
  h.foldl_reset _

/-- A pass of the loop settles what is contested. -/
theorem Follows.round_configured (h : state.Follows table seen) :
    state.round.configured = table.fallback.settle state.configured := by
  ext action
  rw [mem_round_configured, Library.Fallback.mem_settle, h.mem_conflicts]
  tauto

theorem Follows.rounds (h : state.Follows table seen) (rounds : Nat) :
    (Resolution.round^[rounds] state).Follows table seen ∧
      (Resolution.round^[rounds] state).configured =
        table.fallback.settle^[rounds] state.configured := by
  induction rounds with
  | zero => exact ⟨h, rfl⟩
  | succ rounds ih =>
    rw [Function.iterate_succ_apply', Function.iterate_succ_apply']
    exact ⟨ih.1.round, by rw [ih.1.round_configured, ih.2]⟩

theorem resolve_round (state : Resolution) : state.round.resolve = state.resolve := by
  by_cases hnone : state.conflicts = []
  · have hsame : state.round = state := by
      rw [Resolution.round, hnone]
      rfl
    rw [hsame]
  · conv_rhs => rw [resolve, if_neg hnone]

theorem resolve_rounds (rounds : Nat) :
    (Resolution.round^[rounds] state).resolve = state.resolve := by
  induction rounds with
  | zero => rfl
  | succ rounds ih => rw [Function.iterate_succ_apply', resolve_round, ih]

/-- The loop ends after at most one pass for each configured action. -/
theorem Follows.terminates (h : state.Follows table seen) :
    ∃ rounds ≤ state.configured.card, state.resolve = Resolution.round^[rounds] state ∧
      (Resolution.round^[rounds] state).conflicts = [] := by
  have ⟨rounds, hrounds, hsettled⟩ :=
    Library.iterate_shrinking (Library.Fallback.settle_subset table.fallback) state.configured
  have ⟨hfollows, hconfigured⟩ := h.rounds rounds
  have hnone : (Resolution.round^[rounds] state).conflicts = [] := by
    apply List.eq_nil_iff_forall_not_mem.mpr
    intro action haction
    have ⟨hkept, hcontested⟩ := hfollows.mem_conflicts.mp haction
    rw [hconfigured] at hkept hcontested
    exact (Library.Fallback.settle_eq_self _).mp hsettled action hkept hcontested
  refine ⟨rounds, hrounds, ?_, hnone⟩
  rw [← resolve_rounds rounds, resolve, if_pos hnone]

/-- Once no action is in conflict no chord is held twice. -/
theorem Follows.unshared (h : state.Follows table seen) (hnone : state.conflicts = [])
    {other : KeyAction} {key : KeyCode × KeyModifiers}
    (haction : key ∈ (state.bindings action).map KeyChord.key)
    (hother : key ∈ (state.bindings other).map KeyChord.key) : action = other := by
  have hheld : key ∈ table.fallback.held state.configured action := by
    rw [h.held]
    exact haction
  have hheldOther : key ∈ table.fallback.held state.configured other := by
    rw [h.held]
    exact hother
  apply table.fallback.unshared (fun _ _ _ => defaultBindings_unshared) _ hheld hheldOther
  intro owner howner hcontested
  have hconflict := h.mem_conflicts.mpr ⟨howner, hcontested⟩
  rw [hnone] at hconflict
  contradiction

theorem mem_rounds (rounds : Nat) : action ∈ (Resolution.round^[rounds] state).configured ↔
    action ∈ state.configured ∧
      ∀ earlier < rounds, action ∉ (Resolution.round^[earlier] state).conflicts := by
  induction rounds with
  | zero => simp
  | succ rounds ih =>
    rw [Function.iterate_succ_apply', mem_round_configured, ih, and_assoc]
    apply and_congr_right
    intro _
    constructor
    · intro ⟨hbefore, hlast⟩ earlier hearlier
      by_cases heq : earlier = rounds
      · rwa [heq]
      · exact hbefore earlier (by omega)
    · intro hbefore
      exact ⟨fun earlier hearlier => hbefore earlier (by omega), hbefore rounds (by omega)⟩

end Resolution

theorem follows_configuredBindings (table : TomlTable) (warnings : List String) :
    (configuredBindings table warnings).Follows table KeyAction.all.reverse := by
  have hstart : Resolution.Follows table [] ⟨defaultBindings, ∅, warnings⟩ := by
    refine ⟨?_, fun _ _ => rfl, ?_⟩
    · intro action haction
      contradiction
    · intro action haction
      contradiction
  have hdone := hstart.foldl_configure KeyAction.all
  rwa [List.append_nil] at hdone

theorem mem_configuredBindings {table : TomlTable} {warnings : List String} {action : KeyAction} :
    action ∈ (configuredBindings table warnings).configured ↔ (table.chords action).isSome := by
  unfold configuredBindings
  rw [Resolution.mem_foldl_configure]
  simp [KeyAction.mem_all]

/-- Where no chord belongs to two actions, the order they are tried in does not
matter. -/
theorem KeyBindings.answer_eq_some {self : KeyBindings} {order : List KeyAction} {chord : KeyChord}
    {intent : Intent} (hcomplete : ∀ action, action ∈ order)
    (hunique : ∀ action other, (self.bindings action).contains chord →
      (self.bindings other).contains chord → action = other) :
    self.answer order chord = some intent ↔
      ∃ action, (self.bindings action).contains chord ∧ action.intent = intent := by
  constructor
  · intro h
    have ⟨action, _, haction⟩ := List.exists_of_findSome?_eq_some h
    split at haction
    next hcontains => exact ⟨action, hcontains, Option.some.inj haction⟩
    next => contradiction
  · intro ⟨action, hcontains, hintent⟩
    cases hanswer : self.answer order chord with
    | none =>
      have hmissed := List.findSome?_eq_none_iff.mp hanswer action (hcomplete action)
      rw [if_pos hcontains] at hmissed
      contradiction
    | some answered =>
      have ⟨other, _, hother⟩ := List.exists_of_findSome?_eq_some hanswer
      split at hother
      next hcontainsOther =>
        rw [hunique action other hcontains hcontainsOther, Option.some.inj hother] at hintent
        rw [hintent]
      next => contradiction

/-- The loop ends, no action is without a chord and no chord has two actions, and
valid chords of an action that is in conflict in no pass stay its chords. -/
theorem key_bindings_resolved (table : TomlTable) (warnings : List String) :
    let start := configuredBindings table warnings
    let parsed := parseKeybindings table warnings
    (∃ rounds ≤ start.configured.card,
      start.resolve = Resolution.round^[rounds] start ∧ start.resolve.conflicts = [] ∧
      ∀ action values, table.get action.field = some (.array values) → values ≠ [] →
        values.length ≤ maxKeyChordsPerAction → (∀ value ∈ values, (parseChord value).isSome) →
        if ∀ earlier < rounds, action ∉ (Resolution.round^[earlier] start).conflicts then
          ∀ key, key ∈ (parsed.1.bindings action).map KeyChord.key ↔ Parsed values key
        else parsed.1.bindings action = defaultBindings action ∧
          invalidWarning ("keybindings." ++ action.field) ∈ parsed.2) ∧
    (∀ action, parsed.1.bindings action ≠ [] ∧
      ((parsed.1.bindings action).map KeyChord.key).Nodup) ∧
    (∀ action other chord, (parsed.1.bindings action).contains chord →
      (parsed.1.bindings other).contains chord → action = other) ∧
    ∀ order : List KeyAction, (∀ action, action ∈ order) →
      (∀ event, (KeyChord.fromEvent event >>= parsed.1.answer order) = parsed.1.mapKey event) ∧
      ∀ label, (KeyChord.parse label >>= parsed.1.answer order) = parsed.1.intentFor label := by
  intro start parsed
  have hstart : start.Follows table KeyAction.all.reverse := follows_configuredBindings table warnings
  have ⟨rounds, hrounds, hresolve, hnone⟩ := hstart.terminates
  have hfinal := (hstart.rounds rounds).1
  rw [← hresolve] at hnone hfinal
  have hunique (chord : KeyChord) (action other : KeyAction)
      (haction : (parsed.1.bindings action).contains chord)
      (hother : (parsed.1.bindings other).contains chord) : action = other :=
    hfinal.unshared hnone (KeyChord.contains_iff.mp haction) (KeyChord.contains_iff.mp hother)
  refine ⟨⟨rounds, hrounds, hresolve, hnone, ?_⟩, fun action => ⟨hfinal.filled action,
    hfinal.nodup action⟩, fun action other chord => hunique chord action other, ?_⟩
  · intro action values hvalue hne hlength hvalid
    have ⟨chords, hchords⟩ := parseChords_of_valid hne hlength hvalid
    have hconfigured : table.chords action = some chords := by
      rw [TomlTable.chords, hvalue]
      exact hchords
    have hmem : action ∈ start.resolve.configured ↔
        ∀ earlier < rounds, action ∉ (Resolution.round^[earlier] start).conflicts := by
      rw [hresolve, Resolution.mem_rounds]
      apply and_iff_right
      exact mem_configuredBindings.mpr (by rw [hconfigured]; rfl)
    split
    next hkept =>
      have hbound := hfinal.kept action (hmem.mpr hkept)
      rw [hconfigured] at hbound
      have ⟨_, _, found, hfound, hkeys⟩ := parseChords_spec hchords
      cases hfound
      intro key
      rw [← hkeys key, Option.some.inj hbound]
      rfl
    next hreset =>
      have hgone := hmem.not.mpr hreset
      exact ⟨hfinal.fallback action hgone,
        hfinal.warned action (by simp [KeyAction.mem_all]) hgone (by simp [hvalue])⟩
  · intro order hcomplete
    have hanswer : parsed.1.answer order = parsed.1.answer KeyAction.all := by
      funext chord
      ext intent
      rw [KeyBindings.answer_eq_some hcomplete (hunique chord),
        KeyBindings.answer_eq_some KeyAction.mem_all (hunique chord)]
    rw [hanswer]
    exact ⟨fun _ => rfl, fun _ => rfl⟩

end HerdrContext
