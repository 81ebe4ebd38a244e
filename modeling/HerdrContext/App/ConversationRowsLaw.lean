import HerdrContext.App.ConversationRows
import HerdrContext.Live.Law

/-! The traversals of the Conversations view number one list of rows. -/
namespace HerdrContext.App

open Library

def ConversationRowTarget.ofProvider : ConversationRowTarget → String
  | .provider tool => tool
  | .session tool _ => tool

namespace ConversationRows

section
variable (toLowercase : List Char → List Char) (self : ConversationRows)

def providerRows (provider : String) : List ConversationRowTarget :=
  if !self.providerIsVisible toLowercase provider then []
  else .provider provider ::
    if self.providerIsCollapsed provider then []
    else
      (self.items.filter fun conversation =>
        conversation.tool.text = provider && self.conversationMatchesFilter toLowercase conversation
          (self.providerMatchesFilter toLowercase provider)).map
        fun conversation => .session provider conversation.sessionReference

def visibleRows : List ConversationRowTarget :=
  self.providers.flatMap (self.providerRows toLowercase)

/-- The row the selection stands for, shown or not. -/
def selectedTarget : Option ConversationRowTarget :=
  self.selectedProvider.map fun provider =>
    match self.selection with
    | none => .provider provider
    | some reference => .session provider reference

theorem providerRows_hidden {provider : String}
    (h : ¬self.providerIsVisible toLowercase provider = true) :
    self.providerRows toLowercase provider = [] := by
  rw [providerRows, if_pos (by simpa using h)]

theorem providerRows_visible {provider : String} (h : self.providerIsVisible toLowercase provider) :
    self.providerRows toLowercase provider = .provider provider ::
      if self.providerIsCollapsed provider then []
      else
        (self.items.filter fun conversation =>
          conversation.tool.text = provider && self.conversationMatchesFilter toLowercase
            conversation (self.providerMatchesFilter toLowercase provider)).map
          fun conversation => .session provider conversation.sessionReference := by
  rw [providerRows, if_neg (by simpa using h)]

theorem targetAtRow_eq (target : Nat) :
    self.targetAtRow toLowercase target = (self.visibleRows toLowercase)[target]? := by
  have hwalk := walkRows_number (self.visibleRows toLowercase) target 0 (Nat.zero_le target)
  rw [Nat.sub_zero] at hwalk
  rw [← hwalk, targetAtRow, visibleRows]
  congr 1
  apply foldlM_eq_walkRows
  intro row provider
  by_cases hvisible : self.providerIsVisible toLowercase provider
  · rw [providerRows_visible _ _ hvisible, walkRows_cons,
      if_neg (show ¬(!self.providerIsVisible toLowercase provider) = true by simpa using hvisible)]
    by_cases hrow : row = target
    · rw [if_pos hrow, if_pos hrow]
    · rw [if_neg hrow, if_neg hrow]
      dsimp only
      split
      next => rfl
      next => rw [walkRows, List.foldlM_map]
  · rw [providerRows_hidden _ _ hvisible, if_pos (by simpa using hvisible)]
    rfl

theorem visibleRowCount_eq :
    self.visibleRowCount toLowercase = (self.visibleRows toLowercase).length := by
  rw [visibleRowCount, visibleRows, List.length_flatMap]
  induction self.providers with
  | nil => rfl
  | cons provider providers ih =>
    rw [List.map_cons, List.sum_cons, ← ih]
    by_cases hvisible : self.providerIsVisible toLowercase provider
    · rw [List.filter_cons_of_pos hvisible, List.map_cons, List.sum_cons,
        providerRows_visible _ _ hvisible, List.length_cons, filteredProviderCount,
        List.countP_eq_length_filter]
      split <;> simp [Nat.add_comm]
    · rw [List.filter_cons_of_neg hvisible, providerRows_hidden _ _ hvisible, List.length_nil,
        Nat.zero_add]

theorem ensureSelectedRowVisible_eq (height : Nat) :
    ∃ scroll, self.ensureSelectedRowVisible toLowercase height = { self with scroll } := by
  unfold ensureSelectedRowVisible
  split
  next => exact ⟨0, rfl⟩
  next => exact ⟨_, rfl⟩

theorem selectedTarget_provider {selectedProvider provider : String} {selected : ConversationRowTarget}
    (hselected : self.selectedTarget = some selected)
    (hprovider : self.selectedProvider = some selectedProvider) :
    provider = selectedProvider ∧ self.selection = none ↔ .provider provider = selected := by
  rw [selectedTarget, hprovider] at hselected
  cases hselection : self.selection with
  | none => simp [← Option.some.inj hselected, hselection]
  | some reference => simp [← Option.some.inj hselected, hselection]

theorem selectedTarget_session {selectedProvider provider : String} {reference : SessionReference}
    {selected : ConversationRowTarget} (hselected : self.selectedTarget = some selected)
    (hprovider : self.selectedProvider = some selectedProvider) :
    provider = selectedProvider ∧ self.selection = some reference ↔
      .session provider reference = selected := by
  rw [selectedTarget, hprovider] at hselected
  cases hselection : self.selection with
  | none => simp [← Option.some.inj hselected, hselection]
  | some other => simp [← Option.some.inj hselected, hselection, eq_comm]

theorem selectedRow_eq :
    self.selectedRow toLowercase =
      self.selectedTarget.bind fun target => (self.visibleRows toLowercase).idxOf? target := by
  cases hprovider : self.selectedProvider with
  | none =>
    rw [selectedRow, selectedTarget, hprovider]
    rfl
  | some selectedProvider =>
    obtain ⟨selected, hselected⟩ : ∃ selected, self.selectedTarget = some selected := by
      rw [selectedTarget, hprovider]
      exact ⟨_, rfl⟩
    have hwalk := walkRows_row (self.visibleRows toLowercase) selected 0
    rw [show (fun row => 0 + row) = id by funext row; exact Nat.zero_add row, Option.map_id,
      id_eq] at hwalk
    rw [hselected, Option.bind_some, ← hwalk, selectedRow, hprovider, Option.bind_some, visibleRows]
    congr 1
    apply foldlM_eq_walkRows
    intro row provider
    by_cases hvisible : self.providerIsVisible toLowercase provider
    · rw [providerRows_visible _ _ hvisible, walkRows_cons,
        if_neg (show ¬(!self.providerIsVisible toLowercase provider) = true by simpa using hvisible)]
      simp only [self.selectedTarget_provider hselected hprovider]
      by_cases hrow : .provider provider = selected
      · rw [if_pos hrow, if_pos hrow]
      · rw [if_neg hrow, if_neg hrow]
        split
        next => rfl
        next =>
          rw [walkRows, List.foldlM_map]
          simp only [self.selectedTarget_session hselected hprovider]
    · rw [providerRows_hidden _ _ hvisible, if_pos (by simpa using hvisible)]
      rfl

end

section
variable {toLowercase : List Char → List Char} {self : ConversationRows}

/-! ## Distinct rows -/

structure Unique (rows : ConversationRows) : Prop where
  providers : rows.providers.Nodup
  references : (rows.items.map (·.sessionReference)).Nodup

theorem ofProvider_mem {provider : String} {target : ConversationRowTarget}
    (h : target ∈ self.providerRows toLowercase provider) : target.ofProvider = provider := by
  by_cases hvisible : self.providerIsVisible toLowercase provider
  · rw [providerRows_visible _ _ hvisible, List.mem_cons] at h
    rcases h with rfl | h
    · rfl
    · split at h
      next => contradiction
      next =>
        have ⟨conversation, _, heq⟩ := List.mem_map.mp h
        rw [← heq]
        rfl
  · rw [providerRows_hidden _ _ hvisible] at h
    contradiction

theorem Unique.providerRows_nodup (h : self.Unique) (provider : String) :
    (self.providerRows toLowercase provider).Nodup := by
  by_cases hvisible : self.providerIsVisible toLowercase provider
  · rw [providerRows_visible _ _ hvisible]
    split
    next => simp
    next =>
      rw [List.nodup_cons]
      constructor
      · simp
      · have hreferences := h.references.sublist
          ((List.filter_sublist (p := fun conversation => conversation.tool.text = provider &&
            self.conversationMatchesFilter toLowercase conversation
              (self.providerMatchesFilter toLowercase provider))).map (·.sessionReference))
        rw [List.nodup_iff_pairwise_ne, List.pairwise_map] at hreferences ⊢
        apply hreferences.imp
        intro conversation other hne heq
        exact hne (ConversationRowTarget.session.inj heq).2
  · rw [providerRows_hidden _ _ hvisible]
    exact List.nodup_nil

theorem Unique.visibleRows_nodup (h : self.Unique) : (self.visibleRows toLowercase).Nodup := by
  apply List.nodup_flatMap.mpr
  constructor
  · intro provider _
    exact h.providerRows_nodup provider
  · apply h.providers.imp
    intro provider other hne target hprovider hother
    exact hne ((ofProvider_mem hprovider).symm.trans (ofProvider_mem hother))

theorem targetAtRow_isSome {row : Nat} :
    (self.targetAtRow toLowercase row).isSome ↔ row < self.visibleRowCount toLowercase := by
  rw [targetAtRow_eq, visibleRowCount_eq]
  simp

theorem selectedRow_lt {row : Nat} (h : self.selectedRow toLowercase = some row) :
    row < self.visibleRowCount toLowercase := by
  rw [selectedRow_eq, Option.bind_eq_some_iff] at h
  have ⟨target, _, hrow⟩ := h
  rw [visibleRowCount_eq]
  exact (List.idxOf?_eq_some_iff.mp hrow).1

/-! ## Scrolling -/

/-- The window of the view shows its selected row and no line past the last row. -/
structure Shows (toLowercase : List Char → List Char) (height : Nat) (rows : ConversationRows) :
    Prop where
  bounded : rows.scroll ≤ rows.visibleRowCount toLowercase - height
  shown : 0 < height → ∀ row, rows.selectedRow toLowercase = some row →
    rows.scroll ≤ row ∧ row < rows.scroll + height

/-- The rows do not depend on where the window is. -/
theorem selectedRow_scroll (scroll : Nat) :
    ({ self with scroll } : ConversationRows).selectedRow toLowercase =
      self.selectedRow toLowercase := rfl

theorem visibleRowCount_scroll (scroll : Nat) :
    ({ self with scroll } : ConversationRows).visibleRowCount toLowercase =
      self.visibleRowCount toLowercase := rfl

theorem ensureSelectedRowVisible_shows (height : Nat) :
    (self.ensureSelectedRowVisible toLowercase height).Shows toLowercase height := by
  unfold ensureSelectedRowVisible
  split
  next hselected =>
    constructor
    · exact Nat.zero_le _
    · intro _ row hrow
      rw [selectedRow_scroll, hselected] at hrow
      contradiction
  next row hselected =>
    constructor
    · exact Nat.min_le_right _ _
    · intro hheight shown hshown
      rw [selectedRow_scroll, hselected] at hshown
      rw [← Option.some.inj hshown]
      exact followRow_shows (selectedRow_lt hselected) hheight

/-! ## Operations -/

/-- An operation leaves the view alone and says so, or leaves its window at the
selected row. The conversations stay. -/
structure Handled (toLowercase : List Char → List Char) (height : Nat) (before : ConversationRows)
    (after : ConversationRows × Bool) : Prop where
  items : after.1.items = before.items
  providers : after.1.providers = before.providers
  shows : after = (before, false) ∨ after.1.Shows toLowercase height

variable {height : Nat}

theorem handled_alone : Handled toLowercase height self (self, false) := ⟨rfl, rfl, .inl rfl⟩

theorem handled_ensured {turned : ConversationRows} {changed : Bool}
    (hitems : turned.items = self.items) (hproviders : turned.providers = self.providers) :
    Handled toLowercase height self
      (turned.ensureSelectedRowVisible toLowercase height, changed) := by
  have ⟨scroll, hscroll⟩ := turned.ensureSelectedRowVisible_eq toLowercase height
  constructor
  · rw [hscroll]
    exact hitems
  · rw [hscroll]
    exact hproviders
  · exact .inr (ensureSelectedRowVisible_shows height)

theorem selectRow_handled (row : Nat) :
    Handled toLowercase height self (self.selectRow toLowercase row height) := by
  unfold selectRow
  split
  next => exact handled_alone
  next => exact handled_ensured rfl rfl

theorem selectRow_shows {row : Nat} {target : ConversationRowTarget}
    (h : self.targetAtRow toLowercase row = some target) :
    (self.selectRow toLowercase row height).1.Shows toLowercase height := by
  unfold selectRow
  rw [h]
  exact ensureSelectedRowVisible_shows height

theorem moveRowSelection_handled (delta : Int) :
    Handled toLowercase height self (self.moveRowSelection toLowercase delta height) := by
  unfold moveRowSelection
  dsimp only
  split
  next => exact handled_alone
  next => exact selectRow_handled _

theorem setSelectedProviderCollapsed_handled (collapsed : Bool) :
    Handled toLowercase height self
      (self.setSelectedProviderCollapsed toLowercase collapsed height) := by
  unfold setSelectedProviderCollapsed
  split
  next => exact handled_alone
  next =>
    split
    next =>
      split
      next => exact handled_alone
      next => exact handled_ensured rfl rfl
    next => exact handled_ensured rfl rfl

theorem toggleSelectedProvider_handled :
    Handled toLowercase height self (self.toggleSelectedProvider toLowercase height) := by
  unfold toggleSelectedProvider
  split
  next => exact handled_alone
  next =>
    split
    next => exact handled_alone
    next => exact setSelectedProviderCollapsed_handled _

theorem handlePointer_handled (column row : Nat) (action : PointerAction) (area : Rect)
    (warningHeight : Nat) :
    Handled toLowercase (area.height - warningHeight) self
      (self.handlePointer toLowercase column row action area warningHeight) := by
  unfold handlePointer
  dsimp only
  split
  next => exact handled_alone
  next =>
    split
    next htarget =>
      have hshown : (self.selectRow toLowercase
          (self.scroll + (row - saturatingAdd area.y warningHeight))
          (area.height - warningHeight)).1.Shows toLowercase (area.height - warningHeight) :=
        selectRow_shows htarget
      have hselected : Handled toLowercase (area.height - warningHeight) self
          (self.selectRow toLowercase (self.scroll + (row - saturatingAdd area.y warningHeight))
            (area.height - warningHeight)) := selectRow_handled _
      generalize self.selectRow toLowercase _ _ = selected at hshown hselected ⊢
      split
      next =>
        have htoggled : Handled toLowercase (area.height - warningHeight) selected.1
            (selected.1.toggleSelectedProvider toLowercase (area.height - warningHeight)) :=
          toggleSelectedProvider_handled
        constructor
        · exact htoggled.items.trans hselected.items
        · exact htoggled.providers.trans hselected.providers
        · right
          -- What the toggle leaves alone the selection has shown.
          rcases htoggled.shows with hsame | hshows
          · rw [hsame]
            exact hshown
          · exact hshows
      next => exact hselected
    next =>
      rw [if_neg (by simp)]
      exact selectRow_handled _

theorem handleIntent_handled (intent : Intent) (area : Rect) :
    Handled toLowercase (self.viewportHeight area) self
      (self.handleIntent toLowercase intent area) := by
  cases intent with
  | selectPrevious => exact moveRowSelection_handled _
  | selectNext => exact moveRowSelection_handled _
  | selectFirst => exact selectRow_handled _
  | selectLast => exact selectRow_handled _
  | expandOrDescend => exact setSelectedProviderCollapsed_handled _
  | collapseOrAscend => exact setSelectedProviderCollapsed_handled _
  | toggleSelected => exact toggleSelectedProvider_handled
  | pointer column row action => exact handlePointer_handled column row action area _
  | scroll delta => exact moveRowSelection_handled delta
  | _ => exact handled_alone

/-- Where there is a row it becomes the selected one. -/
theorem Unique.selectRow (h : self.Unique) {row : Nat}
    (hrow : row < self.visibleRowCount toLowercase) (height : Nat) :
    (self.selectRow toLowercase row height).1.selectedRow toLowercase = some row := by
  rw [← targetAtRow_isSome, Option.isSome_iff_exists] at hrow
  have ⟨target, htarget⟩ := hrow
  have hindex : (self.visibleRows toLowercase).idxOf? target = some row := by
    apply idxOf?_eq_some_of_nodup h.visibleRows_nodup
    rw [← targetAtRow_eq, htarget]
  unfold ConversationRows.selectRow
  rw [htarget]
  dsimp only
  generalize hselected : ({ self with
    selectedProvider := some _
    selection := _ } : ConversationRows) = selected
  have ⟨scroll, hscroll⟩ := selected.ensureSelectedRowVisible_eq toLowercase height
  rw [hscroll, selectedRow_scroll, selectedRow_eq]
  have htarget : selected.selectedTarget = some target := by
    rw [← hselected]
    cases target <;> rfl
  have hrows : selected.visibleRows toLowercase = self.visibleRows toLowercase := by
    rw [← hselected]
    rfl
  rw [htarget, hrows]
  exact hindex

end

end ConversationRows

/-- A replaced selection is one of the new rows, under its tool. -/
theorem ConversationsViewState.replaceVisibleItems_selection {view : ConversationsViewState}
    {items : List Conversation} {reference : SessionReference}
    (h : (view.replaceVisibleItems items).selection = some reference) :
    ∃ conversation ∈ items, conversation.sessionReference = reference ∧
      (view.replaceVisibleItems items).selectedProvider = some conversation.tool.text := by
  have hmem : ∃ conversation ∈ items, conversation.sessionReference = reference := by
    unfold replaceVisibleItems at h
    dsimp only at h
    split at h
    next =>
      unfold migratedSelection at h
      simp only [Option.bind_eq_bind, Option.bind_eq_some_iff] at h
      obtain ⟨selection, _, h⟩ := h
      split at h
      next => contradiction
      next =>
        obtain ⟨selected, _, h⟩ := Option.bind_eq_some_iff.mp h
        split at h
        next candidate hcandidates =>
          have hcandidate : candidate ∈ [candidate] := List.mem_singleton_self candidate
          rw [← hcandidates] at hcandidate
          exact ⟨candidate, List.mem_of_mem_filter hcandidate, Option.some.inj h⟩
        next => contradiction
    next hkept =>
      rw [h] at hkept
      simpa using hkept
  obtain ⟨conversation, hconversation, hreference⟩ := hmem
  have hfind : (items.find? (·.sessionReference = reference)).isSome := by
    rw [List.find?_isSome]
    exact ⟨conversation, hconversation, by simpa using hreference⟩
  obtain ⟨first, hfirst⟩ := Option.isSome_iff_exists.mp hfind
  exists first, List.mem_of_find?_eq_some hfirst, by simpa using List.find?_some hfirst
  unfold replaceVisibleItems at h ⊢
  dsimp only at h ⊢
  rw [h, Option.bind_some, hfirst]

namespace ConversationRows

variable {toLowercase : List Char → List Char} {self : ConversationRows}

theorem replaced_unique {view : ConversationsViewState} {items : List Conversation}
    (h : (items.map (·.sessionReference)).Nodup) :
    Unique { self with toConversationsViewState := view.replaceVisibleItems items } := by
  constructor
  · apply (List.perm_insertionSort _ _).nodup_iff.mpr
    exact List.nodup_dedup _
  · exact h

theorem Unique.replaceItems (h : self.Unique) {items : List Conversation}
    (hitems : (items.map (·.sessionReference)).Nodup) (generation : Nat) :
    (self.replaceItems items generation).Unique := by
  unfold ConversationRows.replaceItems ConversationsViewState.replaceItems
  split
  next => exact h
  next => exact replaced_unique hitems

theorem Unique.replaceLiveItems (h : self.Unique) {items : List Conversation}
    (hitems : (items.map (·.sessionReference)).Nodup) (generation : Nat) :
    (self.replaceLiveItems items generation).Unique := by
  unfold ConversationRows.replaceLiveItems ConversationsViewState.replaceLiveItems
  split
  next => exact h
  next => exact replaced_unique hitems

theorem Unique.apply (h : self.Unique) {operation : RowsOperation} (hunique : operation.Unique) :
    (operation.apply toLowercase self).Unique := by
  cases operation with
  | replaceItems items generation => exact h.replaceItems hunique generation
  | replaceLiveItems items generation => exact h.replaceLiveItems hunique generation
  | handleIntent intent area =>
    have hhandled : Handled toLowercase (self.viewportHeight area) self
        (self.handleIntent toLowercase intent area) := handleIntent_handled intent area
    constructor
    · exact hhandled.providers ▸ h.providers
    · exact hhandled.items ▸ h.references
  | reconcileViewport area =>
    have ⟨scroll, hscroll⟩ :=
      self.ensureSelectedRowVisible_eq toLowercase (self.viewportHeight area)
    rw [RowsOperation.apply, reconcileViewport, hscroll]
    exact ⟨h.providers, h.references⟩
  | _ => exact ⟨h.providers, h.references⟩

/-- The traversals agree on the rows, and the selection is one of them. -/
structure RowsAgree (toLowercase : List Char → List Char) (rows : ConversationRows) : Prop where
  target_iff : ∀ row, (rows.targetAtRow toLowercase row).isSome ↔ row < rows.visibleRowCount toLowercase
  selects : ∀ row height, row < rows.visibleRowCount toLowercase →
    (rows.selectRow toLowercase row height).1.selectedRow toLowercase = some row
  shows : ∀ intent area, rows.handleIntent toLowercase intent area = (rows, false) ∨
    (rows.handleIntent toLowercase intent area).1.Shows toLowercase (rows.viewportHeight area)
  replaced : ∀ items reference, (rows.replaceVisibleItems items).selection = some reference →
    ∃ conversation ∈ items, conversation.sessionReference = reference ∧
      (rows.replaceVisibleItems items).selectedProvider = some conversation.tool.text

theorem initial_unique : initial.Unique := by
  constructor
  · exact List.nodup_nil
  · exact List.nodup_nil

end ConversationRows

end HerdrContext.App
