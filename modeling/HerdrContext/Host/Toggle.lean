import HerdrContext.Host.Tabs

/-! Toggling the dock of a tab, whatever calls of the host fail. -/
namespace HerdrContext.Host

open Library

/-! ## One dock in a tab -/

section
variable {dock : PaneId → Bool} {last : Prop} {shell : HostTabs → PaneId → Prop} {only : HostRequest → Prop}
  {tabs after : HostTabs} {workspaceId tabId : String} {panes candidates verified : List HostPane}

theorem ensures_call {request : HostRequest} {post : request.Reply → HostTabs → Prop}
    (hpermits : Permits dock last shell tabs request)
    (hreply : ∀ reply after, Replies dock tabs request reply after → post reply after) :
    (call request).Ensures (hosted dock last shell only) post tabs :=
  ⟨hpermits, fun reply after hreplied => hreply reply after hreplied.2⟩

/-- A call that changes nothing. -/
theorem ensures_quiet {request : HostRequest} {post : request.Reply → HostTabs → Prop}
    (hpermits : Permits dock last shell tabs request)
    (hreply : ∀ reply after, Replies dock tabs request reply after → after = tabs ∧ post reply tabs) :
    (call request).Ensures (hosted dock last shell only) post tabs := by
  refine ensures_call hpermits fun reply after hreplied => ?_
  obtain ⟨rfl, hpost⟩ := hreply reply after hreplied
  exact hpost

theorem ensures_verifyCandidates (originallyFocusedDock : Option PaneId)
    (hlisted : ∀ pane ∈ candidates, pane.isDock = true) :
    Interaction.Ensures (hosted dock last shell only)
      (fun result after => after = tabs ∧ ∀ found, result = .ok found →
        found.1.map HostPane.paneId =
          verified.map HostPane.paneId ++ (candidates.map HostPane.paneId).filter dock)
      (verifyCandidates verified originallyFocusedDock candidates).run tabs := by
  induction candidates generalizing verified originallyFocusedDock with
  | nil =>
    refine ⟨rfl, fun found hfound => ?_⟩
    cases hfound
    simp
  | cons pane rest ih =>
    have hpane := hlisted pane List.mem_cons_self
    have hrest := fun other hother => hlisted other (List.mem_cons_of_mem _ hother)
    rw [verifyCandidates, Interaction.ensures_run_bind]
    refine ensures_quiet trivial fun reply after hreplied => ⟨hreplied.1, ?_⟩
    cases reply with
    | error error =>
      cases originallyFocusedDock with
      | none =>
        exact ⟨rfl, fun found hfound => by cases hfound⟩
      | some paneId =>
        exact ensures_quiet trivial fun reply after hreplied =>
          ⟨hreplied, rfl, fun found hfound => by cases hfound⟩
    | ok identity =>
      have hidentity := hreplied.2 identity rfl
      rw [hpane, Bool.true_and] at hidentity
      cases identity with
      | none =>
        rw [List.map_cons, List.filter_cons_of_neg (by simp [← hidentity])]
        exact ih originallyFocusedDock hrest
      | some identity =>
        rw [List.map_cons, List.filter_cons_of_pos (by simp [← hidentity])]
        refine (ih _ hrest).imp fun result after hresult => ⟨hresult.1, fun found hfound => ?_⟩
        rw [hresult.2 found hfound, List.map_append, List.append_assoc]
        rfl

theorem ensures_closePanes {keeper : PaneId} {duplicates : List HostPane}
    (hdocks : (tabs.docks dock workspaceId tabId).Perm
      (keeper :: duplicates.map HostPane.paneId)) :
    Interaction.Ensures (hosted dock last shell only)
      (fun result after => tabs.Tends dock workspaceId tabId after ∧
        ∀ value, result = .ok value → after.docks dock workspaceId tabId = [keeper])
      (forM duplicates fun duplicate => closePane duplicate.paneId).run tabs := by
  refine (Interaction.ensures_run_forM (fun rest s => tabs.Tends dock workspaceId tabId s ∧
    (s.docks dock workspaceId tabId).Perm (keeper :: rest.map HostPane.paneId))
    (fun _ s => tabs.Tends dock workspaceId tabId s) ⟨.refl, hdocks⟩ ?_).imp ?_
  · rintro duplicate rest s ⟨htends, hperm⟩
    have hdock : duplicate.paneId ∈ s.docks dock workspaceId tabId :=
      hperm.mem_iff.mpr (by simp)
    have hnodup := hperm.nodup_iff.mp (HostTabs.nodup_tab.filter dock)
    rw [List.map_cons, List.nodup_cons, List.nodup_cons] at hnodup
    obtain ⟨hkeeper, hduplicate, _⟩ := hnodup
    have hpermits : Permits dock last shell s (.closePane duplicate.paneId) := by
      refine ⟨workspaceId, tabId, hdock, Or.inr ⟨keeper, hperm.mem_iff.mpr (by simp), ?_⟩⟩
      rintro rfl
      exact hkeeper List.mem_cons_self
    refine ensures_call hpermits fun reply after hclosed => ?_
    have hkept := htends.trans (hclosed.tends hdock)
    cases reply with
    | error error => exact hkept
    | ok =>
      refine ⟨hkept, ?_⟩
      rw [hclosed.docks]
      refine (hperm.filter _).trans (List.Perm.of_eq ?_)
      rw [List.map_cons, List.filter_cons_of_pos, List.filter_cons_of_neg (by simp)]
      · refine congrArg _ (List.filter_eq_self.mpr fun paneId hpaneId => decide_eq_true ?_)
        rintro rfl
        exact hduplicate hpaneId
      · refine decide_eq_true ?_
        rintro rfl
        exact hkeeper List.mem_cons_self
  · intro result s hresult
    cases result with
    | error error => exact ⟨hresult, fun value hvalue => by cases hvalue⟩
    | ok => exact ⟨hresult.1, fun _ _ => List.perm_singleton.mp hresult.2⟩

/-- What is left of a tab's docks. -/
def Reconciled (dock : PaneId → Bool) (workspaceId tabId : String) (before : HostTabs) :
    Except HostError (Option HostPane) → HostTabs → Prop
  | .error _, after => before.Tends dock workspaceId tabId after
  | .ok none, after => after = before ∧ before.docks dock workspaceId tabId = []
  | .ok (some keeper), after => before.Tends dock workspaceId tabId after ∧
    after.docks dock workspaceId tabId = [keeper.paneId]

theorem ensures_closeDuplicates
    (h : (verified.map HostPane.paneId).Perm (tabs.docks dock workspaceId tabId)) :
    Interaction.Ensures (hosted dock last shell only) (Reconciled dock workspaceId tabId tabs)
      (closeDuplicates verified).run tabs := by
  have hsorted := ((List.mergeSort_perm verified keptBefore).map HostPane.paneId).trans h
  unfold closeDuplicates
  cases hdocks : verified.mergeSort keptBefore with
  | nil =>
    rw [hdocks] at hsorted
    exact ⟨rfl, List.nil_perm.mp hsorted⟩
  | cons keeper duplicates =>
    rw [hdocks] at hsorted
    refine (Interaction.ensures_run_bind _ _).mpr ((ensures_closePanes hsorted.symm).imp ?_)
    intro result s hresult
    cases result with
    | error error => exact hresult.1
    | ok value => exact ⟨hresult.1, hresult.2 value rfl⟩

theorem ensures_reconcileDocks (h : Lists dock (tabs.tab workspaceId tabId) panes) :
    Interaction.Ensures (hosted dock last shell only) (Reconciled dock workspaceId tabId tabs)
      (reconcileDocks panes).run tabs := by
  have hcandidates : (dockCandidates panes).Perm (panes.filter (·.isDock)) := List.mergeSort_perm _ _
  have hlisted : ∀ pane ∈ dockCandidates panes, pane.isDock = true := fun pane hpane =>
    (List.mem_filter.mp (hcandidates.mem_iff.mp hpane)).2
  have hverified : (((dockCandidates panes).map HostPane.paneId).filter dock).Perm
      (tabs.docks dock workspaceId tabId) := by
    refine ((hcandidates.map _).filter _).trans (List.Perm.trans ?_ (h.shown.filter _))
    rw [List.filter_map, List.filter_map, List.filter_filter]
    refine List.Perm.of_eq (congrArg _ (List.filter_congr fun pane hpane => ?_))
    cases hdock : dock pane.paneId with
    | true => simp [hdock, h.listed pane hpane hdock]
    | false => simp [hdock]
  rw [reconcileDocks, Interaction.ensures_run_bind]
  refine (ensures_verifyCandidates none hlisted).imp ?_
  rintro result s ⟨rfl, hfound⟩
  cases result with
  | error error => exact .refl
  | ok found =>
    have hsettled : Interaction.Ensures (hosted dock last shell only)
        (Reconciled dock workspaceId tabId s) (closeDuplicates found.1).run s :=
      ensures_closeDuplicates ((List.Perm.of_eq (hfound found rfl)).trans hverified)
    obtain ⟨docks, originallyFocusedDock⟩ := found
    cases originallyFocusedDock with
    | none => exact hsettled
    | some paneId =>
      refine (Interaction.ensures_run_bind _ _).mpr
        (ensures_quiet trivial fun reply after hreplied => ⟨hreplied, ?_⟩)
      cases reply with
      | error error => exact .refl
      | ok => exact hsettled

theorem ensures_orThrow {α : Type} {value : Option α} {error : LauncherError}
    {post : Except LauncherError α → HostTabs → Prop} (hsome : ∀ found, value = some found →
      post (.ok found) tabs) (hnone : value = none → post (.error error) tabs) :
    Interaction.Ensures (hosted dock last shell only) post (orThrow value error).run tabs := by
  cases value with
  | none => exact hnone rfl
  | some found => exact hsome found rfl

theorem ensures_openAndReconcile {request : OpenDockRequest}
    (horigin : request.originPaneId ∈ tabs.tab workspaceId tabId)
    (hnone : tabs.docks dock workspaceId tabId = []) :
    Interaction.Ensures (hosted dock last shell only)
      (fun result after => tabs.Tends dock workspaceId tabId after ∧ ∀ kept, result = .ok kept →
        after.docks dock workspaceId tabId = [kept.paneId])
      (openAndReconcile workspaceId tabId request).run tabs := by
  refine (Interaction.ensures_run_adapt_bind _ _ _).mpr
    (ensures_call ⟨workspaceId, tabId, horigin, hnone⟩ fun reply opened hreplied => ?_)
  have hopened := tends_of_openDock hreplied horigin
  cases reply with
  | error error => exact ⟨hopened, fun kept hkept => by cases hkept⟩
  | ok openedPaneId =>
    refine (Interaction.ensures_run_adapt_bind _ _ _).mpr
      (ensures_quiet trivial fun reply after hreplied => ⟨hreplied.1, ?_⟩)
    cases reply with
    | error error => exact ⟨hopened, fun kept hkept => by cases hkept⟩
    | ok panes =>
      refine (Interaction.ensures_run_adapt_bind _ _ _).mpr
        ((ensures_reconcileDocks (hreplied.2.1 panes rfl)).imp fun result s hreconciled => ?_)
      cases result with
      | error error => exact ⟨hopened.trans hreconciled, fun kept hkept => by cases hkept⟩
      | ok dock =>
        cases dock with
        | none =>
          obtain ⟨rfl, _⟩ := hreconciled
          exact ⟨hopened, fun kept hkept => by cases hkept⟩
        | some keeper =>
          refine ⟨hopened.trans hreconciled.1, fun kept hkept => ?_⟩
          cases hkept
          exact hreconciled.2

/-! ## The toggle -/

variable {launcher : DockLauncher} {context : LaunchContext}

theorem ensures_persistOpen {paneId : PaneId} {width : DockWidth}
    (h : tabs.docks dock context.workspaceId.text context.tabId.text = [paneId]) :
    Interaction.Ensures (hosted dock last shell only) (fun _ after => after = tabs)
      (launcher.persistOpen context paneId width) tabs := by
  unfold DockLauncher.persistOpen
  cases launcher.socket with
  | none => rfl
  | some socket =>
    refine (Interaction.ensures_bind _ _).mpr (ensures_quiet ⟨paneId, rfl, h⟩ ?_)
    intro reply after hreplied
    refine ⟨hreplied, ?_⟩
    cases reply with
    | error error => exact ensures_quiet trivial fun _ _ hnoted => ⟨hnoted, rfl⟩
    | ok => rfl

theorem ensures_persistClose
    (h : tabs.docks dock context.workspaceId.text context.tabId.text = []) :
    Interaction.Ensures (hosted dock last shell only) (fun _ after => after = tabs)
      (launcher.persistClose context) tabs := by
  unfold DockLauncher.persistClose
  cases launcher.socket with
  | none => rfl
  | some socket =>
    refine (Interaction.ensures_bind _ _).mpr (ensures_quiet h ?_)
    intro reply after hreplied
    refine ⟨hreplied, ?_⟩
    cases reply with
    | error error => exact ensures_quiet trivial fun _ _ hnoted => ⟨hnoted, rfl⟩
    | ok => rfl

/-- The docks a toggle leaves in its tab. -/
def ToggleOutcome.Leaves (docks : List PaneId) : ToggleOutcome → Prop
  | .opened | .focused => ∃ keeper, docks = [keeper]
  | .closed => docks = []

/-- What a toggle ends in. -/
def Toggled (dock : PaneId → Bool) (context : LaunchContext) (before : HostTabs)
    (result : Except LauncherError ToggleOutcome) (after : HostTabs) : Prop :=
  before.Tends dock context.workspaceId.text context.tabId.text after ∧
    ∀ outcome, result = .ok outcome →
      outcome.Leaves (after.docks dock context.workspaceId.text context.tabId.text)

theorem toggled_of_error {before : HostTabs} {error : LauncherError}
    (h : before.Tends dock context.workspaceId.text context.tabId.text after) :
    Toggled dock context before (.error error) after :=
  ⟨h, fun outcome houtcome => by cases houtcome⟩

theorem ensures_focusLast {before : HostTabs} {paneId : PaneId} {outcome : ToggleOutcome}
    (h : before.Tends dock context.workspaceId.text context.tabId.text tabs)
    (houtcome : outcome.Leaves (tabs.docks dock context.workspaceId.text context.tabId.text)) :
    Interaction.Ensures (hosted dock last shell only) (Toggled dock context before)
      (do orHost (focusPane paneId); pure outcome : LauncherCalls ToggleOutcome).run tabs := by
  refine (Interaction.ensures_run_adapt_bind _ _ _).mpr
    (ensures_quiet trivial fun reply after hreplied => ⟨hreplied, ?_⟩)
  cases reply with
  | error error => exact toggled_of_error h
  | ok =>
    refine ⟨h, fun found hfound => ?_⟩
    cases hfound
    exact houtcome

theorem openTarget_mem {paneId : PaneId} (h : DockLauncher.openTarget context panes = some paneId) :
    paneId ∈ panes.map HostPane.paneId := by
  obtain ⟨pane, hpane, rfl⟩ := Option.map_eq_some_iff.mp h
  apply List.mem_map_of_mem
  rcases Option.or_eq_some_iff.mp hpane with hpane | ⟨_, hpane⟩
  · rcases Option.or_eq_some_iff.mp hpane with hpane | ⟨_, hpane⟩
    · exact List.mem_of_find?_eq_some hpane
    · exact List.mem_of_find?_eq_some hpane
  · exact List.mem_of_mem_head? hpane

theorem ensures_openAct {capturedCwd : PathBuf}
    (h : Lists dock (tabs.tab context.workspaceId.text context.tabId.text) panes)
    (hnone : tabs.docks dock context.workspaceId.text context.tabId.text = []) :
    Interaction.Ensures (hosted dock last shell only) (Toggled dock context tabs)
      (launcher.act context panes capturedCwd .openDock).run tabs := by
  refine (Interaction.ensures_run_bind _ _).mpr
    (ensures_orThrow (fun targetPaneId htarget => ?_) fun _ => toggled_of_error .refl)
  refine (Interaction.ensures_run_bind _ _).mpr
    ((ensures_openAndReconcile (h.shown.mem_iff.mp (openTarget_mem htarget)) hnone).imp
      fun result s hopened => ?_)
  cases result with
  | error error => exact toggled_of_error hopened.1
  | ok kept =>
    have hkept := hopened.2 kept rfl
    refine (Interaction.ensures_run_bind _ _).mpr (Interaction.ensures_run_lift.mpr
      ((ensures_persistOpen hkept).imp ?_))
    rintro _ _ rfl
    refine (Interaction.ensures_run_adapt_bind _ _ _).mpr
      (ensures_quiet trivial fun moved _ hreplied => ⟨hreplied, ?_⟩)
    cases moved with
    | error error => exact toggled_of_error hopened.1
    | ok =>
      refine (Interaction.ensures_run_adapt_bind _ _ _).mpr
        (ensures_quiet trivial fun resized _ hreplied => ⟨hreplied, ?_⟩)
      cases resized with
      | error error => exact toggled_of_error hopened.1
      | ok => exact ensures_focusLast hopened.1 ⟨_, hkept⟩

theorem ensures_closeAct {before : HostTabs} {capturedCwd : PathBuf} {paneId : PaneId}
    (hlast : last)
    (h : before.Tends dock context.workspaceId.text context.tabId.text tabs)
    (hkept : tabs.docks dock context.workspaceId.text context.tabId.text = [paneId]) :
    Interaction.Ensures (hosted dock last shell only) (Toggled dock context before)
      (launcher.act context panes capturedCwd (.close paneId)).run tabs := by
  have hdock : paneId ∈ tabs.docks dock context.workspaceId.text context.tabId.text :=
    hkept.symm ▸ List.mem_singleton_self paneId
  refine (Interaction.ensures_run_adapt_bind _ _ _).mpr
    (ensures_call ⟨_, _, hdock, Or.inl hlast⟩ fun reply after hclosed => ?_)
  have htends := h.trans (hclosed.tends hdock)
  cases reply with
  | error error => exact toggled_of_error htends
  | ok =>
    have hnone : after.docks dock context.workspaceId.text context.tabId.text = [] := by
      rw [hclosed.docks, hkept]
      simp
    refine (Interaction.ensures_run_bind _ _).mpr (Interaction.ensures_run_lift.mpr
      ((ensures_persistClose hnone).imp ?_))
    rintro _ _ rfl
    refine ⟨htends, fun outcome houtcome => ?_⟩
    cases houtcome
    exact hnone

theorem ensures_toggle (hlast : last) :
    Interaction.Ensures (hosted dock last shell only) (Toggled dock context tabs)
      (launcher.toggle context).run tabs := by
  refine (Interaction.ensures_run_adapt_bind _ _ _).mpr
    (ensures_quiet trivial fun shown _ hreplied => ⟨hreplied, ?_⟩)
  cases shown with
  | error error => exact toggled_of_error .refl
  | ok origin =>
    refine (Interaction.ensures_run_adapt_bind _ _ _).mpr
      (ensures_quiet trivial fun locked _ hreplied => ⟨hreplied, ?_⟩)
    cases locked with
    | error error => exact toggled_of_error .refl
    | ok =>
      refine (Interaction.ensures_run_adapt_bind _ _ _).mpr
        (ensures_quiet trivial fun listed _ hreplied => ⟨hreplied.1, ?_⟩)
      cases listed with
      | error error => exact toggled_of_error .refl
      | ok panes =>
        have hlists := hreplied.2.1 panes rfl
        refine (Interaction.ensures_run_adapt_bind _ _ _).mpr
          ((ensures_reconcileDocks hlists).imp fun result s hreconciled => ?_)
        cases result with
        | error error => exact toggled_of_error hreconciled
        | ok found =>
          cases found with
          | none =>
            obtain ⟨rfl, hnone⟩ := hreconciled
            exact ensures_openAct hlists hnone
          | some keeper =>
            dsimp only [decideToggle]
            split
            next => exact ensures_closeAct hlast hreconciled.1 hreconciled.2
            next => exact ensures_focusLast hreconciled.1 ⟨_, hreconciled.2⟩

end

namespace Sample

theorem normal_shell : normalizeNonempty "s" = some "s" := by decide

theorem normal_dock : normalizeNonempty "d" = some "d" := by decide

theorem normal_workspace : normalizeNonempty "w" = some "w" := by decide

theorem normal_tab : normalizeNonempty "t" = some "t" := by decide

def shell : PaneId := ⟨"s", normal_shell⟩
def dock : PaneId := ⟨"d", normal_dock⟩

theorem unique_shell : ([⟨shell, "w", "t"⟩].map Place.paneId).Nodup := List.nodup_singleton _

/-- A terminal in a tab of its own. -/
def tabs : HostTabs := ⟨[⟨shell, "w", "t"⟩], unique_shell⟩

def answer : HostTabs → (request : HostRequest) → request.Reply × HostTabs :=
  HostTabs.answer (· = dock) dock

def launcher : DockLauncher := ⟨DockWidth.clamped 36, some "socket", ⟨[]⟩⟩

def context : LaunchContext := ⟨⟨"w", normal_workspace⟩, ⟨"t", normal_tab⟩, shell, ⟨[]⟩, none⟩

end Sample

end HerdrContext.Host
