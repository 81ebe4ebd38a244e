import HerdrContext.Host.Toggle
import Mathlib.Data.List.Forall2

/-! Restoring the docks that are recorded, whatever calls of the host fail. -/
namespace HerdrContext.Host

open Library

section
variable {dock : PaneId → Bool} {last : Prop} {shell : HostTabs → PaneId → Prop}
  {only : HostRequest → Prop} {tabs after later : HostTabs} {workspaceId tabId : String}
  {paneId : PaneId} {panes : List HostPane} {launcher : DockLauncher}

/-! ## One record -/

/-- An ordinary terminal where a dock was recorded, beside another one. -/
def Shell (dock : PaneId → Bool) (record : DockRecord) (tabs : HostTabs) (paneId : PaneId) : Prop :=
  ∃ workspaceId tabId, recordIds record = some (workspaceId, tabId) ∧
    paneId.text = record.dockPaneId ∧ dock paneId = false ∧
    paneId ∈ tabs.tab workspaceId tabId ∧
    ∃ other ∈ tabs.tab workspaceId tabId, other ≠ paneId ∧ dock other = false

/-- What a restore of records does to the panes of the host. -/
structure Restores (dock : PaneId → Bool) (records : List DockRecord) (before after : HostTabs) :
    Prop where
  spares : ∀ place ∈ before.places,
    (dock place.paneId = false ∨
      ∀ record ∈ records, recordIds record ≠ some (place.workspaceId, place.tabId)) →
    place ∈ after.places ∨ ∃ record ∈ records,
      recordIds record = some (place.workspaceId, place.tabId) ∧
        place.paneId.text = record.dockPaneId
  opens : ∀ place ∈ after.places, place ∈ before.places ∨
    ∃ record ∈ records, recordIds record = some (place.workspaceId, place.tabId)
  terminal : ∀ workspaceId tabId,
    (∃ paneId ∈ before.tab workspaceId tabId, dock paneId = false) →
    ∃ paneId ∈ after.tab workspaceId tabId, dock paneId = false

theorem Restores.refl {records : List DockRecord} : Restores dock records tabs tabs where
  spares _ hplace _ := Or.inl hplace
  opens _ hplace := Or.inl hplace
  terminal _ _ hterminal := hterminal

theorem Restores.mono {records others : List DockRecord} (h : Restores dock records tabs after)
    (hsubset : records ⊆ others) : Restores dock others tabs after where
  spares place hplace hspared := by
    rcases h.spares place hplace (hspared.imp_right fun hno record hrecord =>
      hno record (hsubset hrecord)) with hkept | ⟨record, hrecord, hshed⟩
    · exact Or.inl hkept
    · exact Or.inr ⟨record, hsubset hrecord, hshed⟩
  opens place hplace := by
    rcases h.opens place hplace with hbefore | ⟨record, hrecord, hids⟩
    · exact Or.inl hbefore
    · exact Or.inr ⟨record, hsubset hrecord, hids⟩
  terminal := h.terminal

theorem Restores.trans {records : List DockRecord} (h : Restores dock records tabs after)
    (h' : Restores dock records after later) : Restores dock records tabs later where
  spares place hplace hspared :=
    (h.spares place hplace hspared).elim (fun hkept => h'.spares place hkept hspared) Or.inr
  opens place hplace := (h'.opens place hplace).elim (h.opens place) Or.inr
  terminal workspaceId tabId hterminal :=
    h'.terminal workspaceId tabId (h.terminal workspaceId tabId hterminal)

theorem HostTabs.Tends.restores {record : DockRecord}
    (hids : recordIds record = some (workspaceId, tabId))
    (h : tabs.Tends dock workspaceId tabId after) : Restores dock [record] tabs after where
  spares place hplace hspared := by
    refine Or.inl (h.spares place hplace (hspared.imp_right fun hno => ?_))
    rintro ⟨rfl, rfl⟩
    exact hno record List.mem_cons_self hids
  opens place hplace := by
    rcases h.opens place hplace with hbefore | ⟨rfl, rfl⟩
    · exact Or.inl hbefore
    · exact Or.inr ⟨record, List.mem_cons_self, hids⟩
  terminal := by
    rintro other otherTab ⟨paneId, hpane, hdock⟩
    exact ⟨paneId, h.mem_tab hdock hpane, hdock⟩

/-- The old dock's pane is closed, or nothing is. -/
def Sheds (dock : PaneId → Bool) (record : DockRecord) (before after : HostTabs) : Prop :=
  after = before ∨ ∃ paneId, Shell dock record before paneId ∧
    after.places = before.places.filter fun place => decide (place.paneId ≠ paneId)

theorem Sheds.docks {record : DockRecord} (h : Sheds dock record tabs after) :
    after.docks dock workspaceId tabId = tabs.docks dock workspaceId tabId := by
  rcases h with rfl | ⟨paneId, ⟨_, _, _, _, hdock, _, _⟩, hplaces⟩
  · rfl
  · rw [HostTabs.docks_of_filter hplaces]
    refine List.filter_eq_self.mpr fun found hfound => decide_eq_true ?_
    rintro rfl
    rw [(List.mem_filter.mp hfound).2] at hdock
    contradiction

theorem Sheds.restores {record : DockRecord} (h : Sheds dock record tabs after) :
    Restores dock [record] tabs after := by
  rcases h with rfl | ⟨paneId, ⟨workspaceId, tabId, hids, htext, hdock, hpane, other, hother, hne,
    hterminal⟩, hplaces⟩
  · exact .refl
  · have hkept : ∀ place, place ∈ tabs.places → place.paneId ≠ paneId → place ∈ after.places := by
      intro place hplace hopen
      rw [hplaces]
      exact List.mem_filter.mpr ⟨hplace, decide_eq_true hopen⟩
    constructor
    case spares =>
      intro place hplace _
      by_cases hclosed : place.paneId = paneId
      · obtain ⟨hworkspace, htab⟩ := HostTabs.tab_unique hpane hplace hclosed
        rw [hworkspace, htab, hclosed]
        exact Or.inr ⟨record, List.mem_cons_self, hids, htext⟩
      · exact Or.inl (hkept place hplace hclosed)
    case opens =>
      intro place hplace
      rw [hplaces] at hplace
      exact Or.inl (List.mem_filter.mp hplace).1
    case terminal =>
      rintro workspaceId' tabId' ⟨found, hfound, hdock'⟩
      by_cases hclosed : found = paneId
      · subst hclosed
        obtain ⟨rfl, rfl⟩ := HostTabs.tab_unique hpane (HostTabs.mem_tab.mp hfound) rfl
        exact ⟨other, HostTabs.mem_tab.mpr (hkept _ (HostTabs.mem_tab.mp hother) hne), hterminal⟩
      · exact ⟨found, HostTabs.mem_tab.mpr (hkept _ (HostTabs.mem_tab.mp hfound) hclosed), hdock'⟩

theorem stalePaneId_spec {record : DockRecord} {paneId : PaneId}
    (h : Lists dock (tabs.tab workspaceId tabId) panes)
    (hstale : stalePaneId record panes = some paneId) :
    paneId.text = record.dockPaneId ∧
      ∃ other ∈ tabs.tab workspaceId tabId, other ≠ paneId ∧ dock other = false := by
  obtain ⟨stale, hfind, hsome⟩ := Option.bind_eq_some_iff.mp hstale
  obtain ⟨hany, heq⟩ := Option.ite_none_right_eq_some.mp hsome
  cases heq
  refine ⟨by simpa using List.find?_some hfind, ?_⟩
  obtain ⟨other, hother, hterminal⟩ := List.any_eq_true.mp hany
  obtain ⟨hne, hdock⟩ := Bool.and_eq_true_iff.mp hterminal
  refine ⟨other.paneId, h.shown.mem_iff.mp (List.mem_map_of_mem hother), of_decide_eq_true hne, ?_⟩
  cases hverified : dock other.paneId with
  | false => rfl
  | true =>
    rw [h.listed other hother hverified] at hdock
    contradiction

theorem restoreTarget_mem {stale : Option PaneId} {pane : HostPane}
    (h : restoreTarget panes stale = some pane) : pane ∈ panes := by
  rcases Option.or_eq_some_iff.mp h with h | ⟨_, h⟩
  · rcases Option.or_eq_some_iff.mp h with h | ⟨_, h⟩
    · exact (List.mem_filter.mp (List.mem_of_find?_eq_some h)).1
    · exact List.mem_of_find?_eq_some h
  · exact List.mem_of_mem_head? h

theorem ensures_refocus {focused : Option PaneId} :
    Interaction.Ensures (hosted dock last shell only) (fun _ after => after = tabs)
      (refocusFocusedPane workspaceId tabId focused) tabs := by
  cases focused with
  | none => rfl
  | some target =>
    refine (Interaction.ensures_bind _ _).mpr
      (ensures_quiet trivial fun listed _ hreplied => ⟨hreplied.1, ?_⟩)
    cases listed with
    | error error => rfl
    | ok panes =>
      dsimp only
      split
      next => rfl
      next current _ =>
        split
        next => rfl
        next =>
          refine (Interaction.ensures_bind _ _).mpr
            (ensures_quiet trivial fun moved _ hreplied => ⟨hreplied, ?_⟩)
          cases moved with
          | ok => rfl
          | error error => exact ensures_quiet trivial fun _ _ hnoted => ⟨hnoted, rfl⟩

theorem ensures_noteRestoreDeferred {error : String} :
    Interaction.Ensures (hosted dock last shell only)
      (fun _ after => after = tabs ∧ only (.note (deferral workspaceId tabId error)))
      (noteRestoreDeferred workspaceId tabId error) tabs :=
  ⟨trivial, fun _ _ hnoted => ⟨hnoted.2, hnoted.1⟩⟩

/-- A deferral is noted. -/
def Defers (only : HostRequest → Prop) (workspaceId tabId : String) : Prop :=
  ∃ error, only (.note (deferral workspaceId tabId error))

/-- What becomes of a record in the host that a restore leaves. -/
def Fate (dock : PaneId → Bool) (only : HostRequest → Prop) (record : DockRecord)
    (after : HostTabs) : RecordOutcome → Prop
  | .dropped => ∀ workspaceId tabId, recordIds record = some (workspaceId, tabId) →
    after.tab workspaceId tabId = []
  | .kept kept => ∃ workspaceId tabId, recordIds record = some (workspaceId, tabId) ∧
    (kept = record ∧ Defers only workspaceId tabId ∨
      ∃ keeper, kept = { record with dockPaneId := keeper.text } ∧
        after.docks dock workspaceId tabId = [keeper])

/-- What the restore of one record ends in. -/
def Settled (dock : PaneId → Bool) (only : HostRequest → Prop) (record : DockRecord)
    (before : HostTabs) (outcome : RecordOutcome) (after : HostTabs) : Prop :=
  Restores dock [record] before after ∧ Fate dock only record after outcome

theorem ensures_deferRecord {record : DockRecord} {focused : Option PaneId} {error : String}
    {before : HostTabs} (hids : recordIds record = some (workspaceId, tabId))
    (h : before.Tends dock workspaceId tabId tabs) :
    Interaction.Ensures (hosted dock last shell only) (Settled dock only record before)
      (deferRecord workspaceId tabId focused error record) tabs := by
  refine (Interaction.ensures_bind _ _).mpr (ensures_refocus.imp ?_)
  rintro _ _ rfl
  refine (Interaction.ensures_bind _ _).mpr (ensures_noteRestoreDeferred.imp ?_)
  rintro _ _ ⟨rfl, hnoted⟩
  exact ⟨h.restores hids, workspaceId, tabId, hids, Or.inl ⟨rfl, error, hnoted⟩⟩

theorem ensures_closeRestoredShell {record : DockRecord} {paneId : PaneId}
    (hshell : ∀ s paneId, Shell dock record s paneId → shell s paneId)
    (hids : recordIds record = some (workspaceId, tabId)) (htext : paneId.text = record.dockPaneId)
    (hother : ∃ other ∈ tabs.tab workspaceId tabId, other ≠ paneId ∧ dock other = false) :
    Interaction.Ensures (hosted dock last shell only) (fun _ after => Sheds dock record tabs after)
      (closeRestoredShell workspaceId tabId paneId).run tabs := by
  refine (Interaction.ensures_run_bind _ _).mpr
    (ensures_quiet trivial fun listed _ hreplied => ⟨hreplied.1, ?_⟩)
  cases listed with
  | error error => exact Or.inl rfl
  | ok panes =>
    have hlists := hreplied.2.1 panes rfl
    dsimp only
    split
    next => exact Or.inl rfl
    next pane hfind =>
      have hpane := List.mem_of_find?_eq_some hfind
      have hpaneId : pane.paneId = paneId := by simpa using List.find?_some hfind
      refine (Interaction.ensures_run_bind _ _).mpr
        (ensures_quiet trivial fun verified _ hreplied => ⟨hreplied.1, ?_⟩)
      cases verified with
      | error error => exact Or.inl rfl
      | ok identity =>
        cases identity with
        | some identity => exact Or.inl rfl
        | none =>
          have hdock : dock paneId = false := by
            have hidentity := hreplied.2 none rfl
            cases hverified : dock paneId with
            | false => rfl
            | true =>
              rw [hpaneId, hverified, hlists.listed pane hpane (hpaneId ▸ hverified)] at hidentity
              contradiction
          have hfound : Shell dock record tabs paneId :=
            ⟨_, _, hids, htext, hdock,
              hlists.shown.mem_iff.mp (hpaneId ▸ List.mem_map_of_mem hpane), hother⟩
          refine ensures_call (hshell _ _ hfound) fun reply after hclosed => ?_
          rcases hclosed with hplaces | ⟨_, rfl⟩
          · exact Or.inr ⟨paneId, hfound, hplaces⟩
          · exact Or.inl rfl

theorem ensures_orNote {calls : HostCalls Unit} {text : String} {post : HostTabs → Prop}
    (h : Interaction.Ensures (hosted dock last shell only) (fun _ after => post after) calls.run tabs) :
    Interaction.Ensures (hosted dock last shell only) (fun _ after => post after)
      (orNote calls text) tabs := by
  refine (Interaction.ensures_bind _ _).mpr (h.imp fun result s hpost => ?_)
  cases result with
  | ok => exact hpost
  | error error => exact ensures_quiet trivial fun _ _ hnoted => ⟨hnoted, hpost⟩

theorem ensures_shedOldShell {record : DockRecord} {keeper : PaneId} {before : HostTabs}
    (hshell : ∀ s paneId, Shell dock record s paneId → shell s paneId)
    (hids : recordIds record = some (workspaceId, tabId))
    (hlists : Lists dock (before.tab workspaceId tabId) panes)
    (h : before.Tends dock workspaceId tabId tabs) :
    Interaction.Ensures (hosted dock last shell only) (fun _ after => Sheds dock record tabs after)
      (shedOldShell workspaceId tabId (stalePaneId record panes) keeper) tabs := by
  unfold shedOldShell
  cases hstale : stalePaneId record panes with
  | none => exact Or.inl rfl
  | some paneId =>
    obtain ⟨htext, other, hother, hne, hterminal⟩ := stalePaneId_spec hlists hstale
    dsimp only
    split
    next => exact Or.inl rfl
    next =>
      exact ensures_orNote (ensures_closeRestoredShell hshell hids htext
        ⟨other, h.mem_tab hterminal hother, hne, hterminal⟩)

theorem ensures_settleRecord {record : DockRecord} {focused : Option PaneId} {keeper : PaneId}
    {before : HostTabs} (hshell : ∀ s paneId, Shell dock record s paneId → shell s paneId)
    (hids : recordIds record = some (workspaceId, tabId))
    (hlists : Lists dock (before.tab workspaceId tabId) panes)
    (h : before.Tends dock workspaceId tabId tabs)
    (hkeeper : tabs.docks dock workspaceId tabId = [keeper]) :
    Interaction.Ensures (hosted dock last shell only) (Settled dock only record before)
      (settleRecord workspaceId tabId panes focused (stalePaneId record panes) keeper record)
      tabs := by
  refine (Interaction.ensures_bind _ _).mpr
    ((ensures_shedOldShell hshell hids hlists h).imp fun _ shed hsheds => ?_)
  refine (Interaction.ensures_bind _ _).mpr (ensures_refocus.imp ?_)
  rintro _ _ rfl
  refine ⟨?_, workspaceId, tabId, hids, Or.inr ⟨keeper, rfl, hsheds.docks.trans hkeeper⟩⟩
  exact (h.restores hids).trans hsheds.restores

theorem ensures_openRestoredDock {record : DockRecord} {stale : Option PaneId}
    (h : Lists dock (tabs.tab workspaceId tabId) panes)
    (hnone : tabs.docks dock workspaceId tabId = []) :
    Interaction.Ensures (hosted dock last shell only)
      (fun result after => tabs.Tends dock workspaceId tabId after ∧ ∀ keeper, result = .ok keeper →
        after.docks dock workspaceId tabId = [keeper])
      (launcher.openRestoredDock workspaceId tabId panes stale record).run tabs := by
  refine (Interaction.ensures_run_bind _ _).mpr (ensures_orThrow (fun target htarget => ?_)
    fun _ => ⟨.refl, fun keeper hkeeper => by cases hkeeper⟩)
  have horigin := h.shown.mem_iff.mp (List.mem_map_of_mem (restoreTarget_mem htarget))
  refine (Interaction.ensures_run_bind _ _).mpr
    ((ensures_openAndReconcile horigin hnone).imp fun result s hopened => ?_)
  cases result with
  | error error => exact ⟨hopened.1, fun keeper hkeeper => by cases hkeeper⟩
  | ok kept =>
    have hmoved : ∀ text, Interaction.Ensures (hosted dock last shell only) (fun _ after => after = s)
        (orNote (moveToRightEdge kept.paneId) text) s := fun text =>
      ensures_orNote (ensures_quiet trivial fun _ _ hreplied => ⟨hreplied, rfl⟩)
    have hresized : ∀ width text, Interaction.Ensures (hosted dock last shell only)
        (fun _ after => after = s) (orNote (resizePane kept.paneId width) text) s :=
      fun width text => ensures_orNote (ensures_quiet trivial fun _ _ hreplied => ⟨hreplied, rfl⟩)
    refine (Interaction.ensures_run_bind _ _).mpr (Interaction.ensures_run_lift.mpr
      ((hmoved _).imp ?_))
    rintro _ _ rfl
    refine (Interaction.ensures_run_bind _ _).mpr (Interaction.ensures_run_lift.mpr
      ((hresized _ _).imp ?_))
    rintro _ _ rfl
    refine ⟨hopened.1, fun keeper hkeeper => ?_⟩
    cases hkeeper
    exact hopened.2 kept rfl

theorem ensures_restorePanes {record : DockRecord}
    (hshell : ∀ s paneId, Shell dock record s paneId → shell s paneId)
    (hids : recordIds record = some (workspaceId, tabId))
    (hlists : Lists dock (tabs.tab workspaceId tabId) panes) :
    Interaction.Ensures (hosted dock last shell only) (Settled dock only record tabs)
      (launcher.restorePanes workspaceId tabId panes record) tabs := by
  refine (Interaction.ensures_bind _ _).mpr
    ((ensures_reconcileDocks hlists).imp fun result s hreconciled => ?_)
  cases result with
  | error error => exact ensures_deferRecord hids hreconciled
  | ok found =>
    cases found with
    | some keeper => exact ensures_settleRecord hshell hids hlists hreconciled.1 hreconciled.2
    | none =>
      obtain ⟨rfl, hnone⟩ := hreconciled
      refine (Interaction.ensures_bind _ _).mpr
        ((ensures_openRestoredDock hlists hnone).imp fun opened later hopened => ?_)
      cases opened with
      | error error => exact ensures_deferRecord hids hopened.1
      | ok keeper => exact ensures_settleRecord hshell hids hlists hopened.1 (hopened.2 keeper rfl)

theorem ensures_restoreRecord {record : DockRecord}
    (hshell : ∀ s paneId, Shell dock record s paneId → shell s paneId) :
    Interaction.Ensures (hosted dock last shell only) (Settled dock only record tabs)
      (launcher.restoreRecord record) tabs := by
  unfold DockLauncher.restoreRecord
  cases hids : recordIds record with
  | none =>
    refine ⟨.refl, fun workspaceId tabId hnone => ?_⟩
    rw [hids] at hnone
    cases hnone
  | some ids =>
    obtain ⟨workspaceId, tabId⟩ := ids
    have hdeferred : ∀ error, Interaction.Ensures (hosted dock last shell only)
        (Settled dock only record tabs)
        (do noteRestoreDeferred workspaceId tabId error; pure (.kept record) :
          Launch RecordOutcome) tabs := by
      intro error
      refine (Interaction.ensures_bind _ _).mpr (ensures_noteRestoreDeferred.imp ?_)
      rintro _ _ ⟨rfl, hnoted⟩
      exact ⟨.refl, workspaceId, tabId, hids, Or.inl ⟨rfl, error, hnoted⟩⟩
    have hdropped : tabs.tab workspaceId tabId = [] →
        Settled dock only record tabs .dropped tabs := by
      intro hempty
      refine ⟨.refl, fun other otherTab hother => ?_⟩
      cases hids.symm.trans hother
      exact hempty
    refine (Interaction.ensures_bind _ _).mpr
      (ensures_quiet trivial fun locked _ hreplied => ⟨hreplied, ?_⟩)
    cases locked with
    | error error => exact hdeferred error
    | ok =>
      refine (Interaction.ensures_bind _ _).mpr
        (ensures_quiet trivial fun listed _ hreplied => ⟨hreplied.1, ?_⟩)
      cases listed with
      | error error =>
        dsimp only
        split
        next hkind => exact hdropped (hreplied.2.2 error rfl hkind)
        next => exact hdeferred error.message
      | ok panes =>
        have hlists := hreplied.2.1 panes rfl
        dsimp only
        split
        next hempty =>
          refine hdropped (List.nil_perm.mp ?_)
          have hshown := hlists.shown
          rwa [List.isEmpty_iff.mp hempty] at hshown
        next => exact ensures_restorePanes hshell hids hlists

/-! ## All records -/

theorem HostTabs.tab_of_openDock {request : OpenDockRequest} {reply : Except HostError PaneId}
    (h : Replies dock tabs (.openDock request) reply after) :
    after.tab workspaceId tabId = tabs.tab workspaceId tabId ∨
      request.originPaneId ∈ tabs.tab workspaceId tabId := by
  rcases h with rfl | ⟨⟨paneId, other, otherTab⟩, htarget, opened, rfl, hplaces⟩
  · exact Or.inl rfl
  · by_cases hat : other = workspaceId ∧ otherTab = tabId
    · obtain ⟨rfl, rfl⟩ := hat
      exact Or.inr (HostTabs.mem_tab.mpr htarget)
    · left
      rw [HostTabs.tab, HostTabs.tab, hplaces, List.filter_cons_of_neg]
      rwa [Bool.and_eq_true, decide_eq_true_eq, decide_eq_true_eq]

theorem HostTabs.docks_unmoved {keeper : PaneId} (hne : keeper ≠ paneId)
    (hkeeper : tabs.docks dock workspaceId tabId = [keeper])
    (h : after.places = tabs.places.filter fun place => decide (place.paneId ≠ paneId)) :
    after.docks dock workspaceId tabId = [keeper] := by
  rw [HostTabs.docks_of_filter h, hkeeper]
  exact List.filter_cons_of_pos (decide_eq_true hne)

/-- A permitted call leaves the only dock of a tab. -/
theorem docks_of_permitted {request : HostRequest} {reply : request.Reply} {keeper : PaneId}
    (hshell : ∀ s paneId, shell s paneId → dock paneId = false)
    (hkeeper : tabs.docks dock workspaceId tabId = [keeper])
    (hpermits : Permits dock False shell tabs request) (h : Replies dock tabs request reply after) :
    after.docks dock workspaceId tabId = [keeper] := by
  have hdock : keeper ∈ tabs.docks dock workspaceId tabId :=
    hkeeper.symm ▸ List.mem_singleton_self keeper
  obtain ⟨htab, hverified⟩ := List.mem_filter.mp hdock
  cases request with
  | openDock request =>
    obtain ⟨other, otherTab, horigin, hnone⟩ := hpermits
    rcases HostTabs.tab_of_openDock h with hsame | hin
    · rw [HostTabs.docks, hsame]
      exact hkeeper
    · obtain ⟨rfl, rfl⟩ := HostTabs.tab_unique horigin (HostTabs.mem_tab.mp hin) rfl
      rw [hnone] at hkeeper
      contradiction
  | closePane paneId =>
    obtain ⟨other, otherTab, hpane, hlast⟩ := hpermits
    rcases h with hplaces | ⟨_, rfl⟩
    · refine HostTabs.docks_unmoved ?_ hkeeper hplaces
      rintro rfl
      obtain ⟨rfl, rfl⟩ :=
        HostTabs.tab_unique (List.mem_filter.mp hpane).1 (HostTabs.mem_tab.mp htab) rfl
      obtain ⟨kept, hkept, hne⟩ := hlast.resolve_left id
      rw [hkeeper] at hkept
      exact hne (List.mem_singleton.mp hkept)
    · exact hkeeper
  | closeTerminalPane paneId =>
    rcases h with hplaces | ⟨_, rfl⟩
    · refine HostTabs.docks_unmoved ?_ hkeeper hplaces
      rintro rfl
      rw [hshell _ _ hpermits] at hverified
      contradiction
    · exact hkeeper
  | panesInTab | verifiedDockIdentity => exact h.1 ▸ hkeeper
  | _ => exact h ▸ hkeeper

/-- No pane is opened in an empty tab. -/
theorem tab_of_permitted {request : HostRequest} {reply : request.Reply}
    (hempty : tabs.tab workspaceId tabId = []) (h : Replies dock tabs request reply after) :
    after.tab workspaceId tabId = [] := by
  have hclosed : ∀ paneId reply, Closes paneId reply tabs after →
      after.tab workspaceId tabId = [] := by
    rintro paneId reply (hplaces | ⟨_, rfl⟩)
    · rw [HostTabs.tab_of_filter hplaces, hempty]
      rfl
    · exact hempty
  cases request with
  | openDock request =>
    rcases HostTabs.tab_of_openDock h with hsame | hin
    · exact hsame.trans hempty
    · rw [hempty] at hin
      cases hin
  | closePane paneId => exact hclosed _ _ h
  | closeTerminalPane paneId => exact hclosed _ _ h
  | panesInTab | verifiedDockIdentity => exact h.1 ▸ hempty
  | _ => exact h ▸ hempty

theorem Fate.keeps {record : DockRecord} {outcome : RecordOutcome} {request : HostRequest}
    {reply : request.Reply} (hshell : ∀ s paneId, shell s paneId → dock paneId = false)
    (hfate : Fate dock only record tabs outcome) (hpermits : Permits dock False shell tabs request)
    (h : Replies dock tabs request reply after) : Fate dock only record after outcome := by
  cases outcome with
  | dropped => exact fun workspaceId tabId hids => tab_of_permitted (hfate workspaceId tabId hids) h
  | kept kept =>
    obtain ⟨workspaceId, tabId, hids, hkept⟩ := hfate
    refine ⟨workspaceId, tabId, hids, hkept.imp_right ?_⟩
    rintro ⟨keeper, rfl, hkeeper⟩
    exact ⟨keeper, rfl, docks_of_permitted hshell hkeeper hpermits h⟩

/-- The record that is kept for the next restart. -/
def RecordOutcome.record? : RecordOutcome → Option DockRecord
  | .kept record => some record
  | .dropped => none

/-- The records that are kept, with the fates of all. -/
def Fates (dock : PaneId → Bool) (only : HostRequest → Prop) (records kept : List DockRecord)
    (after : HostTabs) : Prop :=
  ∃ outcomes, List.Forall₂ (fun record outcome => Fate dock only record after outcome) records
    outcomes ∧ kept = outcomes.filterMap RecordOutcome.record?

-- The ids of a record that is not given do not reduce.
attribute [local irreducible] recordIds

theorem ensures_restoreRecords {records : List DockRecord}
    (hterminal : ∀ s paneId, shell s paneId → dock paneId = false)
    (hshell : ∀ record ∈ records, ∀ s paneId, Shell dock record s paneId → shell s paneId) :
    Interaction.Ensures (hosted dock False shell only)
      (fun kept after => Restores dock records tabs after ∧ Fates dock only records kept after)
      (launcher.restoreRecords records) tabs := by
  induction records generalizing tabs with
  | nil => exact ⟨.refl, [], .nil, rfl⟩
  | cons record rest ih =>
    refine (Interaction.ensures_bind _ _).mpr
      ((ensures_restoreRecord (hshell record List.mem_cons_self)).imp ?_)
    rintro outcome s ⟨hrestores, hfate⟩
    have hrest : Interaction.Ensures (hosted dock False shell only)
        (fun kept after => (Restores dock rest s after ∧ Fates dock only rest kept after) ∧
          Fate dock only record after outcome) (launcher.restoreRecords rest) s :=
      (ih fun record hrecord => hshell record (List.mem_cons_of_mem _ hrecord)).keeps hfate
        fun _ _ _ _ hfate hpermits hreplied => hfate.keeps hterminal hpermits hreplied.2
    have hall : ∀ kept after, (Restores dock rest s after ∧ Fates dock only rest kept after) ∧
        Fate dock only record after outcome → Restores dock (record :: rest) tabs after ∧
          Fates dock only (record :: rest) (outcome.record?.toList ++ kept) after := by
      rintro kept after ⟨⟨hrestores', outcomes, hfates, rfl⟩, hfate⟩
      refine ⟨(hrestores.mono (by simp)).trans (hrestores'.mono (by simp)), outcome :: outcomes,
        .cons hfate hfates, ?_⟩
      cases outcome with
      | dropped => rfl
      | kept kept => rfl
    cases outcome with
    | dropped => exact hrest.imp hall
    | kept kept =>
      exact (Interaction.ensures_bind _ _).mpr (hrest.imp hall)

theorem ensures_restore {socket : String} {records : List DockRecord} :
    Interaction.Ensures
      (hosted dock False (fun s paneId => ∃ record ∈ records, Shell dock record s paneId) only)
      (fun _ after => Restores dock records tabs after ∧ (records ≠ [] → ∃ kept,
        Fates dock only records kept after ∧ only (.replaceSocketRecords socket kept)))
      (launcher.restore socket records).run tabs := by
  unfold DockLauncher.restore
  split
  next hempty => exact ⟨.refl, fun hsome => absurd (List.isEmpty_iff.mp hempty) hsome⟩
  next =>
    refine (Interaction.ensures_run_bind _ _).mpr (Interaction.ensures_run_lift.mpr
      ((ensures_restoreRecords ?_ ?_).imp ?_))
    · rintro s paneId ⟨record, _, _, _, _, _, hdock, _⟩
      exact hdock
    · exact fun record hrecord s paneId hpane => ⟨record, hrecord, hpane⟩
    · rintro kept after ⟨hrestores, hfates⟩
      refine (Interaction.ensures_run_adapt _ _).mpr ⟨trivial, ?_⟩
      rintro reply later ⟨hwritten, rfl⟩
      exact ⟨hrestores, fun _ => ⟨kept, hfates, hwritten⟩⟩

end

section
variable {σ : Type} {replies : σ → (request : HostRequest) → request.Reply → σ → Prop} {s : σ}
  {workspaceId tabId : String} {panes : List HostPane} {launcher : DockLauncher}
  {record : DockRecord} {focused stale : Option PaneId}

/-- A host of which nothing is known. -/
abbrev anyHost (replies : σ → (request : HostRequest) → request.Reply → σ → Prop) :
    Interaction.Environment HostRequest HostRequest.Reply σ := ⟨fun _ _ => True, replies⟩

theorem ensures_any {α : Type} (program : Launch α) :
    program.Ensures (anyHost replies) (fun _ _ => True) s := by
  induction program generalizing s with
  | done => trivial
  | call request resume ih => exact ⟨trivial, fun reply s' _ => ih reply⟩

/-- What comes last decides. -/
theorem ensures_last {α β : Type} {post : β → σ → Prop} (first : Launch α) {next : α → Launch β}
    (h : ∀ value s, (next value).Ensures (anyHost replies) post s) :
    (first >>= next).Ensures (anyHost replies) post s :=
  (Interaction.ensures_bind _ _).mpr ((ensures_any first).imp fun value s _ => h value s)

/-- The outcome is one of the answers a host may give. -/
def Answered (record : DockRecord) (outcome : RecordOutcome) (_ : σ) : Prop :=
  ∃ answers, outcome = restoreRecord record answers

theorem ensures_deferRecord_answered {error : String} (answers : Option HostAnswers)
    (h : restoreRecord record answers = .kept record) :
    Interaction.Ensures (anyHost replies) (Answered record)
      (deferRecord workspaceId tabId focused error record) s :=
  ensures_last _ fun _ _ => ensures_last _ fun _ _ => ⟨answers, h.symm⟩

theorem ensures_settleRecord_answered {keeper : PaneId} (answers : Option HostAnswers)
    (h : restoreRecord record answers = .kept { record with dockPaneId := keeper.text }) :
    Interaction.Ensures (anyHost replies) (Answered record)
      (settleRecord workspaceId tabId panes focused stale keeper record) s :=
  ensures_last _ fun _ _ => ensures_last _ fun _ _ => ⟨answers, h.symm⟩

theorem ensures_restorePanes_answered (hids : recordIds record = some (workspaceId, tabId))
    (hpanes : panes ≠ []) :
    Interaction.Ensures (anyHost replies) (Answered record)
      (launcher.restorePanes workspaceId tabId panes record) s := by
  obtain ⟨pane, rest, rfl⟩ := List.exists_cons_of_ne_nil hpanes
  let shown : List String := (pane :: rest).map fun pane => pane.paneId.text
  refine ensures_last _ fun reconciled s => ?_
  cases reconciled with
  | error error =>
    refine ensures_deferRecord_answered (some ⟨.ok shown, .error error.kind, .ok ""⟩) ?_
    simp only [restoreRecord, hids, shown, List.map_cons]
  | ok found =>
    cases found with
    | some keeper =>
      refine ensures_settleRecord_answered
        (some ⟨.ok shown, .ok (some keeper.paneId.text), .ok ""⟩) ?_
      simp only [restoreRecord, hids, shown, List.map_cons]
    | none =>
      refine ensures_last _ fun opened s => ?_
      cases opened with
      | error error =>
        refine ensures_deferRecord_answered
          (some ⟨.ok shown, .ok none, .error .operationFailed⟩) ?_
        simp only [restoreRecord, hids, shown, List.map_cons]
      | ok keeper =>
        refine ensures_settleRecord_answered
          (some ⟨.ok shown, .ok none, .ok keeper.text⟩) ?_
        simp only [restoreRecord, hids, shown, List.map_cons]

theorem ensures_restoreRecord_answered :
    Interaction.Ensures (anyHost replies) (Answered record) (launcher.restoreRecord record) s := by
  unfold DockLauncher.restoreRecord
  cases hids : recordIds record with
  | none =>
    refine ⟨none, ?_⟩
    simp only [restoreRecord, hids]
  | some ids =>
    obtain ⟨workspaceId, tabId⟩ := ids
    refine ensures_last _ fun locked s => ?_
    cases locked with
    | error error =>
      refine ensures_last _ fun _ _ => ⟨none, ?_⟩
      simp only [restoreRecord, hids]
    | ok =>
      refine ensures_last _ fun listed s => ?_
      cases listed with
      | error error =>
        dsimp only
        split
        next hkind =>
          refine ⟨some ⟨.error .notFound, .ok none, .ok ""⟩, ?_⟩
          simp only [restoreRecord, hids]
        next hkind =>
          refine ensures_last _ fun _ _ => ⟨some ⟨.error error.kind, .ok none, .ok ""⟩, ?_⟩
          simp only [restoreRecord, hids]
      | ok panes =>
        dsimp only
        split
        next hempty =>
          refine ⟨some ⟨.ok [], .ok none, .ok ""⟩, ?_⟩
          simp only [restoreRecord, hids]
        next hpanes =>
          refine ensures_restorePanes_answered hids ?_
          rintro rfl
          exact hpanes rfl

-- The ids of a record that is not given do not reduce.
attribute [local irreducible] recordIds

/-- The records that a restore writes back are those of the concurrent model, for
answers to each record. -/
theorem ensures_restoreRecords_answered (records : List DockRecord) :
    Interaction.Ensures (anyHost replies) (fun kept _ => ∃ answers : List (Option HostAnswers),
      answers.length = records.length ∧ kept = restoredRecords records answers)
      (launcher.restoreRecords records) s := by
  induction records generalizing s with
  | nil => exact ⟨[], rfl, rfl⟩
  | cons record rest ih =>
    rw [DockLauncher.restoreRecords, Interaction.ensures_bind]
    refine ensures_restoreRecord_answered.imp ?_
    rintro outcome s ⟨answer, houtcome⟩
    have hall : ∀ kept, (∃ answers : List (Option HostAnswers),
        answers.length = rest.length ∧ kept = restoredRecords rest answers) →
        ∃ answers : List (Option HostAnswers), answers.length = (record :: rest).length ∧
          outcome.record?.toList ++ kept = restoredRecords (record :: rest) answers := by
      rintro kept ⟨answers, hlength, rfl⟩
      refine ⟨answer :: answers, congrArg (· + 1) hlength, ?_⟩
      simp only [restoredRecords, List.zip_cons_cons, List.filterMap_cons, ← houtcome]
      cases outcome with
      | dropped => rfl
      | kept kept => rfl
    cases outcome with
    | dropped => exact ih.imp fun kept _ => hall kept
    | kept kept =>
      rw [Interaction.ensures_bind]
      exact ih.imp fun others _ => hall others

theorem ensures_restore_answered {socket : String} {records : List DockRecord}
    (only : HostRequest → Prop) (hrecords : records ≠ []) :
    Interaction.Ensures
      (anyHost fun s request reply s' => only request ∧ replies s request reply s')
      (fun _ _ => ∃ answers : List (Option HostAnswers), answers.length = records.length ∧
        only (.replaceSocketRecords socket (restoredRecords records answers)))
      (launcher.restore socket records).run s := by
  unfold DockLauncher.restore
  split
  next hempty => exact absurd (List.isEmpty_iff.mp hempty) hrecords
  next =>
    refine (Interaction.ensures_run_bind _ _).mpr (Interaction.ensures_run_lift.mpr
      ((ensures_restoreRecords_answered records).imp ?_))
    rintro kept s ⟨answers, hlength, rfl⟩
    refine (Interaction.ensures_run_adapt _ _).mpr ⟨trivial, ?_⟩
    rintro reply s' ⟨hwritten, _⟩
    exact ⟨answers, hlength, hwritten⟩

end

end HerdrContext.Host
