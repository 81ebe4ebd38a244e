import HerdrContext.Host.Docks

/-! The panes of a host in their tabs, and what the launcher may ask of it. -/
namespace HerdrContext.Host

open Library

/-! ## The host's panes -/

/-- A pane in its tab. -/
structure Place where
  paneId : PaneId
  workspaceId : String
  tabId : String
  deriving DecidableEq

structure HostTabs where
  places : List Place
  unique : (places.map Place.paneId).Nodup

namespace HostTabs

variable (tabs : HostTabs) (dock : PaneId → Bool) (workspaceId tabId : String)

def tab : List PaneId :=
  (tabs.places.filter fun place =>
    decide (place.workspaceId = workspaceId) && decide (place.tabId = tabId)).map Place.paneId

/-- The tab's panes that the host verifies as this plugin's docks. -/
def docks : List PaneId := (tabs.tab workspaceId tabId).filter dock

/-- Only docks of one tab are closed, and panes are opened nowhere else. -/
structure Tends (after : HostTabs) : Prop where
  spares : ∀ place ∈ tabs.places, dock place.paneId = false ∨
    ¬ (place.workspaceId = workspaceId ∧ place.tabId = tabId) → place ∈ after.places
  opens : ∀ place ∈ after.places, place ∈ tabs.places ∨
    place.workspaceId = workspaceId ∧ place.tabId = tabId

end HostTabs

/-- A list of a tab's panes that hides no dock. -/
structure Lists (dock : PaneId → Bool) (ids : List PaneId) (panes : List HostPane) : Prop where
  shown : (panes.map HostPane.paneId).Perm ids
  listed : ∀ pane ∈ panes, dock pane.paneId = true → pane.isDock = true

/-- A pane is closed, or closing it fails and leaves it. -/
def Closes (paneId : PaneId) (reply : Except HostError Unit) (before after : HostTabs) : Prop :=
  after.places = before.places.filter (fun place => decide (place.paneId ≠ paneId)) ∨
    (∃ error, reply = .error error) ∧ after = before

/-- A host whose panes change only on request. Any call may fail, with or
without its effect; which panes are docks never changes; and only what is gone is
not found. -/
def Replies (dock : PaneId → Bool) (tabs : HostTabs) :
    (request : HostRequest) → request.Reply → HostTabs → Prop
  | .panesInTab workspaceId tabId, reply, after => after = tabs ∧
    (∀ panes, reply = .ok panes → Lists dock (tabs.tab workspaceId tabId) panes) ∧
    ∀ error, reply = .error error → error.kind = .notFound → tabs.tab workspaceId tabId = []
  | .verifiedDockIdentity pane, reply, after => after = tabs ∧
    ∀ identity, reply = .ok identity → identity.isSome = (pane.isDock && dock pane.paneId)
  | .openDock request, _, after => after = tabs ∨
    ∃ target ∈ tabs.places, ∃ paneId, target.paneId = request.originPaneId ∧
      after.places = { target with paneId } :: tabs.places
  | .closePane paneId, reply, after => Closes paneId reply tabs after
  | .closeTerminalPane paneId, reply, after => Closes paneId reply tabs after
  | _, _, after => after = tabs

/-- What the launcher may ask for. A dock is opened in a tab without one. Docks are
closed, the last one of a tab and ordinary terminals only as told. A record names
the one dock of its tab, and goes when there is none. -/
def Permits (dock : PaneId → Bool) (last : Prop) (shell : HostTabs → PaneId → Prop)
    (tabs : HostTabs) : HostRequest → Prop
  | .openDock request => ∃ workspaceId tabId,
    request.originPaneId ∈ tabs.tab workspaceId tabId ∧ tabs.docks dock workspaceId tabId = []
  | .closePane paneId => ∃ workspaceId tabId, paneId ∈ tabs.docks dock workspaceId tabId ∧
    (last ∨ ∃ other ∈ tabs.docks dock workspaceId tabId, other ≠ paneId)
  | .closeTerminalPane paneId => shell tabs paneId
  | .upsertRecord _ record => ∃ keeper, record.dockPaneId = keeper.text ∧
    tabs.docks dock record.workspaceId record.tabId = [keeper]
  | .removeRecord _ workspaceId tabId => tabs.docks dock workspaceId tabId = []
  | _ => True

/-- A host that is asked in some ways only. -/
abbrev hosted (dock : PaneId → Bool) (last : Prop) (shell : HostTabs → PaneId → Prop)
    (only : HostRequest → Prop) :
    Interaction.Environment HostRequest HostRequest.Reply HostTabs :=
  ⟨Permits dock last shell, fun tabs request reply after =>
    only request ∧ Replies dock tabs request reply after⟩

section
variable {dock : PaneId → Bool} {tabs after later : HostTabs} {workspaceId tabId : String}
  {paneId : PaneId} {place : Place}

theorem HostTabs.mem_tab : paneId ∈ tabs.tab workspaceId tabId ↔
    ⟨paneId, workspaceId, tabId⟩ ∈ tabs.places := by
  simp only [HostTabs.tab, List.mem_map, List.mem_filter, Bool.and_eq_true, decide_eq_true_eq]
  constructor
  · rintro ⟨place, ⟨hplace, rfl, rfl⟩, rfl⟩
    exact hplace
  · intro hplace
    exact ⟨_, ⟨hplace, rfl, rfl⟩, rfl⟩

theorem HostTabs.nodup_tab : (tabs.tab workspaceId tabId).Nodup :=
  (List.filter_sublist.map _).nodup tabs.unique

/-- A pane is in one tab. -/
theorem HostTabs.tab_unique (h : paneId ∈ tabs.tab workspaceId tabId) (hplace : place ∈ tabs.places)
    (hpane : place.paneId = paneId) : place.workspaceId = workspaceId ∧ place.tabId = tabId := by
  have heq := List.inj_on_of_nodup_map tabs.unique hplace (HostTabs.mem_tab.mp h) hpane
  rw [heq]
  exact ⟨rfl, rfl⟩

theorem HostTabs.Tends.refl : tabs.Tends dock workspaceId tabId tabs :=
  ⟨fun _ hplace _ => hplace, fun _ hplace => Or.inl hplace⟩

theorem HostTabs.Tends.trans (h : tabs.Tends dock workspaceId tabId after)
    (h' : after.Tends dock workspaceId tabId later) : tabs.Tends dock workspaceId tabId later where
  spares place hplace hspared := h'.spares place (h.spares place hplace hspared) hspared
  opens place hplace := by
    cases h'.opens place hplace with
    | inl hbefore => exact h.opens place hbefore
    | inr hat => exact Or.inr hat

/-- An ordinary terminal stays in its tab. -/
theorem HostTabs.Tends.mem_tab {other otherTab : String} (h : tabs.Tends dock workspaceId tabId after)
    (hdock : dock paneId = false) (hpane : paneId ∈ tabs.tab other otherTab) :
    paneId ∈ after.tab other otherTab :=
  HostTabs.mem_tab.mpr (h.spares _ (HostTabs.mem_tab.mp hpane) (Or.inl hdock))

theorem HostTabs.tab_of_filter
    (h : after.places = tabs.places.filter fun place => decide (place.paneId ≠ paneId)) :
    after.tab workspaceId tabId = (tabs.tab workspaceId tabId).filter (decide <| · ≠ paneId) := by
  rw [HostTabs.tab, HostTabs.tab, h, List.filter_map, List.filter_filter, List.filter_filter]
  congr 1
  apply List.filter_congr
  intro place _
  exact Bool.and_comm _ _

theorem HostTabs.docks_of_filter
    (h : after.places = tabs.places.filter fun place => decide (place.paneId ≠ paneId)) :
    after.docks dock workspaceId tabId =
      (tabs.docks dock workspaceId tabId).filter (decide <| · ≠ paneId) := by
  rw [HostTabs.docks, HostTabs.docks, HostTabs.tab_of_filter h, List.filter_filter,
    List.filter_filter]
  apply List.filter_congr
  intro id _
  exact Bool.and_comm _ _

theorem Closes.tends {reply : Except HostError Unit} (h : Closes paneId reply tabs after)
    (hdock : paneId ∈ tabs.docks dock workspaceId tabId) :
    tabs.Tends dock workspaceId tabId after := by
  obtain ⟨htab, hdock⟩ := List.mem_filter.mp hdock
  rcases h with hplaces | ⟨_, rfl⟩
  · refine ⟨fun place hplace hspared => ?_, fun place hplace => Or.inl ?_⟩
    · rw [hplaces]
      refine List.mem_filter.mpr ⟨hplace, decide_eq_true ?_⟩
      rintro rfl
      cases hspared with
      | inl hother =>
        rw [hdock] at hother
        contradiction
      | inr helsewhere => exact helsewhere (HostTabs.tab_unique htab hplace rfl)
    · rw [hplaces] at hplace
      exact (List.mem_filter.mp hplace).1
  · exact .refl

theorem Closes.docks (h : Closes paneId (.ok ()) tabs after) :
    after.docks dock workspaceId tabId =
      (tabs.docks dock workspaceId tabId).filter (decide <| · ≠ paneId) := by
  apply HostTabs.docks_of_filter
  apply h.resolve_right
  rintro ⟨⟨error, herror⟩, _⟩
  contradiction

/-- A pane is opened beside another one. -/
theorem tends_of_openDock {request : OpenDockRequest} {reply : Except HostError PaneId}
    (h : Replies dock tabs (.openDock request) reply after)
    (horigin : request.originPaneId ∈ tabs.tab workspaceId tabId) :
    tabs.Tends dock workspaceId tabId after := by
  rcases h with rfl | ⟨target, htarget, paneId, hpane, hplaces⟩
  · exact .refl
  · refine ⟨fun place hplace _ => ?_, fun place hplace => ?_⟩
    · rw [hplaces]
      exact List.mem_cons_of_mem _ hplace
    · rw [hplaces] at hplace
      cases List.mem_cons.mp hplace with
      | inl hopened =>
        have hat := HostTabs.tab_unique horigin htarget hpane
        rw [hopened]
        exact Or.inr hat
      | inr hbefore => exact Or.inl hbefore

end

/-! ## A host -/

namespace HostTabs

def close (tabs : HostTabs) (paneId : PaneId) : HostTabs :=
  ⟨tabs.places.filter fun place => decide (place.paneId ≠ paneId),
    (List.filter_sublist.map _).nodup tabs.unique⟩

theorem unique_opened {tabs : HostTabs} {paneId : PaneId} (target : Place)
    (h : paneId ∉ tabs.places.map Place.paneId) :
    (({ target with paneId } :: tabs.places).map Place.paneId).Nodup :=
  List.nodup_cons.mpr ⟨h, tabs.unique⟩

/-- A new pane beside another one, if there is that pane and the name is free. -/
def opened (tabs : HostTabs) (originPaneId paneId : PaneId) : Except HostError PaneId × HostTabs :=
  match tabs.places.find? (·.paneId = originPaneId) with
  | none => (.error ⟨.notFound, "no such pane"⟩, tabs)
  | some target =>
    if h : paneId ∈ tabs.places.map Place.paneId then
      (.error ⟨.operationFailed, "not opened"⟩, tabs)
    else (.ok paneId, ⟨{ target with paneId } :: tabs.places, unique_opened target h⟩)

/-- A pane as it is listed. -/
def listed (dock : PaneId → Bool) (paneId : PaneId) : HostPane :=
  ⟨paneId, none, none, false, if dock paneId then some .pluginMetadata else none⟩

/-- A host that does what it is asked, and opens panes under one name. -/
def answer (dock : PaneId → Bool) (newPaneId : PaneId) (tabs : HostTabs) :
    (request : HostRequest) → request.Reply × HostTabs
  | .pane _ => (.ok none, tabs)
  | .panesInTab workspaceId tabId => (.ok ((tabs.tab workspaceId tabId).map (listed dock)), tabs)
  | .verifiedDockIdentity pane =>
    (.ok (if pane.isDock && dock pane.paneId then some .pluginMetadata else none), tabs)
  | .openDock request => tabs.opened request.originPaneId newPaneId
  | .closePane paneId => (.ok (), tabs.close paneId)
  | .closeTerminalPane paneId => (.ok (), tabs.close paneId)
  | .focusOriginPane _ _ | .focusPane _ | .moveToRightEdge _ | .resizePane _ _ => (.ok (), tabs)
  | .acquireTabLock _ _ | .upsertRecord _ _ | .removeRecord _ _ _
  | .replaceSocketRecords _ _ => (.ok (), tabs)
  | .note _ => ((), tabs)

theorem lists_listed {tabs : HostTabs} {workspaceId tabId : String} {dock : PaneId → Bool} :
    Lists dock (tabs.tab workspaceId tabId) ((tabs.tab workspaceId tabId).map (listed dock)) := by
  constructor
  case shown =>
    rw [List.map_map]
    exact List.Perm.of_eq (List.map_id _)
  case listed =>
    intro pane hpane hdock
    obtain ⟨paneId, _, rfl⟩ := List.mem_map.mp hpane
    have hverified : dock paneId = true := hdock
    simp [listed, HostPane.isDock, hverified]

theorem replies_answer (dock : PaneId → Bool) (newPaneId : PaneId) (tabs : HostTabs)
    (request : HostRequest) :
    Replies dock tabs request (tabs.answer dock newPaneId request).1
      (tabs.answer dock newPaneId request).2 := by
  cases request with
  | panesInTab workspaceId tabId =>
    refine ⟨rfl, fun panes hpanes => ?_, fun error herror => by cases herror⟩
    cases hpanes
    exact lists_listed
  | verifiedDockIdentity pane =>
    refine ⟨rfl, fun identity hidentity => ?_⟩
    cases hidentity
    cases pane.isDock && dock pane.paneId <;> rfl
  | openDock request =>
    simp only [answer, opened]
    split
    next => exact Or.inl rfl
    next target hfind =>
      split
      next => exact Or.inl rfl
      next =>
        exact Or.inr ⟨target, List.mem_of_find?_eq_some hfind, newPaneId,
          by simpa using List.find?_some hfind, rfl⟩
  | closePane paneId => exact Or.inl rfl
  | closeTerminalPane paneId => exact Or.inl rfl
  | _ => exact rfl

end HostTabs

end HerdrContext.Host
