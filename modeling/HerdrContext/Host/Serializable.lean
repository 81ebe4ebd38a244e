import HerdrContext.Host.Launch

/-! Which runs of the processes lose no record. -/
namespace HerdrContext.Host

open Library DockStateFile

section
variable {Process : Type} [DecidableEq Process]
  {codec : Codec DockStateFile (List UInt8)} {s s' start : System Process}

/-! ## One change -/

section
variable {op : Operation} {state after : DockStateFile} {socket workspaceId tabId : String}

/-- A restore is written over the records it read. -/
def Operation.OnItsRecords (op : Operation) (state : DockStateFile) : Prop :=
  ∀ socket read answers nonempty complete,
    op = .restored socket read answers nonempty complete → state.recordsFor socket = read

/-- A record is kept as it is or for another pane. -/
theorem restoreRecord_kept {record kept : DockRecord} {host : Option HostAnswers}
    (h : restoreRecord record host = .kept kept) :
    ∃ pane, kept = { record with dockPaneId := pane } := by
  unfold restoreRecord at h
  cases hids : recordIds record with
  | none =>
    rw [hids] at h
    cases h
  | some ids =>
    rw [hids] at h
    cases host with
    | none =>
      cases h
      exact ⟨record.dockPaneId, rfl⟩
    | some host =>
      have ⟨panes, docks, opened⟩ := host
      cases panes with
      | error kind =>
        cases kind with
        | notFound => cases h
        | _ =>
          cases h
          exact ⟨record.dockPaneId, rfl⟩
      | ok panes =>
        cases panes with
        | nil => cases h
        | cons first rest =>
          cases docks with
          | error kind =>
            cases h
            exact ⟨record.dockPaneId, rfl⟩
          | ok dock =>
            cases dock with
            | some keeper =>
              cases h
              exact ⟨keeper, rfl⟩
            | none =>
              cases opened with
              | error kind =>
                cases h
                exact ⟨record.dockPaneId, rfl⟩
              | ok keeper =>
                cases h
                exact ⟨keeper, rfl⟩

theorem restoreRecord_isFor {record kept : DockRecord} {host : Option HostAnswers}
    (h : restoreRecord record host = .kept kept) :
    kept.IsFor workspaceId tabId ↔ record.IsFor workspaceId tabId := by
  have ⟨pane, hkept⟩ := restoreRecord_kept h
  rw [hkept]
  unfold DockRecord.IsFor
  exact Iff.rfl

theorem mem_restoredRecords {records : List DockRecord} {answers : List (Option HostAnswers)}
    {kept : DockRecord} :
    kept ∈ restoredRecords records answers ↔
      ∃ entry ∈ records.zip answers, restoreRecord entry.1 entry.2 = .kept kept := by
  rw [restoredRecords, List.mem_filterMap]
  constructor
  · intro h
    have ⟨entry, hmem, hkept⟩ := h
    cases houtcome : restoreRecord entry.1 entry.2 with
    | kept found =>
      rw [houtcome] at hkept
      cases hkept
      exact ⟨entry, hmem, houtcome⟩
    | dropped =>
      rw [houtcome] at hkept
      contradiction
  · intro h
    have ⟨entry, hmem, hkept⟩ := h
    refine ⟨entry, hmem, ?_⟩
    rw [hkept]

theorem length_restoredRecords_le (records : List DockRecord)
    (answers : List (Option HostAnswers)) :
    (restoredRecords records answers).length ≤ records.length := by
  refine (List.length_filterMap_le _ _).trans ?_
  rw [List.length_zip]
  exact Nat.min_le_left _ _

theorem Operation.upsert_of_apply {record : DockRecord}
    (happly : (Operation.opened socket record).apply state = .ok (after, true)) :
    state.upsert socket record = .ok after := by
  rw [Operation.apply] at happly
  cases hupsert : state.upsert socket record with
  | error error =>
    rw [hupsert] at happly
    contradiction
  | ok upserted =>
    rw [hupsert] at happly
    cases happly
    rfl

theorem Operation.apply_opened {record : DockRecord}
    (h : (state.upsert socket record).toOption.isSome = true) :
    (Operation.opened socket record).apply state =
      .ok ((Operation.opened socket record).alone state, true) := by
  rw [Operation.apply, Operation.alone]
  cases hupsert : state.upsert socket record with
  | error error =>
    rw [hupsert] at h
    contradiction
  | ok upserted => rfl

theorem Operation.remove_of_apply
    (happly : (Operation.closed socket workspaceId tabId).apply state = .ok (after, true)) :
    (state.remove socket workspaceId tabId).1 = after :=
  congrArg Prod.fst (Except.ok.inj happly)

theorem Bounded.apply (h : state.Bounded) (hon : op.OnItsRecords state)
    (happly : op.apply state = .ok (after, true)) : after.Bounded := by
  cases op with
  | opened socket record => exact h.upsert (Operation.upsert_of_apply happly)
  | closed socket workspaceId tabId =>
    rw [← Operation.remove_of_apply happly]
    exact h.remove
  | restored socket read answers nonempty complete =>
    cases happly
    have hread := hon socket read answers nonempty complete rfl
    cases hget : state.servers[socket]? with
    | none =>
      rw [recordsFor, hget] at hread
      exact absurd hread.symm nonempty
    | some records =>
      rw [recordsFor, hget] at hread
      have hmem : socket ∈ state.servers := by
        rw [Std.ExtTreeMap.mem_iff_isSome_getElem?, hget]
        rfl
      refine h.setRecords ?_ (Or.inr hmem)
      rw [← hread]
      exact (length_restoredRecords_le _ _).trans (h.length_le socket records hget)

/-- On its own records a change is what the operation does alone. -/
theorem Operation.alone_eq (hon : op.OnItsRecords state)
    (happly : op.apply state = .ok (after, true)) : op.alone state = after := by
  cases op with
  | opened socket record => rw [Operation.alone, Operation.upsert_of_apply happly]
  | closed socket workspaceId tabId => exact Operation.remove_of_apply happly
  | restored socket read answers nonempty complete =>
    cases happly
    have hread := hon socket read answers nonempty complete rfl
    rw [Operation.alone, hread, if_neg nonempty]

theorem has_apply_opened {openedSocket : String} {record : DockRecord}
    (happly : (Operation.opened openedSocket record).apply state = .ok (after, true)) :
    after.Has socket workspaceId tabId ↔ state.Has socket workspaceId tabId ∨
      openedSocket = socket ∧ record.IsFor workspaceId tabId :=
  has_upsert (Operation.upsert_of_apply happly)

theorem has_apply_closed {closedSocket closedWorkspace closedTab : String}
    (happly : (Operation.closed closedSocket closedWorkspace closedTab).apply state =
      .ok (after, true)) :
    after.Has socket workspaceId tabId ↔ state.Has socket workspaceId tabId ∧
      ¬ (closedSocket = socket ∧ closedWorkspace = workspaceId ∧ closedTab = tabId) := by
  rw [← Operation.remove_of_apply happly]
  exact has_remove

/-- Only a removal of its record takes a tab out. -/
theorem Operation.has_of_not_removes (hon : op.OnItsRecords state)
    (happly : op.apply state = .ok (after, true)) (hkeeps : ¬ op.Removes socket workspaceId tabId)
    (h : state.Has socket workspaceId tabId) : after.Has socket workspaceId tabId := by
  cases op with
  | opened openedSocket record => exact (has_apply_opened happly).mpr (Or.inl h)
  | closed closedSocket closedWorkspace closedTab =>
    exact (has_apply_closed happly).mpr ⟨h, hkeeps⟩
  | restored restoredSocket read answers nonempty complete =>
    cases happly
    unfold Has
    rw [recordsFor_setRecords]
    by_cases hsocket : restoredSocket = socket
    · subst hsocket
      rw [if_pos rfl]
      have ⟨record, hmem, hfor⟩ := h
      rw [hon restoredSocket read answers nonempty complete rfl] at hmem
      -- the restore was told about every record it read
      have hfst : read = (read.zip answers).map Prod.fst :=
        (List.map_fst_zip complete.ge).symm
      rw [hfst] at hmem
      have ⟨entry, hentry, hrecord⟩ := List.mem_map.mp hmem
      rw [← hrecord] at hfor
      cases houtcome : restoreRecord entry.1 entry.2 with
      | kept kept =>
        exact ⟨kept, mem_restoredRecords.mpr ⟨entry, hentry, houtcome⟩,
          (restoreRecord_isFor houtcome).mpr hfor⟩
      | dropped => exact absurd ⟨rfl, entry, hentry, hfor, houtcome⟩ hkeeps
    · rw [if_neg hsocket]
      exact h

/-- Only an entry of its record brings a tab in. -/
theorem Operation.has_of_not_enters (hon : op.OnItsRecords state)
    (happly : op.apply state = .ok (after, true)) (hnone : ¬ op.Enters socket workspaceId tabId)
    (h : after.Has socket workspaceId tabId) : state.Has socket workspaceId tabId := by
  cases op with
  | opened openedSocket record => exact ((has_apply_opened happly).mp h).resolve_right hnone
  | closed closedSocket closedWorkspace closedTab => exact ((has_apply_closed happly).mp h).1
  | restored restoredSocket read answers nonempty complete =>
    cases happly
    unfold Has at h
    rw [recordsFor_setRecords] at h
    by_cases hsocket : restoredSocket = socket
    · subst hsocket
      rw [if_pos rfl] at h
      have ⟨kept, hmem, hfor⟩ := h
      have ⟨entry, hentry, houtcome⟩ := mem_restoredRecords.mp hmem
      refine ⟨entry.1, ?_, (restoreRecord_isFor houtcome).mp hfor⟩
      rw [hon restoredSocket read answers nonempty complete rfl]
      exact (List.of_mem_zip hentry).1
    · rw [if_neg hsocket] at h
      exact h

end

/-! ## The state lock -/

/-- Whoever is inside holds the state lock, and what it loaded is what the file
says. -/
structure Exclusive (codec : Codec DockStateFile (List UInt8)) (s : System Process) : Prop where
  holder : ∀ p, (s.phases p).Inside → s.stateLock = some p
  loaded : ∀ p op held state, s.phases p = .loaded op held state → state = load codec s.file

omit [DecidableEq Process] in
theorem exclusive_idle (hidle : ∀ p, s.phases p = .idle) : Exclusive codec s where
  holder := by
    intro p hinside
    rw [hidle p] at hinside
    contradiction
  loaded := by
    intro p op held state h
    rw [hidle p] at h
    contradiction

/-- A step to a phase outside. -/
theorem Exclusive.outside (h : Exclusive codec s) {p : Process} {phase : Phase}
    (hfile : s'.file = s.file) (hlock : s'.stateLock = s.stateLock)
    (hphases : s'.phases = Function.update s.phases p phase) (houtside : ¬ phase.Inside) :
    Exclusive codec s' where
  holder := by
    intro q hinside
    rw [hphases] at hinside
    by_cases hq : q = p
    · rw [hq, Function.update_self] at hinside
      exact absurd hinside houtside
    · rw [Function.update_of_ne hq] at hinside
      rw [hlock]
      exact h.holder q hinside
  loaded := by
    intro q op held state hstate
    rw [hphases] at hstate
    by_cases hq : q = p
    · rw [hq, Function.update_self] at hstate
      rw [hstate] at houtside
      exact absurd trivial houtside
    · rw [Function.update_of_ne hq] at hstate
      rw [hfile]
      exact h.loaded q op held state hstate

/-- A step of the process that holds the state lock. -/
theorem exclusive_inside {p : Process} {phase : Phase}
    (hothers : ∀ q, q ≠ p → ¬ (s.phases q).Inside)
    (hphases : s'.phases = Function.update s.phases p phase)
    (hlock : phase.Inside → s'.stateLock = some p)
    (hloaded : ∀ op held state, phase = .loaded op held state → state = load codec s'.file) :
    Exclusive codec s' where
  holder := by
    intro q hinside
    rw [hphases] at hinside
    by_cases hq : q = p
    · rw [hq, Function.update_self] at hinside
      rw [hq]
      exact hlock hinside
    · rw [Function.update_of_ne hq] at hinside
      exact absurd hinside (hothers q hq)
  loaded := by
    intro q op held state hstate
    rw [hphases] at hstate
    by_cases hq : q = p
    · rw [hq, Function.update_self] at hstate
      exact hloaded op held state hstate
    · rw [Function.update_of_ne hq] at hstate
      refine absurd ?_ (hothers q hq)
      rw [hstate]
      trivial

omit [DecidableEq Process] in
/-- At most one process is inside. -/
theorem Exclusive.others (h : Exclusive codec s) {p : Process} (hinside : (s.phases p).Inside)
    (q : Process) (hq : q ≠ p) : ¬ (s.phases q).Inside := by
  intro hother
  have hboth := (h.holder q hother).symm.trans (h.holder p hinside)
  exact hq (Option.some.inj hboth)

theorem Exclusive.step {event : Event} (h : Exclusive codec s) (hstep : Step codec s event s') :
    Exclusive codec s' := by
  cases hstep with
  | toggle p workspaceId tabId => exact h.outside rfl rfl rfl id
  | leave p workspaceId tabId => exact h.outside rfl rfl rfl id
  | persistOpen p socket record => exact h.outside rfl rfl rfl id
  | persistClose p socket workspaceId tabId => exact h.outside rfl rfl rfl id
  | restore p socket => exact h.outside rfl rfl rfl id
  | lockRecord p => exact h.outside rfl rfl rfl id
  | deferRecord p => exact h.outside rfl rfl rfl id
  | restoreRecord p => exact h.outside rfl rfl rfl id
  | replaceRecords p => exact h.outside rfl rfl rfl id
  | lock p op held hphase hfree =>
    refine exclusive_inside (p := p) ?_ rfl (fun _ => rfl) ?_
    · intro q _ hinside
      have hheld := h.holder q hinside
      rw [hfree] at hheld
      contradiction
    · intro op' held' state heq
      contradiction
  | giveUp p op held => exact h.outside rfl rfl rfl id
  | load p op held hphase =>
    have hinside : (s.phases p).Inside := by rw [hphase]; trivial
    refine exclusive_inside (h.others hinside) rfl (fun _ => h.holder p hinside) ?_
    intro op' held' state heq
    cases heq
    rfl
  | publish p op held state after bytes hphase =>
    have hinside : (s.phases p).Inside := by rw [hphase]; trivial
    refine exclusive_inside (h.others hinside) rfl (fun _ => h.holder p hinside) ?_
    intro op' held' state' heq
    contradiction
  | abandon p op held state hphase =>
    have hinside : (s.phases p).Inside := by rw [hphase]; trivial
    refine exclusive_inside (h.others hinside) rfl (fun _ => h.holder p hinside) ?_
    intro op' held' state' heq
    contradiction
  | unlock p held hphase =>
    have hinside : (s.phases p).Inside := by rw [hphase]; trivial
    refine exclusive_inside (h.others hinside) rfl (fun hbad => absurd hbad id) ?_
    intro op' held' state' heq
    contradiction
  | finish p held hphase =>
    cases held with
    | none => exact h.outside rfl rfl rfl id
    | some name => exact h.outside rfl rfl rfl id

/-! ## Runs -/

def published (events : List Event) : List Operation :=
  events.filterMap fun
    | .internal => none
    | .published op => some op

/-- The operation is written over the records its process read, and what is
written can be read back. -/
structure Undisturbed (codec : Codec DockStateFile (List UInt8)) (s : System Process)
    (op : Operation) : Prop where
  onItsRecords : op.OnItsRecords (load codec s.file)
  fits : ∀ after bytes, op.apply (load codec s.file) = .ok (after, true) →
    codec.encode after = some bytes → bytes.length ≤ maxStateBytes

def CalmStep (codec : Codec DockStateFile (List UInt8)) (s : System Process) (event : Event)
    (s' : System Process) : Prop :=
  Step codec s event s' ∧ ∀ op, event = .published op → Undisturbed codec s op

/-- The content is what the operations give one after the other, a record that
was entered stays until it is removed, and one that was removed stays away until
it is entered again. -/
structure NoLostUpdate (codec : Codec DockStateFile (List UInt8)) (start : System Process)
    (events : List Event) (s : System Process) : Prop where
  serial : ∃ order : List Operation, order.Perm (published events) ∧
    load codec s.file = order.foldl Operation.alone (load codec start.file)
  entered : ∀ before after socket record, events = before ++ .published (.opened socket record) :: after →
    (∀ op ∈ published after, ¬ op.Removes socket record.workspaceId record.tabId) →
    (load codec s.file).Has socket record.workspaceId record.tabId
  removed : ∀ before after socket workspaceId tabId,
    events = before ++ .published (.closed socket workspaceId tabId) :: after →
    (∀ op ∈ published after, ¬ op.Enters socket workspaceId tabId) →
    ¬ (load codec s.file).Has socket workspaceId tabId

theorem load_internal (hstep : Step codec s .internal s') : load codec s'.file = load codec s.file := by
  generalize hevent : Event.internal = event at hstep
  cases hstep with
  | publish => contradiction
  | finish p held => cases held <;> rfl
  | _ => rfl

/-- What a publication makes of the content. -/
theorem load_published {op : Operation} (h : Exclusive codec s)
    (hstep : CalmStep codec s (.published op) s') :
    op.OnItsRecords (load codec s.file) ∧
      op.apply (load codec s.file) = .ok (load codec s'.file, true) := by
  have hcalm := hstep.2 op rfl
  refine ⟨hcalm.onItsRecords, ?_⟩
  cases hstep.1 with
  | publish p op held state after bytes hphase happly hencode =>
    have hstate := h.loaded p op held state hphase
    rw [hstate] at happly
    have hbounded := Bounded.apply (bounded_load codec s.file) hcalm.onItsRecords happly
    have hread : load codec (some bytes) = after :=
      load_encode hbounded hencode (hcalm.fits after bytes happly hencode)
    rw [happly]
    exact congrArg (fun content => Except.ok (content, true)) hread.symm

theorem exclusive_run {events : List Event} (h : Exclusive codec start)
    (run : Run (CalmStep codec) start events s) : Exclusive codec s :=
  run.invariant (Exclusive codec) h fun hinv hstep => hinv.step hstep.1

theorem published_concat (events : List Event) (event : Event) :
    published (events ++ [event]) = published events ++ published [event] :=
  List.filterMap_append

/-- What every publication of a run keeps holds of the content at its end. -/
theorem content_invariant {events : List Event} (holds : DockStateFile → Prop)
    (h : Exclusive codec start) (run : Run (CalmStep codec) start events s)
    (initial : holds (load codec start.file))
    (preserved : ∀ op ∈ published events, ∀ state after, op.OnItsRecords state →
      op.apply state = .ok (after, true) → holds state → holds after) :
    holds (load codec s.file) := by
  induction run with
  | refl => exact initial
  | @step events s s' event run last ih =>
    rw [published_concat] at preserved
    have hbefore := ih fun op hop => preserved op (List.mem_append_left _ hop)
    cases event with
    | internal =>
      rw [load_internal last.1]
      exact hbefore
    | published op =>
      have ⟨hon, happly⟩ := load_published (exclusive_run h run) last
      have hop : op ∈ published events ++ published [.published op] :=
        List.mem_append_right _ List.mem_cons_self
      exact preserved op hop _ _ hon happly hbefore

theorem serial_run {events : List Event} (h : Exclusive codec start)
    (run : Run (CalmStep codec) start events s) :
    load codec s.file = (published events).foldl Operation.alone (load codec start.file) := by
  induction run with
  | refl => rfl
  | @step events s s' event run last ih =>
    rw [published_concat, List.foldl_append, ← ih]
    cases event with
    | internal => exact load_internal last.1
    | published op =>
      have ⟨hon, happly⟩ := load_published (exclusive_run h run) last
      exact (Operation.alone_eq hon happly).symm

/-- A run in which every restore is written over the records it read, and
nothing too long to be read back is written, loses no update. -/
theorem no_lost_update (codec : Codec DockStateFile (List UInt8)) (start s : System Process)
    (events : List Event) (hidle : ∀ p, start.phases p = .idle)
    (run : Run (CalmStep codec) start events s) : NoLostUpdate codec start events s where
  serial := ⟨published events, .refl _, serial_run (exclusive_idle hidle) run⟩
  entered := by
    intro before after socket record hevents hkept
    rw [hevents] at run
    have ⟨middle, first, rest⟩ := run.split
    have ⟨opened, hopened, later⟩ := rest.head
    have hmiddle := exclusive_run (exclusive_idle hidle) first
    have ⟨_, happly⟩ := load_published hmiddle hopened
    refine content_invariant (fun state =>
      state.Has socket record.workspaceId record.tabId) (hmiddle.step hopened.1) later ?_ ?_
    · exact (has_apply_opened happly).mpr (Or.inr ⟨rfl, rfl, rfl⟩)
    · intro op hop state changed hon hchange hhas
      exact Operation.has_of_not_removes hon hchange (hkept op hop) hhas
  removed := by
    intro before after socket workspaceId tabId hevents hgone
    rw [hevents] at run
    have ⟨middle, first, rest⟩ := run.split
    have ⟨closed, hclosed, later⟩ := rest.head
    have hmiddle := exclusive_run (exclusive_idle hidle) first
    have ⟨_, happly⟩ := load_published hmiddle hclosed
    refine content_invariant (fun state => ¬ state.Has socket workspaceId tabId)
      (hmiddle.step hclosed.1) later ?_ ?_
    · exact fun hhas => ((has_apply_closed happly).mp hhas).2 ⟨rfl, rfl, rfl⟩
    · intro op hop state changed hon hchange habsent hhas
      exact habsent (Operation.has_of_not_enters hon hchange (hgone op hop) hhas)

theorem Step.calm (h : Step codec s .internal s') : CalmStep codec s .internal s' :=
  ⟨h, fun _ hop => nomatch hop⟩

end

namespace Sample

def record (tabId dockPaneId : String) : DockRecord := ⟨"w", tabId, dockPaneId, 40⟩

/-- The dock of one tab is on record. -/
def first : DockStateFile := ⟨stateFileVersion, (∅ : Servers).insert "s" [record "t1" "p1"]⟩

/-- The dock of another tab is recorded beside it. -/
def toggled : DockStateFile := (Operation.opened "s" (record "t2" "p2")).alone first

/-- The host shows a dock in the tab. -/
def host : HostAnswers := ⟨.ok ["p1", "p3"], .ok (some "p3"), .error .unavailable⟩

/-- The first tab's dock is restored over a content. -/
def restored (content : DockStateFile) : DockStateFile :=
  content.setRecords "s" (restoredRecords [record "t1" "p1"] [some host])

def written (content : DockStateFile) : List UInt8 := (stateCodec.encode content).getD []

/-- Nothing runs yet. -/
def start : System Bool where
  file := some (written first)
  stateLock := none
  tabLocks _ := none
  phases _ := .idle

theorem encode_eq {content : DockStateFile} (h : (stateCodec.encode content).isSome = true) :
    stateCodec.encode content = some (written content) := by
  have ⟨bytes, hbytes⟩ := Option.isSome_iff_exists.mp h
  rw [written, hbytes, Option.getD_some]

/-- What the two processes write encodes, within the bytes of a state file. -/
theorem contents_fit : ∀ content ∈ [default, first, toggled, restored first, restored toggled],
    (stateCodec.encode content).isSome = true ∧ (written content).length ≤ maxStateBytes ∧
      content.servers.size < maxServers := by
  decide +kernel

theorem contents_read : first.recordsFor "s" = [record "t1" "p1"] ∧
    (first.upsert "s" (record "t2" "p2")).toOption.isSome = true ∧
    recordIds (record "t1" "p1") = some ("w", "t1") ∧
    ¬ (record "t1" "p1").IsFor "w" "t2" ∧ "s" ∈ toggled.servers ∧
      ¬ (restored toggled).Has "s" "w" "t2" := by
  decide +kernel

theorem bounded_first : first.Bounded :=
  have ⟨_, _, hroom⟩ := contents_fit default (by simp)
  bounded_default.insert (by decide) (Or.inr hroom)

theorem load_start : load stateCodec start.file = first :=
  have ⟨hencode, hlength, _⟩ := contents_fit first (by simp)
  load_encode bounded_first (encode_eq hencode) hlength

theorem toggle_first :
    (Operation.opened "s" (record "t2" "p2")).apply first = .ok (toggled, true) :=
  Operation.apply_opened contents_read.2.1

theorem bounded_toggled : toggled.Bounded :=
  bounded_first.upsert (Operation.upsert_of_apply toggle_first)

theorem load_toggled : load stateCodec (some (written toggled)) = toggled :=
  have ⟨hencode, hlength, _⟩ := contents_fit toggled (by simp)
  load_encode bounded_toggled (encode_eq hencode) hlength

theorem read_start : (load stateCodec start.file).recordsFor "s" = [record "t1" "p1"] := by
  rw [load_start]
  exact contents_read.1

theorem read_ne : (load stateCodec start.file).recordsFor "s" ≠ [] := by
  rw [read_start]
  simp

theorem told_all :
    [some host].length = ((load stateCodec start.file).recordsFor "s").length := by
  rw [read_start]
  rfl

theorem first_read :
    ((load stateCodec start.file).recordsFor "s")[0]? = some (record "t1" "p1") := by
  rw [read_start]
  rfl

theorem ids_read : recordIds (record "t1" "p1") = some ("w", "t1") := contents_read.2.2.1

/-- What the restore writes. -/
def rewritten : Operation := .restored "s" _ [some host] read_ne told_all

theorem apply_rewritten (content : DockStateFile) :
    rewritten.apply content = .ok (restored content, true) := by
  rw [restored, ← read_start]
  rfl

theorem undisturbed_start {s : System Bool} (h : s.file = start.file) :
    Undisturbed stateCodec s rewritten where
  onItsRecords := by
    intro socket read answers nonempty complete heq
    cases heq
    rw [h]
  fits := by
    intro after bytes happly hencode
    rw [apply_rewritten, h, load_start] at happly
    cases happly
    have ⟨_, hlength, _⟩ := contents_fit (restored first) (by simp)
    rw [written, hencode, Option.getD_some] at hlength
    exact hlength

end Sample

open Sample in
/-- A restore alone. -/
theorem no_lost_update_sample : ∃ events s, .published rewritten ∈ events ∧
    NoLostUpdate stateCodec start events s := by
  have happly : rewritten.apply (load stateCodec start.file) = .ok (restored first, true) := by
    rw [apply_rewritten, load_start]
  have hencode : stateCodec.encode (restored first) = some (written (restored first)) :=
    encode_eq (contents_fit (restored first) (by simp)).1
  have reading := Run.refl.step (Step.restore (s := start) false "s" rfl read_ne).calm
  have locked := reading.step
    (Step.lockRecord false "s" _ [] read_ne _ "w" "t1" rfl first_read ids_read rfl).calm
  have told := locked.step (Step.restoreRecord false "s" _ [] read_ne _ host rfl).calm
  have replacing := told.step (Step.replaceRecords false "s" _ _ read_ne rfl told_all).calm
  have inside := replacing.step (Step.lock false _ _ rfl rfl).calm
  have loaded := inside.step (Step.load false _ _ rfl).calm
  have stored := loaded.step ⟨.publish false _ _ _ _ _ rfl happly hencode, by
    intro op hop
    cases hop
    exact undisturbed_start rfl⟩
  exact ⟨_, _, List.mem_append_right _ List.mem_cons_self,
    no_lost_update stateCodec start _ _ (fun _ => rfl) stored⟩

open Sample in
/-- A toggle that is recorded between a restore's read and its write is lost. -/
theorem restore_loses_update : ∃ events s, Run (Step stateCodec) start events s ∧
    ¬ NoLostUpdate stateCodec start events s := by
  have htoggle : (Operation.opened "s" (record "t2" "p2")).apply (load stateCodec start.file) =
      .ok (toggled, true) := by
    rw [load_start]
    exact toggle_first
  have hrestore : rewritten.apply (load stateCodec (some (written toggled))) =
      .ok (restored toggled, true) := by
    rw [apply_rewritten, load_toggled]
  have ⟨hencode, _, _⟩ := contents_fit toggled (by simp)
  have ⟨hrestored, hlength, _⟩ := contents_fit (restored toggled) (by simp)
  have ⟨_, _, _, hother, hmember, hmissing⟩ := contents_read
  have hlost : load stateCodec (some (written (restored toggled))) = restored toggled :=
    load_encode (bounded_toggled.setRecords (by decide) (Or.inr hmember)) (encode_eq hrestored)
      hlength
  have reading := Run.refl.step (Step.restore (s := start) false "s" rfl read_ne)
  have toggling := reading.step (.toggle true "w" "t2" rfl rfl)
  have saving := toggling.step (.persistOpen true "s" (record "t2" "p2") rfl)
  have inside := saving.step (.lock true _ _ rfl rfl)
  have loaded := inside.step (.load true _ _ rfl)
  have stored := loaded.step
    (.publish true _ _ _ toggled _ rfl htoggle (encode_eq hencode))
  have left := stored.step (.unlock true _ rfl)
  have locked := left.step
    (.lockRecord false "s" _ [] read_ne _ "w" "t1" rfl first_read ids_read (by decide +kernel))
  have told := locked.step (.restoreRecord false "s" _ [] read_ne _ host rfl)
  have replacing := told.step (.replaceRecords false "s" _ _ read_ne rfl told_all)
  have again := replacing.step (.lock false _ _ rfl rfl)
  have reloaded := again.step (.load false _ _ rfl)
  have written := reloaded.step
    (.publish false _ _ _ _ _ rfl hrestore (encode_eq hrestored))
  refine ⟨_, _, written, fun h => ?_⟩
  have hhas := h.entered [.internal, .internal, .internal, .internal, .internal]
    [.internal, .internal, .internal, .internal, .internal, .internal, .published rewritten] "s"
    (record "t2" "p2") rfl
  refine absurd (hhas ?_) ?_
  · intro op hop hremoves
    cases List.mem_singleton.mp hop
    have ⟨_, entry, hentry, hfor, _⟩ := hremoves
    rw [read_start] at hentry
    cases List.mem_singleton.mp hentry
    exact absurd hfor hother
  · change ¬ (load stateCodec (some (Sample.written (restored toggled)))).Has _ _ _
    rw [hlost]
    exact hmissing

end HerdrContext.Host
