import HerdrContext.Host.DockState
import HerdrContext.Library.Transition
import Mathlib.Algebra.Order.BigOperators.Group.List
import Mathlib.Data.List.Nodup

/-! The calls on the dock state file, one after another: what is stored is what
is loaded. -/
namespace HerdrContext.Host

open Library

namespace DockStateFile

/-- The flag says whether anything changed. -/
def removeByPane (state : DockStateFile) (socket paneId : String) : DockStateFile × Bool :=
  match state.servers[socket]? with
  | none => (state, false)
  | some records =>
    let retained := records.filter fun record => record.dockPaneId ≠ paneId
    (state.setRecords socket retained, retained.length ≠ records.length)

end DockStateFile

open DockStateFile

/-! ## Files -/

/-- The files of a state directory. -/
structure StateDir where
  file : Option (List UInt8)
  tmp : Option (List UInt8)

/-- Where a call fails. -/
inductive StateFault where
  | lock | openTmp | truncate | write (written : Nat) | publish
  deriving DecidableEq

inductive StateError where
  | lock
  | io (operation : String)
  | encoding
  | refused (error : DockStateError)

/-- `write_state_file`; the rename replaces the file whole or not at all. -/
def writeStateFile (fault : Option StateFault) (dir : StateDir) (state : DockStateFile) :
    Except StateError Unit × StateDir :=
  match stateCodec.encode state with
  | none => (.error .encoding, dir)
  | some bytes =>
    match fault with
    | some .openTmp => (.error .lock, dir)
    | some .truncate => (.error (.io "truncate state file"), { dir with tmp := some (dir.tmp.getD []) })
    | some (.write written) =>
      (.error (.io "write state file"), { dir with tmp := some (bytes.take written) })
    | some .publish => (.error (.io "publish state file"), { dir with tmp := some bytes })
    | some .lock => (.error .lock, dir)
    | none => (.ok (), ⟨some bytes, none⟩)

/-- `with_locked_state`: nothing is written when the change leaves the state as
it is. -/
def withLockedState (fault : Option StateFault) (dir : StateDir)
    (apply : DockStateFile → Except DockStateError (DockStateFile × Bool)) :
    Except StateError Bool × StateDir :=
  if fault = some .lock then (.error .lock, dir)
  else
    match apply (load stateCodec dir.file) with
    | .error error => (.error (.refused error), dir)
    | .ok (state, dirty) =>
      if dirty then
        match writeStateFile fault dir state with
        | (.error error, after) => (.error error, after)
        | (.ok (), after) => (.ok dirty, after)
      else (.ok dirty, dir)

/-! ## Calls -/

inductive StateCall where
  | upsertRecord (socket : String) (record : DockRecord)
  | removeRecord (socket workspaceId tabId : String)
  | removeByPane (socket paneId : String)
  | replaceSocketRecords (socket : String) (records : List DockRecord)

/-- Some of the records, in their order, some of them with another pane. -/
def Refreshes (records refreshed : List DockRecord) : Prop :=
  ∃ kept : List DockRecord, kept.Sublist records ∧
    List.Forall₂ (fun old new => new = { old with dockPaneId := new.dockPaneId }) kept refreshed

namespace StateCall

def socket : StateCall → String
  | upsertRecord socket _ => socket
  | removeRecord socket _ _ => socket
  | removeByPane socket _ => socket
  | replaceSocketRecords socket _ => socket

/-- The closure under the lock; the flag says whether the state is written, and
is what a removal reports. -/
def apply (state : DockStateFile) : StateCall → Except DockStateError (DockStateFile × Bool)
  | upsertRecord socket record => (state.upsert socket record).map fun after => (after, true)
  | removeRecord socket workspaceId tabId => .ok (state.remove socket workspaceId tabId)
  | removeByPane socket paneId => .ok (state.removeByPane socket paneId)
  | replaceSocketRecords socket records => .ok (state.setRecords socket records, true)

def run (call : StateCall) (fault : Option StateFault) (dir : StateDir) :
    Except StateError Bool × StateDir :=
  withLockedState fault dir fun state => call.apply state

/-- A list that replaces a socket's records comes from an earlier load of them. -/
def Derived (loads : List DockStateFile) : StateCall → Prop
  | replaceSocketRecords socket records => ∃ earlier ∈ loads, Refreshes (earlier.recordsFor socket) records
  | _ => True

end StateCall

/-- The directory, and every state that has been loaded from it. -/
structure StateStore where
  dir : StateDir
  loads : List DockStateFile

namespace StateStore

def empty : StateStore := ⟨⟨none, none⟩, [load stateCodec none]⟩

/-- What is loaded now. -/
def loaded (store : StateStore) : DockStateFile := load stateCodec store.dir.file

end StateStore

structure StateEvent where
  call : StateCall
  fault : Option StateFault

namespace StateEvent

def result (event : StateEvent) (store : StateStore) : Except StateError Bool :=
  (event.call.run event.fault store.dir).1

def after (event : StateEvent) (store : StateStore) : StateStore where
  dir := (event.call.run event.fault store.dir).2
  loads := load stateCodec (event.call.run event.fault store.dir).2.file :: store.loads

inductive Step (store : StateStore) (event : StateEvent) : StateStore → Prop where
  | call (derived : event.call.Derived store.loads) : Step store event (event.after store)

end StateEvent

/-! ## The law -/

def DockRecord.pair (record : DockRecord) : String × String := (record.workspaceId, record.tabId)

/-- What every stored state is. -/
structure DockStateFile.WellFormed (state : DockStateFile) : Prop extends state.Bounded where
  nonempty : ∀ (socket : String) (records : List DockRecord),
    state.servers[socket]? = some records → records ≠ []
  unique : ∀ (socket : String) (records : List DockRecord),
    state.servers[socket]? = some records → (records.map DockRecord.pair).Nodup

/-- What a call does to what is stored. -/
structure StateEvent.Lawful (event : StateEvent) (store : StateStore) : Prop where
  stored : ∀ flag produced dirty, event.result store = .ok flag →
    event.call.apply store.loaded = .ok (produced, dirty) → (event.after store).loaded = produced
  refused : ∀ error, event.result store = .error error →
    (event.after store).dir.file = store.dir.file
  wellFormed : (event.after store).loaded.WellFormed
  others : ∀ other, other ≠ event.call.socket →
    (event.after store).loaded.servers[other]? = store.loaded.servers[other]?

/-- The text of the new state is one that is read back, and a replaced section
is there or finds room. -/
structure StateEvent.Fits (event : StateEvent) (store : StateStore) : Prop where
  bytes : event.fault = none → ∀ produced bytes,
    event.call.apply store.loaded = .ok (produced, true) →
    stateCodec.encode produced = some bytes → bytes.length ≤ maxStateBytes
  room : event.fault = none → ∀ socket records, event.call = .replaceSocketRecords socket records →
    records = [] ∨ socket ∈ store.loaded.servers ∨ store.loaded.servers.size < maxServers

/-! ## Sections -/

namespace DockStateFile

section
variable {state produced : DockStateFile} {socket other : String} {records : List DockRecord}

theorem wellFormed_default : default.WellFormed where
  toBounded := bounded_default
  nonempty := by simp [default]
  unique := by simp [default]

theorem setRecords_of_ne_nil (h : records ≠ []) :
    state.setRecords socket records = { state with servers := state.servers.insert socket records } :=
  if_neg h

theorem get?_setRecords (h : other ≠ socket) :
    (state.setRecords socket records).servers[other]? = state.servers[other]? := by
  have hdiffers : compare socket other ≠ .eq :=
    fun heq => h (Std.LawfulEqCmp.compare_eq_iff_eq.mp heq).symm
  unfold setRecords
  split
  next => rw [Std.ExtTreeMap.getElem?_erase, if_neg hdiffers]
  next => rw [Std.ExtTreeMap.getElem?_insert, if_neg hdiffers]

/-- A section that is entered again changes nothing. -/
theorem setRecords_self (hget : state.servers[socket]? = some records) (hne : records ≠ []) :
    state.setRecords socket records = state := by
  rw [setRecords_of_ne_nil hne]
  have hservers : state.servers.insert socket records = state.servers := by
    apply Std.ExtTreeMap.ext_getElem?
    intro other
    rw [Std.ExtTreeMap.getElem?_insert]
    split
    next heq => rw [← Std.LawfulEqCmp.compare_eq_iff_eq.mp heq, hget]
    next => rfl
  rw [hservers]

/-- A section stays or finds room, or is taken out. -/
def HasRoom (state : DockStateFile) (socket : String) (records : List DockRecord) : Prop :=
  records = [] ∨ socket ∈ state.servers ∨ state.servers.size < maxServers

/-- What a section may hold. -/
def Proper (records : List DockRecord) : Prop :=
  records.length ≤ maxRecordsPerServer ∧ (records.map DockRecord.pair).Nodup

theorem WellFormed.proper (h : state.WellFormed) : Proper (state.recordsFor socket) := by
  unfold recordsFor
  cases hget : state.servers[socket]? with
  | none => exact ⟨Nat.zero_le _, List.nodup_nil⟩
  | some records => exact ⟨h.length_le socket records hget, h.unique socket records hget⟩

theorem Proper.sublist (h : Proper records) {kept : List DockRecord} (hkept : kept.Sublist records) :
    Proper kept :=
  ⟨hkept.length_le.trans h.1, h.2.sublist (hkept.map _)⟩

theorem WellFormed.setRecords (h : state.WellFormed) (hproper : Proper records)
    (hroom : state.HasRoom socket records) : (state.setRecords socket records).WellFormed := by
  have hsections : ∀ (name : String) (found : List DockRecord),
      (state.setRecords socket records).servers[name]? = some found →
      found = records ∧ records ≠ [] ∨ state.servers[name]? = some found := by
    intro name found hget
    by_cases hname : name = socket
    · left
      rw [hname] at hget
      unfold DockStateFile.setRecords at hget
      split at hget
      next => simp at hget
      next hne =>
        simp only [Std.ExtTreeMap.getElem?_insert_self, Option.some.injEq] at hget
        exact ⟨hget.symm, hne⟩
    · right
      rw [get?_setRecords hname] at hget
      exact hget
  have hbounded : (state.setRecords socket records).Bounded := by
    by_cases hnil : records = []
    · exact h.toBounded.setRecords hproper.1 (Or.inl hnil)
    · rw [setRecords_of_ne_nil hnil]
      exact h.toBounded.insert hproper.1 (hroom.resolve_left hnil)
  refine ⟨hbounded, fun name found hget => ?_, fun name found hget => ?_⟩
  · cases hsections name found hget with
    | inl hnew => exact hnew.1 ▸ hnew.2
    | inr hold => exact h.nonempty name found hold
  · cases hsections name found hget with
    | inl hnew => exact hnew.1 ▸ hproper.2
    | inr hold => exact h.unique name found hold

theorem pairs_replaceRecord (record : DockRecord) (records : List DockRecord) :
    (replaceRecord record records).map DockRecord.pair = records.map DockRecord.pair := by
  induction records with
  | nil => rfl
  | cons existing rest ih =>
    unfold replaceRecord
    split
    next hsame =>
      rw [List.map_cons, List.map_cons, DockRecord.pair, DockRecord.pair, hsame.1, hsame.2]
    next => rw [List.map_cons, List.map_cons, ih]

/-- An accepted record makes a proper section, which finds room. -/
theorem WellFormed.upsert_eq (h : state.WellFormed) {record : DockRecord}
    (hok : state.upsert socket record = .ok produced) :
    ∃ records, produced = state.setRecords socket records ∧ Proper records ∧
      state.HasRoom socket records := by
  unfold DockStateFile.upsert at hok
  split at hok
  next =>
    split at hok
    next => contradiction
    next hroom =>
      cases hok
      refine ⟨[record], (setRecords_of_ne_nil (by simp)).symm, ⟨by simp [maxRecordsPerServer], ?_⟩, ?_⟩
      · exact List.nodup_singleton _
      · exact Or.inr (Or.inr (Nat.lt_of_not_le hroom))
  next records hget =>
    have hmem : socket ∈ state.servers := by
      rw [Std.ExtTreeMap.mem_iff_isSome_getElem?, hget]
      rfl
    have hlength := h.length_le socket records hget
    have hunique := h.unique socket records hget
    split at hok
    next hany =>
      cases hok
      have hne : replaceRecord record records ≠ [] := by
        intro hnil
        have hzero := length_replaceRecord record records
        rw [hnil, List.length_nil] at hzero
        exact h.nonempty socket records hget (List.length_eq_zero_iff.mp hzero.symm)
      refine ⟨_, (setRecords_of_ne_nil hne).symm, ⟨?_, ?_⟩, Or.inr (Or.inl hmem)⟩
      · rw [length_replaceRecord]
        exact hlength
      · rw [pairs_replaceRecord]
        exact hunique
    next hnone =>
      split at hok
      next => contradiction
      next hcap =>
        cases hok
        refine ⟨records ++ [record], (setRecords_of_ne_nil (by simp)).symm, ⟨?_, ?_⟩,
          Or.inr (Or.inl hmem)⟩
        · rw [List.length_append, List.length_singleton]
          omega
        · rw [List.map_append, List.map_singleton, List.nodup_append]
          refine ⟨hunique, List.nodup_singleton _, ?_⟩
          intro pair hpair other hother heq
          -- a record of the same pair would have been replaced
          have ⟨existing, hexisting, hpairEq⟩ := List.mem_map.mp hpair
          rw [List.mem_singleton.mp hother, ← hpairEq] at heq
          apply hnone
          rw [List.any_eq_true]
          exact ⟨existing, hexisting, decide_eq_true (Prod.mk.inj heq)⟩

/-- Taking records out of a section. -/
theorem WellFormed.filter_eq (h : state.WellFormed) (hget : state.servers[socket]? = some records)
    (keep : DockRecord → Bool) :
    Proper (records.filter keep) ∧ state.HasRoom socket (records.filter keep) ∧
      ((records.filter keep).length = records.length →
        state.setRecords socket (records.filter keep) = state) := by
  have hproper : Proper records := ⟨h.length_le socket records hget, h.unique socket records hget⟩
  refine ⟨hproper.sublist List.filter_sublist, Or.inr (Or.inl ?_), fun hlength => ?_⟩
  · rw [Std.ExtTreeMap.mem_iff_isSome_getElem?, hget]
    rfl
  · rw [List.filter_sublist.eq_of_length hlength]
    exact setRecords_self hget (h.nonempty socket records hget)

end

end DockStateFile

theorem Refreshes.proper {records refreshed : List DockRecord} (h : Refreshes records refreshed)
    (hproper : Proper records) : Proper refreshed := by
  have ⟨kept, hsub, hall⟩ := h
  have hkept := hproper.sublist hsub
  have hpairs : refreshed.map DockRecord.pair = kept.map DockRecord.pair := by
    clear h hkept hsub
    induction hall with
    | nil => rfl
    | @cons old new _ _ hhead _ ih =>
      have hpair : new.pair = old.pair := by
        rw [hhead]
        rfl
      rw [List.map_cons, List.map_cons, ih, hpair]
  constructor
  · rw [← hall.length_eq]
    exact hkept.1
  · rw [hpairs]
    exact hkept.2

/-! ## One call -/

section
variable {store store' : StateStore} {event : StateEvent} {produced : DockStateFile} {dirty : Bool}

/-- A call sets the section of its socket, or changes nothing. -/
theorem StateCall.apply_cases {call : StateCall} {state : DockStateFile} {loads : List DockStateFile}
    (h : state.WellFormed) (hloads : ∀ earlier ∈ loads, earlier.WellFormed)
    (hderived : call.Derived loads) (happly : call.apply state = .ok (produced, dirty)) :
    (dirty = false → produced = state) ∧ ∃ records, Proper records ∧
      (produced = state ∨ produced = state.setRecords call.socket records) ∧
      (state.HasRoom call.socket records ∨ call = .replaceSocketRecords call.socket records) := by
  cases call with
  | upsertRecord socket record =>
    simp only [StateCall.apply] at happly
    cases hupsert : state.upsert socket record with
    | error error =>
      rw [hupsert] at happly
      contradiction
    | ok after =>
      rw [hupsert] at happly
      cases happly
      obtain ⟨records, heq, hproper, hroom⟩ := h.upsert_eq hupsert
      exact ⟨(fun hnone => by cases hnone), records, hproper, Or.inr heq, Or.inl hroom⟩
  | removeRecord socket workspaceId tabId =>
    simp only [StateCall.apply, DockStateFile.remove] at happly
    split at happly
    next =>
      cases happly
      exact ⟨fun _ => rfl, [], ⟨Nat.zero_le _, List.nodup_nil⟩, Or.inl rfl, Or.inl (Or.inl rfl)⟩
    next records hget =>
      obtain ⟨hproper, hroom, hsame⟩ := h.filter_eq hget fun record => ¬ record.IsFor workspaceId tabId
      cases happly
      refine ⟨fun hclean => hsame ?_, _, hproper, Or.inr rfl, Or.inl hroom⟩
      simpa using hclean
  | removeByPane socket paneId =>
    simp only [StateCall.apply, DockStateFile.removeByPane] at happly
    split at happly
    next =>
      cases happly
      exact ⟨fun _ => rfl, [], ⟨Nat.zero_le _, List.nodup_nil⟩, Or.inl rfl, Or.inl (Or.inl rfl)⟩
    next records hget =>
      obtain ⟨hproper, hroom, hsame⟩ := h.filter_eq hget fun record => record.dockPaneId ≠ paneId
      cases happly
      refine ⟨fun hclean => hsame ?_, _, hproper, Or.inr rfl, Or.inl hroom⟩
      simpa using hclean
  | replaceSocketRecords socket records =>
    cases happly
    obtain ⟨earlier, hearlier, hrefreshes⟩ := hderived
    have hproper := hrefreshes.proper (hloads earlier hearlier).proper
    exact ⟨(fun hnone => by cases hnone), records, hproper, Or.inr rfl, Or.inr rfl⟩

/-- How a call ends, and what the file holds then. -/
inductive StateEvent.Ends (event : StateEvent) (store : StateStore) :
    Except StateError Bool → Option (List UInt8) → Prop where
  | failed (error : StateError) : Ends event store (.error error) store.dir.file
  | unchanged (produced : DockStateFile)
    (happly : event.call.apply store.loaded = .ok (produced, false)) :
    Ends event store (.ok false) store.dir.file
  | written (produced : DockStateFile) (bytes : List UInt8) (hfault : event.fault = none)
    (happly : event.call.apply store.loaded = .ok (produced, true))
    (hencode : stateCodec.encode produced = some bytes) : Ends event store (.ok true) (some bytes)

theorem StateEvent.ends (event : StateEvent) (store : StateStore) :
    event.Ends store (event.result store) (event.after store).dir.file := by
  unfold StateEvent.result StateEvent.after StateCall.run withLockedState
  split
  next => exact .failed _
  next =>
    split
    next => exact .failed _
    next produced dirty happly =>
      cases dirty with
      | false => exact .unchanged produced happly
      | true =>
        simp only [if_true]
        unfold writeStateFile
        cases hencode : stateCodec.encode produced with
        | none => exact .failed _
        | some bytes =>
          cases hfault : event.fault with
          | none => exact .written produced bytes hfault happly hencode
          | some fault => cases fault <;> exact .failed _

/-- Nothing stops a call without a fault from writing. -/
theorem StateEvent.writes {bytes : List UInt8} (hfault : event.fault = none)
    (happly : event.call.apply store.loaded = .ok (produced, true))
    (hencode : stateCodec.encode produced = some bytes) :
    event.result store = .ok true ∧ (event.after store).loaded = load stateCodec (some bytes) := by
  have happly' : event.call.apply (load stateCodec store.dir.file) = .ok (produced, true) := happly
  have hrun : event.call.run event.fault store.dir = (.ok true, ⟨some bytes, none⟩) := by
    simp [StateCall.run, withLockedState, hfault, happly', writeStateFile, hencode]
  rw [StateEvent.result, StateStore.loaded, StateEvent.after, hrun]
  exact ⟨rfl, rfl⟩

/-- `serde_json::to_vec` has nothing to refuse. -/
theorem exists_encode (state : DockStateFile) : ∃ bytes, stateCodec.encode state = some bytes := by
  have hrecord : dockRecord.Total :=
    .embed (.wrap (.seq (.embed Wire.total_string) (.seq (.embed Wire.total_string)
      (.seq (.embed Wire.total_string) (.embed Wire.total_nat)))))
  have hservers : dockServers.Total := .embed (.items (.seq (.embed Wire.total_string) (.items hrecord)))
  have hstate : dockState.Total := .embed (.wrap (.seq (.embed Wire.total_nat) hservers))
  exact Option.isSome_iff_exists.mp (hstate.encode state)

/-- The text is longer than any workspace id in it. -/
theorem length_workspaceId_le {state : DockStateFile} {bytes : List UInt8} {socket : String}
    {record : DockRecord} (hencode : stateCodec.encode state = some bytes)
    (hrecord : record ∈ state.recordsFor socket) : record.workspaceId.length ≤ bytes.length := by
  have hsize : dockRecord.AtLeast fun record => record.workspaceId.length := by
    intro record text hprint
    have hfields := Wire.AtLeast.embed (Wire.AtLeast.wrap (Wire.AtLeast.seq
      (Wire.AtLeast.embed Wire.atLeast_string) Wire.atLeast_zero)) record text hprint
    simpa [← String.length_toList] using hfields
  have hsections : dockServers.AtLeast fun servers =>
      (servers.toList.map fun entry => (entry.2.map fun record => record.workspaceId.length).sum).sum := by
    intro servers text hprint
    have hitems := Wire.AtLeast.embed (Wire.AtLeast.items (Wire.AtLeast.seq Wire.atLeast_zero
      (Wire.AtLeast.items hsize))) servers text hprint
    simpa using hitems
  have hstate : dockState.AtLeast fun state => (state.servers.toList.map fun entry =>
      (entry.2.map fun record => record.workspaceId.length).sum).sum := by
    intro state text hprint
    have hfields := Wire.AtLeast.embed (Wire.AtLeast.wrap
      (Wire.AtLeast.seq Wire.atLeast_zero hsections)) state text hprint
    simpa using hfields
  have hbytes := hstate.encode hencode
  unfold recordsFor at hrecord
  cases hget : state.servers[socket]? with
  | none =>
    rw [hget] at hrecord
    contradiction
  | some records =>
    rw [hget] at hrecord
    have hentry : (socket, records) ∈ state.servers.toList :=
      Std.ExtTreeMap.mem_toList_iff_getElem?_eq_some.mpr hget
    have hone := List.single_le_sum (l := records.map fun record => record.workspaceId.length)
      (fun _ _ => Nat.zero_le _) _ (List.mem_map_of_mem hrecord)
    have hall := List.single_le_sum (l := state.servers.toList.map fun entry =>
      (entry.2.map fun record => record.workspaceId.length).sum) (fun _ _ => Nat.zero_le _) _
      (List.mem_map_of_mem hentry)
    exact (hone.trans hall).trans hbytes

theorem length_encode_default {bytes : List UInt8} (h : stateCodec.encode default = some bytes) :
    bytes.length ≤ maxStateBytes := by
  have hshort : ((stateCodec.encode default).map List.length).any (· ≤ maxStateBytes) = true := by
    decide +kernel
  rw [h] at hshort
  simpa using hshort

/-- From a well-formed state a call is lawful exactly if what it writes fits. -/
theorem StateEvent.lawful_iff_fits (h : store.loaded.WellFormed)
    (hloads : ∀ earlier ∈ store.loads, earlier.WellFormed)
    (hderived : event.call.Derived store.loads) : event.Lawful store ↔ event.Fits store := by
  constructor
  · intro hlawful
    constructor
    case bytes =>
      intro hfault produced bytes happly hencode
      have ⟨hresult, hloaded⟩ := writes hfault happly hencode
      have hstored := hlawful.stored _ _ _ hresult happly
      by_contra hlong
      have hempty : load stateCodec (some bytes) = default := by
        unfold load
        exact if_pos (Nat.lt_of_not_le hlong)
      rw [hloaded, hempty] at hstored
      rw [← hstored] at hencode
      exact hlong (length_encode_default hencode)
    case room =>
      intro hfault socket records hcall
      by_contra hfull
      have ⟨hne, hrest⟩ := not_or.mp hfull
      have ⟨hnew, hmany⟩ := not_or.mp hrest
      have happly : event.call.apply store.loaded =
          .ok (store.loaded.setRecords socket records, true) := by
        rw [hcall]
        rfl
      have ⟨bytes, hencode⟩ := exists_encode (store.loaded.setRecords socket records)
      have ⟨hresult, _⟩ := writes hfault happly hencode
      have hsize := hlawful.wellFormed.size_le
      rw [hlawful.stored _ _ _ hresult happly, setRecords_of_ne_nil hne] at hsize
      dsimp only at hsize
      rw [Std.ExtTreeMap.size_insert, if_neg (by simpa using hnew)] at hsize
      omega
  · intro hfits
    have hends := event.ends store
    generalize hresult : event.result store = result at hends
    generalize hfile : (event.after store).dir.file = file at hends
    have hloaded : (event.after store).loaded = load stateCodec file := by
      rw [StateStore.loaded, hfile]
    cases hends with
    | failed error =>
      have hsame : (event.after store).loaded = store.loaded := hloaded
      constructor
      case stored =>
        intro flag _ _ hok
        rw [hresult] at hok
        contradiction
      case refused => exact fun _ _ => hfile
      case wellFormed => exact hsame ▸ h
      case others => exact fun _ _ => by rw [hsame]
    | unchanged produced happly =>
      have hsame : (event.after store).loaded = store.loaded := hloaded
      have hproduced := (StateCall.apply_cases h hloads hderived happly).1 rfl
      constructor
      case stored =>
        intro _ other dirty _ hother
        rw [happly] at hother
        cases hother
        rw [hsame, hproduced]
      case refused => exact fun _ _ => hfile
      case wellFormed => exact hsame ▸ h
      case others => exact fun _ _ => by rw [hsame]
    | written produced bytes hfault happly hencode =>
      have ⟨_, records, hproper, hset, hroom⟩ := StateCall.apply_cases h hloads hderived happly
      have hfitting : store.loaded.HasRoom event.call.socket records := by
        cases hroom with
        | inl hroom => exact hroom
        | inr hcall => exact hfits.room hfault _ _ hcall
      have hwell : produced.WellFormed := by
        cases hset with
        | inl hsame => exact hsame ▸ h
        | inr hset => exact hset ▸ h.setRecords hproper hfitting
      have hread : (event.after store).loaded = produced := by
        rw [hloaded]
        exact load_encode hwell.toBounded hencode (hfits.bytes hfault produced bytes happly hencode)
      constructor
      case stored =>
        intro _ other dirty _ hother
        rw [happly] at hother
        cases hother
        exact hread
      case refused =>
        intro error herror
        rw [hresult] at herror
        contradiction
      case wellFormed => exact hread ▸ hwell
      case others =>
        intro other hother
        rw [hread]
        cases hset with
        | inl hsame => rw [hsame]
        | inr hset => rw [hset, get?_setRecords hother]

end

/-! ## Runs -/

/-- What the steps of a run keep. -/
def StateStore.Kept (store : StateStore) : Prop :=
  store.loaded.WellFormed ∧ ∀ earlier ∈ store.loads, earlier.WellFormed

theorem kept_empty : StateStore.empty.Kept := by
  refine ⟨wellFormed_default, fun earlier hearlier => ?_⟩
  rw [List.mem_singleton.mp hearlier]
  exact wellFormed_default

theorem StateEvent.Lawful.kept {event : StateEvent} {store : StateStore} (hlawful : event.Lawful store)
    (h : store.Kept) : (event.after store).Kept := by
  refine ⟨hlawful.wellFormed, fun earlier hearlier => ?_⟩
  cases List.mem_cons.mp hearlier with
  | inl heq => exact heq ▸ hlawful.wellFormed
  | inr hmem => exact h.2 earlier hmem

namespace Sample

/-- A record whose workspace id alone is longer than a state file may be. -/
def longRecord : DockRecord :=
  ⟨String.ofList (List.replicate (maxStateBytes + 1) 'w'), "t1", "p1", 40⟩

def longUpsert : StateEvent := ⟨.upsertRecord "s" longRecord, none⟩

end Sample

end HerdrContext.Host
