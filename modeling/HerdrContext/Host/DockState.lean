import HerdrContext.Library.Wire
import Std.Data.ExtTreeMap

/-! The persisted records of open docks, one section for each server socket. -/
namespace HerdrContext.Host

open Library

structure DockRecord where
  workspaceId : String
  tabId : String
  dockPaneId : String
  width : UInt16
  deriving DecidableEq

/-- The record for a (workspace, tab) pair. -/
def DockRecord.IsFor (workspaceId tabId : String) (record : DockRecord) : Prop :=
  record.workspaceId = workspaceId ∧ record.tabId = tabId

instance (workspaceId tabId : String) : DecidablePred (DockRecord.IsFor workspaceId tabId) :=
  fun _ => inferInstanceAs (Decidable (_ ∧ _))

abbrev Servers := Std.ExtTreeMap String (List DockRecord) compare

structure DockStateFile where
  version : UInt8
  servers : Servers

/-- The refusals of `upsert`; locks, files and the encoder fail with errors of
their own. -/
inductive DockStateError where
  | serverCapReached (cap : Nat)
  | recordCapReached (socket : String) (cap : Nat)
  deriving DecidableEq

namespace DockStateFile

def stateFileVersion : UInt8 := 1
def maxStateBytes : Nat := 512 * 1024
def maxServers : Nat := 8
def maxRecordsPerServer : Nat := 256

def default : DockStateFile := ⟨stateFileVersion, ∅⟩

variable (state : DockStateFile)

def recordsFor (socket : String) : List DockRecord := state.servers[socket]?.getD []

/-- Replace the first record for the pair. -/
def replaceRecord (record : DockRecord) : List DockRecord → List DockRecord
  | [] => []
  | existing :: rest =>
    if existing.IsFor record.workspaceId record.tabId then record :: rest
    else existing :: replaceRecord record rest

def upsert (socket : String) (record : DockRecord) : Except DockStateError DockStateFile :=
  match state.servers[socket]? with
  | none =>
    if maxServers ≤ state.servers.size then .error (.serverCapReached maxServers)
    else .ok { state with servers := state.servers.insert socket [record] }
  | some records =>
    if records.any (·.IsFor record.workspaceId record.tabId) then
      .ok { state with servers := state.servers.insert socket (replaceRecord record records) }
    else if maxRecordsPerServer ≤ records.length then
      .error (.recordCapReached socket maxRecordsPerServer)
    else .ok { state with servers := state.servers.insert socket (records ++ [record]) }

/-- Replaces one socket's records; an empty vector removes the section. -/
def setRecords (socket : String) (records : List DockRecord) : DockStateFile :=
  if records = [] then { state with servers := state.servers.erase socket }
  else { state with servers := state.servers.insert socket records }

/-- The flag says whether anything changed. -/
def remove (socket workspaceId tabId : String) : DockStateFile × Bool :=
  match state.servers[socket]? with
  | none => (state, false)
  | some records =>
    let retained := records.filter fun record => ¬ record.IsFor workspaceId tabId
    (state.setRecords socket retained, retained.length ≠ records.length)

/-- `pop_last`. -/
def popLast (servers : Servers) : Servers :=
  match servers.maxKey? with
  | some socket => servers.erase socket
  | none => servers

/-- Bounds a file that was read back. -/
def clamped : DockStateFile :=
  let truncated := state.servers.map fun _ records => records.take maxRecordsPerServer
  { state with servers := popLast^[truncated.size - maxServers] truncated }

/-- `load`: a missing, oversized, unreadable or foreign file is an empty state. -/
def load (codec : Codec DockStateFile (List UInt8)) (file : Option (List UInt8)) : DockStateFile :=
  match file with
  | none => default
  | some bytes =>
    if maxStateBytes < bytes.length then default
    else
      match codec.decode bytes with
      | none => default
      | some state => if state.version ≠ stateFileVersion then default else state.clamped

/-! ## The JSON text -/

def dockRecord : Wire DockRecord :=
  Wire.embed (fun record => (record.workspaceId, record.tabId, record.dockPaneId, record.width))
    (fun (workspaceId, tabId, dockPaneId, width) => some { workspaceId, tabId, dockPaneId, width })
    (fun _ => rfl)
    (Wire.record "workspace_id" (Wire.next "tab_id" Wire.text (Wire.next "dock_pane_id" Wire.text
      (Wire.next "width" Wire.text Wire.uint16))))

theorem ofList_toList (servers : Servers) : Std.ExtTreeMap.ofList servers.toList compare = servers := by
  apply Std.ExtTreeMap.ext_getElem?
  intro socket
  cases hget : servers[socket]? with
  | some records =>
    exact Std.ExtTreeMap.getElem?_ofList_of_mem Std.ReflCmp.compare_self
      Std.ExtTreeMap.distinct_keys_toList
      (Std.ExtTreeMap.mem_toList_iff_getElem?_eq_some.mpr hget)
  | none =>
    apply Std.ExtTreeMap.getElem?_ofList_of_contains_eq_false
    rw [Std.ExtTreeMap.map_fst_toList_eq_keys]
    rw [List.contains_eq_mem, decide_eq_false_iff_not, Std.ExtTreeMap.mem_keys,
      Std.ExtTreeMap.mem_iff_isSome_getElem?, hget]
    exact Bool.false_ne_true

def dockServers : Wire Servers :=
  Wire.embed Std.ExtTreeMap.toList (fun sections => some (Std.ExtTreeMap.ofList sections compare))
    (fun servers => congrArg some (ofList_toList servers))
    (Wire.object (Wire.array dockRecord (Wire.embed_avoidsFirst (Wire.record_avoidsFirst (by decide)))))

def dockState : Wire DockStateFile :=
  Wire.embed (fun state => (state.version, state.servers))
    (fun (version, servers) => some { version, servers }) (fun _ => rfl)
    (Wire.record "version" (Wire.next "servers" Wire.uint8 dockServers))

/-- `serde_json::to_vec` and `from_slice` on the texts the former writes. -/
def stateCodec : Codec DockStateFile (List UInt8) := (Wire.codec dockState).utf8

/-! ## Caps -/

/-- What `load` gives and every change keeps. -/
structure Bounded (state : DockStateFile) : Prop where
  version_eq : state.version = stateFileVersion
  size_le : state.servers.size ≤ maxServers
  length_le : ∀ (socket : String) (records : List DockRecord),
    state.servers[socket]? = some records → records.length ≤ maxRecordsPerServer

theorem bounded_default : default.Bounded where
  version_eq := rfl
  size_le := by simp [default]
  length_le := by simp [default]

theorem size_popLast {servers : Servers} (h : servers.size ≠ 0) :
    (popLast servers).size = servers.size - 1 := by
  unfold popLast
  cases hlast : servers.maxKey? with
  | none =>
    rw [Std.ExtTreeMap.maxKey?_eq_none_iff] at hlast
    rw [hlast] at h
    simp at h
  | some socket =>
    have hmem : socket ∈ servers := Std.ExtTreeMap.maxKey?_mem hlast
    dsimp only
    rw [Std.ExtTreeMap.size_erase, if_pos (Std.ExtTreeMap.contains_iff_mem.mpr hmem)]

theorem size_iterate_popLast (count : Nat) (servers : Servers) (h : count ≤ servers.size) :
    (popLast^[count] servers).size = servers.size - count := by
  induction count generalizing servers with
  | zero => rfl
  | succ count ih =>
    have hone : (popLast servers).size = servers.size - 1 := size_popLast (by omega)
    rw [Function.iterate_succ_apply, ih _ (by omega), hone]
    omega

theorem get?_popLast {servers : Servers} {socket : String} {records : List DockRecord}
    (h : (popLast servers)[socket]? = some records) : servers[socket]? = some records := by
  unfold popLast at h
  cases hlast : servers.maxKey? with
  | none =>
    rw [hlast] at h
    exact h
  | some last =>
    rw [hlast, Std.ExtTreeMap.getElem?_erase] at h
    split at h
    next => contradiction
    next => exact h

theorem get?_iterate_popLast {count : Nat} {servers : Servers} {socket : String}
    {records : List DockRecord} (h : (popLast^[count] servers)[socket]? = some records) :
    servers[socket]? = some records := by
  induction count generalizing servers with
  | zero => exact h
  | succ count ih =>
    rw [Function.iterate_succ_apply] at h
    exact get?_popLast (ih h)

theorem bounded_clamped {state : DockStateFile} (hversion : state.version = stateFileVersion) :
    state.clamped.Bounded where
  version_eq := hversion
  size_le := by
    unfold clamped
    dsimp only
    rw [size_iterate_popLast _ _ (Nat.sub_le _ _)]
    omega
  length_le := by
    intro socket records h
    have htruncated := get?_iterate_popLast h
    rw [Std.ExtTreeMap.getElem?_map, Option.map_eq_some_iff] at htruncated
    have ⟨all, _, htaken⟩ := htruncated
    rw [← htaken]
    exact List.length_take_le _ _

theorem Bounded.clamped_eq {state : DockStateFile} (h : state.Bounded) : state.clamped = state := by
  have hsame : state.servers.map (fun _ records => records.take maxRecordsPerServer) =
      state.servers := by
    apply Std.ExtTreeMap.ext_getElem?
    intro socket
    rw [Std.ExtTreeMap.getElem?_map]
    cases hget : state.servers[socket]? with
    | none => rfl
    | some records => exact congrArg some (List.take_of_length_le (h.length_le socket records hget))
  have hnone : state.servers.size - maxServers = 0 := Nat.sub_eq_zero_of_le h.size_le
  unfold clamped
  dsimp only
  rw [hsame, hnone]
  rfl

theorem bounded_load (codec : Codec DockStateFile (List UInt8)) (file : Option (List UInt8)) :
    (load codec file).Bounded := by
  unfold load
  split
  next => exact bounded_default
  next bytes =>
    split
    next => exact bounded_default
    next =>
      split
      next => exact bounded_default
      next state _ =>
        split
        next => exact bounded_default
        next hversion => exact bounded_clamped (not_not.mp hversion)

/-- What was written within the byte limit is read back. -/
theorem load_encode {codec : Codec DockStateFile (List UInt8)} {state : DockStateFile}
    {bytes : List UInt8} (h : state.Bounded) (hencode : codec.encode state = some bytes)
    (hbytes : bytes.length ≤ maxStateBytes) : load codec (some bytes) = state := by
  unfold load
  dsimp only
  rw [if_neg (by omega), codec.decode_encode hencode]
  dsimp only
  rw [if_neg (not_not.mpr h.version_eq), h.clamped_eq]

section
variable {state after : DockStateFile} {socket workspaceId tabId : String} {record : DockRecord}
  {records : List DockRecord}

theorem length_replaceRecord (record : DockRecord) (records : List DockRecord) :
    (replaceRecord record records).length = records.length := by
  induction records with
  | nil => rfl
  | cons existing rest ih =>
    unfold replaceRecord
    split
    next => rfl
    next => simp [ih]

/-- A section that is there already or fits beside the others may be entered. -/
theorem Bounded.insert (h : state.Bounded) (hlength : records.length ≤ maxRecordsPerServer)
    (hroom : socket ∈ state.servers ∨ state.servers.size < maxServers) :
    Bounded { state with servers := state.servers.insert socket records } where
  version_eq := h.version_eq
  size_le := by
    have hsize := h.size_le
    dsimp only
    rw [Std.ExtTreeMap.size_insert]
    split
    next => exact hsize
    next hmem =>
      have hfits := hroom.resolve_left hmem
      omega
  length_le := by
    intro other found hget
    dsimp only at hget
    rw [Std.ExtTreeMap.getElem?_insert] at hget
    split at hget
    next =>
      cases hget
      exact hlength
    next => exact h.length_le other found hget

theorem Bounded.setRecords (h : state.Bounded) (hlength : records.length ≤ maxRecordsPerServer)
    (hroom : records = [] ∨ socket ∈ state.servers) : (state.setRecords socket records).Bounded := by
  unfold DockStateFile.setRecords
  split
  next =>
    exact
      { version_eq := h.version_eq
        size_le := Std.ExtTreeMap.size_erase_le.trans h.size_le
        length_le := by
          intro other found hget
          dsimp only at hget
          rw [Std.ExtTreeMap.getElem?_erase] at hget
          split at hget
          next => contradiction
          next => exact h.length_le other found hget }
  next hnonempty => exact h.insert hlength (Or.inl (hroom.resolve_left hnonempty))

theorem Bounded.upsert (h : state.Bounded) (hok : state.upsert socket record = .ok after) :
    after.Bounded := by
  unfold DockStateFile.upsert at hok
  split at hok
  next =>
    split at hok
    next => contradiction
    next hroom =>
      cases hok
      exact h.insert (Nat.one_le_of_lt (by decide : 1 < maxRecordsPerServer)) (Or.inr (by omega))
  next records hget =>
    have hmem : socket ∈ state.servers := by
      rw [Std.ExtTreeMap.mem_iff_isSome_getElem?, hget]
      rfl
    have hlength := h.length_le socket records hget
    split at hok
    next =>
      cases hok
      exact h.insert (by rw [length_replaceRecord]; exact hlength) (Or.inl hmem)
    next =>
      split at hok
      next => contradiction
      next hroom =>
        cases hok
        refine h.insert ?_ (Or.inl hmem)
        rw [List.length_append, List.length_singleton]
        omega

theorem Bounded.remove (h : state.Bounded) : (state.remove socket workspaceId tabId).1.Bounded := by
  unfold DockStateFile.remove
  split
  next => exact h
  next records hget =>
    have hmem : socket ∈ state.servers := by
      rw [Std.ExtTreeMap.mem_iff_isSome_getElem?, hget]
      rfl
    exact h.setRecords ((List.length_filter_le _ _).trans (h.length_le socket records hget))
      (Or.inr hmem)

end

/-! ## Records -/

/-- A record for the pair is in the socket's section. -/
def Has (state : DockStateFile) (socket workspaceId tabId : String) : Prop :=
  ∃ record ∈ state.recordsFor socket, record.IsFor workspaceId tabId

instance (state : DockStateFile) (socket workspaceId tabId : String) :
    Decidable (state.Has socket workspaceId tabId) :=
  inferInstanceAs (Decidable (∃ _ ∈ _, _))

section
variable {state after : DockStateFile} {socket other workspaceId tabId : String}
  {record : DockRecord} {records : List DockRecord}

theorem recordsFor_insert (servers : Servers) (version : UInt8) :
    recordsFor ⟨version, servers.insert socket records⟩ other =
      if socket = other then records else recordsFor ⟨version, servers⟩ other := by
  simp only [recordsFor, Std.ExtTreeMap.getElem?_insert, Std.LawfulEqCmp.compare_eq_iff_eq]
  split <;> rfl

theorem recordsFor_setRecords :
    (state.setRecords socket records).recordsFor other =
      if socket = other then records else state.recordsFor other := by
  unfold setRecords
  split
  next hnil =>
    simp only [recordsFor, Std.ExtTreeMap.getElem?_erase, Std.LawfulEqCmp.compare_eq_iff_eq]
    split
    next => rw [hnil]; rfl
    next => rfl
  next => exact recordsFor_insert _ _

theorem isFor_iff {left right : DockRecord} (h : left.IsFor right.workspaceId right.tabId) :
    left.IsFor workspaceId tabId ↔ right.IsFor workspaceId tabId := by
  unfold DockRecord.IsFor at h ⊢
  rw [h.1, h.2]

/-- Replacing a record changes no pair. -/
theorem any_replaceRecord :
    (∃ found ∈ replaceRecord record records, found.IsFor workspaceId tabId) ↔
      ∃ found ∈ records, found.IsFor workspaceId tabId := by
  induction records with
  | nil => rfl
  | cons existing rest ih =>
    unfold replaceRecord
    split
    next hsame =>
      simp only [List.mem_cons, exists_eq_or_imp]
      rw [isFor_iff hsame]
    next =>
      simp only [List.mem_cons, exists_eq_or_imp]
      rw [ih]

theorem has_upsert (hok : state.upsert socket record = .ok after) :
    after.Has other workspaceId tabId ↔
      state.Has other workspaceId tabId ∨ socket = other ∧ record.IsFor workspaceId tabId := by
  unfold Has
  by_cases hsocket : socket = other
  · subst hsocket
    unfold upsert at hok
    split at hok
    next hnone =>
      split at hok
      next => contradiction
      next =>
        cases hok
        rw [recordsFor_insert, if_pos rfl]
        simp [recordsFor, hnone]
    next records hget =>
      have hrecords : state.recordsFor socket = records := by rw [recordsFor, hget]; rfl
      rw [hrecords]
      split at hok
      next hany =>
        cases hok
        rw [recordsFor_insert, if_pos rfl, any_replaceRecord]
        have ⟨existing, hmem, hsame⟩ := List.any_eq_true.mp hany
        have hfor := of_decide_eq_true hsame
        constructor
        · exact Or.inl
        · rintro (hfound | ⟨_, hrecord⟩)
          · exact hfound
          · exact ⟨existing, hmem, (isFor_iff hfor).mpr hrecord⟩
      next =>
        split at hok
        next => contradiction
        next =>
          cases hok
          rw [recordsFor_insert, if_pos rfl]
          simp only [List.mem_append, List.mem_singleton, or_and_right, exists_or, exists_eq_left,
            true_and]
  · have hsame : after.recordsFor other = state.recordsFor other := by
      unfold upsert at hok
      split at hok
      next =>
        split at hok
        next => contradiction
        next =>
          cases hok
          rw [recordsFor_insert, if_neg hsocket]
      next =>
        split at hok
        next =>
          cases hok
          rw [recordsFor_insert, if_neg hsocket]
        next =>
          split at hok
          next => contradiction
          next =>
            cases hok
            rw [recordsFor_insert, if_neg hsocket]
    rw [hsame]
    simp [hsocket]

theorem has_remove {removedWorkspace removedTab : String} :
    (state.remove socket removedWorkspace removedTab).1.Has other workspaceId tabId ↔
      state.Has other workspaceId tabId ∧
        ¬ (socket = other ∧ removedWorkspace = workspaceId ∧ removedTab = tabId) := by
  unfold Has remove
  split
  next hnone =>
    constructor
    · intro hfound
      refine ⟨hfound, fun hsame => ?_⟩
      have ⟨_, hmem, _⟩ := hfound
      rw [recordsFor, ← hsame.1, hnone] at hmem
      contradiction
    · exact fun hboth => hboth.1
  next records hget =>
    dsimp only
    rw [recordsFor_setRecords]
    by_cases hsocket : socket = other
    · subst hsocket
      have hrecords : state.recordsFor socket = records := by rw [recordsFor, hget]; rfl
      rw [if_pos rfl, hrecords]
      simp only [List.mem_filter, decide_eq_true_eq, true_and]
      constructor
      · intro hfound
        have ⟨found, ⟨hmem, hother⟩, hfor⟩ := hfound
        refine ⟨⟨found, hmem, hfor⟩, fun hsame => hother ?_⟩
        rw [hsame.1, hsame.2]
        exact hfor
      · intro hboth
        have ⟨⟨found, hmem, hfor⟩, hother⟩ := hboth
        refine ⟨found, ⟨hmem, fun hremoved => hother ?_⟩, hfor⟩
        exact ⟨hremoved.1.symm.trans hfor.1, hremoved.2.symm.trans hfor.2⟩
    · rw [if_neg hsocket]
      simp [hsocket]

end

end DockStateFile

end HerdrContext.Host
