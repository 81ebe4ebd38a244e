import HerdrContext.Index.Publication
import HerdrContext.Index.RoundTrip

/-! A cut, failed or cancelled persist run leaves a cache that opens as the old
or as the new generation; an error behind the pointer's replacement is the one
case in which the caller is told the page failed while the new one is out. -/
namespace HerdrContext.Index

open Library

/-! ## What the reader sees -/

theorem nameOfBytes_nameBytes {name : EntryName} (h : ∀ c ∈ name, plainChar c = true) :
    nameOfBytes (nameBytes name) = name := by
  induction name with
  | nil => rfl
  | cons c name ih =>
    have hc := h c (by simp)
    simp only [plainChar, Bool.and_eq_true, decide_eq_true_eq] at hc
    have hval : c.val.toUInt8.toNat = c.toNat := by
      have : c.val.toNat < 128 := hc.1
      simp only [UInt32.toNat_toUInt8]
      exact Nat.mod_eq_of_lt (by omega)
    have hrest := ih fun d hd => h d (by simp [hd])
    simp only [nameOfBytes, nameBytes, List.map_cons, hval, Char.ofNat_toNat] at hrest ⊢
    rw [hrest]

/-- A name without a slash is a single path component. -/
theorem segments_nameBytes {name : EntryName} (h : ∀ c ∈ name, plainChar c = true) :
    PathBuf.segments (nameBytes name) = [nameBytes name] := by
  induction name with
  | nil => rfl
  | cons c name ih =>
    have hc := h c (by simp)
    simp only [plainChar, Bool.and_eq_true, decide_eq_true_eq, ne_eq] at hc
    have hslash : c.val.toUInt8 ≠ slash := by
      intro heq
      apply hc.2
      have hnat : c.val.toUInt8.toNat = 47 := congrArg UInt8.toNat heq
      have hlt : c.val.toNat < 2 ^ 8 := Nat.lt_trans hc.1 (by decide)
      rw [UInt32.toNat_toUInt8, Nat.mod_eq_of_lt hlt] at hnat
      exact Char.toNat_inj.mp hnat
    have hrest := ih fun d hd => h d (by simp [hd])
    simp only [nameBytes, List.map_cons] at hrest ⊢
    rw [PathBuf.segments, if_neg hslash, hrest]

/-- The entry a directory's pointer names. -/
def pointedName (dir : CacheDir) : Option EntryName :=
  (dir pointerName).bind fun pointer =>
    (PathBuf.segments (readPrivateCache pointer)).head?.map nameOfBytes

/-- The reader looks at the pointer and at the entry it names, if that is a cache file. -/
theorem latestCacheFile_congr {dir other : CacheDir} (hpointer : dir pointerName = other pointerName)
    (hname : ∀ name generation, pointedName other = some name →
      cacheGeneration name = some generation → dir name = other name) :
    latestCacheFile dir = latestCacheFile other := by
  unfold latestCacheFile
  rw [hpointer]
  cases hp : other pointerName with
  | none => rfl
  | some pointer =>
    dsimp only
    cases hsegments : PathBuf.segments (readPrivateCache pointer) with
    | nil => rfl
    | cons name rest =>
      have hpointed : pointedName other = some (nameOfBytes name) := by
        simp [pointedName, hp, hsegments]
      cases hgeneration : cacheGeneration (nameOfBytes name) with
      | none => simp only [hgeneration]
      | some generation => simp only [hgeneration, hname _ _ hpointed hgeneration]

namespace Publication

variable (run : Publication)

/-- The directory after the run replaced the pointer. -/
def IsNew (dir : CacheDir) : Prop :=
  dir pointerName = some (nameBytes run.published) ∧ dir run.published = some run.bytes

theorem latestCacheFile_of_isNew {run : Publication} {dir : CacheDir} (h : run.IsNew dir) :
    latestCacheFile dir = .ok (some (run.bytes, run.generation)) := by
  have hplain := run.plainChar_published
  have hread : readPrivateCache (nameBytes run.published) = nameBytes run.published := by
    refine if_neg ?_
    rw [nameBytes, List.length_map, length_published]
    decide
  unfold latestCacheFile
  simp only [h.1, hread, segments_nameBytes hplain, nameOfBytes_nameBytes hplain,
    cacheGeneration_published, h.2, if_true]

/-- The names a run writes beside the pointer. -/
def ownNames : List EntryName := [run.temporary, run.pointerTemporary, run.published]

theorem pointerName_not_mem_ownNames : pointerName ∉ run.ownNames := by
  simp only [ownNames, List.mem_cons, List.not_mem_nil, or_false, not_or]
  exact ⟨run.temporary_ne_pointerName.symm, run.pointerTemporary_ne_pointerName.symm,
    (run.published_ne cacheGeneration_pointerName).symm⟩

/-- Apart from the run's own names the two directories are the same. -/
def Agrees (dir before : CacheDir) : Prop := ∀ name, name ∉ run.ownNames → dir name = before name

end Publication

/-! ## Runs of one process -/

def Effect.run (disk : CacheDisk) : Effect → CacheDisk
  | .none => disk
  | .op operation => disk.push operation
  | .sync => disk.sync

/-- The disk and the phase after some steps of the run. -/
inductive Runs (run : Publication) (disk₀ : CacheDisk) : Phase → CacheDisk → Prop where
  | start : Runs run disk₀ .start disk₀
  | step {phase next : Phase} {disk : CacheDisk} {effect : Effect} :
    Runs run disk₀ phase disk → Step run disk.visible phase effect next →
    Runs run disk₀ next (effect.run disk)

/-- What a disk may show, now or after a crash, before the pointer is replaced. -/
def AllOld (run : Publication) (disk₀ disk : CacheDisk) : Prop :=
  run.Agrees disk.visible disk₀.visible ∧
    ∀ dir, disk.Crash dir → ∃ before, disk₀.Crash before ∧ run.Agrees dir before

theorem agrees_apply {run : Publication} {op : CacheOp} {dir before : CacheDir}
    (hop : ∀ name ∈ op.touches, name ∈ run.ownNames) (h : run.Agrees dir before) :
    run.Agrees (op.apply dir) before := by
  intro name hname
  rw [DirOp.apply_of_not_mem fun hmem => hname (hop name hmem)]
  exact h name hname

theorem AllOld.push {run : Publication} {disk₀ disk : CacheDisk} {op : CacheOp}
    (h : AllOld run disk₀ disk) (hop : ∀ name ∈ op.touches, name ∈ run.ownNames) :
    AllOld run disk₀ (disk.push op) := by
  refine ⟨?_, fun dir hcrash => ?_⟩
  · rw [Disk.visible_push]
    exact agrees_apply hop h.1
  · obtain ⟨middle, hmiddle, hdir⟩ := Disk.crash_push hcrash
    obtain ⟨before, hbefore, hagrees⟩ := h.2 middle hmiddle
    refine ⟨before, hbefore, ?_⟩
    rcases hdir with rfl | rfl
    · exact hagrees
    · exact agrees_apply hop hagrees

theorem AllOld.sync {run : Publication} {disk₀ disk : CacheDisk} (h : AllOld run disk₀ disk) :
    AllOld run disk₀ disk.sync := by
  refine ⟨h.1, fun dir hcrash => ?_⟩
  rw [Disk.crash_sync hcrash]
  exact ⟨disk₀.visible, Disk.crash_visible disk₀, h.1⟩

theorem AllOld.discards {run : Publication} {disk₀ disk : CacheDisk} {effect : Effect}
    {name : EntryName} (h : AllOld run disk₀ disk) (hname : name ∈ run.ownNames)
    (hdiscards : effect.discards name) : AllOld run disk₀ (effect.run disk) := by
  rcases hdiscards with rfl | rfl
  · exact h
  · refine h.push fun touched htouched => ?_
    rw [List.mem_singleton.mp htouched]
    exact hname

/-- What holds of the disk in each phase. -/
def PhaseInv (run : Publication) (disk₀ disk : CacheDisk) : Phase → Prop
  | .start | .creating | .cancelled | .failed false => AllOld run disk₀ disk
  | .written =>
    AllOld run disk₀ disk ∧
      (disk.visible run.temporary ≠ none → disk.visible run.temporary = some run.bytes)
  | .published => AllOld run disk₀ disk ∧ disk.visible run.published = some run.bytes
  | .synced =>
    AllOld run disk₀ disk ∧ disk.pending = [] ∧ disk.durable run.published = some run.bytes
  | .creatingPointer =>
    AllOld run disk₀ disk ∧ disk.durable run.published = some run.bytes ∧
      disk.durable run.pointerTemporary = none ∧
      ∃ content, disk.pending = [.write run.pointerTemporary content]
  | .pointerWritten =>
    AllOld run disk₀ disk ∧ disk.durable run.published = some run.bytes ∧
      disk.durable run.pointerTemporary = none ∧
      disk.pending = [.write run.pointerTemporary (nameBytes run.published)]
  | .replaced | .failed true =>
    run.IsNew disk.visible ∧
      ∀ dir, disk.Crash dir → run.IsNew dir ∨ ∃ before, disk₀.Crash before ∧ run.Agrees dir before
  | .cleaning | .done => ∀ dir, disk.Crash dir → run.IsNew dir

theorem PhaseInv.allOld {run : Publication} {disk₀ disk : CacheDisk} {phase : Phase}
    (h : PhaseInv run disk₀ disk phase)
    (hphase : phase ∉ [.replaced, .cleaning, .done, .failed true]) : AllOld run disk₀ disk := by
  cases phase with
  | start => exact h
  | creating => exact h
  | cancelled => exact h
  | written => exact h.1
  | published => exact h.1
  | synced => exact h.1
  | creatingPointer => exact h.1
  | pointerWritten => exact h.1
  | failed replaced => cases replaced <;> simp_all [PhaseInv]
  | replaced => simp at hphase
  | cleaning => simp at hphase
  | done => simp at hphase

variable {run : Publication} {disk₀ disk : CacheDisk}

theorem mem_ownNames : run.temporary ∈ run.ownNames ∧ run.pointerTemporary ∈ run.ownNames ∧
    run.published ∈ run.ownNames := by
  simp [Publication.ownNames]

theorem AllOld.write_temporary (h : AllOld run disk₀ disk) (content : Bytes) :
    AllOld run disk₀ (disk.push (.write run.temporary content)) :=
  h.push fun name hname => by rw [List.mem_singleton.mp hname]; exact mem_ownNames.1

theorem AllOld.write_pointerTemporary (h : AllOld run disk₀ disk) (content : Bytes) :
    AllOld run disk₀ (disk.push (.write run.pointerTemporary content)) :=
  h.push fun name hname => by rw [List.mem_singleton.mp hname]; exact mem_ownNames.2.1

theorem published_ne : run.published ≠ run.pointerTemporary ∧ run.published ≠ pointerName ∧
    run.pointerTemporary ≠ pointerName :=
  ⟨run.published_ne run.cacheGeneration_pointerTemporary,
    run.published_ne cacheGeneration_pointerName, run.pointerTemporary_ne_pointerName⟩

/-- Renaming the pointer's temporary over the pointer shows the new generation. -/
theorem isNew_replacePointer {dir : CacheDir}
    (hpublished : dir run.published = some run.bytes)
    (htemporary : dir run.pointerTemporary = some (nameBytes run.published)) :
    run.IsNew ((DirOp.rename run.pointerTemporary pointerName).apply dir) := by
  obtain ⟨htmp, hpointer, -⟩ := @published_ne run
  simp only [Publication.IsNew, DirOp.apply, htemporary, Function.update_self,
    Function.update_of_ne hpointer, Function.update_of_ne htmp, hpublished, and_self]

theorem replacePointer_inv (hold : AllOld run disk₀ disk)
    (hpublished : disk.durable run.published = some run.bytes)
    (hfresh : disk.durable run.pointerTemporary = none)
    (hpending : disk.pending = [.write run.pointerTemporary (nameBytes run.published)]) :
    PhaseInv run disk₀ (disk.push (.rename run.pointerTemporary pointerName)) .replaced := by
  have hwritten : run.IsNew ((DirOp.rename run.pointerTemporary pointerName).apply
      ((DirOp.write run.pointerTemporary (nameBytes run.published)).apply disk.durable)) := by
    refine isNew_replacePointer ?_ (Function.update_self _ _ _)
    rw [DirOp.apply, Function.update_of_ne published_ne.1, hpublished]
  have hvisible : disk.visible =
      (DirOp.write run.pointerTemporary (nameBytes run.published)).apply disk.durable := by
    rw [Disk.visible, hpending]
    rfl
  refine ⟨by rw [Disk.visible_push, hvisible]; exact hwritten, fun dir hcrash => ?_⟩
  obtain ⟨before, hbefore, rfl | rfl⟩ := Disk.crash_push hcrash
  · exact Or.inr (hold.2 _ hbefore)
  · -- the rename took effect: with or without the temporary's directory entry
    obtain ⟨kept, hkept, rfl⟩ := hbefore
    rw [hpending] at hkept
    rcases List.sublist_singleton.mp hkept with rfl | rfl
    · refine Or.inr ?_
      have hnoop : (DirOp.rename run.pointerTemporary pointerName).apply
          (applyAll disk.durable []) = applyAll disk.durable [] := by
        simp only [DirOp.apply, applyAll, List.foldl_nil, hfresh]
      rw [hnoop]
      exact hold.2 _ ⟨[], List.nil_sublist _, rfl⟩
    · exact Or.inl hwritten

theorem removeOlder_inv {name : EntryName} (holder : isOlder run name)
    (h : PhaseInv run disk₀ disk .cleaning) :
    PhaseInv run disk₀ (disk.push (.unlink name)) .cleaning := by
  obtain ⟨hne, value, hvalue, -⟩ := holder
  have hpointer : pointerName ≠ name := by
    rintro rfl
    rw [cacheGeneration_pointerName] at hvalue
    contradiction
  intro dir hcrash
  obtain ⟨before, hbefore, rfl | rfl⟩ := Disk.crash_push hcrash
  · exact h _ hbefore
  · obtain ⟨hnamed, hbytes⟩ := h _ hbefore
    refine ⟨?_, ?_⟩
    · rw [DirOp.apply, Function.update_of_ne hpointer, hnamed]
    · rw [DirOp.apply, Function.update_of_ne hne.symm, hbytes]

/-- The pointer's temporary is still there while it is written. -/
theorem writeThrough_pointer (h : PhaseInv run disk₀ disk .creatingPointer) (content : Bytes) :
    writeThrough disk.visible run.pointerTemporary content =
        .op (.write run.pointerTemporary content) ∧
      disk.push (.write run.pointerTemporary content) =
        ⟨disk.durable, [.write run.pointerTemporary content]⟩ := by
  obtain ⟨-, -, -, old, hpending⟩ := h
  have hvisible : disk.visible =
      (DirOp.write run.pointerTemporary old).apply disk.durable := by
    rw [Disk.visible, hpending]
    rfl
  constructor
  · apply writeThrough_of_present
    rw [hvisible, DirOp.write_apply_self]
    simp
  · simp [Disk.push, hpending]

theorem chunkPointer_inv {content : Bytes} (h : PhaseInv run disk₀ disk .creatingPointer) :
    PhaseInv run disk₀
      ((writeThrough disk.visible run.pointerTemporary content).run disk) .creatingPointer := by
  obtain ⟨hpresent, hpush⟩ := writeThrough_pointer h content
  obtain ⟨hold, hpublished, hfresh, -⟩ := h
  rw [hpresent]
  refine ⟨hold.write_pointerTemporary content, ?_, ?_, content, ?_⟩ <;> rw [Effect.run, hpush] <;>
    assumption

/-- Every step keeps what holds of the disk. -/
theorem step_inv {phase next : Phase} {effect : Effect} (h : PhaseInv run disk₀ disk phase)
    (hstep : Step run disk.visible phase effect next) :
    PhaseInv run disk₀ (effect.run disk) next := by
  cases hstep with
  | create => exact AllOld.write_temporary h []
  | chunk content =>
    unfold writeThrough
    split
    next => exact h
    next => exact AllOld.write_temporary h content
  | fill =>
    unfold writeThrough
    split
    next hgone => exact ⟨h, fun hpresent => (hpresent hgone).elim⟩
    next =>
      refine ⟨AllOld.write_temporary h run.bytes, fun _ => ?_⟩
      rw [Effect.run, Disk.visible_push, DirOp.write_apply_self]
  | cancel => exact h.1.discards mem_ownNames.1 (Or.inr rfl)
  | publish present =>
    refine ⟨h.1.push fun name hname => ?_, ?_⟩
    · simp only [DirOp.touches, List.mem_cons, List.not_mem_nil, or_false] at hname
      rcases hname with rfl | rfl
      · exact mem_ownNames.1
      · exact mem_ownNames.2.2
    · rw [Effect.run, Disk.visible_push, DirOp.rename_apply_target (h.2 present)]
  | failTemporary phases discards =>
    have hold : AllOld run disk₀ disk := by rcases phases with rfl | rfl | rfl <;> exact h.allOld (by simp)
    exact hold.discards mem_ownNames.1 discards
  | syncPublished => exact ⟨h.1.sync, rfl, h.2⟩
  | failSyncPublished => exact h.1
  | createPointer fresh =>
    obtain ⟨hold, hpending, hpublished⟩ := h
    have hpush : disk.push (.write run.pointerTemporary []) =
        ⟨disk.durable, [.write run.pointerTemporary []]⟩ := by
      simp [Disk.push, hpending]
    have hvisible : disk.visible = disk.durable := by
      rw [Disk.visible, hpending]
      rfl
    rw [hvisible] at fresh
    refine ⟨hold.write_pointerTemporary [], ?_, ?_, [], ?_⟩ <;> rw [Effect.run, hpush] <;> assumption
  | chunkPointer content => exact chunkPointer_inv h
  | fillPointer =>
    obtain ⟨hpresent, hpush⟩ := writeThrough_pointer h (nameBytes run.published)
    obtain ⟨hold, hpublished, hfresh, -⟩ := h
    rw [hpresent]
    refine ⟨hold.write_pointerTemporary _, ?_, ?_, ?_⟩ <;> rw [Effect.run, hpush] <;> assumption
  | replacePointer => exact replacePointer_inv h.1 h.2.1 h.2.2.1 h.2.2.2
  | failPointer phases discards =>
    have hold : AllOld run disk₀ disk := by rcases phases with rfl | rfl | rfl <;> exact h.allOld (by simp)
    exact hold.discards mem_ownNames.2.1 discards
  | syncReplaced =>
    intro dir hcrash
    rw [Disk.crash_sync hcrash]
    exact h.1
  | removeOlder _ older => exact removeOlder_inv older h
  | failLate phases =>
    rcases phases with rfl | rfl
    · exact h
    · exact ⟨h _ (Disk.crash_visible disk), fun dir hcrash => Or.inl (h dir hcrash)⟩
  | finish => exact h

theorem runs_inv {phase : Phase} (h : Runs run disk₀ phase disk) : PhaseInv run disk₀ disk phase := by
  induction h with
  | start => exact ⟨fun _ _ => rfl, fun dir hcrash => ⟨dir, hcrash, fun _ _ => rfl⟩⟩
  | step _ hstep ih => exact step_inv ih hstep

/-- After a crash the directory shows the new generation or an old directory
apart from the run's own files. -/
theorem PhaseInv.crash_cases {phase : Phase} {dir : CacheDir} (h : PhaseInv run disk₀ disk phase)
    (hcrash : disk.Crash dir) :
    run.IsNew dir ∨ ∃ before, disk₀.Crash before ∧ run.Agrees dir before := by
  by_cases hphase : phase ∉ [.replaced, .cleaning, .done, .failed true]
  · exact Or.inr ((h.allOld hphase).2 dir hcrash)
  · rw [not_not] at hphase
    simp only [List.mem_cons, List.not_mem_nil, or_false] at hphase
    rcases hphase with rfl | rfl | rfl | rfl
    · exact h.2 dir hcrash
    · exact Or.inl (h dir hcrash)
    · exact Or.inl (h dir hcrash)
    · exact h.2 dir hcrash

end HerdrContext.Index
