import Mathlib.Data.List.Sublists
import Mathlib.Logic.Relation

/-! One directory of a file system: atomic operations on its names, and what a
crash may leave of the operations that were not yet synchronized. -/
namespace HerdrContext.Library

/-- What each name of a directory holds. -/
abbrev Directory (Name Content : Type) := Name → Option Content

variable {Name Content : Type} [DecidableEq Name]

inductive DirOp (Name Content : Type) where
  | write (name : Name) (content : Content)
  | rename (source target : Name)
  | unlink (name : Name)

namespace DirOp

/-- The names an operation changes. -/
def touches : DirOp Name Content → List Name
  | write name _ => [name]
  | rename source target => [source, target]
  | unlink name => [name]

def apply (dir : Directory Name Content) : DirOp Name Content → Directory Name Content
  | write name content => Function.update dir name (some content)
  | rename source target =>
    match dir source with
    | none => dir
    | some content => Function.update (Function.update dir source none) target (some content)
  | unlink name => Function.update dir name none

@[simp] theorem write_apply_self (dir : Directory Name Content) (name : Name) (content : Content) :
    (write name content).apply dir name = some content :=
  Function.update_self _ _ _

theorem write_apply_of_ne {dir : Directory Name Content} {name other : Name} (h : other ≠ name)
    (content : Content) : (write name content).apply dir other = dir other :=
  Function.update_of_ne h _ _

theorem rename_apply_of_ne {dir : Directory Name Content} {source target name : Name}
    (hsource : name ≠ source) (htarget : name ≠ target) :
    (rename source target).apply dir name = dir name := by
  cases hcontent : dir source with
  | none => simp only [apply, hcontent]
  | some content =>
    simp only [apply, hcontent, Function.update_of_ne htarget, Function.update_of_ne hsource]

theorem rename_apply_target {dir : Directory Name Content} {source target : Name}
    {content : Content} (h : dir source = some content) :
    (rename source target).apply dir target = some content := by
  rw [apply, h]
  exact Function.update_self _ _ _

@[simp] theorem unlink_apply_self (dir : Directory Name Content) (name : Name) :
    (unlink name : DirOp Name Content).apply dir name = none :=
  Function.update_self _ _ _

theorem unlink_apply_of_ne {dir : Directory Name Content} {name other : Name} (h : other ≠ name) :
    (unlink name : DirOp Name Content).apply dir other = dir other :=
  Function.update_of_ne h _ _

theorem apply_of_not_mem {op : DirOp Name Content} {name : Name} (h : name ∉ op.touches)
    (dir : Directory Name Content) : op.apply dir name = dir name := by
  cases op with
  | write target content =>
    simp only [touches, List.mem_singleton] at h
    exact write_apply_of_ne h content
  | rename source target =>
    simp only [touches, List.mem_cons, List.not_mem_nil, or_false, not_or] at h
    exact rename_apply_of_ne h.1 h.2
  | unlink target =>
    simp only [touches, List.mem_singleton] at h
    exact unlink_apply_of_ne h

end DirOp

def applyAll (dir : Directory Name Content) (ops : List (DirOp Name Content)) :
    Directory Name Content :=
  ops.foldl DirOp.apply dir

theorem applyAll_append (dir : Directory Name Content) (first second : List (DirOp Name Content)) :
    applyAll dir (first ++ second) = applyAll (applyAll dir first) second :=
  List.foldl_append

theorem applyAll_of_not_mem {ops : List (DirOp Name Content)} {name : Name}
    (h : ∀ op ∈ ops, name ∉ op.touches) (dir : Directory Name Content) :
    applyAll dir ops name = dir name := by
  induction ops generalizing dir with
  | nil => rfl
  | cons op ops ih =>
    calc applyAll dir (op :: ops) name
        = applyAll (op.apply dir) ops name := rfl
      _ = op.apply dir name := ih (fun other hmem => h other (by simp [hmem])) _
      _ = dir name := DirOp.apply_of_not_mem (h op (by simp)) dir

/-- A directory whose last synchronized state is known, with the operations
done since then. -/
structure Disk (Name Content : Type) where
  durable : Directory Name Content
  pending : List (DirOp Name Content)

namespace Disk

/-- What a running process sees. -/
def visible (disk : Disk Name Content) : Directory Name Content :=
  applyAll disk.durable disk.pending

/-- One more operation. A write right behind a write to the same name is the
same file with newer content. -/
def push (disk : Disk Name Content) (op : DirOp Name Content) : Disk Name Content :=
  match op, disk.pending.getLast? with
  | .write name content, some (.write last _) =>
    if name = last then { disk with pending := disk.pending.dropLast ++ [.write name content] }
    else { disk with pending := disk.pending ++ [op] }
  | _, _ => { disk with pending := disk.pending ++ [op] }

/-- Directory and file synchronization: nothing is pending any more. -/
def sync (disk : Disk Name Content) : Disk Name Content := ⟨disk.visible, []⟩

/-- A crash keeps the durable state and any of the pending operations. -/
def Crash (disk : Disk Name Content) (dir : Directory Name Content) : Prop :=
  ∃ kept, kept.Sublist disk.pending ∧ dir = applyAll disk.durable kept

theorem crash_visible (disk : Disk Name Content) : disk.Crash disk.visible :=
  ⟨disk.pending, List.Sublist.refl _, rfl⟩

@[simp] theorem visible_sync (disk : Disk Name Content) : disk.sync.visible = disk.visible := rfl

/-- With nothing pending a crash loses nothing. -/
theorem crash_durable {durable dir : Directory Name Content}
    (h : (⟨durable, []⟩ : Disk Name Content).Crash dir) : dir = durable := by
  obtain ⟨kept, hkept, rfl⟩ := h
  rw [List.sublist_nil.mp hkept]
  rfl

theorem crash_sync {disk : Disk Name Content} {dir : Directory Name Content}
    (h : disk.sync.Crash dir) : dir = disk.visible :=
  crash_durable h

theorem push_durable (disk : Disk Name Content) (op : DirOp Name Content) :
    (disk.push op).durable = disk.durable := by
  unfold push
  split
  next => split <;> rfl
  next => rfl

theorem exists_push_pending (disk : Disk Name Content) (op : DirOp Name Content) :
    ∃ init, (disk.push op).pending = init ++ [op] ∧ init <+: disk.pending ∧
      op.apply (applyAll disk.durable init) = op.apply disk.visible := by
  unfold push
  split
  next name content last old hlast =>
    split
    next hname =>
      subst hname
      refine ⟨disk.pending.dropLast, rfl, List.dropLast_prefix _, ?_⟩
      have hsplit : disk.pending = disk.pending.dropLast ++ [.write name old] :=
        (List.dropLast_append_getLast? _ hlast).symm
      have hvisible : disk.visible =
          (DirOp.write name old).apply (applyAll disk.durable disk.pending.dropLast) := by
        calc disk.visible
            = applyAll disk.durable (disk.pending.dropLast ++ [.write name old]) := by
              rw [← hsplit]; rfl
          _ = _ := applyAll_append _ _ _
      rw [hvisible]
      simp only [DirOp.apply, Function.update_idem]
    next => exact ⟨disk.pending, rfl, List.prefix_refl _, rfl⟩
  next => exact ⟨disk.pending, rfl, List.prefix_refl _, rfl⟩

@[simp] theorem visible_push (disk : Disk Name Content) (op : DirOp Name Content) :
    (disk.push op).visible = op.apply disk.visible := by
  obtain ⟨init, hpending, -, happly⟩ := exists_push_pending disk op
  rw [visible, push_durable, hpending, applyAll_append, ← happly]
  rfl

/-- A crash after an operation shows a crash state from before it, with or
without the operation. -/
theorem crash_push {disk : Disk Name Content} {op : DirOp Name Content}
    {dir : Directory Name Content} (h : (disk.push op).Crash dir) :
    ∃ before, disk.Crash before ∧ (dir = before ∨ dir = op.apply before) := by
  obtain ⟨kept, hkept, rfl⟩ := h
  obtain ⟨init, hpending, hinit, -⟩ := exists_push_pending disk op
  rw [hpending] at hkept
  obtain ⟨first, last, rfl, hfirst, hlast⟩ := List.sublist_append_iff.mp hkept
  refine ⟨applyAll disk.durable first, ⟨first, hfirst.trans hinit.sublist, rfl⟩, ?_⟩
  rw [push_durable, applyAll_append]
  rcases List.sublist_singleton.mp hlast with rfl | rfl
  · exact Or.inl rfl
  · exact Or.inr rfl

/-- Names no pending operation touches are the same in every crash state. -/
theorem crash_of_not_mem {disk : Disk Name Content} {dir : Directory Name Content} {name : Name}
    (h : ∀ op ∈ disk.pending, name ∉ op.touches) (hcrash : disk.Crash dir) :
    dir name = disk.visible name := by
  obtain ⟨kept, hkept, rfl⟩ := hcrash
  rw [visible, applyAll_of_not_mem fun op hmem => h op (hkept.subset hmem),
    applyAll_of_not_mem h]

end Disk

end HerdrContext.Library
