import HerdrContext.Index.Atomicity
import HerdrContext.Index.RoundTrip

/-! Several processes publish into one cache directory, one file-system step at
a time. The pointer keeps naming a whole cache file as long as no run replaces
it behind a newer run's back. -/
namespace HerdrContext.Index

open Library

/-! ## Interleaved runs -/

/-- The runs of all processes, told apart by process id and nonce. -/
structure Publishers where
  runs : Publication → Prop
  unique : ∀ {run other : Publication}, runs run → runs other → run.process = other.process →
    run.nonce = other.nonce → run = other

/-- The directory and where every run is. -/
structure Shared where
  dir : CacheDir
  phase : Publication → Phase

def Effect.apply (dir : CacheDir) : Effect → CacheDir
  | .none => dir
  | .op operation => operation.apply dir
  | .sync => dir

namespace Phase

/-- The run's cache file is out and its pointer is not. -/
def offering (phase : Phase) : Prop :=
  phase = .published ∨ phase = .synced ∨ phase = .creatingPointer ∨ phase = .pointerWritten

/-- The run may still remove older generations. -/
def clearing (phase : Phase) : Prop := phase = .replaced ∨ phase = .cleaning

/-- The run has replaced the pointer. -/
def pointed (phase : Phase) : Prop := phase.clearing ∨ phase = .done ∨ phase = .failed true

end Phase

namespace Shared

/-- One file-system step of one run. -/
def advance (s : Shared) (run : Publication) (effect : Effect) (next : Phase) : Shared :=
  ⟨effect.apply s.dir, Function.update s.phase run next⟩

/-- Steps of the runs in any order; a process may stop anywhere, and one that
opens the index removes the temporaries, whoever they belong to. -/
inductive Step (publishers : Publishers) : Shared → Shared → Prop where
  | advance {s : Shared} {run : Publication} {effect : Effect} {next : Phase}
    (mem : publishers.runs run) (step : Index.Step run s.dir (s.phase run) effect next) :
    Step publishers s (s.advance run effect next)
  | stop {s : Shared} {run : Publication} (mem : publishers.runs run)
    (running : (s.phase run).ending = none) :
    Step publishers s (s.advance run .none (.failed false))
  | clean {s : Shared} {name : EntryName}
    (stale : isTemporaryCacheFile name ∨ isTemporaryPointerFile name) :
    Step publishers s ⟨(DirOp.unlink name).apply s.dir, s.phase⟩

/-- No run has started, or some have ended behind a pointer to a whole file. -/
def Initial (publishers : Publishers) (s : Shared) : Prop :=
  (s.dir pointerName = none ∧ ∀ run, publishers.runs run → s.phase run = .start) ∨
    ((∀ run, publishers.runs run → s.phase run = .start ∨ s.phase run = .done) ∧
      ∃ first, publishers.runs first ∧ first.IsNew s.dir)

inductive Reaches (publishers : Publishers) (s₀ : Shared) : Shared → Prop where
  | start : Reaches publishers s₀ s₀
  | step {s s' : Shared} : Reaches publishers s₀ s → Step publishers s s' → Reaches publishers s₀ s'

/-- The run's cache file is still there, and whoever may still remove older
generations is not newer. -/
def Guard (publishers : Publishers) (s : Shared) (run : Publication) : Prop :=
  s.dir run.published ≠ none ∧
    ∀ other, publishers.runs other → (s.phase other).clearing → other.generation ≤ run.generation

/-- Reached with every replacement of the pointer guarded. -/
inductive Guarded (publishers : Publishers) (s₀ : Shared) : Shared → Prop where
  | start : Guarded publishers s₀ s₀
  | step {s s' : Shared} : Guarded publishers s₀ s → Step publishers s s' →
    (∀ run, publishers.runs run → s.phase run = .pointerWritten → s'.phase run = .replaced →
      Guard publishers s run) →
    Guarded publishers s₀ s'

end Shared

/-! ## What one step of a run does to the directory -/

section

variable {run : Publication} {dir : CacheDir} {phase next : Phase} {effect : Effect}
  {name : EntryName}

theorem writeThrough_apply_of_ne {target : EntryName} {content : Bytes} (h : name ≠ target) :
    (writeThrough dir target content).apply dir name = dir name := by
  unfold writeThrough
  split
  next => rfl
  next => exact DirOp.write_apply_of_ne h content

theorem writeThrough_apply_self {content : Bytes}
    (h : (writeThrough dir name content).apply dir name ≠ none) :
    (writeThrough dir name content).apply dir name = some content := by
  unfold writeThrough at h ⊢
  split
  next hgone =>
    rw [if_pos hgone] at h
    exact (h hgone).elim
  next => exact DirOp.write_apply_self _ _ _

theorem discards_apply_of_ne {target : EntryName} (hdiscards : effect.discards target)
    (h : name ≠ target) : effect.apply dir name = dir name := by
  rcases hdiscards with rfl | rfl
  · rfl
  · exact DirOp.unlink_apply_of_ne h

/-- Beside its own names and the pointer a run only removes older generations. -/
theorem step_other (h : Step run dir phase effect next) (hown : name ∉ run.ownNames)
    (hpointer : name ≠ pointerName) :
    effect.apply dir name = dir name ∨
      effect.apply dir name = none ∧ phase = .cleaning ∧ isOlder run name := by
  simp only [Publication.ownNames, List.mem_cons, List.not_mem_nil, or_false, not_or] at hown
  obtain ⟨htemporary, hpointerTemporary, hpublished⟩ := hown
  cases h with
  | create => exact Or.inl (DirOp.write_apply_of_ne htemporary [])
  | chunk => exact Or.inl (writeThrough_apply_of_ne htemporary)
  | fill => exact Or.inl (writeThrough_apply_of_ne htemporary)
  | cancel => exact Or.inl (DirOp.unlink_apply_of_ne htemporary)
  | publish => exact Or.inl (DirOp.rename_apply_of_ne htemporary hpublished)
  | failTemporary phases discards => exact Or.inl (discards_apply_of_ne discards htemporary)
  | syncPublished => exact Or.inl rfl
  | failSyncPublished => exact Or.inl rfl
  | createPointer => exact Or.inl (DirOp.write_apply_of_ne hpointerTemporary [])
  | chunkPointer => exact Or.inl (writeThrough_apply_of_ne hpointerTemporary)
  | fillPointer => exact Or.inl (writeThrough_apply_of_ne hpointerTemporary)
  | replacePointer => exact Or.inl (DirOp.rename_apply_of_ne hpointerTemporary hpointer)
  | failPointer phases discards => exact Or.inl (discards_apply_of_ne discards hpointerTemporary)
  | syncReplaced => exact Or.inl rfl
  | @removeOlder target present older =>
    by_cases htarget : name = target
    · subst htarget
      exact Or.inr ⟨DirOp.unlink_apply_self _ _, rfl, older⟩
    · exact Or.inl (DirOp.unlink_apply_of_ne htarget)
  | failLate => exact Or.inl rfl
  | finish => exact Or.inl rfl

/-- Only the replacement of the pointer changes it. -/
theorem step_pointer (h : Step run dir phase effect next) :
    effect.apply dir pointerName = dir pointerName ∧ next ≠ .replaced ∨
      effect = .op (.rename run.pointerTemporary pointerName) ∧ phase = .pointerWritten ∧
        next = .replaced ∧ dir run.pointerTemporary ≠ none := by
  have htemporary : pointerName ≠ run.temporary := run.temporary_ne_pointerName.symm
  have hpointerTemporary : pointerName ≠ run.pointerTemporary := published_ne.2.2.symm
  have hpublished : pointerName ≠ run.published := published_ne.2.1.symm
  cases h with
  | create => exact Or.inl ⟨DirOp.write_apply_of_ne htemporary [], by simp⟩
  | chunk => exact Or.inl ⟨writeThrough_apply_of_ne htemporary, by simp⟩
  | fill => exact Or.inl ⟨writeThrough_apply_of_ne htemporary, by simp⟩
  | cancel => exact Or.inl ⟨DirOp.unlink_apply_of_ne htemporary, by simp⟩
  | publish => exact Or.inl ⟨DirOp.rename_apply_of_ne htemporary hpublished, by simp⟩
  | failTemporary phases discards =>
    exact Or.inl ⟨discards_apply_of_ne discards htemporary, by simp⟩
  | syncPublished => exact Or.inl ⟨rfl, by simp⟩
  | failSyncPublished => exact Or.inl ⟨rfl, by simp⟩
  | createPointer => exact Or.inl ⟨DirOp.write_apply_of_ne hpointerTemporary [], by simp⟩
  | chunkPointer => exact Or.inl ⟨writeThrough_apply_of_ne hpointerTemporary, by simp⟩
  | fillPointer => exact Or.inl ⟨writeThrough_apply_of_ne hpointerTemporary, by simp⟩
  | replacePointer present => exact Or.inr ⟨rfl, rfl, rfl, present⟩
  | failPointer phases discards =>
    exact Or.inl ⟨discards_apply_of_ne discards hpointerTemporary, by simp⟩
  | syncReplaced => exact Or.inl ⟨rfl, by simp⟩
  | @removeOlder target present older =>
    refine Or.inl ⟨DirOp.unlink_apply_of_ne ?_, by simp⟩
    rintro rfl
    obtain ⟨-, value, hvalue, -⟩ := older
    rw [cacheGeneration_pointerName] at hvalue
    contradiction
  | failLate => exact Or.inl ⟨rfl, by simp⟩
  | finish => exact Or.inl ⟨rfl, by simp⟩

/-- A run's cache file appears when it is renamed to its name, and no step of
the run itself removes it. -/
theorem step_published (h : Step run dir phase effect next) :
    effect.apply dir run.published = dir run.published ∧ (next.offering → phase.offering) ∨
      effect.apply dir run.published = dir run.temporary ∧ phase = .written ∧
        dir run.temporary ≠ none := by
  have htemporary := run.published_ne run.cacheGeneration_temporary
  obtain ⟨hpointerTemporary, hpointer, -⟩ := @published_ne run
  cases h with
  | create =>
    exact Or.inl ⟨DirOp.write_apply_of_ne htemporary [], by simp [Phase.offering]⟩
  | chunk => exact Or.inl ⟨writeThrough_apply_of_ne htemporary, by simp [Phase.offering]⟩
  | fill => exact Or.inl ⟨writeThrough_apply_of_ne htemporary, by simp [Phase.offering]⟩
  | cancel => exact Or.inl ⟨DirOp.unlink_apply_of_ne htemporary, by simp [Phase.offering]⟩
  | publish present =>
    obtain ⟨content, hcontent⟩ := Option.ne_none_iff_exists'.mp present
    refine Or.inr ⟨?_, rfl, present⟩
    rw [Effect.apply, DirOp.rename_apply_target hcontent, hcontent]
  | failTemporary phases discards =>
    exact Or.inl ⟨discards_apply_of_ne discards htemporary, by simp [Phase.offering]⟩
  | syncPublished => exact Or.inl ⟨rfl, by simp [Phase.offering]⟩
  | failSyncPublished => exact Or.inl ⟨rfl, by simp [Phase.offering]⟩
  | createPointer =>
    exact Or.inl ⟨DirOp.write_apply_of_ne hpointerTemporary [], by simp [Phase.offering]⟩
  | chunkPointer => exact Or.inl ⟨writeThrough_apply_of_ne hpointerTemporary, by simp⟩
  | fillPointer =>
    exact Or.inl ⟨writeThrough_apply_of_ne hpointerTemporary, by simp [Phase.offering]⟩
  | replacePointer =>
    exact Or.inl ⟨DirOp.rename_apply_of_ne hpointerTemporary hpointer, by simp [Phase.offering]⟩
  | failPointer phases discards =>
    exact Or.inl ⟨discards_apply_of_ne discards hpointerTemporary, by simp [Phase.offering]⟩
  | syncReplaced => exact Or.inl ⟨rfl, by simp [Phase.offering]⟩
  | removeOlder present older =>
    exact Or.inl ⟨DirOp.unlink_apply_of_ne older.1.symm, by simp⟩
  | failLate => exact Or.inl ⟨rfl, by simp [Phase.offering]⟩
  | finish => exact Or.inl ⟨rfl, by simp [Phase.offering]⟩

theorem step_temporary (h : Step run dir phase effect .written)
    (hpresent : effect.apply dir run.temporary ≠ none) :
    effect.apply dir run.temporary = some run.bytes := by
  cases h with
  | fill => exact writeThrough_apply_self hpresent

theorem step_pointerTemporary (h : Step run dir phase effect .pointerWritten)
    (hpresent : effect.apply dir run.pointerTemporary ≠ none) :
    effect.apply dir run.pointerTemporary = some (nameBytes run.published) := by
  cases h with
  | fillPointer => exact writeThrough_apply_self hpresent

/-- Who may remove older generations has replaced the pointer before. -/
theorem step_clearing (h : Step run dir phase effect next) (hnext : next.clearing) :
    next = .replaced ∨ phase.clearing := by
  cases h with
  | replacePointer => exact Or.inl rfl
  | syncReplaced => exact Or.inr (Or.inl rfl)
  | removeOlder => exact Or.inr (Or.inr rfl)
  | _ => simp [Phase.clearing] at hnext

theorem step_pointed (h : Step run dir phase effect next) (hnext : next.pointed) :
    next = .replaced ∨ phase.pointed := by
  cases h with
  | replacePointer => exact Or.inl rfl
  | syncReplaced => exact Or.inr (Or.inl (Or.inl rfl))
  | removeOlder => exact Or.inr (Or.inl (Or.inr rfl))
  | failLate phases => exact Or.inr (Or.inl phases)
  | finish => exact Or.inr (Or.inl (Or.inr rfl))
  | _ => simp [Phase.pointed, Phase.clearing] at hnext

end

/-! ## Names of different runs -/

namespace Publishers

variable {publishers : Publishers} {run other : Publication}

/-- A run leaves the names of every other run alone. -/
theorem not_mem_ownNames (publishers : Publishers) (hrun : publishers.runs run)
    (hother : publishers.runs other) (hne : other ≠ run) :
    other.temporary ∉ run.ownNames ∧ other.pointerTemporary ∉ run.ownNames ∧
      other.published ∉ run.ownNames := by
  have hnonce : ¬ (other.process = run.process ∧ other.nonce = run.nonce) := fun h =>
    hne (publishers.unique hother hrun h.1 h.2)
  simp only [Publication.ownNames, List.mem_cons, List.not_mem_nil, or_false, not_or]
  refine ⟨⟨fun heq => hnonce (Publication.names_injective (.inl heq)), ?_, ?_⟩, ⟨?_, ?_, ?_⟩,
    ?_, ?_, ?_⟩
  · exact (run.pointerTemporary_ne_temporary other).symm
  · exact (run.published_ne other.cacheGeneration_temporary).symm
  · exact other.pointerTemporary_ne_temporary run
  · exact fun heq => hnonce (Publication.names_injective (.inr (.inr heq)))
  · exact (run.published_ne other.cacheGeneration_pointerTemporary).symm
  · exact other.published_ne run.cacheGeneration_temporary
  · exact other.published_ne run.cacheGeneration_pointerTemporary
  · exact fun heq => hnonce (Publication.names_injective (.inr (.inl heq)))

end Publishers

/-! ## The invariant -/

/-- If the entry is there, it has this content. -/
def Holds (dir : CacheDir) (name : EntryName) (content : Bytes) : Prop :=
  dir name ≠ none → dir name = some content

theorem Holds.of_eq {dir dir' : CacheDir} {name : EntryName} {content : Bytes}
    (h : Holds dir name content) (heq : dir' name = dir name ∨ dir' name = none) :
    Holds dir' name content := by
  intro hpresent
  rcases heq with heq | hnone
  · rw [heq] at hpresent ⊢
    exact h hpresent
  · exact (hpresent hnone).elim

namespace Shared

variable {publishers : Publishers} {s s' s₀ : Shared}

/-- Files of a run hold what the run wrote; the pointer names a whole cache
file, and no run that may still remove files is newer than it. -/
structure Inv (publishers : Publishers) (s : Shared) : Prop where
  temporary : ∀ run, publishers.runs run → s.phase run = .written →
    Holds s.dir run.temporary run.bytes
  published : ∀ run, publishers.runs run → (s.phase run).offering →
    Holds s.dir run.published run.bytes
  pointerTemporary : ∀ run, publishers.runs run → s.phase run = .pointerWritten →
    Holds s.dir run.pointerTemporary (nameBytes run.published)
  pointer : (s.dir pointerName = none ∧ ∀ run, publishers.runs run → ¬ (s.phase run).pointed) ∨
    ∃ target, publishers.runs target ∧ target.IsNew s.dir ∧
      ∀ run, publishers.runs run → (s.phase run).clearing → run.generation ≤ target.generation

theorem inv_of_initial (h : Initial publishers s) : Inv publishers s := by
  have hphases : ∀ run, publishers.runs run → s.phase run = .start ∨ s.phase run = .done := by
    rcases h with ⟨-, hstart⟩ | ⟨hphases, -⟩
    · exact fun run hrun => Or.inl (hstart run hrun)
    · exact hphases
  constructor
  · intro run hrun hphase
    rcases hphases run hrun with h | h <;> rw [h] at hphase <;> contradiction
  · intro run hrun hphase
    rcases hphases run hrun with h | h <;> rw [h] at hphase <;> simp [Phase.offering] at hphase
  · intro run hrun hphase
    rcases hphases run hrun with h | h <;> rw [h] at hphase <;> contradiction
  · rcases h with ⟨hnone, hstart⟩ | ⟨-, first, hfirst, hnew⟩
    · refine Or.inl ⟨hnone, fun run hrun => ?_⟩
      rw [hstart run hrun]
      simp [Phase.pointed, Phase.clearing]
    · refine Or.inr ⟨first, hfirst, hnew, fun run hrun hclearing => ?_⟩
      rcases hphases run hrun with h | h <;> rw [h] at hclearing <;>
        simp [Phase.clearing] at hclearing

section

variable {run other : Publication} {effect : Effect} {next : Phase}

theorem dir_advance : (s.advance run effect next).dir = effect.apply s.dir := rfl

theorem phase_advance_self : (s.advance run effect next).phase run = next :=
  Function.update_self _ _ _

theorem phase_advance_of_ne (h : other ≠ run) :
    (s.advance run effect next).phase other = s.phase other :=
  Function.update_of_ne h _ _

/-- What another run's step leaves of an entry with this content. -/
theorem holds_advance_of_ne {name : EntryName} {content : Bytes}
    (hstep : Index.Step run s.dir (s.phase run) effect next) (hown : name ∉ run.ownNames)
    (hpointer : name ≠ pointerName) (h : Holds s.dir name content) :
    Holds (s.advance run effect next).dir name content := by
  apply h.of_eq
  rcases step_other hstep hown hpointer with heq | ⟨hnone, -⟩
  · exact Or.inl heq
  · exact Or.inr hnone

theorem temporary_advance (hinv : Inv publishers s) (hmem : publishers.runs run)
    (hstep : Index.Step run s.dir (s.phase run) effect next) (hother : publishers.runs other)
    (hphase : (s.advance run effect next).phase other = .written) :
    Holds (s.advance run effect next).dir other.temporary other.bytes := by
  by_cases hne : other = run
  · subst hne
    rw [phase_advance_self] at hphase
    subst hphase
    exact step_temporary hstep
  · rw [phase_advance_of_ne hne] at hphase
    apply holds_advance_of_ne hstep (publishers.not_mem_ownNames hmem hother hne).1
    · exact other.temporary_ne_pointerName
    · exact hinv.temporary other hother hphase

theorem pointerTemporary_advance (hinv : Inv publishers s) (hmem : publishers.runs run)
    (hstep : Index.Step run s.dir (s.phase run) effect next) (hother : publishers.runs other)
    (hphase : (s.advance run effect next).phase other = .pointerWritten) :
    Holds (s.advance run effect next).dir other.pointerTemporary (nameBytes other.published) := by
  by_cases hne : other = run
  · subst hne
    rw [phase_advance_self] at hphase
    subst hphase
    exact step_pointerTemporary hstep
  · rw [phase_advance_of_ne hne] at hphase
    apply holds_advance_of_ne hstep (publishers.not_mem_ownNames hmem hother hne).2.1
    · exact published_ne.2.2
    · exact hinv.pointerTemporary other hother hphase

theorem published_advance (hinv : Inv publishers s) (hmem : publishers.runs run)
    (hstep : Index.Step run s.dir (s.phase run) effect next) (hother : publishers.runs other)
    (hphase : ((s.advance run effect next).phase other).offering) :
    Holds (s.advance run effect next).dir other.published other.bytes := by
  by_cases hne : other = run
  · subst hne
    rw [phase_advance_self] at hphase
    rcases step_published hstep with ⟨heq, hoffering⟩ | ⟨heq, hwritten, hpresent⟩
    · exact (hinv.published other hother (hoffering hphase)).of_eq (Or.inl heq)
    · intro _
      rw [dir_advance, heq]
      exact hinv.temporary other hother hwritten hpresent
  · rw [phase_advance_of_ne hne] at hphase
    apply holds_advance_of_ne hstep (publishers.not_mem_ownNames hmem hother hne).2.2
    · exact published_ne.2.1
    · exact hinv.published other hother hphase

/-- A whole cache file stays where it is, unless a newer run removes it. -/
theorem published_kept {target : Publication} (hinv : Inv publishers s)
    (hmem : publishers.runs run) (htarget : publishers.runs target)
    (hstep : Index.Step run s.dir (s.phase run) effect next)
    (hbytes : s.dir target.published = some target.bytes)
    (hclearing : (s.phase run).clearing → run.generation ≤ target.generation) :
    (s.advance run effect next).dir target.published = some target.bytes := by
  by_cases hne : target = run
  · subst hne
    rcases step_published hstep with ⟨heq, -⟩ | ⟨heq, hwritten, hpresent⟩
    · rw [dir_advance, heq, hbytes]
    · rw [dir_advance, heq]
      exact hinv.temporary target htarget hwritten hpresent
  · have hown := (publishers.not_mem_ownNames hmem htarget hne).2.2
    rcases step_other hstep hown published_ne.2.1 with heq | ⟨-, hcleaning, holder⟩
    · rw [dir_advance, heq, hbytes]
    · -- the run in its clean-up is not newer than the target
      obtain ⟨-, value, hvalue, hlt⟩ := holder
      rw [target.cacheGeneration_published] at hvalue
      cases hvalue
      have hle := hclearing (Or.inr hcleaning)
      rw [UInt64.le_iff_toNat_le] at hle
      rw [UInt64.lt_iff_toNat_lt] at hlt
      omega

/-- Behind its own guarded replacement a run is what the pointer names. -/
theorem isNew_advance_replace (hinv : Inv publishers s) (hmem : publishers.runs run)
    (hphase : s.phase run = .pointerWritten) (hpresent : s.dir run.pointerTemporary ≠ none)
    (hguard : s.dir run.published ≠ none) :
    run.IsNew (s.advance run (.op (.rename run.pointerTemporary pointerName)) .replaced).dir := by
  apply isNew_replacePointer
  · exact hinv.published run hmem (by simp [hphase, Phase.offering]) hguard
  · exact hinv.pointerTemporary run hmem hphase hpresent

theorem inv_advance (hinv : Inv publishers s) (hmem : publishers.runs run)
    (hstep : Index.Step run s.dir (s.phase run) effect next)
    (hguard : s.phase run = .pointerWritten → next = .replaced → Guard publishers s run) :
    Inv publishers (s.advance run effect next) where
  temporary other hother := temporary_advance hinv hmem hstep hother
  published other hother := published_advance hinv hmem hstep hother
  pointerTemporary other hother := pointerTemporary_advance hinv hmem hstep hother
  pointer := by
    rcases step_pointer hstep with ⟨hkept, hnext⟩ | ⟨rfl, hphase, rfl, hpresent⟩
    · rcases hinv.pointer with ⟨hnone, hpointed⟩ | ⟨target, htarget, hnew, hnewest⟩
      · refine Or.inl ⟨hkept.trans hnone, fun other hother hphase => ?_⟩
        by_cases hne : other = run
        · subst hne
          rw [phase_advance_self] at hphase
          exact hpointed other hother ((step_pointed hstep hphase).resolve_left hnext)
        · rw [phase_advance_of_ne hne] at hphase
          exact hpointed other hother hphase
      · refine Or.inr ⟨target, htarget, ⟨hkept.trans hnew.1, ?_⟩, fun other hother hphase => ?_⟩
        · exact published_kept hinv hmem htarget hstep hnew.2 (hnewest run hmem)
        · by_cases hne : other = run
          · subst hne
            rw [phase_advance_self] at hphase
            exact hnewest other hother ((step_clearing hstep hphase).resolve_left hnext)
          · rw [phase_advance_of_ne hne] at hphase
            exact hnewest other hother hphase
    · obtain ⟨hpublished, hnewest⟩ := hguard hphase rfl
      refine Or.inr ⟨run, hmem, isNew_advance_replace hinv hmem hphase hpresent hpublished, ?_⟩
      intro other hother hclearing
      by_cases hne : other = run
      · subst hne
        exact UInt64.le_refl _
      · rw [phase_advance_of_ne hne] at hclearing
        exact hnewest other hother hclearing

theorem inv_clean {name : EntryName} (hinv : Inv publishers s)
    (hstale : isTemporaryCacheFile name ∨ isTemporaryPointerFile name) :
    Inv publishers ⟨(DirOp.unlink name).apply s.dir, s.phase⟩ := by
  have hunlink : ∀ other, (DirOp.unlink name).apply s.dir other = s.dir other ∨
      (DirOp.unlink name).apply s.dir other = none := by
    intro other
    by_cases hother : other = name
    · subst hother
      exact Or.inr (DirOp.unlink_apply_self _ _)
    · exact Or.inl (DirOp.unlink_apply_of_ne hother)
  constructor
  · intro run hrun hphase
    exact (hinv.temporary run hrun hphase).of_eq (hunlink _)
  · intro run hrun hphase
    exact (hinv.published run hrun hphase).of_eq (hunlink _)
  · intro run hrun hphase
    exact (hinv.pointerTemporary run hrun hphase).of_eq (hunlink _)
  · have hpointer : (DirOp.unlink name).apply s.dir pointerName = s.dir pointerName :=
      DirOp.unlink_apply_of_ne (temporary_ne hstale).1.symm
    rcases hinv.pointer with ⟨hnone, hpointed⟩ | ⟨target, htarget, hnew, hnewest⟩
    · exact Or.inl ⟨hpointer.trans hnone, hpointed⟩
    · refine Or.inr ⟨target, htarget, ⟨hpointer.trans hnew.1, ?_⟩, hnewest⟩
      exact (DirOp.unlink_apply_of_ne (target.published_ne (temporary_ne hstale).2)).trans hnew.2

/-- A process that stops does nothing any more. -/
theorem inv_stop (hinv : Inv publishers s) :
    Inv publishers (s.advance run .none (.failed false)) := by
  have hphase : ∀ {other}, other ≠ run →
      (s.advance run .none (.failed false)).phase other = s.phase other := phase_advance_of_ne
  have hself : (s.advance run .none (.failed false)).phase run = .failed false :=
    phase_advance_self
  constructor
  · intro other hother hwritten
    by_cases hne : other = run
    · subst hne
      rw [hself] at hwritten
      contradiction
    · exact hinv.temporary other hother (hphase hne ▸ hwritten)
  · intro other hother hoffering
    by_cases hne : other = run
    · subst hne
      rw [hself] at hoffering
      simp [Phase.offering] at hoffering
    · exact hinv.published other hother (hphase hne ▸ hoffering)
  · intro other hother hwritten
    by_cases hne : other = run
    · subst hne
      rw [hself] at hwritten
      contradiction
    · exact hinv.pointerTemporary other hother (hphase hne ▸ hwritten)
  · rcases hinv.pointer with ⟨hnone, hpointed⟩ | ⟨target, htarget, hnew, hnewest⟩
    · refine Or.inl ⟨hnone, fun other hother hend => ?_⟩
      by_cases hne : other = run
      · subst hne
        rw [hself] at hend
        simp [Phase.pointed, Phase.clearing] at hend
      · exact hpointed other hother (hphase hne ▸ hend)
    · refine Or.inr ⟨target, htarget, hnew, fun other hother hclearing => ?_⟩
      by_cases hne : other = run
      · subst hne
        rw [hself] at hclearing
        simp [Phase.clearing] at hclearing
      · exact hnewest other hother (hphase hne ▸ hclearing)

/-- A guarded step keeps the invariant. -/
theorem inv_step (hinv : Inv publishers s) (hstep : Step publishers s s')
    (hguard : ∀ run, publishers.runs run → s.phase run = .pointerWritten →
      s'.phase run = .replaced → Guard publishers s run) : Inv publishers s' := by
  cases hstep with
  | advance mem step =>
    refine inv_advance hinv mem step fun hphase hnext => hguard _ mem hphase ?_
    rw [phase_advance_self, hnext]
  | stop mem running => exact inv_stop hinv
  | clean stale => exact inv_clean hinv stale

theorem inv_guarded (hinitial : Initial publishers s₀) (h : Guarded publishers s₀ s) :
    Inv publishers s := by
  induction h with
  | start => exact inv_of_initial hinitial
  | step _ hstep hguard ih => exact inv_step ih hstep hguard

end

end Shared

/-! ## What a concurrent opening loads -/

/-- Publishers of one project: every run persists a page of some index state. -/
structure ProjectPublishers (codec : IndexCodec) (project : ProjectIdentity) extends
    Publishers where
  attempt : ∀ run, runs run → ∃ index, ∃ attempt : Attempt codec project index,
    Reachable codec project index ∧ attempt.run = run

/-- A process that opens the project now loads what one of the runs persisted. -/
def Served {codec : IndexCodec} {project : ProjectIdentity}
    (publishers : ProjectPublishers codec project) (dir : CacheDir) : Prop :=
  ∃ index, ∃ attempt : Attempt codec project index, publishers.runs attempt.run ∧
    attempt.run.IsNew dir ∧ ∀ maxEntries,
      openIndex codec project maxEntries dir = .ok (attempt.after.reopenedWith maxEntries)

theorem served_of_isNew {codec : IndexCodec} {project : ProjectIdentity}
    {publishers : ProjectPublishers codec project} {run : Publication} {dir : CacheDir}
    (hroot : NulFree project.root) (hrun : publishers.runs run) (h : run.IsNew dir) :
    Served publishers dir := by
  obtain ⟨index, attempt, hreachable, rfl⟩ := publishers.attempt run hrun
  exact ⟨index, attempt, hrun, h, fun maxEntries =>
    openIndex_of_isNew hroot hreachable maxEntries h⟩

namespace Shared

theorem Guarded.reaches {publishers : Publishers} {s₀ s : Shared}
    (h : Guarded publishers s₀ s) : Reaches publishers s₀ s := by
  induction h with
  | start => exact .start
  | step _ hstep _ ih => exact ih.step hstep

section

variable {publishers : Publishers} {s₀ s : Shared} {run : Publication} {phase next : Phase}
  {effect : Effect}

theorem Guarded.advance (h : Guarded publishers s₀ s) (hmem : publishers.runs run)
    (hphase : s.phase run = phase) (hstep : Index.Step run s.dir phase effect next)
    (hguard : next = .replaced → Guard publishers s run) :
    Guarded publishers s₀ (s.advance run effect next) := by
  subst hphase
  refine h.step (.advance hmem hstep) ?_
  intro other hother hwritten hreplaced
  by_cases hne : other = run
  · subst hne
    rw [phase_advance_self] at hreplaced
    exact hguard hreplaced
  · rw [phase_advance_of_ne hne, hwritten] at hreplaced
    contradiction

theorem Reaches.advance (h : Reaches publishers s₀ s) (hmem : publishers.runs run)
    (hphase : s.phase run = phase) (hstep : Index.Step run s.dir phase effect next) :
    Reaches publishers s₀ (s.advance run effect next) := by
  subst hphase
  exact h.step (.advance hmem hstep)

/-- What a run does before it replaces the pointer. -/
def offeringOps (run : Publication) : List CacheOp :=
  [.write run.temporary [], .write run.temporary run.bytes, .rename run.temporary run.published,
    .write run.pointerTemporary [], .write run.pointerTemporary (nameBytes run.published)]

/-- Undisturbed, a run gets to the point where only the pointer is missing. -/
theorem guarded_offer (h : Guarded publishers s₀ s) (hmem : publishers.runs run)
    (hphase : s.phase run = .start) (htemporary : s.dir run.temporary = none)
    (hpointer : s.dir run.pointerTemporary = none) :
    Guarded publishers s₀
      ⟨applyAll s.dir (offeringOps run), Function.update s.phase run .pointerWritten⟩ := by
  have hne := run.pointerTemporary_ne_temporary run
  have hpublished : run.pointerTemporary ≠ run.published := published_ne.1.symm
  have hcreated := h.advance hmem hphase (.create htemporary) (by simp)
  have hwritten := hcreated.advance hmem phase_advance_self .fill (by simp)
  rw [writeThrough_of_present (by simp [dir_advance, Effect.apply])] at hwritten
  have hout := hwritten.advance hmem phase_advance_self
    (.publish (by simp [dir_advance, Effect.apply])) (by simp)
  have hsynced := hout.advance hmem phase_advance_self .syncPublished (by simp)
  have hcreatedPointer := hsynced.advance hmem phase_advance_self
    (.createPointer (by
      simp only [dir_advance, Effect.apply]
      rw [DirOp.rename_apply_of_ne hne hpublished, DirOp.write_apply_of_ne hne,
        DirOp.write_apply_of_ne hne, hpointer])) (by simp)
  have hpointerWritten := hcreatedPointer.advance hmem phase_advance_self .fillPointer (by simp)
  rw [writeThrough_of_present (by simp [dir_advance, Effect.apply])] at hpointerWritten
  simp only [Shared.advance, Function.update_idem] at hpointerWritten
  exact hpointerWritten

theorem applyAll_offeringOps (run : Publication) (dir : CacheDir) :
    applyAll dir (offeringOps run) run.published = some run.bytes ∧
      applyAll dir (offeringOps run) run.pointerTemporary = some (nameBytes run.published) ∧
      ∀ name, name ∉ run.ownNames → applyAll dir (offeringOps run) name = dir name := by
  have hpublished : run.published ≠ run.pointerTemporary := published_ne.1
  refine ⟨?_, DirOp.write_apply_self _ _ _, fun name hname => ?_⟩
  · simp only [applyAll, offeringOps, List.foldl_cons, List.foldl_nil]
    rw [DirOp.write_apply_of_ne hpublished, DirOp.write_apply_of_ne hpublished]
    exact DirOp.rename_apply_target (DirOp.write_apply_self _ _ _)
  · apply applyAll_of_not_mem
    intro op hop htouched
    apply hname
    simp only [offeringOps, List.mem_cons, List.not_mem_nil, or_false] at hop
    rcases hop with rfl | rfl | rfl | rfl | rfl <;>
      simp only [DirOp.touches, List.mem_cons, List.not_mem_nil, or_false] at htouched <;>
      simp only [Publication.ownNames, List.mem_cons, List.not_mem_nil, or_false] <;> tauto

/-- Only the pointer is missing. -/
structure Ready (s : Shared) (run : Publication) : Prop where
  phase : s.phase run = .pointerWritten
  published : s.dir run.published = some run.bytes
  pointerTemporary : s.dir run.pointerTemporary = some (nameBytes run.published)

/-- While no other run may remove files, a ready run completes. -/
theorem guarded_complete (h : Guarded publishers s₀ s) (hmem : publishers.runs run)
    (hready : Ready s run)
    (hothers : ∀ other, publishers.runs other → other ≠ run → ¬ (s.phase other).clearing) :
    ∃ s', Guarded publishers s₀ s' ∧ s'.phase run = .done := by
  have hguard : Guard publishers s run := by
    refine ⟨by rw [hready.published]; simp, fun other hother hclearing => ?_⟩
    by_cases hne : other = run
    · subst hne
      exact UInt64.le_refl _
    · exact (hothers other hother hne hclearing).elim
  have hreplaced := h.advance hmem hready.phase
    (.replacePointer (by rw [hready.pointerTemporary]; simp)) (fun _ => hguard)
  have hcleaning := hreplaced.advance hmem phase_advance_self .syncReplaced (by simp)
  have hdone := hcleaning.advance hmem phase_advance_self .finish (by simp)
  exact ⟨_, hdone, phase_advance_self⟩

/-- A second run gets there as well. -/
theorem guarded_offer_both {slow fast : Publication} {dir : CacheDir} {phases : Publication → Phase}
    (h : Guarded publishers s₀
      ⟨applyAll dir (offeringOps slow), Function.update phases slow .pointerWritten⟩)
    (hslow : publishers.runs slow) (hfast : publishers.runs fast) (hne : fast ≠ slow)
    (hphase : Function.update phases slow .pointerWritten fast = .start)
    (htemporary : dir fast.temporary = none) (hpointer : dir fast.pointerTemporary = none) :
    ∃ s, Guarded publishers s₀ s ∧ Ready s slow ∧ Ready s fast := by
  obtain ⟨hslowTemporary, hslowPointer, -⟩ := publishers.not_mem_ownNames hslow hfast hne
  obtain ⟨-, hfastPointer, hfastPublished⟩ := publishers.not_mem_ownNames hfast hslow hne.symm
  obtain ⟨hslowFile, hslowName, hslowKept⟩ := applyAll_offeringOps slow dir
  obtain ⟨hfastFile, hfastName, hfastKept⟩ :=
    applyAll_offeringOps fast (applyAll dir (offeringOps slow))
  have hboth := guarded_offer h hfast hphase ((hslowKept _ hslowTemporary).trans htemporary)
    ((hslowKept _ hslowPointer).trans hpointer)
  refine ⟨_, hboth, ⟨?_, ?_, ?_⟩, Function.update_self _ _ _, hfastFile, hfastName⟩
  · exact (Function.update_of_ne hne.symm _ _).trans (Function.update_self _ _ _)
  · exact (hfastKept _ hfastPublished).trans hslowFile
  · exact (hfastKept _ hfastPointer).trans hslowName

/-- If the faster run replaces the pointer first and the slower, older one next,
the faster one's clean-up removes the file the pointer names. -/
theorem reaches_dangling {slow fast : Publication} (h : Reaches publishers s₀ s)
    (hslow : publishers.runs slow) (hfast : publishers.runs fast)
    (hslowReady : Ready s slow) (hfastReady : Ready s fast)
    (hlt : slow.generation < fast.generation) :
    ∃ s', Reaches publishers s₀ s' ∧ s'.phase fast = .done ∧
      s'.dir pointerName = some (nameBytes slow.published) ∧ s'.dir slow.published = none := by
  have hne : fast ≠ slow := by
    rintro rfl
    exact absurd hlt (UInt64.lt_irrefl _)
  obtain ⟨-, hpointer, hpublished⟩ := publishers.not_mem_ownNames hfast hslow hne.symm
  have hpointerNe : slow.pointerTemporary ≠ fast.pointerTemporary := fun h =>
    hpointer (h ▸ mem_ownNames.2.1)
  have hpublishedNe : slow.published ≠ fast.published := fun h =>
    hpublished (h ▸ mem_ownNames.2.2)
  have hfileNe : ∀ run : Publication, slow.published ≠ run.pointerTemporary :=
    fun run => slow.published_ne run.cacheGeneration_pointerTemporary
  have hreplaced := h.advance hfast hfastReady.phase
    (.replacePointer (by rw [hfastReady.pointerTemporary]; simp))
  have hcleaning := hreplaced.advance hfast phase_advance_self .syncReplaced
  have hname : ((DirOp.rename fast.pointerTemporary pointerName).apply s.dir)
      slow.pointerTemporary = some (nameBytes slow.published) := by
    rw [DirOp.rename_apply_of_ne hpointerNe published_ne.2.2, hslowReady.pointerTemporary]
  have hphase : ((s.advance fast (.op (.rename fast.pointerTemporary pointerName))
      .replaced).advance fast .sync .cleaning).phase slow = .pointerWritten := by
    rw [phase_advance_of_ne hne.symm, phase_advance_of_ne hne.symm, hslowReady.phase]
  have hrenamed := hcleaning.advance hslow hphase
    (.replacePointer (by
      simp only [dir_advance, Effect.apply]
      rw [hname]
      simp))
  have hfile : ((DirOp.rename slow.pointerTemporary pointerName).apply
      ((DirOp.rename fast.pointerTemporary pointerName).apply s.dir)) slow.published =
      some slow.bytes := by
    rw [DirOp.rename_apply_of_ne (hfileNe slow) published_ne.2.1,
      DirOp.rename_apply_of_ne (hfileNe fast) published_ne.2.1, hslowReady.published]
  have hfastPhase : ((((s.advance fast (.op (.rename fast.pointerTemporary pointerName))
      .replaced).advance fast .sync .cleaning).advance slow
      (.op (.rename slow.pointerTemporary pointerName)) .replaced).phase fast) = .cleaning := by
    rw [phase_advance_of_ne hne, phase_advance_self]
  have hremoved := hrenamed.advance hfast hfastPhase
    (Step.removeOlder (by
      simp only [dir_advance, Effect.apply]
      rw [hfile]
      simp) ⟨hpublishedNe, slow.generation, slow.cacheGeneration_published, hlt⟩)
  have hdone := hremoved.advance hfast phase_advance_self .finish
  refine ⟨_, hdone, phase_advance_self, ?_, ?_⟩
  · simp only [dir_advance, Effect.apply]
    rw [DirOp.unlink_apply_of_ne published_ne.2.1.symm, DirOp.rename_apply_target hname]
  · simp only [dir_advance, Effect.apply]
    exact DirOp.unlink_apply_self _ _

end

end Shared

theorem Sample.one_allowed : 1 ≤ 1 ∧ 1 ≤ maxIndexEntries := by decide

/-- An index of the sample project at some generation, its cache lost. -/
def Sample.indexAt (generation : UInt64) : ConversationIndex :=
  .empty Sample.project generation .rebuiltCorrupt ⟨1, one_allowed⟩

theorem Sample.reachable_indexAt (generation : UInt64) :
    Reachable Json.indexCodec Sample.project (Sample.indexAt generation) := by
  have hopen : ConversationIndex.openCache Json.indexCodec Sample.project ⟨1, by decide⟩
      (some ([], generation)) = Sample.indexAt generation := by
    have hdecode : Json.indexCodec.decode [] = none := by decide +kernel
    simp only [ConversationIndex.openCache, hdecode, Sample.indexAt]
  rw [← hopen]
  exact .opened _ _

namespace Sample

/-- A finished run, a process that had opened the index before it, and one that
has opened it since. -/
structure Trio where
  first : Attempt Json.indexCodec project index
  slow : Attempt Json.indexCodec project index
  fast : Attempt Json.indexCodec project (indexAt 1)
  first_process : first.process = 3
  slow_process : slow.process = 1
  fast_process : fast.process = 2

theorem nonempty_trio : Nonempty Trio := by
  obtain ⟨first, hfirst, -⟩ := exists_attempt rfl isSome_persisted 3 0
  obtain ⟨slow, hslow, -⟩ := exists_attempt rfl isSome_persisted 1 0
  obtain ⟨fast, hfast, -⟩ := exists_attempt rfl
    (by decide +kernel : (persistedFrom (indexAt 1)).isSome) 2 0
  exact ⟨⟨first, slow, fast, hfirst, hslow, hfast⟩⟩

namespace Trio

variable (trio : Trio)

def publishers : ProjectPublishers Json.indexCodec project where
  runs run := run = trio.first.run ∨ run = trio.slow.run ∨ run = trio.fast.run
  unique := by
    have hfirst : trio.first.run.process = 3 := trio.first_process
    have hslow : trio.slow.run.process = 1 := trio.slow_process
    have hfast : trio.fast.run.process = 2 := trio.fast_process
    rintro run other (rfl | rfl | rfl) (rfl | rfl | rfl) hprocess - <;> first
      | rfl
      | (simp only [hfirst, hslow, hfast] at hprocess
         contradiction)
  attempt := by
    rintro run (rfl | rfl | rfl)
    · exact ⟨_, trio.first, .opened _ none, rfl⟩
    · exact ⟨_, trio.slow, .opened _ none, rfl⟩
    · exact ⟨_, trio.fast, reachable_indexAt 1, rfl⟩

def startDir : CacheDir :=
  (DirOp.write pointerName (nameBytes trio.first.run.published)).apply
    ((DirOp.write trio.first.run.published trio.first.run.bytes).apply fun _ => none)

/-- The first run has ended, nothing else has begun. -/
def start : Shared where
  dir := trio.startDir
  phase run := if run = trio.first.run then .done else .start

theorem startDir_isNew : trio.first.run.IsNew trio.startDir := by
  constructor
  · exact DirOp.write_apply_self _ _ _
  · rw [startDir, DirOp.write_apply_of_ne published_ne.2.1, DirOp.write_apply_self]

theorem startDir_of_ne {name : EntryName} (hpointer : name ≠ pointerName)
    (hpublished : name ≠ trio.first.run.published) : trio.startDir name = none := by
  rw [startDir, DirOp.write_apply_of_ne hpointer, DirOp.write_apply_of_ne hpublished]

theorem slow_ne_first : trio.slow.run ≠ trio.first.run := by
  intro h
  have := congrArg Publication.process h
  simp only [Attempt.run, trio.slow_process, trio.first_process] at this
  contradiction

theorem fast_ne_first : trio.fast.run ≠ trio.first.run := by
  intro h
  have := congrArg Publication.process h
  simp only [Attempt.run, trio.fast_process, trio.first_process] at this
  contradiction

theorem fast_ne_slow : trio.fast.run ≠ trio.slow.run := by
  intro h
  have := congrArg Publication.process h
  simp only [Attempt.run, trio.fast_process, trio.slow_process] at this
  contradiction

theorem start_phase {run : Publication} (h : run ≠ trio.first.run) :
    trio.start.phase run = .start :=
  if_neg h

theorem initial_start : Shared.Initial trio.publishers.toPublishers trio.start := by
  refine Or.inr ⟨fun run _ => ?_, trio.first.run, Or.inl rfl, trio.startDir_isNew⟩
  by_cases h : run = trio.first.run
  · exact Or.inr (if_pos h)
  · exact Or.inl (trio.start_phase h)

/-- At the start no run finds its temporaries. -/
theorem start_temporaries (run : Publication) : trio.startDir run.temporary = none ∧
    trio.startDir run.pointerTemporary = none := by
  constructor
  · apply trio.startDir_of_ne run.temporary_ne_pointerName
    exact (trio.first.run.published_ne run.cacheGeneration_temporary).symm
  · apply trio.startDir_of_ne published_ne.2.2
    exact (trio.first.run.published_ne run.cacheGeneration_pointerTemporary).symm

/-- Both processes are about to replace the pointer. -/
theorem exists_ready : ∃ s, Shared.Guarded trio.publishers.toPublishers trio.start s ∧
    Shared.Ready s trio.slow.run ∧ Shared.Ready s trio.fast.run := by
  have hslow : trio.publishers.runs trio.slow.run := Or.inr (Or.inl rfl)
  have hfast : trio.publishers.runs trio.fast.run := Or.inr (Or.inr rfl)
  have hphase := (Function.update_of_ne trio.fast_ne_slow .pointerWritten trio.start.phase).trans
    (trio.start_phase trio.fast_ne_first)
  have hoffered := Shared.guarded_offer .start hslow (trio.start_phase trio.slow_ne_first)
    (trio.start_temporaries trio.slow.run).1 (trio.start_temporaries trio.slow.run).2
  exact Shared.guarded_offer_both hoffered hslow hfast trio.fast_ne_slow hphase
    (trio.start_temporaries trio.fast.run).1 (trio.start_temporaries trio.fast.run).2

theorem generation_lt : trio.slow.run.generation < trio.fast.run.generation := by
  obtain ⟨⟨rows, full, hslow⟩, -⟩ := stagePage_eq_staged trio.slow.staged
  obtain ⟨⟨rows, full, hfast⟩, -⟩ := stagePage_eq_staged trio.fast.staged
  simp only [Attempt.run, hslow.generation_eq, hfast.generation_eq]
  decide

/-- Nobody else replaces the pointer: the fast process completes. -/
theorem exists_completed : ∃ s, Shared.Guarded trio.publishers.toPublishers trio.start s ∧
    s.phase trio.fast.run = .done := by
  have hfast : trio.publishers.runs trio.fast.run := Or.inr (Or.inr rfl)
  obtain ⟨htemporary, hpointer⟩ := trio.start_temporaries trio.fast.run
  have hoffered := Shared.guarded_offer .start hfast (trio.start_phase trio.fast_ne_first) htemporary
    hpointer
  obtain ⟨hfile, hname, -⟩ := Shared.applyAll_offeringOps trio.fast.run trio.start.dir
  apply Shared.guarded_complete hoffered hfast ⟨Function.update_self _ _ _, hfile, hname⟩
  intro other _ hne
  change ¬ (Function.update trio.start.phase trio.fast.run .pointerWritten other).clearing
  rw [Function.update_of_ne hne]
  by_cases hfirst : other = trio.first.run
  · simp [start, hfirst, Phase.clearing]
  · simp [start, hfirst, Phase.clearing]

end Trio

end Sample

end HerdrContext.Index
