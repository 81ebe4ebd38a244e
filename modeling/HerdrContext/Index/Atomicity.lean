import HerdrContext.Index.CrashSafety

/-! A page is atomic on disk, and whoever is told that it failed or was
cancelled still holds what opening would load, unless the failure came after
the pointer had been replaced. -/
namespace HerdrContext.Index

open Library

/-! ## Pages of one process -/

/-- A page that was staged and encoded, and the names its run will use. -/
structure Attempt (codec : IndexCodec) (project : ProjectIdentity) (index : ConversationIndex) where
  config : ConversationsConfig
  registry : SourceRegistry
  limit : DiscoveryLimit
  budget : MetadataBudget
  cancelled : Cancellation
  discovery : ConversationDiscovery
  after : ConversationIndex
  refresh : IndexRefresh
  bytes : Bytes
  process : UInt32
  nonce : UInt64
  configured : ConfiguredBy config registry
  discovered : discovery = Discovery.discoverConversations project index.watermarks limit budget
    cancelled registry
  paths : ∀ conversation ∈ discovery.conversations, ConversationIndex.PathsNulFree conversation
  staged : stagePage index registry discovery cancelled = .ok (.staged (after, refresh))
  encoded : after.encode codec = .ok bytes

section

variable {codec : IndexCodec} {project : ProjectIdentity} {maxEntries : MaxEntries}
  {index : ConversationIndex} {disk : CacheDisk}

def Attempt.run (attempt : Attempt codec project index) : Publication :=
  ⟨attempt.after.generation, attempt.bytes, attempt.process, attempt.nonce⟩

/-- No pointer names the file the run is about to write. -/
def Publication.Fresh (run : Publication) (disk : CacheDisk) : Prop :=
  ∀ dir, disk.Crash dir → pointedName dir ≠ some run.published

variable (codec project) in
/-- One call of `refresh_page_cancellable`: its end, and the memory and the
disk it leaves. -/
inductive PageEnd (index : ConversationIndex) (disk : CacheDisk) :
    Ending → ConversationIndex → CacheDisk → Prop where
  | stagingFailed {registry : SourceRegistry} {discovery : ConversationDiscovery}
    {cancelled : Cancellation} {error : IndexError}
    (staged : stagePage index registry discovery cancelled = .error error) :
    PageEnd index disk (.err false) index disk
  | stagingCancelled {registry : SourceRegistry} {discovery : ConversationDiscovery}
    {cancelled : Cancellation}
    (staged : stagePage index registry discovery cancelled = .ok .cancelled) :
    PageEnd index disk .cancelled index disk
  | encodingFailed {registry : SourceRegistry} {discovery : ConversationDiscovery}
    {cancelled : Cancellation} {after : ConversationIndex} {refresh : IndexRefresh}
    {error : IndexError}
    (staged : stagePage index registry discovery cancelled = .ok (.staged (after, refresh)))
    (encoded : after.encode codec = .error error) : PageEnd index disk (.err false) index disk
  | encodedCancelled (attempt : Attempt codec project index) :
    PageEnd index disk .cancelled index disk
  | persisted {phase : Phase} {ending : Ending} {disk' : CacheDisk}
    (attempt : Attempt codec project index) (fresh : attempt.run.Fresh disk)
    (runs : Runs attempt.run disk phase disk') (returned : phase.ending = some ending) :
    PageEnd index disk ending (if ending = .refreshed then attempt.after else index) disk'

variable (codec project maxEntries) in
/-- Memory and disk between the pages of one process after another, as long as
none is interrupted between the pointer's replacement and the sync behind it
and no page fails from there on. -/
inductive Life : ConversationIndex → CacheDisk → Prop where
  | opened {index : ConversationIndex} {dir : CacheDir}
    (loads : openIndex codec project maxEntries dir = .ok index) : Life index ⟨dir, []⟩
  | page {index index' : ConversationIndex} {disk disk' : CacheDisk} {ending : Ending}
    (life : Life index disk) (page : PageEnd codec project index disk ending index' disk')
    (early : ending ≠ .err true) : Life index' disk'
  | killed {index found : ConversationIndex} {disk disk' : CacheDisk} {phase : Phase}
    (life : Life index disk) (attempt : Attempt codec project index)
    (fresh : attempt.run.Fresh disk) (runs : Runs attempt.run disk phase disk')
    (early : phase ≠ .replaced ∧ phase ≠ .failed true)
    (loads : openIndex codec project maxEntries disk'.visible = .ok found) : Life found disk'
  | cleaned {index : ConversationIndex} {disk : CacheDisk} {name : EntryName}
    (life : Life index disk) (stale : isTemporaryCacheFile name ∨ isTemporaryPointerFile name) :
    Life index (disk.push (.unlink name))

/-- Two indexes of a project that show the same generation. -/
def ConversationIndex.SameState (left right : ConversationIndex) : Prop :=
  left.generation = right.generation ∧ left.watermarks = right.watermarks ∧
    left.entries = right.entries

variable (codec project maxEntries) in
/-- Whenever the machine stops, opening loads what memory holds. -/
def Settled (index : ConversationIndex) (disk : CacheDisk) : Prop :=
  ∃ found, found.SameState index ∧
    ∀ dir, disk.Crash dir → openIndex codec project maxEntries dir = .ok found

/-! ## What opening loads -/

theorem openIndex_congr {dir other : CacheDir} (h : latestCacheFile dir = latestCacheFile other) :
    openIndex codec project maxEntries dir = openIndex codec project maxEntries other := by
  unfold openIndex
  rw [h]

theorem exists_openCache {dir : CacheDir} {found : ConversationIndex}
    (h : openIndex codec project maxEntries dir = .ok found) :
    ∃ file, found = ConversationIndex.openCache codec project maxEntries file := by
  obtain ⟨file, -, h⟩ := bind_eq_ok_iff.mp h
  exact ⟨_, (Except.ok.inj h).symm⟩

/-- The run's own files are invisible as long as no pointer names them. -/
theorem openIndex_of_agrees {run : Publication} {dir before : CacheDir}
    (hagrees : run.Agrees dir before) (hfresh : pointedName before ≠ some run.published) :
    openIndex codec project maxEntries dir = openIndex codec project maxEntries before := by
  apply openIndex_congr
  apply latestCacheFile_congr (hagrees _ run.pointerName_not_mem_ownNames)
  intro name generation hpointed hgeneration
  apply hagrees
  intro hown
  simp only [Publication.ownNames, List.mem_cons, List.not_mem_nil, or_false] at hown
  rcases hown with rfl | rfl | rfl
  · rw [run.cacheGeneration_temporary] at hgeneration
    contradiction
  · rw [run.cacheGeneration_pointerTemporary] at hgeneration
    contradiction
  · exact hfresh hpointed

theorem openIndex_unlink_temporary {dir : CacheDir} {name : EntryName}
    (h : isTemporaryCacheFile name ∨ isTemporaryPointerFile name) :
    openIndex codec project maxEntries ((DirOp.unlink name).apply dir) =
      openIndex codec project maxEntries dir := by
  apply openIndex_congr
  apply latestCacheFile_congr (DirOp.unlink_apply_of_ne (temporary_ne h).1.symm)
  intro other generation hpointed hgeneration
  apply DirOp.unlink_apply_of_ne
  rintro rfl
  rw [(temporary_ne h).2] at hgeneration
  contradiction

/-! ## Every life keeps memory and disk together -/

theorem Life.reachable (h : Life codec project maxEntries index disk) :
    Reachable codec project index ∧ index.maxEntries = maxEntries := by
  induction h with
  | opened loads =>
    obtain ⟨file, rfl⟩ := exists_openCache loads
    exact ⟨.opened _ _, (ConversationIndex.parts_openCache _ _ _ _).2⟩
  | page life page early ih =>
    cases page with
    | stagingFailed => exact ih
    | stagingCancelled => exact ih
    | encodingFailed => exact ih
    | encodedCancelled => exact ih
    | persisted attempt fresh runs returned =>
      split
      next =>
        obtain ⟨⟨rows, full, heffect⟩, -⟩ := stagePage_eq_staged attempt.staged
        refine ⟨.refreshed attempt.config attempt.registry attempt.limit attempt.budget
          attempt.cancelled ih.1 attempt.configured attempt.discovered attempt.paths
          attempt.staged, ?_⟩
        rw [heffect.maxEntries_eq, ih.2]
      next => exact ih
  | killed life attempt fresh runs early loads ih =>
    obtain ⟨file, rfl⟩ := exists_openCache loads
    exact ⟨.opened _ _, (ConversationIndex.parts_openCache _ _ _ _).2⟩
  | cleaned life stale ih => exact ih

variable {attempt : Attempt codec project index}

/-- The new generation opens as the staged index, with any limit. -/
theorem openIndex_of_isNew (hroot : NulFree project.root)
    (hreachable : Reachable codec project index) (maxEntries : MaxEntries) {dir : CacheDir}
    (h : attempt.run.IsNew dir) :
    openIndex codec project maxEntries dir = .ok (attempt.after.reopenedWith maxEntries) := by
  obtain ⟨hsound, hsize, hproject⟩ := ConversationIndex.sound_of_staged hreachable
    attempt.configured attempt.discovered attempt.paths attempt.staged
  obtain ⟨-, -, -, hlen⟩ := ConversationIndex.encode_eq_ok attempt.encoded
  have hread : readPrivateCache attempt.bytes = attempt.bytes := if_neg (Nat.not_lt.mpr hlen)
  have hafterRoot : NulFree attempt.after.project.root := by
    rw [hproject]
    exact hroot
  have hopen := ConversationIndex.openCache_encode maxEntries hsound hsize hafterRoot attempt.encoded
  rw [hproject] at hopen
  unfold openIndex
  rw [Publication.latestCacheFile_of_isNew h]
  simp only [ok_bind, Option.map_some, Attempt.run, hread, hopen, pure_eq_ok]

theorem openIndex_of_isNew_self (hroot : NulFree project.root)
    (hreachable : Reachable codec project index) (hmax : index.maxEntries = maxEntries)
    {dir : CacheDir} (h : attempt.run.IsNew dir) :
    openIndex codec project maxEntries dir = .ok attempt.after.reopened := by
  obtain ⟨⟨rows, full, heffect⟩, -⟩ := stagePage_eq_staged attempt.staged
  rw [openIndex_of_isNew hroot hreachable maxEntries h, ← hmax, ← heffect.maxEntries_eq,
    ConversationIndex.reopenedWith_maxEntries]

/-- Before the pointer is replaced, every directory opens as memory does. -/
theorem settled_of_allOld {disk' : CacheDisk} (hsettled : Settled codec project maxEntries index disk)
    (hfresh : attempt.run.Fresh disk) (hold : AllOld attempt.run disk disk') :
    Settled codec project maxEntries index disk' := by
  obtain ⟨found, hsame, hopen⟩ := hsettled
  refine ⟨found, hsame, fun dir hcrash => ?_⟩
  obtain ⟨before, hbefore, hagrees⟩ := hold.2 dir hcrash
  rw [openIndex_of_agrees hagrees (hfresh before hbefore), hopen before hbefore]

theorem sameState_reopened (index : ConversationIndex) : index.reopened.SameState index :=
  ⟨rfl, rfl, rfl⟩

/-- Where a run stops tells whose state every later opening loads. -/
theorem settled_of_runs {phase : Phase} {disk' : CacheDisk} (hroot : NulFree project.root)
    (hreachable : Reachable codec project index) (hmax : index.maxEntries = maxEntries)
    (hsettled : Settled codec project maxEntries index disk) (hfresh : attempt.run.Fresh disk)
    (hruns : Runs attempt.run disk phase disk')
    (hearly : phase ≠ .replaced ∧ phase ≠ .failed true) :
    Settled codec project maxEntries
      (if phase = .cleaning ∨ phase = .done then attempt.after else index) disk' := by
  have hinv := runs_inv hruns
  by_cases hlate : phase = .cleaning ∨ phase = .done
  · rw [if_pos hlate]
    refine ⟨attempt.after.reopened, sameState_reopened _, fun dir hcrash => ?_⟩
    apply openIndex_of_isNew_self hroot hreachable hmax
    rcases hlate with rfl | rfl
    · exact hinv dir hcrash
    · exact hinv dir hcrash
  · rw [if_neg hlate]
    apply settled_of_allOld hsettled hfresh
    apply hinv.allOld
    simp only [List.mem_cons, List.not_mem_nil, or_false, not_or]
    exact ⟨hearly.1, (not_or.mp hlate).1, (not_or.mp hlate).2, hearly.2⟩

theorem Settled.of_sameState {other : ConversationIndex}
    (h : Settled codec project maxEntries index disk) (hsame : index.SameState other) :
    Settled codec project maxEntries other disk := by
  obtain ⟨found, hfound, hopen⟩ := h
  exact ⟨found, ⟨hfound.1.trans hsame.1, hfound.2.1.trans hsame.2.1, hfound.2.2.trans hsame.2.2⟩,
    hopen⟩

/-- What the disk holds is what an opened process has in memory. -/
theorem Settled.of_loads {found : ConversationIndex} (h : Settled codec project maxEntries index disk)
    (hloads : openIndex codec project maxEntries disk.visible = .ok found) :
    Settled codec project maxEntries found disk := by
  obtain ⟨old, -, hopen⟩ := h
  have heq : found = old := by
    have := hopen _ (Disk.crash_visible disk)
    rw [hloads] at this
    exact Except.ok.inj this
  subst heq
  exact ⟨found, ⟨rfl, rfl, rfl⟩, hopen⟩

/-- One page keeps memory and disk together, unless it fails late. -/
theorem settled_of_page {index' : ConversationIndex} {disk' : CacheDisk} {ending : Ending}
    (hroot : NulFree project.root) (hreachable : Reachable codec project index)
    (hmax : index.maxEntries = maxEntries) (hsettled : Settled codec project maxEntries index disk)
    (hpage : PageEnd codec project index disk ending index' disk') (hearly : ending ≠ .err true) :
    Settled codec project maxEntries index' disk' := by
  cases hpage with
  | stagingFailed => exact hsettled
  | stagingCancelled => exact hsettled
  | encodingFailed => exact hsettled
  | encodedCancelled => exact hsettled
  | @persisted phase _ _ attempt fresh runs returned =>
    have hend := settled_of_runs hroot hreachable hmax hsettled fresh runs
    cases phase with
    | failed pointerReplaced =>
      cases returned
      have hreplaced : pointerReplaced ≠ true := fun h => hearly (h ▸ rfl)
      simpa using hend (by simpa using hreplaced)
    | cancelled =>
      cases returned
      simpa using hend (by simp)
    | done =>
      cases returned
      simpa using hend (by simp)
    | _ => contradiction

theorem Life.settled (hroot : NulFree project.root) (h : Life codec project maxEntries index disk) :
    Settled codec project maxEntries index disk := by
  induction h with
  | opened loads =>
    refine ⟨_, ⟨rfl, rfl, rfl⟩, fun dir hcrash => ?_⟩
    rw [Disk.crash_durable hcrash]
    exact loads
  | page life page early ih =>
    exact settled_of_page hroot life.reachable.1 life.reachable.2 ih page early
  | killed life attempt fresh runs early loads ih =>
    exact (settled_of_runs hroot life.reachable.1 life.reachable.2 ih fresh runs early).of_loads loads
  | cleaned life stale ih =>
    obtain ⟨found, hsame, hopen⟩ := ih
    refine ⟨found, hsame, fun dir hcrash => ?_⟩
    obtain ⟨before, hbefore, rfl | rfl⟩ := Disk.crash_push hcrash
    · exact hopen _ hbefore
    · rw [openIndex_unlink_temporary stale, hopen _ hbefore]

/-- Behind the pointer's replacement an error leaves the new generation on disk. -/
theorem loads_after_late_failure {disk' : CacheDisk} (hroot : NulFree project.root)
    (hlife : Life codec project maxEntries index disk)
    (hruns : Runs attempt.run disk (.failed true) disk') :
    openIndex codec project maxEntries disk'.visible = .ok attempt.after.reopened := by
  apply openIndex_of_isNew_self hroot hlife.reachable.1 hlife.reachable.2
  exact (runs_inv hruns).1

theorem generation_ne_of_attempt (attempt : Attempt codec project index)
    (h : index.generation.toNat + 1 < 2 ^ 64) :
    attempt.after.generation ≠ index.generation := by
  obtain ⟨⟨rows, full, heffect⟩, -⟩ := stagePage_eq_staged attempt.staged
  rw [heffect.generation_eq, nextGeneration, saturatingSucc, if_pos h]
  intro heq
  have hnat := congrArg UInt64.toNat heq
  rw [UInt64.toNat_add, Nat.mod_eq_of_lt (by simpa using h)] at hnat
  simp at hnat

variable (codec project maxEntries) in
/-- Opening loads the state memory holds. -/
def Loads (index : ConversationIndex) (disk : CacheDisk) : Prop :=
  ∃ found, openIndex codec project maxEntries disk.visible = .ok found ∧ found.SameState index

theorem Settled.loads (h : Settled codec project maxEntries index disk) :
    Loads codec project maxEntries index disk := by
  obtain ⟨found, hsame, hopen⟩ := h
  exact ⟨found, hopen _ (Disk.crash_visible disk), hsame⟩

/-- Only a refreshed page changes the index in memory. -/
theorem PageEnd.index_eq {index' : ConversationIndex} {disk' : CacheDisk} {ending : Ending}
    (h : PageEnd codec project index disk ending index' disk') (hending : ending ≠ .refreshed) :
    index' = index := by
  cases h with
  | stagingFailed => rfl
  | stagingCancelled => rfl
  | encodingFailed => rfl
  | encodedCancelled => rfl
  | persisted attempt fresh runs returned => rw [if_neg hending]

/-- A late failure leaves memory behind the disk. -/
theorem not_loads_of_late {index' : ConversationIndex} {disk' : CacheDisk}
    (hroot : NulFree project.root) (hlife : Life codec project maxEntries index disk)
    (hpage : PageEnd codec project index disk (.err true) index' disk')
    (hgeneration : index.generation.toNat + 1 < 2 ^ 64) :
    ¬ Loads codec project maxEntries index' disk' := by
  rintro ⟨found, hopen, hsame⟩
  rw [hpage.index_eq (by simp)] at hsame
  cases hpage with
  | @persisted phase _ _ attempt fresh runs returned =>
    cases phase with
    | failed pointerReplaced =>
      cases returned
      rw [loads_after_late_failure hroot hlife runs] at hopen
      cases hopen
      exact generation_ne_of_attempt attempt hgeneration hsame.1
    | _ => contradiction

end

/-! ## Atomic pages -/

/-- In every state of a life, opening loads what memory holds. Wherever a page's
run is cut, opening loads that state or the new generation as a whole. A page
that returns an error or is cancelled leaves memory as it was, and opening then
loads the same state if and only if the error did not come from behind the
pointer's replacement. -/
theorem page_atomic_unless_failed_late (codec : IndexCodec) (project : ProjectIdentity)
    (maxEntries : MaxEntries) (hroot : NulFree project.root) :
    ∀ index disk, Life codec project maxEntries index disk →
      (∃ old, old.SameState index ∧ openIndex codec project maxEntries disk.visible = .ok old ∧
        ∀ attempt : Attempt codec project index, attempt.run.Fresh disk → ∀ phase disk',
          Runs attempt.run disk phase disk' → ∀ dir, disk'.Crash dir →
            openIndex codec project maxEntries dir = .ok old ∨
              openIndex codec project maxEntries dir = .ok attempt.after.reopened) ∧
      ∀ ending index' disk', PageEnd codec project index disk ending index' disk' →
        ending ≠ .refreshed → index' = index ∧
          (ending ≠ .err true → Loads codec project maxEntries index' disk') ∧
          (index.generation.toNat + 1 < 2 ^ 64 →
            Loads codec project maxEntries index' disk' → ending ≠ .err true) := by
  intro index disk hlife
  obtain ⟨hreachable, hmax⟩ := hlife.reachable
  have hsettled := hlife.settled hroot
  constructor
  · obtain ⟨old, hsame, hopen⟩ := hsettled
    refine ⟨old, hsame, hopen _ (Disk.crash_visible disk), ?_⟩
    intro attempt hfresh phase disk' hruns dir hcrash
    rcases (runs_inv hruns).crash_cases hcrash with hnew | ⟨before, hbefore, hagrees⟩
    · exact Or.inr (openIndex_of_isNew_self hroot hreachable hmax hnew)
    · refine Or.inl ?_
      rw [openIndex_of_agrees hagrees (hfresh before hbefore), hopen before hbefore]
  · intro ending index' disk' hpage hending
    refine ⟨hpage.index_eq hending, ?_, ?_⟩
    · intro hearly
      exact (settled_of_page hroot hreachable hmax hsettled hpage hearly).loads
    · rintro hgeneration hloads rfl
      exact not_loads_of_late hroot hlife hpage hgeneration hloads

/-! ### A page whose last directory sync fails -/

/-- A run on a directory without its temporaries can get past the pointer's
replacement and fail there. -/
theorem exists_runs_failed_late (run : Publication) {dir : CacheDir}
    (htemporary : dir run.temporary = none) (hpointer : dir run.pointerTemporary = none) :
    ∃ disk, Runs run ⟨dir, []⟩ (.failed true) disk := by
  have hne := run.pointerTemporary_ne_temporary run
  have hstart : Runs run ⟨dir, []⟩ .start ⟨dir, []⟩ := .start
  have hcreated := hstart.step (.create htemporary)
  have hwritten := hcreated.step .fill
  rw [writeThrough_of_present (by simp [Effect.run])] at hwritten
  have hpublished := hwritten.step (.publish (by simp [Effect.run]))
  have hsynced := hpublished.step .syncPublished
  have hfresh : (Effect.sync.run (Effect.run (Effect.run (Effect.run ⟨dir, []⟩
      (.op (.write run.temporary []))) (.op (.write run.temporary run.bytes)))
      (.op (.rename run.temporary run.published)))).visible run.pointerTemporary = none := by
    simp only [Effect.run, Disk.visible_sync, Disk.visible_push]
    rw [DirOp.apply_of_not_mem, DirOp.apply_of_not_mem, DirOp.apply_of_not_mem]
    · exact hpointer
    · simpa [DirOp.touches] using hne
    · simpa [DirOp.touches] using hne
    · simpa [DirOp.touches] using ⟨hne, published_ne.1.symm⟩
  have hpointerCreated := hsynced.step (.createPointer hfresh)
  have hpointerWritten := hpointerCreated.step .fillPointer
  rw [writeThrough_of_present (by simp [Effect.run])] at hpointerWritten
  have hreplaced := hpointerWritten.step (.replacePointer (by simp [Effect.run]))
  exact ⟨_, hreplaced.step (.failLate (Or.inl rfl))⟩

namespace Sample

/-- The sample page on an index without watermarks, written under these names. -/
theorem exists_attempt {index : ConversationIndex} (hwatermarks : index.watermarks = ∅)
    (hrun : (persistedFrom index).isSome = true) (process : UInt32) (nonce : UInt64) :
    ∃ attempt : Attempt Json.indexCodec project index,
      attempt.process = process ∧ attempt.nonce = nonce := by
  obtain ⟨⟨after, bytes⟩, hpersisted⟩ := Option.isSome_iff_exists.mp hrun
  obtain ⟨refresh, hstaged, hbytes⟩ := persistedFrom_eq_some hpersisted
  refine ⟨⟨config, registry, ⟨1, by decide⟩, ⟨1, by decide⟩, neverCancelled, discovery, after,
    refresh, bytes, process, nonce, ?_, ?_, ?_, hstaged, hbytes⟩, rfl, rfl⟩
  · intro id hid
    cases List.mem_singleton.mp hid
    decide
  · rw [hwatermarks]
    rfl
  · rw [conversations_eq]
    intro conversation hconversation
    cases List.mem_singleton.mp hconversation
    unfold ConversationIndex.PathsNulFree NulFree
    decide

theorem life_opened : Life Json.indexCodec project ⟨1, by decide⟩ index ⟨fun _ => none, []⟩ :=
  .opened rfl

/-- The first page of a project fails to sync the directory behind the pointer. -/
theorem exists_late_failure : ∃ index' disk',
    PageEnd Json.indexCodec project index ⟨fun _ => none, []⟩ (.err true) index' disk' := by
  obtain ⟨attempt, -⟩ := exists_attempt rfl isSome_persisted 7 0
  obtain ⟨disk', hruns⟩ :
      ∃ disk', Runs attempt.run ⟨fun _ => none, []⟩ (.failed true) disk' :=
    exists_runs_failed_late attempt.run rfl rfl
  refine ⟨_, disk', .persisted attempt ?_ hruns rfl⟩
  intro dir hcrash
  rw [Disk.crash_durable hcrash]
  simp [pointedName]

end Sample

theorem page_atomic_unless_failed_late_sample :
    Loads Json.indexCodec Sample.project ⟨1, by decide⟩ Sample.index ⟨fun _ => none, []⟩ ∧
      ∃ index' disk', PageEnd Json.indexCodec Sample.project Sample.index ⟨fun _ => none, []⟩
          (.err true) index' disk' ∧ index' = Sample.index ∧
        ¬ Loads Json.indexCodec Sample.project ⟨1, by decide⟩ index' disk' := by
  obtain ⟨attempt, -⟩ := Sample.exists_attempt rfl Sample.isSome_persisted 7 0
  obtain ⟨index', disk', hpage⟩ := Sample.exists_late_failure
  have hends := (page_atomic_unless_failed_late Json.indexCodec Sample.project ⟨1, by decide⟩
    (by decide) _ _ Sample.life_opened).2
  obtain ⟨-, hcancelled, -⟩ := hends _ _ _ (.encodedCancelled attempt) (by simp)
  obtain ⟨hindex, -, hlate⟩ := hends _ _ _ hpage (by simp)
  refine ⟨hcancelled (by simp), index', disk', hpage, hindex, fun hloads => ?_⟩
  exact hlate (by decide) hloads rfl

/-- Failing to sync the directory behind the pointer returns an error although
every later opening loads the new generation. -/
theorem late_failure_not_rolled_back :
    ¬ ∀ codec project maxEntries index disk ending index' disk', NulFree project.root →
      Life codec project maxEntries index disk →
      PageEnd codec project index disk ending index' disk' → ending ≠ .refreshed →
      index' = index ∧ Loads codec project maxEntries index' disk' := by
  intro h
  obtain ⟨index', disk', hpage⟩ := Sample.exists_late_failure
  have hloads := (h _ _ _ _ _ _ _ _ (by decide) Sample.life_opened hpage (by simp)).2
  exact not_loads_of_late (by decide) Sample.life_opened hpage (by decide) hloads

end HerdrContext.Index
