import HerdrContext.OpenCode.Discover
import HerdrContext.Library.Paging

/-! Pages over one database: everything that has changed is told once, and the
watermark comes to record the sessions that the database holds. -/
namespace HerdrContext.OpenCode

open Library Library.Paging

/-- What a page compares: ids with fingerprints. -/
def items (sessions : List ValidatedSession) : List (String × String) :=
  sessions.map fun session => (session.id, session.fingerprint)

@[simp] theorem items_cons (session : ValidatedSession) (rest : List ValidatedSession) :
    items (session :: rest) = (session.id, session.fingerprint) :: items rest := rfl

@[simp] theorem map_fst_items (sessions : List ValidatedSession) :
    (items sessions).map Prod.fst = sessions.map ValidatedSession.id := by
  simp [items]

namespace OpenCodeSource

variable {source : OpenCodeSource} {captured : CapturedDatabase} {previous : Sessions}
  {limit : Nat} {sessions : List ValidatedSession} {collected result : Collected}
  {snapshots later : Snapshots}

def candidateFor (source : OpenCodeSource) (captured : CapturedDatabase) (item : String × String) :
    ConversationCandidate :=
  ⟨source.id, source.project, item.1, some source.databasePath, some captured.mainLen,
    some captured.mainModified, some item.2⟩

theorem candidateOf_eq_ok {session : ValidatedSession} {candidate : ConversationCandidate}
    (h : source.candidateOf captured session = .ok candidate) :
    candidate = source.candidateFor captured (session.id, session.fingerprint) := by
  unfold candidateOf ConversationCandidate.new at h
  split at h
  next => contradiction
  next => exact (Except.ok.inj h).symm

/-! ## The two loops -/

/-- What the loop over the sessions adds to what is collected. -/
structure Compared (source : OpenCodeSource) (captured : CapturedDatabase) (previous : Sessions)
    (room : Nat) (items : List (String × String)) (before after : Collected) : Prop where
  candidates : after.candidates =
    before.candidates ++ ((changes previous items).take room).map (source.candidateFor captured)
  removals : after.removals = before.removals
  hasMore : after.hasMore = (before.hasMore || decide (room < (changes previous items).length))
  recorded : ∀ item ∈ items, after.next[item.1]? =
    if item ∈ (changes previous items).drop room then previous[item.1]? else some item.2
  kept : ∀ id, id ∉ items.map Prod.fst → after.next[id]? = before.next[id]?

theorem changes_cons_of_eq {item : String × String} {rest : List (String × String)}
    (h : previous[item.1]? = some item.2) : changes previous (item :: rest) = changes previous rest :=
  List.filter_cons_of_neg (by simp [h])

theorem changes_cons_of_ne {item : String × String} {rest : List (String × String)}
    (h : previous[item.1]? ≠ some item.2) :
    changes previous (item :: rest) = item :: changes previous rest :=
  List.filter_cons_of_pos (by simp [h])

/-- An item is not among others that have other ids. -/
theorem not_mem_of_fst {item : String × String} {rest part : List (String × String)}
    (h : item.1 ∉ rest.map Prod.fst) (hpart : part ⊆ rest) : item ∉ part :=
  fun hmem => h (List.mem_map_of_mem (hpart hmem))

theorem drop_changes_subset {items : List (String × String)} (room : Nat) :
    (changes previous items).drop room ⊆ items :=
  fun _ hitem => (mem_changes.mp (List.drop_subset _ _ hitem)).1

theorem getElem?_insert_ne {recorded : Sessions} {id other fingerprint : String} (h : other ≠ id) :
    (recorded.insert id fingerprint)[other]? = recorded[other]? := by
  rw [Std.ExtTreeMap.getElem?_insert, if_neg]
  intro hsame
  exact h (Std.LawfulEqOrd.compare_eq_iff_eq.mp hsame).symm

/-- The first session is recorded as it is. -/
theorem Compared.cons_recorded {session : ValidatedSession} {rest : List (String × String)}
    {room left : Nat} {told : List ConversationCandidate}
    (hid : session.id ∉ rest.map Prod.fst)
    (h : Compared source captured previous room rest
      { collected.record session with candidates := collected.candidates ++ told } result)
    (hdrop : (changes previous ((session.id, session.fingerprint) :: rest)).drop left =
      (changes previous rest).drop room)
    (htake : ((changes previous ((session.id, session.fingerprint) :: rest)).take left).map
        (source.candidateFor captured) =
      told ++ ((changes previous rest).take room).map (source.candidateFor captured))
    (hmore : left < (changes previous ((session.id, session.fingerprint) :: rest)).length ↔
      room < (changes previous rest).length) :
    Compared source captured previous left ((session.id, session.fingerprint) :: rest) collected
      result where
  candidates := by rw [h.candidates, htake, List.append_assoc]
  removals := h.removals
  hasMore := by
    rw [h.hasMore, decide_eq_decide.mpr hmore]
    rfl
  recorded item hitem := by
    rw [hdrop]
    cases List.mem_cons.mp hitem with
    | inl hfirst =>
      subst hfirst
      rw [if_neg (not_mem_of_fst hid (drop_changes_subset room)), h.kept _ hid]
      exact Std.ExtTreeMap.getElem?_insert_self
    | inr hrest => exact h.recorded item hrest
  kept id hother := by
    obtain ⟨hne, hother⟩ := not_or.mp (mt List.mem_cons.mpr hother)
    rw [h.kept id hother]
    exact getElem?_insert_ne hne

/-- The first session waits. -/
theorem Compared.cons_postponed {session : ValidatedSession} {rest : List (String × String)}
    (hid : session.id ∉ rest.map Prod.fst) (hfresh : collected.next[session.id]? = none)
    (hchanged : previous[session.id]? ≠ some session.fingerprint)
    (h : Compared source captured previous 0 rest
      (collected.postpone session.id previous[session.id]?) result) :
    Compared source captured previous 0 ((session.id, session.fingerprint) :: rest) collected
      result where
  candidates := by
    rw [h.candidates]
    rfl
  removals := h.removals
  hasMore := by
    rw [h.hasMore, changes_cons_of_ne hchanged]
    simp [Collected.postpone]
  recorded item hitem := by
    rw [changes_cons_of_ne hchanged, List.drop_zero]
    cases List.mem_cons.mp hitem with
    | inl hfirst =>
      subst hfirst
      rw [if_pos List.mem_cons_self, h.kept _ hid]
      cases hprevious : previous[session.id]? with
      | none => exact hfresh
      | some fingerprint => exact Std.ExtTreeMap.getElem?_insert_self
    | inr hrest =>
      have hne : item ≠ (session.id, session.fingerprint) := by
        rintro rfl
        exact hid (List.mem_map_of_mem hrest)
      rw [h.recorded item hrest, List.drop_zero]
      simp only [List.mem_cons, hne, false_or]
  kept id hother := by
    obtain ⟨hne, hother⟩ := not_or.mp (mt List.mem_cons.mpr hother)
    rw [h.kept id hother]
    cases previous[session.id]? with
    | none => rfl
    | some fingerprint => exact getElem?_insert_ne hne

theorem compared_collectSessions (hsessions : (sessions.map ValidatedSession.id).Nodup)
    (hfresh : ∀ session ∈ sessions, collected.next[session.id]? = none)
    (h : source.collectSessions captured previous limit sessions collected = (later, .ok result)) :
    Compared source captured previous (limit - collected.told) (items sessions) collected result := by
  induction sessions generalizing collected with
  | nil =>
    cases h
    constructor <;> simp [items, changes]
  | cons session rest ih =>
    obtain ⟨hid, hrest⟩ := List.nodup_cons.mp hsessions
    rw [← map_fst_items] at hid
    have hstill : ∀ fingerprint, ∀ other ∈ rest,
        (collected.next.insert session.id fingerprint)[other.id]? = none := by
      intro fingerprint other hother
      rw [getElem?_insert_ne, hfresh other (List.mem_cons_of_mem _ hother)]
      rintro hsame
      rw [map_fst_items, ← hsame] at hid
      exact hid (List.mem_map_of_mem hother)
    unfold collectSessions at h
    split at h
    next hsame =>
      have hrecorded : Compared source captured previous (limit - collected.told) (items rest)
          { collected.record session with candidates := collected.candidates ++ [] } result := by
        rw [List.append_nil]
        exact ih hrest (hstill _) h
      rw [items_cons]
      refine hrecorded.cons_recorded hid ?_ ?_ ?_
      all_goals rw [changes_cons_of_eq hsame]
      rfl
    next hchanged =>
      split at h
      next hfull =>
        have hroom : limit - collected.told = 0 := Nat.sub_eq_zero_of_le hfull
        rw [items_cons, hroom]
        refine Compared.cons_postponed hid (hfresh session List.mem_cons_self) hchanged ?_
        rw [← hroom]
        refine ih hrest (fun other hother => ?_) h
        cases hprevious : previous[session.id]? with
        | none => exact hfresh other (List.mem_cons_of_mem _ hother)
        | some fingerprint => exact hstill fingerprint other hother
      next hroom =>
        split at h
        next => cases h
        next candidate hcandidate =>
          have hcandidate := candidateOf_eq_ok hcandidate
          subst hcandidate
          have htold : limit - collected.told = (limit - (collected.told + 1)) + 1 := by omega
          have hcompared := ih hrest (hstill _) h
          have hlater : Collected.told { collected.record session with
              candidates := collected.candidates ++
                [source.candidateFor captured (session.id, session.fingerprint)] } =
              collected.told + 1 := by
            simp only [Collected.told, Collected.record, List.length_append, List.length_singleton]
            omega
          rw [hlater] at hcompared
          rw [items_cons, htold]
          refine hcompared.cons_recorded hid ?_ ?_ ?_
          all_goals rw [changes_cons_of_ne hchanged]
          · rfl
          · rfl
          · simp

/-- What the loop over the recorded sessions adds. -/
structure Shed (source : OpenCodeSource) (previous : Sessions) (room : Nat) (gone : List String)
    (before after : Collected) : Prop where
  candidates : after.candidates = before.candidates
  removals : ∃ told, after.removals = before.removals ++ told ∧
    List.Forall₂ (fun id removal => source.removalOf id = .ok removal) (gone.take room) told
  hasMore : after.hasMore = (before.hasMore || decide (room < gone.length))
  recorded : ∀ id, after.next[id]? =
    if id ∈ gone.drop room then previous[id]? else before.next[id]?
  snapshots : after.snapshots = before.snapshots

theorem shed_collectRemovals {current ids : List String} (hids : ids.Nodup)
    (hprevious : ∀ id ∈ ids, id ∈ previous)
    (h : source.collectRemovals previous limit current ids collected = (later, .ok result)) :
    Shed source previous (limit - collected.told)
      (ids.filter fun id => decide (id ∉ current)) collected result := by
  induction ids generalizing collected with
  | nil =>
    cases h
    exact ⟨rfl, ⟨[], by simp, by simp⟩, by simp, by simp, rfl⟩
  | cons id rest ih =>
    obtain ⟨hid, hrest⟩ := List.nodup_cons.mp hids
    have hlater := fun other hother => hprevious other (List.mem_cons_of_mem _ hother)
    unfold collectRemovals at h
    split at h
    next hcurrent =>
      rw [List.filter_cons_of_neg (by simpa using hcurrent)]
      exact ih hrest hlater h
    next hcurrent =>
      rw [List.filter_cons_of_pos (by simpa using hcurrent)]
      have hgone : id ∉ rest.filter fun id => decide (id ∉ current) := fun hmem =>
        hid (List.mem_of_mem_filter hmem)
      split at h
      next hfull =>
        have hroom : limit - collected.told = 0 := Nat.sub_eq_zero_of_le hfull
        obtain ⟨fingerprint, hfingerprint⟩ := Option.isSome_iff_exists.mp
          (Std.ExtTreeMap.mem_iff_isSome_getElem?.mp (hprevious id List.mem_cons_self))
        rw [hfingerprint] at h
        have hshed := ih hrest hlater h
        have htold : (collected.postpone id (some fingerprint)).told = collected.told := rfl
        rw [htold, hroom] at hshed
        rw [hroom]
        constructor
        case candidates => exact hshed.candidates
        case removals => exact hshed.removals
        case hasMore =>
          rw [hshed.hasMore]
          simp [Collected.postpone]
        case recorded =>
          intro other
          rw [hshed.recorded other, List.drop_zero, List.drop_zero]
          by_cases hsame : other = id
          · subst hsame
            rw [if_neg hgone, if_pos List.mem_cons_self, hfingerprint]
            exact Std.ExtTreeMap.getElem?_insert_self
          · simp only [List.mem_cons, hsame, false_or]
            rw [show (collected.postpone id (some fingerprint)).next[other]? = collected.next[other]?
              from getElem?_insert_ne hsame]
        case snapshots => exact hshed.snapshots
      next hroom =>
        split at h
        next => cases h
        next removal hremoval =>
          have htold : limit - collected.told = (limit - (collected.told + 1)) + 1 := by omega
          have hshed := ih hrest hlater h
          have hafter : Collected.told { collected with
              removals := collected.removals ++ [removal] } = collected.told + 1 := by
            simp only [Collected.told, List.length_append, List.length_singleton]
            omega
          rw [hafter] at hshed
          rw [htold]
          constructor
          case candidates => exact hshed.candidates
          case removals =>
            obtain ⟨told, htold, hall⟩ := hshed.removals
            exact ⟨removal :: told, by rw [htold, List.append_assoc]; rfl, .cons hremoval hall⟩
          case hasMore =>
            rw [hshed.hasMore, List.length_cons]
            simp
          case recorded => exact hshed.recorded
          case snapshots => exact hshed.snapshots

/-- What a page that has read the sessions collects. -/
structure Tells (source : OpenCodeSource) (captured : CapturedDatabase) (before after : Sessions)
    (sessions : List ValidatedSession) (page : Page String String)
    (candidates : List ConversationCandidate) (removals : List ConversationRemoval) : Prop where
  turns : Turns (items sessions) before page after
  candidates : candidates = page.told.map (source.candidateFor captured)
  removals : List.Forall₂ (fun id removal => source.removalOf id = .ok removal) page.dropped removals

theorem nodup_keys (recorded : Sessions) : recorded.keys.Nodup := by
  refine Std.ExtTreeMap.distinct_keys.imp fun hne => ?_
  rintro rfl
  exact hne Std.ReflCmp.compare_self

theorem tells_collect (hsessions : (sessions.map ValidatedSession.id).Nodup)
    (h : source.collect captured previous limit sessions snapshots = (later, .ok result)) :
    ∃ page, page.limit = limit ∧ page.more = result.hasMore ∧
      Tells source captured previous result.next sessions page result.candidates
        result.removals := by
  unfold collect at h
  dsimp only at h
  split at h
  next => cases h
  next compared hcompare =>
    have hcompared := compared_collectSessions hsessions (fun _ _ => by simp) hcompare
    have hshed := shed_collectRemovals (nodup_keys previous)
      (fun _ hid => Std.ExtTreeMap.mem_keys.mp hid) h
    rw [← map_fst_items] at hshed
    have hroom : limit - Collected.told ⟨∅, [], [], false, retain (sessions.map ValidatedSession.id)
        snapshots⟩ = limit := rfl
    rw [hroom] at hcompared
    let told := (changes previous (items sessions)).take limit
    have htold : compared.told = told.length := by
      simp [Collected.told, hcompared.candidates, hcompared.removals, told]
    rw [htold] at hshed
    refine ⟨⟨limit, told, (gone previous (items sessions)).take (limit - told.length),
      result.hasMore⟩, rfl, rfl, ?_⟩
    constructor
    case turns =>
      constructor
      case told => rfl
      case dropped => rfl
      case more =>
        rw [hshed.hasMore, hcompared.hasMore]
        simp only [Bool.false_or, pending, gone, told, List.length_take, ← Bool.decide_or]
        refine decide_eq_decide.mpr ?_
        omega
      case recorded =>
        intro item hitem
        rw [hshed.recorded, if_neg]
        · exact hcompared.recorded item hitem
        · intro hgone
          exact (mem_gone.mp (List.drop_subset _ _ hgone)).2 (List.mem_map_of_mem hitem)
      case kept =>
        intro id hid
        rw [hshed.recorded, hcompared.kept id hid]
        simp [gone, told]
    case candidates => rw [hshed.candidates, hcompared.candidates, List.nil_append]
    case removals =>
      obtain ⟨removed, hremoved, hall⟩ := hshed.removals
      rw [hremoved, hcompared.removals, List.nil_append]
      exact hall

/-! ## Tokens -/

variable {before after : Option SourceWatermark} {token : SourceWatermark} {watermark : Watermark}

theorem encodeWatermark_eq_ok (h : source.encodeWatermark watermark = .ok token) :
    watermarkCodec.encode watermark = some token.token ∧ strLen token.token ≤ maxWatermarkBytes := by
  obtain ⟨text, hencode, h⟩ := bind_eq_ok_iff.mp h
  obtain ⟨_, hfits, hnew⟩ := bind_eq_ok_iff.mp h
  obtain ⟨_, htoken⟩ := SourceWatermark.new_eq_ok_iff.mp hnew
  rw [htoken]
  exact ⟨okOr_eq_ok_iff.mp hencode, Nat.not_lt.mp (rejectIf_eq_ok_iff.mp hfits)⟩

/-- A written watermark is read back, unless it records too many sessions. -/
theorem decodeWatermark_encodeWatermark (hversion : watermark.version = watermarkVersion)
    (h : source.encodeWatermark watermark = .ok token) (read : Watermark) :
    source.decodeWatermark (some token) = .ok read ↔
      watermark = read ∧ watermark.sessions.size ≤ maxRows := by
  obtain ⟨hencode, hfits⟩ := encodeWatermark_eq_ok h
  have hdecode := watermarkCodec.decode_encode hencode
  unfold decodeWatermark
  dsimp only
  rw [rejectIf_of_not (Nat.not_lt.mpr hfits), ok_bind, hdecode]
  simp only [okOr, ok_bind, bind_eq_ok_iff, rejectIf_eq_ok_iff, pure_eq_ok, Except.ok.injEq, hversion,
    ne_eq, not_true_eq_false, false_or, Nat.not_lt]
  constructor
  · rintro ⟨_, hsize, hread⟩
    exact ⟨hread, hsize⟩
  · rintro ⟨hread, hsize⟩
    exact ⟨(), hsize, hread⟩

theorem decodeWatermark_eq_ok (h : source.decodeWatermark before = .ok watermark) :
    watermark.version = watermarkVersion ∧ watermark.sessions.size ≤ maxRows := by
  unfold decodeWatermark at h
  split at h
  next =>
    cases h
    exact ⟨rfl, by simp [Watermark.default]⟩
  next =>
    obtain ⟨_, _, h⟩ := bind_eq_ok_iff.mp h
    obtain ⟨read, _, h⟩ := bind_eq_ok_iff.mp h
    obtain ⟨_, hcompatible, hread⟩ := bind_eq_ok_iff.mp h
    cases hread
    obtain ⟨hversion, hsize⟩ := not_or.mp (rejectIf_eq_ok_iff.mp hcompatible)
    exact ⟨not_not.mp hversion, Nat.not_lt.mp hsize⟩

/-! ## The sessions that are read -/

theorem length_readSessions {cancelledRow : Nat → Bool} {canonicalRoot : PathBuf} {read : Nat}
    {rows : List (Except SourceError SessionRow)} (hread : read ≤ maxRows)
    (h : source.readSessions cancelledRow canonicalRoot read rows = .ok sessions) :
    read + sessions.length ≤ maxRows := by
  induction rows generalizing read sessions with
  | nil =>
    cases h
    exact hread
  | cons row rest ih =>
    unfold readSessions at h
    obtain ⟨row, _, h⟩ := bind_eq_ok_iff.mp h
    obtain ⟨_, hroom, h⟩ := bind_eq_ok_iff.mp h
    obtain ⟨_, _, h⟩ := bind_eq_ok_iff.mp h
    obtain ⟨session, _, h⟩ := bind_eq_ok_iff.mp h
    obtain ⟨others, hothers, h⟩ := bind_eq_ok_iff.mp h
    cases h
    have hrest := ih (Nat.not_le.mp (rejectIf_eq_ok_iff.mp hroom)) hothers
    rw [List.length_cons]
    omega

theorem length_querySessions {view : DatabaseView} (h : source.querySessions view = .ok sessions) :
    sessions.length ≤ maxRows := by
  unfold querySessions at h
  obtain ⟨_, _, h⟩ := bind_eq_ok_iff.mp h
  obtain ⟨_, _, h⟩ := bind_eq_ok_iff.mp h
  obtain ⟨_, _, h⟩ := bind_eq_ok_iff.mp h
  obtain ⟨rows, _, h⟩ := bind_eq_ok_iff.mp h
  obtain ⟨canonicalRoot, _, h⟩ := bind_eq_ok_iff.mp h
  have hlength := length_readSessions (Nat.zero_le _) h
  omega

/-! ## Pages -/

/-- The page is shown a database that is there and holds these sessions. -/
structure Shows (source : OpenCodeSource) (captured : CapturedDatabase)
    (sessions : List ValidatedSession) (view : DatabaseView) : Prop where
  available : source.probe view = .ok .available
  opened : source.openSnapshot view = .ok captured
  read : source.querySessions view = .ok sessions

/-- One page, from the watermark it is given to the one it returns. -/
def PageStep (source : OpenCodeSource) (captured : CapturedDatabase)
    (sessions : List ValidatedSession) (before : Option SourceWatermark)
    (page : DiscoveryLimit × DiscoveryBatch) (after : Option SourceWatermark) : Prop :=
  ∃ view snapshots later, Shows source captured sessions view ∧
    source.discoverRaw view snapshots source.project before page.1 = (later, .ok page.2) ∧
    after = page.2.nextWatermark

theorem look_eq_ok {view : DatabaseView} {looked : Looked} (hview : Shows source captured sessions view)
    (h : source.look view source.project before = .ok looked) :
    ∃ first, source.decodeWatermark before = .ok first ∧
      ((first.pending = false ∧ first.database = some captured.state ∧
          ∃ next, source.encodeWatermark first = .ok next ∧ looked = .unchanged next) ∨
        looked = .read first captured sessions) := by
  unfold look at h
  obtain ⟨_, _, h⟩ := bind_eq_ok_iff.mp h
  obtain ⟨first, hfirst, h⟩ := bind_eq_ok_iff.mp h
  refine ⟨first, hfirst, ?_⟩
  simp only [hview.available, hview.opened, ok_bind] at h
  obtain ⟨_, _, h⟩ := bind_eq_ok_iff.mp h
  split at h
  next hsame =>
    obtain ⟨next, hnext, h⟩ := bind_eq_ok_iff.mp h
    cases h
    exact Or.inl ⟨by simpa using hsame.1, hsame.2, next, hnext, rfl⟩
  next =>
    obtain ⟨_, _, h⟩ := bind_eq_ok_iff.mp h
    obtain ⟨read, hread, h⟩ := bind_eq_ok_iff.mp h
    cases hview.read.symm.trans hread
    obtain ⟨_, _, h⟩ := bind_eq_ok_iff.mp h
    obtain ⟨_, _, h⟩ := bind_eq_ok_iff.mp h
    obtain ⟨_, _, h⟩ := bind_eq_ok_iff.mp h
    cases h
    exact Or.inr rfl

/-- A page that is not pending was taken of a database that has not changed since. -/
def Sound (captured : CapturedDatabase) (sessions : List ValidatedSession) (watermark : Watermark) :
    Prop :=
  watermark.pending = false → watermark.database = some captured.state →
    pending watermark.sessions (items sessions) = 0

/-- A batch tells what its page does. -/
structure Reports (source : OpenCodeSource) (captured : CapturedDatabase)
    (event : DiscoveryLimit × DiscoveryBatch) (page : Page String String) : Prop where
  limit : page.limit = event.1.val
  more : page.more = event.2.hasMore
  candidates : event.2.candidates = page.told.map (source.candidateFor captured)
  removals : List.Forall₂ (fun id removal => source.removalOf id = .ok removal) page.dropped
    event.2.removals
  bounded : event.2.candidates.length + event.2.removals.length ≤ event.1.val

theorem PageStep.turns {event : DiscoveryLimit × DiscoveryBatch}
    (hsessions : (sessions.map ValidatedSession.id).Nodup)
    (h : PageStep source captured sessions before event after) :
    sessions.length ≤ maxRows ∧ ∃ first, source.decodeWatermark before = .ok first ∧
      (Sound captured sessions first → ∃ next token page,
        after = some token ∧ source.encodeWatermark next = .ok token ∧
        next.version = watermarkVersion ∧ next.pending = event.2.hasMore ∧
        Sound captured sessions next ∧ Turns (items sessions) first.sessions page next.sessions ∧
        Reports source captured event page) := by
  obtain ⟨limit, batch⟩ := event
  obtain ⟨view, snapshots, later, hview, hpage, rfl⟩ := h
  refine ⟨length_querySessions hview.read, ?_⟩
  unfold discoverRaw at hpage
  split at hpage
  next => cases hpage
  next next hlook =>
    obtain ⟨first, hfirst, hunchanged | hcontra⟩ := look_eq_ok hview hlook
    · obtain ⟨hsettled, hsame, token, htoken, hnext⟩ := hunchanged
      cases hnext
      obtain ⟨rfl, _⟩ := DiscoveryBatch.new_eq_ok_iff.mp (Prod.mk.inj hpage).2
      refine ⟨first, hfirst, fun hsound => ⟨first, next, ⟨limit.val, [], [], false⟩, rfl, htoken,
        (decodeWatermark_eq_ok hfirst).1, hsettled, hsound, ?_, rfl, rfl, rfl, .nil, Nat.zero_le _⟩⟩
      exact turns_settled (hsound hsettled hsame) _
    · cases hcontra
  next read held found hlook =>
    obtain ⟨first, hfirst, hcontra | hread⟩ := look_eq_ok hview hlook
    · obtain ⟨_, _, _, _, hnext⟩ := hcontra
      cases hnext
    · cases hread
      split at hpage
      next => cases hpage
      next collected hcollect =>
        obtain ⟨page, hlimit, hmore, htells⟩ := tells_collect hsessions hcollect
        obtain ⟨token, htoken, hbatch⟩ := bind_eq_ok_iff.mp (Prod.mk.inj hpage).2
        obtain ⟨rfl, _⟩ := DiscoveryBatch.new_eq_ok_iff.mp hbatch
        have hbounded := htells.turns.length_le
        rw [htells.removals.length_eq, hlimit, ← List.length_map (source.candidateFor captured),
          ← htells.candidates] at hbounded
        refine ⟨_, hfirst, fun _ => ⟨_, token, page, rfl, htoken, rfl, rfl, ?_, htells.turns, hlimit,
          hmore, htells.candidates, htells.removals, hbounded⟩⟩
        intro hsettled _
        have hnone := (htells.turns.more_iff (by rw [map_fst_items]; exact hsessions)).not
        rw [hmore, show collected.hasMore = false from hsettled] at hnone
        simpa using hnone

/-! ## Runs of pages -/

variable {start last : Option SourceWatermark} {events : List (DiscoveryLimit × DiscoveryBatch)}
  {pages : List (Page String String)}

/-- What a run of pages has told so far. -/
structure Told (source : OpenCodeSource) (captured : CapturedDatabase)
    (sessions : List ValidatedSession) (first : Sessions)
    (events : List (DiscoveryLimit × DiscoveryBatch)) (last : Option SourceWatermark)
    (current : Watermark) (pages : List (Page String String)) : Prop where
  reads : ∀ read, source.decodeWatermark last = .ok read → read = current
  sound : Sound captured sessions current
  turns : Run (Turns (items sessions)) first pages current.sessions
  reports : List.Forall₂ (Reports source captured) events pages
  written : ∀ final ∈ events.getLast?, current.pending = final.2.hasMore ∧
    sessions.length ≤ maxRows ∧ (final.2.hasMore = true ↔ pending current.sessions (items sessions) ≠ 0) ∧
    (current.sessions.size ≤ maxRows → source.decodeWatermark last = .ok current)

theorem told_of_run {first : Watermark} (hsessions : (sessions.map ValidatedSession.id).Nodup)
    (hstart : source.decodeWatermark start = .ok first) (hsound : Sound captured sessions first)
    (h : Run (PageStep source captured sessions) start events last) :
    ∃ current pages, Told source captured sessions first.sessions events last current pages := by
  have hitems : ((items sessions).map Prod.fst).Nodup := by
    rw [map_fst_items]
    exact hsessions
  refine h.history (fun events last => ∃ current pages,
    Told source captured sessions first.sessions events last current pages) ?_ ?_
  · refine ⟨first, [], fun read hread => ?_, hsound, .refl, .nil, by simp⟩
    exact Except.ok.inj (hread.symm.trans hstart)
  · rintro events middle event after ⟨current, pages, htold⟩ hstep
    obtain ⟨hlength, read, hread, hnext⟩ := hstep.turns hsessions
    obtain rfl := htold.reads read hread
    obtain ⟨next, token, page, rfl, htoken, hversion, hpending, hsound, hturns, hreports⟩ :=
      hnext htold.sound
    have hdecode := decodeWatermark_encodeWatermark hversion htoken
    refine ⟨next, pages ++ [page], fun read hread => ((hdecode read).mp hread).1.symm, hsound,
      htold.turns.step hturns, List.rel_append htold.reports (.cons hreports .nil), ?_⟩
    intro final hfinal
    rw [List.getLast?_concat, Option.mem_some_iff] at hfinal
    subst hfinal
    refine ⟨hpending, hlength, ?_, fun hsize => (hdecode next).mpr ⟨rfl, hsize⟩⟩
    rw [← hreports.more]
    exact hturns.more_iff hitems

theorem reports_candidates (h : List.Forall₂ (Reports source captured) events pages) :
    events.flatMap (·.2.candidates) =
      (pages.flatMap Page.told).map (source.candidateFor captured) := by
  induction h with
  | nil => rfl
  | cons hreports _ ih =>
    rw [List.flatMap_cons, List.flatMap_cons, List.map_append, ih, hreports.candidates]

theorem reports_removals (h : List.Forall₂ (Reports source captured) events pages) :
    List.Forall₂ (fun id removal => source.removalOf id = .ok removal)
      (pages.flatMap Page.dropped) (events.flatMap (·.2.removals)) := by
  induction h with
  | nil => exact .nil
  | cons hreports _ ih =>
    rw [List.flatMap_cons, List.flatMap_cons]
    exact List.rel_append hreports.removals ih

theorem reports_limits (h : List.Forall₂ (Reports source captured) events pages) :
    pages.map Page.limit = events.map (·.1.val) := by
  induction h with
  | nil => rfl
  | cons hreports _ ih => rw [List.map_cons, List.map_cons, ih, hreports.limit]

theorem reports_bounded (h : List.Forall₂ (Reports source captured) events pages) :
    ∀ event ∈ events, event.2.candidates.length + event.2.removals.length ≤ event.1.val := by
  induction h with
  | nil => simp
  | cons hreports _ ih => exact List.forall_mem_cons.mpr ⟨hreports.bounded, ih⟩

/-- The sessions that are recorded without exception are not too many. -/
theorem size_le_of_settled {recorded : Sessions} (h : pending recorded (items sessions) = 0) :
    recorded.size ≤ sessions.length := by
  have hrecorded := pending_eq_zero_iff.mp h
  have hsubset : recorded.keys ⊆ sessions.map ValidatedSession.id := by
    intro id hid
    obtain ⟨fingerprint, hfingerprint⟩ := Option.isSome_iff_exists.mp
      (Std.ExtTreeMap.mem_iff_isSome_getElem?.mp (Std.ExtTreeMap.mem_keys.mp hid))
    rw [← map_fst_items]
    exact List.mem_map_of_mem ((hrecorded id fingerprint).mp hfingerprint)
  have hlength := (List.subperm_of_subset (nodup_keys recorded) hsubset).length_le
  rwa [Std.ExtTreeMap.length_keys, List.length_map] at hlength

end OpenCodeSource

namespace Sample

def texts : SessionTexts := ⟨"ses_0123456789ABCDEFGHIJabcdef", 30, "title", 5, "1.18.18", 7⟩

def evidence : SessionEvidence := ⟨0, 0, none, true, false⟩

def project : ProjectIdentity := ⟨⟨[47, 112]⟩⟩

def session : ValidatedSession where
  id := texts.id
  title := texts.title
  version := texts.version
  createdAt := ⟨0, epoch_range⟩
  updatedAt := ⟨0, epoch_range⟩
  archivedAt := none
  canonicalRoot := project.root
  worktreeMatch := true
  directoryMatch := false
  fingerprint := sessionFingerprint texts.id texts.title texts.version 0 0 none true false

def captured : CapturedDatabase := ⟨4096, ⟨0, epoch_range⟩, ⟨⟨4096, 0, 0, false, 1, 2⟩, none⟩⟩

def files : DatabaseFiles where
  main := .ok (utf8 "SQLite format 3\x00" ++ [16, 0, 2, 2], ⟨4096, .ok ⟨0, epoch_range⟩, 1, 2⟩)
  wal := .error ⟨.notFound, none⟩
  shm := .error ⟨.notFound, none⟩

/-- A database with one session. -/
def view : DatabaseView where
  directory := .ok true
  database := .ok ()
  root := .ok ()
  files := files
  cancelledOpening := false
  connect := .ok ()
  beginRead := .ok ()
  schemaValid := true
  cancelledQuery := false
  query := .ok [.ok ⟨.ok texts, .ok evidence⟩]
  canonicalRoot := some project.root
  cancelledRow := fun _ => false
  commitRead := .ok ()
  filesAfter := files

def source : OpenCodeSource := ⟨⟨toolId, normal_toolId⟩, project, ⟨[47, 100]⟩⟩

theorem one_allowed : 0 < 1 := Nat.one_pos

def page : Snapshots × Except SourceError DiscoveryBatch :=
  source.discoverRaw view ∅ project none ⟨1, one_allowed⟩

theorem page_facts : source.probe view = .ok .available ∧
    source.openSnapshot view = .ok captured ∧ source.querySessions view = .ok [session] ∧
    page.2.toOption.map (·.candidates.length) = some 1 ∧
    pending Watermark.default.sessions (items [session]) = 1 ∧
    changes Watermark.default.sessions (items [session]) =
      [(session.id, session.fingerprint)] := by
  decide +kernel

theorem shows : OpenCodeSource.Shows source captured [session] view :=
  ⟨page_facts.1, page_facts.2.1, page_facts.2.2.1⟩

theorem exists_page : ∃ later batch, page = (later, .ok batch) ∧ batch.candidates.length = 1 := by
  have hlength := page_facts.2.2.2.1
  obtain ⟨batch, hbatch, hone⟩ := Option.map_eq_some_iff.mp hlength
  refine ⟨page.1, batch, Prod.ext rfl ?_, hone⟩
  cases hpage : page.2 with
  | error error =>
    rw [hpage] at hbatch
    cases hbatch
  | ok other =>
    rw [hpage] at hbatch
    cases hbatch
    rfl

theorem distinct : ∀ sessions, source.querySessions view = .ok sessions →
    (sessions.map ValidatedSession.id).Nodup := by
  intro sessions hsessions
  cases page_facts.2.2.1.symm.trans hsessions
  exact List.nodup_singleton _

end Sample

end HerdrContext.OpenCode
