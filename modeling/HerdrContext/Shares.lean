import HerdrContext.Discovery

/-! What each registered source puts into a page: the loop over the sources
only collects what every one of them would deliver alone. -/
namespace HerdrContext.Discovery

open Library

section
variable (project : ProjectIdentity) (watermarks : Watermarks) (limit : DiscoveryLimit)
  (budget : MetadataBudget) (cancelled : Cancellation)

/-- One source's part of a page. -/
def share (source : ConversationSource) : ConversationDiscovery :=
  discoverSource project watermarks limit budget cancelled
    { conversations := [], watermarks, removals := [], purgedSources := [], errors := [],
      hasMore := false } source

/-- The sources the loop reaches before it sees the cancellation flag. -/
def visited (sources : List ConversationSource) : List ConversationSource :=
  sources.takeWhile fun source => !cancelled (.source source.sourceId)

end

variable {project : ProjectIdentity} {watermarks : Watermarks} {limit : DiscoveryLimit}
  {budget : MetadataBudget} {cancelled : Cancellation}

/-! ## One source -/

theorem discover_sourcesMatch {source : ConversationSource} {after : Option SourceWatermark}
    {found : Discovered} (h : source.discover project after limit = .ok found) :
    found.batch.sourcesMatch source.sourceId = true := by
  unfold ConversationSource.discover at h
  simp only [bind_eq_ok_iff] at h
  have ⟨_, _, _, _, batch, hbatch, hfound⟩ := h
  cases hfound
  exact (DiscoveryBatch.new_eq_ok_iff.mp hbatch).2.1

theorem get?_setWatermark_of_ne {table : Watermarks} {sourceId id : SourceId}
    {next : Option SourceWatermark} (hnext : ∀ w ∈ next, w.sourceId = sourceId)
    (h : id ≠ sourceId) : (setWatermark table sourceId next).get? id = table.get? id := by
  cases next with
  | none => rw [setWatermark, Table.get?_erase, if_neg (Ne.symm h)]
  | some w =>
    have hw : w.sourceId ≠ id := fun heq => h (heq.symm.trans (hnext w rfl))
    rw [setWatermark, Table.get?_insert, if_neg hw]

theorem get?_setWatermark_self {table : Watermarks} {sourceId : SourceId}
    {next : Option SourceWatermark} (hnext : ∀ w ∈ next, w.sourceId = sourceId) :
    (setWatermark table sourceId next).get? sourceId = next := by
  cases next with
  | none => rw [setWatermark, Table.get?_erase, if_pos rfl]
  | some w => rw [setWatermark, Table.get?_insert, if_pos (hnext w rfl)]

/-- `after` is `before` with the share of the source `id` put into it. -/
structure Joined (watermarks : Watermarks) (id : SourceId)
    (before share after : ConversationDiscovery) : Prop where
  conversations_eq : after.conversations = before.conversations ++ share.conversations
  removals_eq : after.removals = before.removals ++ share.removals
  purged_eq : after.purgedSources = before.purgedSources ++ share.purgedSources
  errors_eq : after.errors = before.errors ++ share.errors
  hasMore_eq : after.hasMore = (before.hasMore || share.hasMore)
  watermark_self : before.watermarks.get? id = watermarks.get? id →
    after.watermarks.get? id = share.watermarks.get? id
  watermark_other : ∀ other, other ≠ id → after.watermarks.get? other = before.watermarks.get? other

theorem joined_discoverSource (state : ConversationDiscovery) (source : ConversationSource) :
    Joined watermarks source.sourceId state (share project watermarks limit budget cancelled source)
      (discoverSource project watermarks limit budget cancelled state source) := by
  unfold share discoverSource
  cases source.probe with
  | error error => constructor <;> simp
  | ok probe =>
    cases probe with
    | unavailable reason => constructor <;> simp
    | available =>
      cases hfound : source.discover project (watermarks.get? source.sourceId) limit with
      | error error =>
        dsimp only
        split
        next => constructor <;> simp +contextual [Table.get?_erase, eq_comm]
        next => constructor <;> simp
      | ok found =>
        have hnext := (DiscoveryBatch.sourcesMatch_iff.mp (discover_sourcesMatch hfound)).2.1
        dsimp only
        split
        next => constructor <;> simp
        next =>
          constructor <;> simp
          case watermark_self =>
            simp only [get?_setWatermark_self hnext, implies_true]
          case watermark_other =>
            exact fun other hother => get?_setWatermark_of_ne hnext hother

/-- A source removes only sessions of its own and purges only itself. -/
theorem share_confined (source : ConversationSource) :
    (∀ removal ∈ (share project watermarks limit budget cancelled source).removals,
      removal.sourceId = source.sourceId) ∧
    ∀ id ∈ (share project watermarks limit budget cancelled source).purgedSources,
      id = source.sourceId := by
  unfold share discoverSource
  cases source.probe with
  | error error => simp
  | ok probe =>
    cases probe with
    | unavailable reason => simp
    | available =>
      cases hfound : source.discover project (watermarks.get? source.sourceId) limit with
      | error error =>
        dsimp only
        split <;> simp
      | ok found =>
        have hremovals := (DiscoveryBatch.sourcesMatch_iff.mp (discover_sourcesMatch hfound)).2.2.1
        dsimp only
        split
        next => simp
        next => simpa using hremovals

/-! ## The loop -/

/-- `after` is `before` with the shares of all these sources put into it. -/
structure Collected (watermarks : Watermarks) (sources : List ConversationSource)
    (share : ConversationSource → ConversationDiscovery)
    (before after : ConversationDiscovery) : Prop where
  conversations_eq : after.conversations =
    before.conversations ++ sources.flatMap fun source => (share source).conversations
  removals_eq : after.removals =
    before.removals ++ sources.flatMap fun source => (share source).removals
  purged_eq : after.purgedSources =
    before.purgedSources ++ sources.flatMap fun source => (share source).purgedSources
  errors_eq : after.errors = before.errors ++ sources.flatMap fun source => (share source).errors
  hasMore_eq : after.hasMore = (before.hasMore || sources.any fun source => (share source).hasMore)
  watermark_visited : ∀ source ∈ sources,
    before.watermarks.get? source.sourceId = watermarks.get? source.sourceId →
    after.watermarks.get? source.sourceId = (share source).watermarks.get? source.sourceId
  watermark_other : ∀ id, (∀ source ∈ sources, source.sourceId ≠ id) →
    after.watermarks.get? id = before.watermarks.get? id

theorem Collected.nil (share : ConversationSource → ConversationDiscovery)
    (state : ConversationDiscovery) : Collected watermarks [] share state state := by
  constructor <;> simp

theorem Collected.cons {source : ConversationSource} {rest : List ConversationSource}
    {share : ConversationSource → ConversationDiscovery}
    {before state after : ConversationDiscovery}
    (hfirst : Joined watermarks source.sourceId before (share source) state)
    (hrest : Collected watermarks rest share state after)
    (hfresh : ∀ other ∈ rest, other.sourceId ≠ source.sourceId) :
    Collected watermarks (source :: rest) share before after where
  conversations_eq := by
    rw [hrest.conversations_eq, hfirst.conversations_eq, List.flatMap_cons, List.append_assoc]
  removals_eq := by
    rw [hrest.removals_eq, hfirst.removals_eq, List.flatMap_cons, List.append_assoc]
  purged_eq := by
    rw [hrest.purged_eq, hfirst.purged_eq, List.flatMap_cons, List.append_assoc]
  errors_eq := by
    rw [hrest.errors_eq, hfirst.errors_eq, List.flatMap_cons, List.append_assoc]
  hasMore_eq := by
    rw [hrest.hasMore_eq, hfirst.hasMore_eq, List.any_cons, Bool.or_assoc]
  watermark_visited := by
    intro visited hmem hbefore
    cases List.mem_cons.mp hmem with
    | inl hsource =>
      subst hsource
      rw [hrest.watermark_other _ hfresh]
      exact hfirst.watermark_self hbefore
    | inr hmem =>
      apply hrest.watermark_visited visited hmem
      rw [hfirst.watermark_other _ (hfresh visited hmem), hbefore]
  watermark_other := by
    intro id hid
    rw [hrest.watermark_other id fun other hmem => hid other (List.mem_cons_of_mem _ hmem)]
    exact hfirst.watermark_other id (Ne.symm (hid source List.mem_cons_self))

/-- The loop only collects what each visited source delivers alone. -/
theorem collected_discoverSources {sources : List ConversationSource}
    (hsorted : sources.Pairwise fun left right => left.sourceId < right.sourceId)
    (state : ConversationDiscovery) :
    Collected watermarks (visited cancelled sources)
      (share project watermarks limit budget cancelled) state
      (discoverSources project watermarks limit budget cancelled sources state) := by
  induction sources generalizing state with
  | nil => exact Collected.nil _ _
  | cons source rest ih =>
    by_cases hcancelled : cancelled (.source source.sourceId)
    · have hvisited : visited cancelled (source :: rest) = [] := by
        simp [visited, hcancelled]
      rw [hvisited, discoverSources, if_pos hcancelled]
      exact Collected.nil _ _
    · have hvisited : visited cancelled (source :: rest) = source :: visited cancelled rest := by
        simp [visited, hcancelled]
      have ⟨hfirst, hrest⟩ := List.pairwise_cons.mp hsorted
      rw [hvisited, discoverSources, if_neg hcancelled]
      apply Collected.cons (joined_discoverSource state source) (ih hrest _)
      intro other hmem
      exact (hfirst other (List.takeWhile_subset _ hmem)).ne'

end HerdrContext.Discovery
