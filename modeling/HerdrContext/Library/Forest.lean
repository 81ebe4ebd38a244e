import Mathlib.Data.List.Nodup
import Mathlib.Logic.Relation

/-! Ordered forests given by parents, and their listings in pre-order. -/
namespace HerdrContext.Library

/-- The children of a node, or of the forest itself, in their order. Every
parent lies higher. -/
structure Forest (α : Type) where
  nodes : Set α
  parent : α → Option α
  depth : α → Nat
  children : Option α → List α
  depth_parent : ∀ a b, parent a = some b → depth b < depth a
  mem_children : ∀ above a, a ∈ children above ↔ a ∈ nodes ∧ parent a = above
  nodup_children : ∀ above, (children above).Nodup

namespace Forest

variable {α : Type} {forest : Forest α} {keep : α → Bool} {above : Option α} {a b c : α}
  {fuel steps : Nat}

/-- The node so many steps up. -/
def up (forest : Forest α) : Nat → α → Option α
  | 0, a => some a
  | steps + 1, a => (forest.up steps a).bind forest.parent

/-- A node over another. -/
def Above (forest : Forest α) (a b : α) : Prop := ∃ steps, forest.up (steps + 1) b = some a

theorem up_add (left right : Nat) (a : α) :
    forest.up (left + right) a = (forest.up left a).bind (forest.up right) := by
  induction right with
  | zero => simp [up]
  | succ right ih =>
    rw [← Nat.add_assoc, up, ih, Option.bind_assoc]
    rfl

theorem up_succ (steps : Nat) (a : α) :
    forest.up (steps + 1) a = (forest.parent a).bind (forest.up steps) := by
  rw [Nat.add_comm, up_add]
  rfl

theorem depth_up (h : forest.up steps a = some b) : forest.depth b + steps ≤ forest.depth a := by
  induction steps generalizing b with
  | zero =>
    cases h
    omega
  | succ steps ih =>
    have ⟨c, hc, hparent⟩ := Option.bind_eq_some_iff.mp h
    have hlower := ih hc
    have hstep := forest.depth_parent c b hparent
    omega

theorem Above.depth_lt (h : forest.Above a b) : forest.depth a < forest.depth b := by
  have ⟨steps, hup⟩ := h
  have hdepth := depth_up hup
  omega

theorem Above.of_parent (h : forest.parent b = some a) : forest.Above a b := ⟨0, h⟩

theorem Above.trans (hab : forest.Above a b) (hbc : forest.Above b c) : forest.Above a c := by
  have ⟨left, hleft⟩ := hab
  have ⟨right, hright⟩ := hbc
  refine ⟨right + 1 + left, ?_⟩
  rw [Nat.add_assoc, up_add, hright]
  exact hleft

theorem Above.cases (h : forest.Above a c) :
    forest.parent c = some a ∨ ∃ b, forest.parent c = some b ∧ forest.Above a b := by
  have ⟨steps, hup⟩ := h
  rw [up_succ] at hup
  have ⟨b, hb, hrest⟩ := Option.bind_eq_some_iff.mp hup
  cases steps with
  | zero =>
    cases hrest
    exact Or.inl hb
  | succ steps => exact Or.inr ⟨b, hb, steps, hrest⟩

/-- Nodes of one parent that are both over a node, or are it, are the same. -/
theorem up_unique {left right : Nat} (ha : forest.up left c = some a)
    (hb : forest.up right c = some b) (hparents : forest.parent a = forest.parent b) : a = b := by
  have hshort {short long : Nat} {low high : α} (hlow : forest.up short c = some low)
      (hhigh : forest.up long c = some high) (hsame : forest.parent low = forest.parent high)
      (hle : short ≤ long) : low = high := by
    have ⟨more, hmore⟩ := Nat.exists_eq_add_of_le hle
    rw [hmore, up_add, hlow, Option.bind_some] at hhigh
    cases more with
    | zero => exact Option.some.inj hhigh
    | succ more =>
      -- the upper one would lie over its own parent
      rw [up_succ] at hhigh
      have ⟨parent, hparent, hover⟩ := Option.bind_eq_some_iff.mp hhigh
      have hlower := depth_up hover
      have hstep := forest.depth_parent high parent (hsame.symm.trans hparent)
      omega
  cases Nat.le_total left right with
  | inl hle => exact hshort ha hb hparents hle
  | inr hle => exact (hshort hb ha hparents.symm hle).symm

/-! ## Listings -/

/-- The kept nodes below a node, each before the kept nodes below it. -/
def listing (forest : Forest α) (keep : α → Bool) : Nat → Option α → List α
  | 0, _ => []
  | fuel + 1, above =>
    ((forest.children above).filter keep).flatMap fun a => a :: forest.listing keep fuel (some a)

/-- Fuel beyond the deepest node changes nothing. -/
theorem listing_fuel {base other : Nat} (habove : ∀ a ∈ forest.children above, base ≤ forest.depth a)
    (hfuel : ∀ a ∈ forest.nodes, forest.depth a < base + fuel)
    (hother : ∀ a ∈ forest.nodes, forest.depth a < base + other) :
    forest.listing keep fuel above = forest.listing keep other above := by
  have hempty (hzero : ∀ a ∈ forest.nodes, forest.depth a < base + 0) : forest.children above = [] := by
    rw [List.eq_nil_iff_forall_not_mem]
    intro a ha
    have hlow := habove a ha
    have hhigh := hzero a ((forest.mem_children _ _).mp ha).1
    omega
  induction fuel generalizing base other above with
  | zero =>
    cases other with
    | zero => rfl
    | succ other =>
      rw [listing, listing, hempty hfuel]
      rfl
  | succ fuel ih =>
    cases other with
    | zero =>
      rw [listing, listing, hempty hother]
      rfl
    | succ other =>
      rw [listing, listing]
      apply List.flatMap_congr
      intro a ha
      have hchild := habove a (List.mem_filter.mp ha).1
      have hbelow : ∀ b ∈ forest.children (some a), forest.depth a + 1 ≤ forest.depth b :=
        fun b hb => forest.depth_parent b a ((forest.mem_children _ _).mp hb).2
      have hfuel' : ∀ b ∈ forest.nodes, forest.depth b < forest.depth a + 1 + fuel := by
        intro b hb
        have := hfuel b hb
        omega
      have hother' : ∀ b ∈ forest.nodes, forest.depth b < forest.depth a + 1 + other := by
        intro b hb
        have := hother b hb
        omega
      rw [ih hbelow hfuel' hother']
      intro hzero
      rw [List.eq_nil_iff_forall_not_mem]
      intro b hb
      have hlow := hbelow b hb
      have hhigh := hzero b ((forest.mem_children _ _).mp hb).1
      omega

/-- A kept node so many steps below, over kept nodes only. -/
inductive Below (forest : Forest α) (keep : α → Bool) : Option α → α → Nat → Prop where
  | child {above : Option α} {a : α} (shown : a ∈ forest.children above) (kept : keep a) :
    Below forest keep above a 0
  | deeper {above : Option α} {a b : α} {steps : Nat} (shown : a ∈ forest.children above)
    (kept : keep a) (below : Below forest keep (some a) b steps) :
    Below forest keep above b (steps + 1)

theorem mem_listing_succ :
    a ∈ forest.listing keep (fuel + 1) above ↔
      ∃ b, (b ∈ forest.children above ∧ keep b) ∧
        (a = b ∨ a ∈ forest.listing keep fuel (some b)) := by
  simp only [listing, List.mem_flatMap, List.mem_filter, List.mem_cons]

theorem mem_listing :
    a ∈ forest.listing keep fuel above ↔ ∃ steps < fuel, forest.Below keep above a steps := by
  induction fuel generalizing above with
  | zero => simp [listing]
  | succ fuel ih =>
    rw [mem_listing_succ]
    constructor
    · intro ⟨b, ⟨hshown, hkept⟩, hrest⟩
      cases hrest with
      | inl heq =>
        rw [heq]
        exact ⟨0, Nat.zero_lt_succ _, .child hshown hkept⟩
      | inr hmem =>
        have ⟨steps, hsteps, hbelow⟩ := ih.mp hmem
        exact ⟨steps + 1, Nat.succ_lt_succ hsteps, .deeper hshown hkept hbelow⟩
    · intro ⟨steps, hsteps, hbelow⟩
      cases hbelow with
      | child hshown hkept => exact ⟨a, ⟨hshown, hkept⟩, Or.inl rfl⟩
      | deeper hshown hkept hrest =>
        exact ⟨_, ⟨hshown, hkept⟩, Or.inr (ih.mpr ⟨_, by omega, hrest⟩)⟩

theorem Below.kept (h : forest.Below keep above a steps) : keep a := by
  induction h with
  | child _ hkept => exact hkept
  | deeper _ _ _ ih => exact ih

theorem Below.mem (h : forest.Below keep above a steps) : a ∈ forest.nodes := by
  induction h with
  | child hshown _ => exact ((forest.mem_children _ _).mp hshown).1
  | deeper _ _ _ ih => exact ih

/-- So many steps up lies a child. -/
theorem Below.up (h : forest.Below keep above a steps) :
    ∃ top, forest.up steps a = some top ∧ top ∈ forest.children above ∧ keep top := by
  induction h with
  | child hshown hkept => exact ⟨_, rfl, hshown, hkept⟩
  | deeper hshown hkept _ ih =>
    have ⟨top, hup, htop, _⟩ := ih
    refine ⟨_, ?_, hshown, hkept⟩
    rw [Forest.up, hup, Option.bind_some]
    exact ((forest.mem_children _ _).mp htop).2

theorem Below.extend (h : forest.Below keep above a steps) (hchild : b ∈ forest.children (some a))
    (hkept : keep b) : forest.Below keep above b (steps + 1) := by
  induction h with
  | child hshown hself => exact .deeper hshown hself (.child hchild hkept)
  | deeper hshown hself _ ih => exact .deeper hshown hself (ih hchild)

/-- Every kept node is below the forest where parents of kept nodes are kept
nodes. -/
theorem exists_below (hclosed : ∀ a ∈ forest.nodes, keep a → ∀ b, forest.parent a = some b →
      b ∈ forest.nodes ∧ keep b) (hnode : a ∈ forest.nodes) (hkept : keep a) :
    ∃ steps ≤ forest.depth a, forest.Below keep none a steps := by
  generalize hdepth : forest.depth a = depth
  induction depth using Nat.strongRecOn generalizing a with
  | ind depth ih =>
    cases hparent : forest.parent a with
    | none => exact ⟨0, Nat.zero_le _, .child ((forest.mem_children _ _).mpr ⟨hnode, hparent⟩) hkept⟩
    | some b =>
      have ⟨hnodeParent, hkeptParent⟩ := hclosed a hnode hkept b hparent
      have hlower := forest.depth_parent a b hparent
      have ⟨steps, hsteps, hbelow⟩ :=
        ih (forest.depth b) (by omega) hnodeParent hkeptParent rfl
      have hchild : a ∈ forest.children (some b) := (forest.mem_children _ _).mpr ⟨hnode, hparent⟩
      exact ⟨steps + 1, by omega, hbelow.extend hchild hkept⟩

/-- The nodes of a listing that closes under parents. -/
theorem mem_listing_iff (hclosed : ∀ a ∈ forest.nodes, keep a → ∀ b, forest.parent a = some b →
      b ∈ forest.nodes ∧ keep b) (hfuel : ∀ a ∈ forest.nodes, forest.depth a < fuel) :
    a ∈ forest.listing keep fuel none ↔ a ∈ forest.nodes ∧ keep a := by
  rw [mem_listing]
  constructor
  · intro ⟨_, _, hbelow⟩
    exact ⟨hbelow.mem, hbelow.kept⟩
  · intro ⟨hnode, hkept⟩
    have ⟨steps, hsteps, hbelow⟩ := exists_below hclosed hnode hkept
    exact ⟨steps, Nat.lt_of_le_of_lt hsteps (hfuel a hnode), hbelow⟩

/-- A node listed under a child is it or lies under it. -/
theorem exists_up (h : a = b ∨ a ∈ forest.listing keep fuel (some b)) :
    ∃ steps, forest.up steps a = some b := by
  cases h with
  | inl heq => exact ⟨0, by rw [heq]; rfl⟩
  | inr hmem =>
    have ⟨steps, _, hbelow⟩ := mem_listing.mp hmem
    have ⟨top, hup, htop, _⟩ := hbelow.up
    refine ⟨steps + 1, ?_⟩
    rw [up, hup, Option.bind_some]
    exact ((forest.mem_children _ _).mp htop).2

theorem above_of_mem_listing (h : a ∈ forest.listing keep fuel (some b)) : forest.Above b a := by
  have ⟨steps, _, hbelow⟩ := mem_listing.mp h
  have ⟨top, hup, htop, _⟩ := hbelow.up
  refine ⟨steps, ?_⟩
  rw [up, hup, Option.bind_some]
  exact ((forest.mem_children _ _).mp htop).2

/-- Two children have no common node under them. -/
theorem children_apart (ha : a ∈ forest.children above) (hb : b ∈ forest.children above)
    (hunderA : ∃ steps, forest.up steps c = some a) (hunderB : ∃ steps, forest.up steps c = some b) :
    a = b := by
  have ⟨_, hupA⟩ := hunderA
  have ⟨_, hupB⟩ := hunderB
  apply up_unique hupA hupB
  rw [((forest.mem_children _ _).mp ha).2, ((forest.mem_children _ _).mp hb).2]

theorem nodup_listing (forest : Forest α) (keep : α → Bool) (fuel : Nat) (above : Option α) :
    (forest.listing keep fuel above).Nodup := by
  induction fuel generalizing above with
  | zero => exact List.nodup_nil
  | succ fuel ih =>
    rw [listing, List.nodup_flatMap]
    constructor
    · intro a _
      rw [List.nodup_cons]
      constructor
      · intro hself
        exact Nat.lt_irrefl _ (above_of_mem_listing hself).depth_lt
      · exact ih (some a)
    · apply ((forest.nodup_children above).filter keep).imp_of_mem
      intro a b ha hb hne
      refine List.disjoint_iff_ne.mpr ?_
      intro c hc d hd heq
      rw [← heq] at hd
      exact hne (children_apart (List.mem_filter.mp ha).1 (List.mem_filter.mp hb).1
        (exists_up (List.mem_cons.mp hc)) (exists_up (List.mem_cons.mp hd)))

/-- Nothing comes before a node over it. -/
theorem pairwise_listing (forest : Forest α) (keep : α → Bool) (fuel : Nat) (above : Option α) :
    (forest.listing keep fuel above).Pairwise fun a b => ¬ forest.Above b a := by
  induction fuel generalizing above with
  | zero => exact List.Pairwise.nil
  | succ fuel ih =>
    rw [listing, List.pairwise_flatMap]
    constructor
    · intro a _
      rw [List.pairwise_cons]
      constructor
      · intro b hb hover
        have hunder := (above_of_mem_listing hb).depth_lt
        have := hover.depth_lt
        omega
      · exact ih (some a)
    · apply ((forest.nodup_children above).filter keep).imp_of_mem
      intro a b ha hb hne c hc d hd hover
      -- what lies over a node of the first part lies under the second child
      have ⟨low, hlow⟩ := exists_up (List.mem_cons.mp hd)
      have ⟨steps, hup⟩ := hover
      have hunder : ∃ steps, forest.up steps c = some b := ⟨steps + 1 + low, by
        rw [up_add, hup]
        exact hlow⟩
      exact hne (children_apart (List.mem_filter.mp ha).1 (List.mem_filter.mp hb).1
        (exists_up (List.mem_cons.mp hc)) hunder)

/-- In a listing that closes under parents a node comes behind all that lie
over it. -/
theorem above_mem_before (hclosed : ∀ a ∈ forest.nodes, keep a → ∀ b, forest.parent a = some b →
      b ∈ forest.nodes ∧ keep b) (hfuel : ∀ a ∈ forest.nodes, forest.depth a < fuel)
    {before after : List α} (hlisting : forest.listing keep fuel none = before ++ a :: after)
    (habove : forest.Above b a) : b ∈ before := by
  have hmem : a ∈ forest.listing keep fuel none := by
    rw [hlisting]
    simp
  have ⟨hnode, hkept⟩ := (mem_listing_iff hclosed hfuel).mp hmem
  have hover : b ∈ forest.nodes ∧ keep b := by
    have ⟨steps, hup⟩ := habove
    clear habove
    induction steps generalizing b with
    | zero => exact hclosed a hnode hkept b hup
    | succ steps ih =>
      have ⟨c, hc, hparent⟩ := Option.bind_eq_some_iff.mp hup
      have ⟨hnodeC, hkeptC⟩ := ih hc
      exact hclosed c hnodeC hkeptC b hparent
  have hlisted := (mem_listing_iff hclosed hfuel).mpr hover
  have hpairs := forest.pairwise_listing keep fuel none
  rw [hlisting] at hlisted hpairs
  cases List.mem_append.mp hlisted with
  | inl hbefore => exact hbefore
  | inr hrest =>
    cases List.mem_cons.mp hrest with
    | inl heq => exact absurd (heq ▸ habove.depth_lt) (Nat.lt_irrefl _)
    | inr hafter =>
      have htail := (List.pairwise_append.mp hpairs).2.1
      exact absurd habove ((List.pairwise_cons.mp htail).1 b hafter)

end Forest

end HerdrContext.Library
