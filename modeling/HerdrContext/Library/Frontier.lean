import Mathlib.Data.List.Nodup
import Mathlib.Logic.Relation

/-! Walks over a forest: what has been visited and what waits for it. -/
namespace HerdrContext.Library

variable {α : Type} {parent : α → Option α} {seen waiting batch rest found : List α}

/-- One node is above another at some distance. -/
def Above (parent : α → Option α) : α → α → Prop :=
  Relation.TransGen fun above node => parent node = some above

/-- No node comes twice, and the node above each has been visited before. -/
structure Walk (parent : α → Option α) (seen waiting : List α) : Prop where
  nodup : (seen ++ waiting).Nodup
  below : ∀ node ∈ seen ++ waiting, ∀ above ∈ parent node, above ∈ seen

/-- Nothing a visited node leads to is forgotten. -/
structure Complete (next : α → α → Prop) (root : α) (seen waiting : List α) : Prop where
  root_mem : root ∈ seen ++ waiting
  next_mem : ∀ node ∈ seen, ∀ after, next node after → after ∈ seen ++ waiting

namespace Walk

theorem start {root : α} (hroot : parent root = none) : Walk parent [] [root] := by
  constructor
  · exact List.nodup_singleton root
  · intro node hnode above habove
    rw [List.nil_append, List.mem_singleton] at hnode
    rw [hnode, hroot] at habove
    contradiction

theorem sublist (h : Walk parent seen waiting) (hsub : rest.Sublist waiting) :
    Walk parent seen rest := by
  have hall : (seen ++ rest).Sublist (seen ++ waiting) := hsub.append_left seen
  exact ⟨h.nodup.sublist hall, fun node hnode => h.below node (hall.subset hnode)⟩

theorem seen_of_above (h : Walk parent seen waiting) {above node : α}
    (habove : Above parent above node) (hnode : node ∈ seen ++ waiting) : above ∈ seen := by
  induction habove with
  | single hparent => exact h.below _ hnode _ hparent
  | tail _ hparent ih => exact ih (List.mem_append_left _ (h.below _ hnode _ hparent))

/-- No waiting node is above another one. -/
theorem not_above (h : Walk parent seen waiting) {above node : α} (hwaiting : above ∈ waiting)
    (hnode : node ∈ waiting) : ¬ Above parent above node := by
  intro habove
  have hseen := h.seen_of_above habove (List.mem_append_right _ hnode)
  exact List.disjoint_of_nodup_append h.nodup hseen hwaiting

/-- A batch is visited, and the nodes found below it take its place. -/
theorem visit (h : Walk parent seen (batch ++ rest)) (hfound : found.Nodup)
    (hbelow : ∀ node ∈ found, ∃ above ∈ batch, parent node = some above) :
    Walk parent (seen ++ batch) (rest ++ found) := by
  have hnodup := h.nodup
  rw [← List.append_assoc] at hnodup
  have hfresh : List.Disjoint (seen ++ batch ++ rest) found := by
    intro node hnode hnew
    have ⟨above, habove, hparent⟩ := hbelow node hnew
    rw [List.append_assoc] at hnode
    have hseen := h.below node hnode above hparent
    exact List.disjoint_of_nodup_append h.nodup hseen (List.mem_append_left _ habove)
  constructor
  · rw [← List.append_assoc]
    exact hnodup.append hfound hfresh
  · intro node hnode above habove
    rw [← List.append_assoc] at hnode
    cases List.mem_append.mp hnode with
    | inl hold =>
      rw [List.append_assoc] at hold
      exact List.mem_append_left _ (h.below node hold above habove)
    | inr hnew =>
      have ⟨other, hother, hparent⟩ := hbelow node hnew
      rw [hparent] at habove
      cases habove
      exact List.mem_append_right _ hother

end Walk

namespace Complete

variable {next : α → α → Prop} {root : α}

theorem start (root : α) : Complete next root [] [root] :=
  ⟨List.mem_singleton_self root, fun _ hnode => nomatch hnode⟩

theorem visit (h : Complete next root seen (batch ++ rest))
    (hfound : ∀ node ∈ batch, ∀ after, next node after → after ∈ found) :
    Complete next root (seen ++ batch) (rest ++ found) := by
  have hkept : ∀ node ∈ seen ++ (batch ++ rest), node ∈ (seen ++ batch) ++ (rest ++ found) := by
    intro node hnode
    rw [← List.append_assoc] at hnode ⊢
    exact List.mem_append_left _ hnode
  constructor
  · exact hkept root h.root_mem
  · intro node hnode after hnext
    cases List.mem_append.mp hnode with
    | inl hold => exact hkept after (h.next_mem node hold after hnext)
    | inr hnew =>
      exact List.mem_append_right _ (List.mem_append_right _ (hfound node hnew after hnext))

/-- Where nothing waits any more, everything has been visited. -/
theorem seen_of_reached (h : Complete next root seen []) {node : α}
    (hreached : Relation.ReflTransGen next root node) : node ∈ seen := by
  have hstart := h.root_mem
  rw [List.append_nil] at hstart
  induction hreached with
  | refl => exact hstart
  | tail _ hnext ih =>
    have hafter := h.next_mem _ ih _ hnext
    rwa [List.append_nil] at hafter

end Complete

end HerdrContext.Library
