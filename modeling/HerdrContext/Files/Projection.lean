import HerdrContext.Files.Reachability
import HerdrContext.Files.Search
import HerdrContext.Library.Forest

/-! What a search shows: the matching paths, and the rows of the tree above
and at them. -/
namespace HerdrContext.Files

open Library FilesTree

structure Projection where
  matched : PathSet
  expandedContext : PathSet
  rows : List RelativePath

section
variable (toLowercase : List Char → List Char) (nodes : TreeNodes)

/-- `path.to_string_lossy().to_lowercase()`. -/
def normalizedText (path : RelativePath) : List Char := toLowercase (toStringLossy path.bytes)

def Matches (query : String) (path : RelativePath) : Prop :=
  toLowercase query.toList <:+: normalizedText toLowercase path

instance (query : String) (path : RelativePath) : Decidable (Matches toLowercase query path) :=
  inferInstanceAs (Decidable (_ <:+: _))

def displayParentOf (path : RelativePath) : Option RelativePath :=
  (nodes.get? path).map (displayParent nodes)

/-- The display parents one over another, up to the root; each is shorter than
the one before. -/
def contextAbove : Nat → RelativePath → List RelativePath
  | 0, _ => []
  | steps + 1, path =>
    match displayParentOf nodes path with
    | none => []
    | some parent => if parent = [] then [] else parent :: contextAbove steps parent

def displayAncestors (path : RelativePath) : List RelativePath := contextAbove nodes path.length path

def matchedPaths (searchable : SearchablePaths) (query : String) : PathSet :=
  searchable.values.foldl (fun found indexed =>
    if Matches toLowercase query indexed.path then found.insert indexed.path else found) ∅

def includedPaths (found : PathSet) : PathSet :=
  found.toList.foldl (fun included path =>
    (displayAncestors nodes path).foldl (fun included ancestor => included.insert ancestor) included)
    found

/-- The fuel bounds the depth of the calls. -/
def appendChildren (included : PathSet) : Nat → RelativePath → Option (List RelativePath)
  | 0, _ => none
  | fuel + 1, directory => do
    let rows ← (childNodes nodes directory).mapM fun node =>
      if node.path ∉ included then some []
      else if node.kind = .directory then do
        let below ← appendChildren included fuel node.path
        some (node.path :: below)
      else some [node.path]
    some rows.flatten

end

/-- `project` without a cancellation. -/
def project (toLowercase : List Char → List Char) (fuel : Nat) (index : FilesTree)
    (searchable : SearchablePaths) (query : String) : Option Projection := do
  let found := matchedPaths toLowercase searchable query
  let included := includedPaths index.nodes found
  let rows ← appendChildren index.nodes included fuel []
  some ⟨found, included.filter (isDirectoryNode index.nodes), rows⟩

/-! ## The displayed forest -/

theorem displayParent_shorter {nodes : TreeNodes} {path : RelativePath} {node : TreeNode}
    (hget : nodes.get? path = some node) (hparent : displayParent nodes node ≠ []) :
    (displayParent nodes node).length < path.length := by
  have hpath : node.path = path := Table.key_of_get? hget
  unfold displayParent at hparent ⊢
  rw [hpath] at hparent ⊢
  split
  next hkind =>
    rw [if_pos hkind] at hparent
    apply length_parentPath_lt
    intro hnil
    rw [hnil] at hparent
    exact hparent rfl
  next hkind =>
    rw [if_neg hkind] at hparent
    cases hfind : (ancestors path).tail.find? fun ancestor =>
        ancestor = [] ∨ isDirectoryNode nodes ancestor with
    | none =>
      rw [hfind] at hparent
      exact absurd rfl hparent
    | some ancestor =>
      have ⟨habove, hdiffers⟩ := mem_tail_ancestors.mp (List.mem_of_find?_eq_some hfind)
      exact lt_of_le_of_ne habove.length_le fun heq => hdiffers (habove.eq_of_length heq)

theorem nodup_childNodes (nodes : TreeNodes) (directory : RelativePath) :
    ((childNodes nodes directory).map (·.path)).Nodup := by
  have hperm := (List.perm_insertionSort shownBefore
    (nodes.values.filter fun node => displayParent nodes node = directory)).map (·.path)
  rw [childNodes, hperm.nodup_iff]
  exact List.Nodup.sublist (List.filter_sublist.map _) (Table.nodup_keys_values nodes)

/-- Every path under its display parent. -/
def displayForest (nodes : TreeNodes) : Forest RelativePath where
  nodes := {path | (nodes.get? path).isSome}
  parent path := (displayParentOf nodes path).filter (· ≠ [])
  depth := List.length
  children
    | none => (childNodes nodes []).map (·.path)
    | some directory =>
      if directory = [] then [] else (childNodes nodes directory).map (·.path)
  depth_parent := by
    intro path parent h
    have ⟨hparent, hne⟩ := Option.filter_eq_some_iff.mp h
    have ⟨node, hget, heq⟩ := Option.map_eq_some_iff.mp hparent
    rw [← heq]
    apply displayParent_shorter hget
    simpa [heq] using hne
  mem_children := by
    have hchild (directory path : RelativePath) :
        path ∈ (childNodes nodes directory).map (·.path) ↔ displayParentOf nodes path = some directory := by
      rw [List.mem_map, displayParentOf, Option.map_eq_some_iff]
      constructor
      · intro ⟨node, hnode, hpath⟩
        have ⟨hget, hparent⟩ := mem_childNodes.mp hnode
        exact ⟨node, hpath ▸ hget, hparent⟩
      · intro ⟨node, hget, hparent⟩
        have hpath : node.path = path := Table.key_of_get? hget
        exact ⟨node, mem_childNodes.mpr ⟨hpath.symm ▸ hget, hparent⟩, hpath⟩
    intro above path
    have hnode : path ∈ {path | (nodes.get? path).isSome} ↔ (displayParentOf nodes path).isSome := by
      rw [displayParentOf, Option.isSome_map]
      rfl
    rw [hnode]
    cases above with
    | none =>
      simp only [hchild]
      cases displayParentOf nodes path with
      | none => simp
      | some parent => simp [Option.filter_eq_none_iff]
    | some directory =>
      simp only
      split
      next hnil => simp [hnil, Option.filter_eq_some_iff]
      next hne =>
        rw [hchild, Option.filter_eq_some_iff]
        constructor
        · intro h
          rw [h]
          simp [hne]
        · intro h
          exact h.2.1
  nodup_children := by
    intro above
    cases above with
    | none => exact nodup_childNodes nodes []
    | some directory =>
      simp only
      split
      next => exact List.nodup_nil
      next => exact nodup_childNodes nodes directory

theorem mem_contextAbove {nodes : TreeNodes} {steps : Nat} {path ancestor : RelativePath} :
    ancestor ∈ contextAbove nodes steps path ↔
      ∃ count < steps, (displayForest nodes).up (count + 1) path = some ancestor := by
  induction steps generalizing path with
  | zero => simp [contextAbove]
  | succ steps ih =>
    have hparent : (displayForest nodes).parent path = (displayParentOf nodes path).filter (· ≠ []) := rfl
    have hnone (hstop : (displayForest nodes).parent path = none) :
        ¬ ∃ count < steps + 1, (displayForest nodes).up (count + 1) path = some ancestor := by
      intro ⟨count, _, hup⟩
      rw [Forest.up_succ, hstop] at hup
      contradiction
    unfold contextAbove
    split
    next hmissing =>
      rw [hmissing] at hparent
      exact iff_of_false List.not_mem_nil (hnone hparent)
    next parent hfound =>
      rw [hfound] at hparent
      split
      next hroot =>
        rw [hroot] at hparent
        exact iff_of_false List.not_mem_nil (hnone hparent)
      next hne =>
        have hsome : (displayForest nodes).parent path = some parent := by
          rw [hparent]
          simp [Option.filter, hne]
        rw [List.mem_cons, ih]
        constructor
        · intro h
          cases h with
          | inl heq =>
            refine ⟨0, Nat.zero_lt_succ _, ?_⟩
            rw [heq]
            exact hsome
          | inr hrest =>
            have ⟨count, hcount, hup⟩ := hrest
            refine ⟨count + 1, by omega, ?_⟩
            rw [Forest.up_succ, hsome]
            exact hup
        · intro ⟨count, hcount, hup⟩
          rw [Forest.up_succ, hsome, Option.bind_some] at hup
          cases count with
          | zero => exact Or.inl (Option.some.inj hup).symm
          | succ count => exact Or.inr ⟨count, by omega, hup⟩

/-- The loop finds everything above a path. -/
theorem mem_displayAncestors {nodes : TreeNodes} {path ancestor : RelativePath} :
    ancestor ∈ displayAncestors nodes path ↔ (displayForest nodes).Above ancestor path := by
  rw [displayAncestors, mem_contextAbove]
  constructor
  · intro ⟨count, _, hup⟩
    exact ⟨count, hup⟩
  · intro ⟨count, hup⟩
    have hdepth : ancestor.length + (count + 1) ≤ path.length := Forest.depth_up hup
    exact ⟨count, by omega, hup⟩

/-! ## Matches and rows -/

section
variable {toLowercase : List Char → List Char} {nodes : TreeNodes} {searchable : SearchablePaths}
  {query : String} {path : RelativePath}

theorem mem_matchedPaths : path ∈ matchedPaths toLowercase searchable query ↔
    (searchable.get? path).isSome ∧ Matches toLowercase query path := by
  have hfold (values : List IndexedSearchPath) (found : PathSet) :
      path ∈ values.foldl (fun found indexed =>
          if Matches toLowercase query indexed.path then found.insert indexed.path else found) found ↔
        path ∈ found ∨ ∃ indexed ∈ values, indexed.path = path ∧ Matches toLowercase query path := by
    induction values generalizing found with
    | nil => simp
    | cons first rest ih =>
      rw [List.foldl_cons, ih]
      by_cases hmatches : Matches toLowercase query first.path
      · rw [if_pos hmatches, PathSet.mem_insert]
        by_cases hpath : first.path = path
        · simp [← hpath, hmatches]
        · simp [hpath, Ne.symm hpath]
      · rw [if_neg hmatches]
        by_cases hpath : first.path = path
        · simp [← hpath, hmatches]
        · simp [hpath]
  rw [matchedPaths, hfold, or_iff_right Std.ExtTreeSet.not_mem_empty]
  constructor
  · intro ⟨indexed, hmem, hpath, hmatches⟩
    rw [← hpath, Table.mem_values.mp hmem, hpath]
    exact ⟨rfl, hmatches⟩
  · intro ⟨hsome, hmatches⟩
    have ⟨indexed, hget⟩ := Option.isSome_iff_exists.mp hsome
    have hpath : indexed.path = path := Table.key_of_get? hget
    exact ⟨indexed, Table.mem_values.mpr (hpath.symm ▸ hget), hpath, hmatches⟩

theorem mem_includedPaths {found : PathSet} : path ∈ includedPaths nodes found ↔
    path ∈ found ∨ ∃ matched ∈ found, path ∈ displayAncestors nodes matched := by
  have hinner (above : List RelativePath) (included : PathSet) :
      path ∈ above.foldl (fun included ancestor => included.insert ancestor) included ↔
        path ∈ included ∨ path ∈ above := by
    induction above generalizing included with
    | nil => simp
    | cons ancestor rest ih =>
      rw [List.foldl_cons, ih, PathSet.mem_insert, List.mem_cons]
      grind
  have houter (paths : List RelativePath) (included : PathSet) :
      path ∈ paths.foldl (fun included path =>
          (displayAncestors nodes path).foldl (fun included ancestor => included.insert ancestor)
            included) included ↔
        path ∈ included ∨ ∃ matched ∈ paths, path ∈ displayAncestors nodes matched := by
    induction paths generalizing included with
    | nil => simp
    | cons matched rest ih =>
      rw [List.foldl_cons, ih, hinner, or_assoc]
      simp
  rw [includedPaths, houter]
  simp only [Std.ExtTreeSet.mem_toList]

/-- Only a directory shows anything below it. -/
theorem Connected.children_eq_nil (h : Connected nodes) (hkind : isDirectoryNode nodes path = false) :
    (displayForest nodes).children (some path) = [] := by
  rw [List.eq_nil_iff_forall_not_mem]
  intro child hchild
  have ⟨_, hparent⟩ := ((displayForest nodes).mem_children (some path) child).mp hchild
  have ⟨hshown, hne⟩ := Option.filter_eq_some_iff.mp hparent
  have ⟨node, hget, heq⟩ := Option.map_eq_some_iff.mp hshown
  cases h.displayParent_cases hget with
  | inl hroot =>
    rw [heq] at hroot
    simp [hroot] at hne
  | inr hdirectory =>
    rw [heq, hkind] at hdirectory
    exact Bool.false_ne_true hdirectory.1

theorem Connected.listing_eq_nil (h : Connected nodes) (hkind : isDirectoryNode nodes path = false)
    (keep : RelativePath → Bool) (fuel : Nat) :
    (displayForest nodes).listing keep fuel (some path) = [] := by
  cases fuel with
  | zero => rfl
  | succ fuel =>
    rw [Forest.listing, h.children_eq_nil hkind]
    rfl

/-- Where the rows of a directory start in the forest. -/
def aboveRows (directory : RelativePath) : Option RelativePath :=
  if directory = [] then none else some directory

theorem children_displayForest (directory : RelativePath) :
    (displayForest nodes).children (aboveRows directory) = (childNodes nodes directory).map (·.path) := by
  unfold aboveRows
  split
  next hroot =>
    rw [hroot]
    rfl
  next hne => exact if_neg hne

theorem mapM_eq_some_map {α β : Type} {f : α → Option β} {g : α → β} {values : List α}
    (h : ∀ a ∈ values, f a = some (g a)) : values.mapM f = some (values.map g) := by
  induction values with
  | nil => rfl
  | cons first rest ih =>
    rw [List.mapM_cons, h first List.mem_cons_self, ih fun a ha => h a (List.mem_cons_of_mem _ ha)]
    rfl

/-- With fuel for the deepest node the rows are the listing of the forest. -/
theorem Connected.appendChildren_eq (h : Connected nodes) (hroot : isDirectoryNode nodes [] = false)
    (included : PathSet) {fuel : Nat} (directory : RelativePath) (hpositive : 0 < fuel)
    (hfuel : ∀ path node, nodes.get? path = some node → path.length < directory.length + fuel) :
    appendChildren nodes included fuel directory =
      some ((displayForest nodes).listing (· ∈ included) fuel (aboveRows directory)) := by
  induction fuel generalizing directory with
  | zero => contradiction
  | succ fuel ih =>
    have hrows : ∀ node ∈ childNodes nodes directory,
        (if node.path ∉ included then some []
          else if node.kind = .directory then do
            let below ← appendChildren nodes included fuel node.path
            some (node.path :: below)
          else some [node.path]) =
        some (if node.path ∈ included then
          node.path :: (displayForest nodes).listing (· ∈ included) fuel (some node.path) else []) := by
      intro node hnode
      have ⟨hget, hparent⟩ := mem_childNodes.mp hnode
      by_cases hincluded : node.path ∈ included
      · rw [if_neg (not_not.mpr hincluded), if_pos hincluded]
        by_cases hkind : node.kind = .directory
        · have hdirectory : isDirectoryNode nodes node.path = true :=
            isDirectoryNode_iff.mpr ⟨node, hget, hkind⟩
          have hne : node.path ≠ [] := by
            intro hnil
            rw [hnil, hroot] at hdirectory
            contradiction
          -- a physical child is deeper than the directory, so some fuel is left
          have hlonger : directory.length + 1 = node.path.length := by
            have hpositive := List.length_pos_of_ne_nil hne
            rw [← hparent, displayParent, if_pos (by simp [hkind]), parentPath, List.length_dropLast]
            omega
          have hdeepest := hfuel node.path node hget
          have hbelow := ih node.path (by omega) fun path other hother => by
            have := hfuel path other hother
            omega
          rw [if_pos hkind, hbelow, aboveRows, if_neg hne]
          rfl
        · have hother : isDirectoryNode nodes node.path = false := by
            simp [isDirectoryNode, hget, hkind]
          rw [if_neg hkind, h.listing_eq_nil hother]
      · rw [if_pos hincluded, if_neg hincluded]
    have hflatten (values : List TreeNode) :
        (values.map fun node => if node.path ∈ included then
          node.path :: (displayForest nodes).listing (· ∈ included) fuel (some node.path)
          else []).flatten =
        ((values.map (·.path)).filter (· ∈ included)).flatMap fun path =>
          path :: (displayForest nodes).listing (· ∈ included) fuel (some path) := by
      induction values with
      | nil => rfl
      | cons first rest ihRest =>
        rw [List.map_cons, List.flatten_cons, ihRest, List.map_cons]
        by_cases hfirst : first.path ∈ included
        · rw [if_pos hfirst, List.filter_cons_of_pos (by simpa using hfirst), List.flatMap_cons]
        · rw [if_neg hfirst, List.filter_cons_of_neg (by simpa using hfirst), List.nil_append]
    rw [appendChildren, mapM_eq_some_map hrows, Option.bind_eq_bind, Option.bind_some, hflatten,
      Forest.listing, children_displayForest]

end

/-! ## The law -/

/-- A row of a search: a match, or a path a match is shown under. -/
def shownFor (nodes : TreeNodes) (found : PathSet) (path : RelativePath) : Bool :=
  path ∈ found ∨ ∃ matched ∈ found.toList, path ∈ displayAncestors nodes matched

/-- What a projection shows of an index. -/
structure ProjectionLaw (toLowercase : List Char → List Char) (index : FilesTree)
    (searchable : SearchablePaths) (query : String) (projection : Projection) : Prop where
  matched : ∀ path, path ∈ projection.matched ↔
    (searchable.get? path).isSome ∧ Matches toLowercase query path
  rows_eq : ∃ depth, ∀ fuel, depth ≤ fuel → projection.rows =
    (displayForest index.nodes).listing (shownFor index.nodes projection.matched) fuel none
  nodup : projection.rows.Nodup
  once : ∀ path ∈ projection.matched, projection.rows.count path = 1
  ancestors_first : ∀ before path after, projection.rows = before ++ path :: after →
    ∀ ancestor ∈ displayAncestors index.nodes path, ancestor ∈ before
  only : ∀ path ∈ projection.rows, path ∈ projection.matched ∨
    ∃ matched ∈ projection.matched, path ∈ displayAncestors index.nodes matched

/-- What ties the searchable paths to the index. -/
structure Indexed (index : FilesTree) (searchable : SearchablePaths) : Prop where
  connected : Connected index.nodes
  root : ∀ node, index.nodes.get? [] = some node → node.kind = .virtual
  present : ∀ path indexed, searchable.get? path = some indexed →
    ∃ node, index.nodes.get? path = some node ∧ (indexed.kind ≠ .virtual → node.kind ≠ .virtual)

theorem exists_depth (nodes : TreeNodes) :
    ∃ depth, ∀ path node, nodes.get? path = some node → path.length < depth := by
  have hlist (values : List TreeNode) : ∃ depth, ∀ node ∈ values, node.path.length < depth := by
    induction values with
    | nil => exact ⟨0, fun _ hnone => nomatch hnone⟩
    | cons first rest ih =>
      have ⟨depth, hdepth⟩ := ih
      refine ⟨max depth (first.path.length + 1), fun node hnode => ?_⟩
      cases List.mem_cons.mp hnode with
      | inl heq =>
        rw [heq]
        omega
      | inr hmem =>
        have := hdepth node hmem
        omega
  have ⟨depth, hdepth⟩ := hlist nodes.values
  refine ⟨depth, fun path node hget => ?_⟩
  have hpath : node.path = path := Table.key_of_get? hget
  rw [← hpath]
  apply hdepth
  rw [Table.mem_values, hpath]
  exact hget

section
variable {toLowercase : List Char → List Char} {nodes : TreeNodes} {found : PathSet}

theorem mem_includedPaths_iff {path : RelativePath} :
    decide (path ∈ includedPaths nodes found) = shownFor nodes found path := by
  unfold shownFor
  apply decide_eq_decide.mpr
  rw [mem_includedPaths]
  simp only [Std.ExtTreeSet.mem_toList]

/-- With a row goes the row it is shown under. -/
theorem Connected.shown_parent (h : Connected nodes) {path parent : RelativePath}
    (hshown : shownFor nodes found path = true)
    (hparent : (displayForest nodes).parent path = some parent) :
    parent ∈ (displayForest nodes).nodes ∧ shownFor nodes found parent = true := by
  constructor
  · have ⟨hover, hne⟩ := Option.filter_eq_some_iff.mp hparent
    have ⟨node, hget, heq⟩ := Option.map_eq_some_iff.mp hover
    have hnotRoot : displayParent nodes node ≠ [] := by
      rw [heq]
      simpa using hne
    have ⟨directory, hdirectory, _⟩ :=
      isDirectoryNode_iff.mp ((h.displayParent_cases hget).resolve_left hnotRoot).1
    rw [heq] at hdirectory
    exact Option.isSome_iff_exists.mpr ⟨directory, hdirectory⟩
  · simp only [shownFor, decide_eq_true_eq, Std.ExtTreeSet.mem_toList, mem_displayAncestors] at hshown ⊢
    right
    cases hshown with
    | inl hmatched => exact ⟨path, hmatched, .of_parent hparent⟩
    | inr hover =>
      have ⟨matched, hmatched, habove⟩ := hover
      exact ⟨matched, hmatched, (Forest.Above.of_parent hparent).trans habove⟩

end

/-- An index in which no searchable path is lost shows every match. -/
theorem Indexed.projectionLaw {index : FilesTree} {searchable : SearchablePaths}
    (h : Indexed index searchable) (toLowercase : List Char → List Char) (query : String) :
    ∃ depth, ∀ fuel, depth ≤ fuel → ∃ projection,
      project toLowercase fuel index searchable query = some projection ∧
      ProjectionLaw toLowercase index searchable query projection := by
  have ⟨depth, hdepth⟩ := exists_depth index.nodes
  have hroot : isDirectoryNode index.nodes [] = false := by
    unfold isDirectoryNode
    cases hget : index.nodes.get? [] with
    | none => rfl
    | some node => simp [h.root node hget]
  have hrows (fuel : Nat) (hfuel : depth + 1 ≤ fuel) (found : PathSet) :
      appendChildren index.nodes (includedPaths index.nodes found) fuel [] =
        some ((displayForest index.nodes).listing (shownFor index.nodes found) fuel none) := by
    rw [h.connected.appendChildren_eq hroot _ [] (by omega) fun path node hget => by
      have := hdepth path node hget
      omega]
    congr 2
    funext path
    exact mem_includedPaths_iff
  refine ⟨depth + 1, fun fuel hfuel => ?_⟩
  let found := matchedPaths toLowercase searchable query
  let forest := displayForest index.nodes
  let rows := forest.listing (shownFor index.nodes found) fuel none
  have hproject : project toLowercase fuel index searchable query =
      some ⟨found, (includedPaths index.nodes found).filter (isDirectoryNode index.nodes), rows⟩ := by
    rw [project, hrows fuel hfuel]
    rfl
  have hclosed : ∀ a ∈ forest.nodes, shownFor index.nodes found a = true → ∀ b,
      forest.parent a = some b → b ∈ forest.nodes ∧ shownFor index.nodes found b = true :=
    fun a _ hshown b hparent => h.connected.shown_parent hshown hparent
  have hlow : ∀ a ∈ forest.nodes, forest.depth a < depth + 1 := by
    intro path hnode
    have ⟨node, hget⟩ := Option.isSome_iff_exists.mp hnode
    exact Nat.lt_succ_of_lt (hdepth path node hget)
  have hfuelled : ∀ a ∈ forest.nodes, forest.depth a < fuel :=
    fun a ha => Nat.lt_of_lt_of_le (hlow a ha) hfuel
  have hmem (path : RelativePath) : path ∈ rows ↔
      path ∈ forest.nodes ∧ shownFor index.nodes found path = true :=
    Forest.mem_listing_iff hclosed hfuelled
  refine ⟨_, hproject, ?_⟩
  constructor
  case matched => exact fun path => mem_matchedPaths
  case rows_eq =>
    refine ⟨depth + 1, fun other hother => ?_⟩
    have hfuelled' : ∀ a ∈ forest.nodes, forest.depth a < other :=
      fun a ha => Nat.lt_of_lt_of_le (hlow a ha) hother
    apply forest.listing_fuel (fun _ _ => Nat.zero_le _)
    · simpa using hfuelled
    · simpa using hfuelled'
  case nodup => exact forest.nodup_listing _ _ _
  case once =>
    intro path hmatched
    have ⟨hsearchable, _⟩ := mem_matchedPaths.mp hmatched
    have ⟨indexed, hindexed⟩ := Option.isSome_iff_exists.mp hsearchable
    have ⟨node, hget, _⟩ := h.present path indexed hindexed
    apply List.count_eq_one_of_mem (forest.nodup_listing _ _ _)
    apply (hmem path).mpr
    refine ⟨Option.isSome_iff_exists.mpr ⟨node, hget⟩, ?_⟩
    simp only [shownFor, decide_eq_true_eq]
    exact Or.inl hmatched
  case ancestors_first =>
    intro before path after hsplit ancestor hancestor
    exact Forest.above_mem_before hclosed hfuelled hsplit (mem_displayAncestors.mp hancestor)
  case only =>
    intro path hrow
    have hshown := ((hmem path).mp hrow).2
    simp only [shownFor, decide_eq_true_eq, Std.ExtTreeSet.mem_toList] at hshown
    exact hshown

/-! ## Pages and overlays -/

section
variable {tree : FilesTree} {snapshot : DirectorySnapshot} {path : RelativePath}

/-- A load makes nothing virtual. -/
theorem virtual_of_applyDirectory {node : TreeNode}
    (hget : (tree.applyDirectory snapshot).nodes.get? path = some node) (hkind : node.kind = .virtual) :
    tree.nodes.get? path = some node ∧ path ∉ loadedPaths snapshot := by
  have hfresh : path ∉ loadedPaths snapshot := by
    intro hlisted
    have ⟨listed, hmem, _, hafter⟩ : ∃ listed ∈ snapshot.nodes, listed.path = path ∧
        (tree.applyDirectory snapshot).nodes.get? path =
          some { listed with status := tree.statuses[listed.path]? } :=
      get?_applyDirectory_listed hlisted
    rw [hafter] at hget
    cases hget
    exact snapshot.physical listed hmem hkind
  rw [get?_applyDirectory_kept hfresh] at hget
  exact ⟨(Option.filter_eq_some_iff.mp hget).1, hfresh⟩

theorem virtual_of_applyDirectories {snapshots : List DirectorySnapshot} {node : TreeNode}
    (hget : (snapshots.foldl applyDirectory tree).nodes.get? path = some node)
    (hkind : node.kind = .virtual) :
    tree.nodes.get? path = some node ∧ ∀ snapshot ∈ snapshots, path ∉ loadedPaths snapshot := by
  induction snapshots generalizing tree with
  | nil => exact ⟨hget, fun _ hnone => nomatch hnone⟩
  | cons first rest ih =>
    have ⟨hafter, hrest⟩ := ih hget
    have ⟨hbefore, hfirst⟩ := virtual_of_applyDirectory hafter hkind
    refine ⟨hbefore, fun snapshot hmem => ?_⟩
    cases List.mem_cons.mp hmem with
    | inl heq => exact heq ▸ hfirst
    | inr htail => exact hrest snapshot htail

/-- A listing that shows nothing keeps a tree connected wherever it is of. -/
theorem Connected.applyDirectory_nil (h : Connected tree.nodes) (hempty : snapshot.nodes = []) :
    Connected (tree.applyDirectory snapshot).nodes := by
  intro path node hget hkind
  have hfresh : path ∉ loadedPaths snapshot := by simp [loadedPaths, hempty]
  exact h.applyDirectory_kept hfresh hget hkind

end

/-- Each listing that shows something is of the root or of a directory of the
tree it is entered in. -/
def ListsDirectories : FilesTree → List DirectorySnapshot → Prop
  | _, [] => True
  | tree, snapshot :: rest =>
    (snapshot.nodes = [] ∨ snapshot.directory = [] ∨
      isDirectoryNode tree.nodes snapshot.directory = true) ∧
    ListsDirectories (tree.applyDirectory snapshot) rest

theorem connected_applyDirectories {tree : FilesTree} (h : Connected tree.nodes)
    {snapshots : List DirectorySnapshot} (hlists : ListsDirectories tree snapshots) :
    Connected (snapshots.foldl applyDirectory tree).nodes := by
  induction snapshots generalizing tree with
  | nil => exact h
  | cons first rest ih =>
    apply ih _ hlists.2
    cases hlists.1 with
    | inl hempty => exact h.applyDirectory_nil hempty
    | inr hdirectory => exact h.applyDirectory first hdirectory

/-- What changes a search's index and its searchable paths. -/
inductive SearchOp where
  | page (loader : IgnorePolicy) (disk : RelativePath → FilesRoot)
    (flags : RelativePath → DirectoryFlags) (directories : List RelativePath)
    (remainingEntries remainingExamined : Nat)
  | overlay (tree : FilesTree)

namespace SearchOp

/-- A cancelled page is dropped. -/
def apply (search : FileSearchState) : SearchOp → FileSearchState
  | page loader disk flags directories remainingEntries remainingExamined =>
    let prepared := preparePage loader disk flags
      { index := search.index, searchable := search.searchable, directories, remainingEntries,
        remainingExamined }
    if prepared.cancelled then search.requeuePage else search.pageEnded.applyPage prepared
  | overlay tree => search.syncStatusFrom tree

/-- A page lists directories of the index, and no path an overlay makes virtual
is the parent of a cached node that stays. -/
def Spares (search : FileSearchState) : SearchOp → Prop
  | page loader disk flags directories remainingEntries remainingExamined =>
    let scan := scanDirectories loader disk flags remainingEntries remainingExamined .new directories
    scan.cancelled = true ∨ ListsDirectories search.index scan.snapshots
  | overlay tree =>
    Files.Spares search.index.nodes fun path =>
      ∃ node, tree.nodes.get? path = some node ∧ node.kind = .virtual

inductive Step (search : FileSearchState) (op : SearchOp) : FileSearchState → Prop where
  | run : Step search op (op.apply search)

end SearchOp

/-! ## Runs -/

section
variable {tree : FilesTree} {searchable : SearchablePaths}

/-- A start shows the deleted paths of a tree and nothing else. -/
theorem indexed_new (tree : FilesTree) (maxEntries : Nat) :
    Indexed (FileSearchState.new (tree.searchIndex maxEntries)).index
      (FileSearchState.new (tree.searchIndex maxEntries)).searchable := by
  have hvirtual : ∀ path node, (tree.searchIndex maxEntries).nodes.get? path = some node →
      node.kind = .virtual := by
    intro path node hget
    rw [searchIndex, nodes_restoreSelection, Table.get?_foldl_insert, Table.get?_empty,
      Option.or_none] at hget
    have hmem := List.mem_reverse.mp (List.mem_of_find?_eq_some hget)
    simpa using (List.mem_filter.mp (List.mem_of_mem_take hmem)).2
  constructor
  case connected => exact fun path node hget hkind => absurd (hvirtual path node hget) hkind
  case root => exact fun node hget => hvirtual [] node hget
  case present =>
    intro path indexed hget
    simp only [FileSearchState.new, FileSearchState.indexedNodes] at hget ⊢
    rw [Table.get?_foldl_insert, Table.get?_empty, Option.or_none] at hget
    have hpath : indexed.path = path := by simpa using List.find?_some hget
    have hmem := List.mem_reverse.mp (List.mem_of_find?_eq_some hget)
    obtain ⟨node, hnode, heq⟩ := List.mem_map.mp hmem
    have hnodeGet := Table.mem_values.mp (List.mem_filter.mp hnode).1
    have hnodePath : node.path = path := by
      rw [← hpath, ← heq]
      rfl
    rw [hnodePath] at hnodeGet
    refine ⟨node, hnodeGet, fun hphysical => ?_⟩
    rw [← heq] at hphysical
    exact hphysical

section
variable (loader : IgnorePolicy) (disk : RelativePath → FilesRoot)
  (flags : RelativePath → DirectoryFlags)

/-- Every entry a page collects is listed by one of its directories. -/
def EntriesListed (scan : PageScan) : Prop :=
  ∀ indexed ∈ scan.entries, ∃ snapshot ∈ scan.snapshots, indexed.path ∈ loadedPaths snapshot

theorem EntriesListed.record {scan : PageScan} (h : EntriesListed scan) (directory : RelativePath)
    (snapshot : DirectorySnapshot) (examined : Nat) :
    EntriesListed (scan.record directory snapshot examined) := by
  intro indexed hindexed
  cases List.mem_append.mp hindexed with
  | inl hold =>
    have ⟨listing, hmem, hlisted⟩ := h indexed hold
    exact ⟨listing, List.mem_append_left _ hmem, hlisted⟩
  | inr hnew =>
    have ⟨node, hnode, heq⟩ := List.mem_map.mp hnew
    refine ⟨snapshot, List.mem_append_right _ (List.mem_singleton_self _), ?_⟩
    rw [← heq]
    exact mem_loadedPaths.mpr ⟨node, (List.mem_filter.mp hnode).1, rfl⟩

theorem entriesListed_scanDirectories (remainingEntries remainingExamined : Nat) {scan : PageScan}
    (h : EntriesListed scan) (directories : List RelativePath) :
    EntriesListed (scanDirectories loader disk flags remainingEntries remainingExamined scan
      directories) := by
  induction directories generalizing scan with
  | nil => exact h
  | cons directory rest ih =>
    unfold scanDirectories
    split
    next => exact h
    next =>
      split
      next => exact h
      next =>
        split
        next => exact ih h
        next snapshot examined _ _ =>
          split
          next => exact h
          next =>
            split
            next => exact h.record directory snapshot examined
            next => exact ih (h.record directory snapshot examined)

end

/-- The listing of the root adds nothing at the root. -/
theorem root_applyDirectories {snapshots : List DirectorySnapshot}
    (h : ∀ node, tree.nodes.get? [] = some node → node.kind = .virtual) {node : TreeNode}
    (hget : (snapshots.foldl applyDirectory tree).nodes.get? [] = some node) :
    node.kind = .virtual := by
  induction snapshots generalizing tree with
  | nil => exact h node hget
  | cons first rest ih =>
    apply ih _ hget
    intro other hother
    have hfresh : [] ∉ loadedPaths first :=
      fun hlisted => Nat.not_lt_zero _ (parentPath_of_mem_loadedPaths hlisted).2
    rw [get?_applyDirectory_kept hfresh] at hother
    exact h other (Option.filter_eq_some_iff.mp hother).1

theorem Indexed.page (h : Indexed tree searchable) {scan : PageScan} (hentries : EntriesListed scan)
    (hlists : ListsDirectories tree scan.snapshots) :
    Indexed (scan.snapshots.foldl applyDirectory tree)
      (searchableAfter searchable scan (scan.snapshots.foldl applyDirectory tree)) := by
  have hcleared (directories : List RelativePath) (searchable : SearchablePaths) (path : RelativePath)
      (indexed : IndexedSearchPath)
      (hget : (directories.foldl (fun searchable directory => searchable.filter fun indexed =>
        indexed.kind = .virtual || decide (parentPath indexed.path ≠ directory)) searchable).get?
          path = some indexed) : searchable.get? path = some indexed := by
    induction directories generalizing searchable with
    | nil => exact hget
    | cons directory rest ih =>
      have hfirst := ih _ hget
      rw [Table.get?_filter] at hfirst
      exact (Option.filter_eq_some_iff.mp hfirst).1
  constructor
  case connected => exact connected_applyDirectories h.connected hlists
  case root => exact fun node hget => root_applyDirectories h.root hget
  case present =>
    intro path indexed hget
    rw [searchableAfter, Table.get?_filter] at hget
    obtain ⟨hindexed, hnode⟩ := Option.filter_eq_some_iff.mp hget
    have hpath : indexed.path = path := Table.key_of_get? hindexed
    rw [hpath] at hnode
    obtain ⟨node, hnode⟩ := Option.isSome_iff_exists.mp hnode
    refine ⟨node, hnode, fun hphysical hvirtual => ?_⟩
    -- a virtual node was there before, and no listing shows its path
    obtain ⟨hbefore, hunlisted⟩ := virtual_of_applyDirectories hnode hvirtual
    rw [Table.get?_foldl_insert, Option.or_eq_some_iff] at hindexed
    cases hindexed with
    | inl hnew =>
      have hmem := List.mem_reverse.mp (List.mem_of_find?_eq_some hnew)
      obtain ⟨snapshot, hsnapshot, hlisted⟩ := hentries indexed hmem
      rw [hpath] at hlisted
      exact hunlisted snapshot hsnapshot hlisted
    | inr hold =>
      obtain ⟨other, hother, hotherKind⟩ := h.present path indexed (hcleared _ _ _ _ hold.2)
      rw [hbefore] at hother
      cases hother
      exact hotherKind hphysical hvirtual

theorem Indexed.overlay {search : FileSearchState} (h : Indexed search.index search.searchable)
    (tree : FilesTree) (hspares : Spares search.index.nodes fun path =>
      ∃ node, tree.nodes.get? path = some node ∧ node.kind = .virtual) :
    Indexed (search.syncStatusFrom tree).index (search.syncStatusFrom tree).searchable := by
  let after := search.index.syncStatusOverlayFrom tree
  have hindex : (search.syncStatusFrom tree).index = after := rfl
  have hnodes : after.nodes = FilesTree.overlay search.index.nodes tree.statuses tree.virtualNodes := by
    simp only [after, syncStatusOverlayFrom, nodes_restoreSelection]
  have hvirtual : ∀ node ∈ tree.virtualNodes, node.kind = .virtual := by
    intro node hnode
    simpa using (List.mem_filter.mp hnode).2
  rw [hindex]
  constructor
  case connected =>
    rw [hnodes, h.connected.overlay_iff _ hvirtual, exists_virtualNode]
    exact hspares
  case root =>
    intro node hget
    rw [hnodes] at hget
    cases mem_overlay hget with
    | inl hmem => exact hvirtual node hmem
    | inr hold =>
      obtain ⟨_, old, hold, holdKind, _⟩ := hold
      exact absurd (h.root old hold) holdKind
  case present =>
    intro path indexed hget
    have hsearchable : (search.syncStatusFrom tree).searchable =
        (after.virtualNodes.map TreeNode.indexed).foldl Table.insert
          (search.searchable.filter fun indexed => indexed.kind ≠ .virtual ||
            (after.nodes.get? indexed.path).any (·.kind = .virtual)) := rfl
    rw [hsearchable, Table.get?_foldl_insert, Option.or_eq_some_iff] at hget
    cases hget with
    | inl hnew =>
      have hpath : indexed.path = path := by simpa using List.find?_some hnew
      have hmem := List.mem_reverse.mp (List.mem_of_find?_eq_some hnew)
      obtain ⟨node, hnode, heq⟩ := List.mem_map.mp hmem
      obtain ⟨hvalue, hkind⟩ := List.mem_filter.mp hnode
      have hnodePath : node.path = path := by
        rw [← hpath, ← heq]
        rfl
      refine ⟨node, hnodePath ▸ Table.mem_values.mp hvalue, fun hphysical => absurd ?_ hphysical⟩
      rw [← heq]
      exact of_decide_eq_true hkind
    | inr hold =>
      obtain ⟨hunseen, hkept⟩ := hold
      rw [Table.get?_filter] at hkept
      obtain ⟨hbefore, hkeeps⟩ := Option.filter_eq_some_iff.mp hkept
      have hpath : indexed.path = path := Table.key_of_get? hbefore
      by_cases hkind : indexed.kind = .virtual
      · rw [hpath] at hkeeps
        simp only [hkind, ne_eq, not_true_eq_false, decide_false, Bool.false_or] at hkeeps
        cases hnode : after.nodes.get? path with
        | none => simp [hnode] at hkeeps
        | some node => exact ⟨node, rfl, fun hphysical => absurd hkind hphysical⟩
      · obtain ⟨node, hnode, hnodeKind⟩ := h.present path indexed hbefore
        have hfree : ∀ other ∈ tree.virtualNodes, other.path ≠ path := by
          intro other hother hotherPath
          obtain ⟨found, hfound, _, hshown⟩ :=
            exists_get?_overlay search.index.nodes tree.statuses hother
          rw [← hnodes, hotherPath] at hshown
          have hfoundPath : found.path = path := Table.key_of_get? hshown
          have hmem : found ∈ after.virtualNodes := by
            apply List.mem_filter.mpr
            exact ⟨Table.mem_values.mpr (hfoundPath.symm ▸ hshown), by simpa using hvirtual found hfound⟩
          have hdiffers := List.find?_eq_none.mp hunseen found.indexed
            (List.mem_reverse.mpr (List.mem_map_of_mem hmem))
          simp [TreeNode.indexed, hfoundPath] at hdiffers
        refine ⟨_, hnodes ▸ get?_overlay_of_physical tree.statuses hnode (hnodeKind hkind) hfree, ?_⟩
        exact fun _ => hnodeKind hkind

end

/-- A step that spares the parents keeps every searchable path in sight. -/
theorem SearchOp.Step.indexed {search search' : FileSearchState} {op : SearchOp}
    (hstep : op.Step search search') (hspares : op.Spares search)
    (h : Indexed search.index search.searchable) : Indexed search'.index search'.searchable := by
  cases hstep with
  | run =>
    cases op with
    | overlay tree => exact h.overlay tree hspares
    | page loader disk flags directories remainingEntries remainingExamined =>
      have hnew : EntriesListed .new := fun _ hnone => nomatch hnone
      have hentries := entriesListed_scanDirectories loader disk flags remainingEntries
        remainingExamined hnew directories
      cases hcancelled : (scanDirectories loader disk flags remainingEntries remainingExamined .new
          directories).cancelled with
      | true =>
        simp only [SearchOp.apply, preparePage, hcancelled, if_true]
        exact h
      | false =>
        have hlists := hspares.resolve_left (by rw [hcancelled]; exact Bool.false_ne_true)
        simp only [SearchOp.apply, preparePage, hcancelled, Bool.false_eq_true, if_false]
        exact h.page hentries hlists

/-- While pages list directories of the index, and overlays leave the parents of
what is cached, every projection shows each match once, below all it hangs under. -/
theorem search_projection (toLowercase : List Char → List Char) (tree : FilesTree)
    (maxEntries : Nat) (ops : List SearchOp) (search : FileSearchState)
    (run : Run (fun before op after => op.Step before after ∧ op.Spares before)
      (.new (tree.searchIndex maxEntries)) ops search) (query : String) :
    ∃ depth, ∀ fuel, depth ≤ fuel → ∃ projection,
      project toLowercase fuel search.index search.searchable query = some projection ∧
      ProjectionLaw toLowercase search.index search.searchable query projection := by
  have hindexed : Indexed search.index search.searchable :=
    run.invariant (fun search => Indexed search.index search.searchable) (indexed_new tree maxEntries)
      fun h hstep => hstep.1.indexed hstep.2 h
  exact hindexed.projectionLaw toLowercase query

namespace Sample

/-- A files root with the directory `a` and the file `b` in it. -/
def nested : FilesRoot where
  stat path :=
    if path = [nameA] then .ok .directory
    else if path = [nameA, nameB] then .ok .file
    else .error .notFound
  openable _ := true
  listing path := .ok (if path = [] then [some nameA] else if path = [nameA] then [some nameB] else [])
  matchers _ := .ok ⟨fun _ _ => false, false⟩
  parent_directory := by
    intro directory name h
    by_cases hdirectory : directory = [nameA]
    · exact Or.inr (by rw [hdirectory]; rfl)
    · left
      split at h
      next heq =>
        have hlength := congrArg List.length heq
        simpa using hlength
      next =>
        split at h
        next heq =>
          have hsplit : directory ++ [name] = [nameA] ++ [nameB] := heq
          exact absurd (List.append_inj_left' hsplit rfl) hdirectory
        next => contradiction

/-- A page that reads the root and then `a`. -/
def wholePage : SearchOp :=
  .page tree.loader (fun _ => nested) (fun _ => .clear) [[], [nameA]] maxIndexEntries maxExaminedEntries

/-- A tree that shows the deletion of `a`. -/
def deletedTree : FilesTree :=
  mergeWorkspaceStatus nothing.symlinkMetadata tree
    ⟨[deletion [nameA] .deleted nameA_ne_nil deleted_unmoved], false⟩ []

def searchAfter (ops : List SearchOp) : FileSearchState :=
  ops.foldl SearchOp.apply (.new (tree.searchIndex maxIndexEntries))

end Sample

open Sample in
theorem search_projection_nested : ∃ depth, ∀ fuel, depth ≤ fuel → ∃ projection,
    project id fuel (searchAfter [wholePage, .overlay tree]).index
      (searchAfter [wholePage, .overlay tree]).searchable "b" = some projection ∧
    ProjectionLaw id (searchAfter [wholePage, .overlay tree]).index
      (searchAfter [wholePage, .overlay tree]).searchable "b" projection := by
  have hpage : SearchOp.Spares (.new (tree.searchIndex maxIndexEntries)) wholePage :=
    Or.inr ⟨Or.inr (Or.inl (by decide +kernel)), Or.inr (Or.inr (by decide +kernel)), trivial⟩
  have hoverlay : SearchOp.Spares (searchAfter [wholePage]) (.overlay tree) := by
    intro path node _ _ _
    right
    intro htaken
    have ⟨other, hother, _⟩ := htaken
    simp [tree, FilesTree.empty] at hother
  have hrun : Run (fun before op after => SearchOp.Step before op after ∧ op.Spares before)
      (.new (tree.searchIndex maxIndexEntries)) [wholePage] (searchAfter [wholePage]) :=
    Run.single ⟨.run, hpage⟩
  exact search_projection id tree maxIndexEntries [wholePage, .overlay tree] _
    (hrun.step ⟨.run, hoverlay⟩) "b"

open Sample in
/-- A match below a directory that an overlay made virtual has no row. -/
theorem match_lost_below_virtual :
    Run SearchOp.Step (.new (tree.searchIndex maxIndexEntries)) [wholePage, .overlay deletedTree]
      (searchAfter [wholePage, .overlay deletedTree]) ∧
    ∀ fuel projection,
      project id fuel (searchAfter [wholePage, .overlay deletedTree]).index
        (searchAfter [wholePage, .overlay deletedTree]).searchable "b" = some projection →
      ¬ ProjectionLaw id (searchAfter [wholePage, .overlay deletedTree]).index
        (searchAfter [wholePage, .overlay deletedTree]).searchable "b" projection := by
  constructor
  · have hpage : Run SearchOp.Step (.new (tree.searchIndex maxIndexEntries)) [wholePage] _ :=
      Run.single .run
    exact hpage.step .run
  · intro fuel projection hproject hlaw
    have hchildren : childNodes (searchAfter [wholePage, .overlay deletedTree]).index.nodes [] =
        [⟨[nameA], .virtual, some .deleted, false⟩] := by decide +kernel
    have hmatched : [nameA, nameB] ∈ projection.matched := by
      apply (hlaw.matched _).mpr
      exact ⟨by decide +kernel, by decide +kernel⟩
    have hlost : [nameA, nameB] ∉ projection.rows := by
      have ⟨rows, hrows, heq⟩ := Option.bind_eq_some_iff.mp hproject
      cases heq
      cases fuel with
      | zero => contradiction
      | succ fuel =>
        rw [appendChildren, hchildren, List.mapM_cons, List.mapM_nil] at hrows
        split at hrows <;> cases hrows <;> simp
    have honce := hlaw.once _ hmatched
    rw [List.count_eq_zero_of_not_mem hlost] at honce
    contradiction

end HerdrContext.Files
