import SymbolAtlas.Proofs.Inheritance.Descendants
import SymbolAtlas.Proofs.Text.Order
import Mathlib.Tactic

/-!
# The paths of a tree of descendants

A tree of descendants is known by the paths that lead from its root to its nodes.  They are the ways
down from the root, from a type to a listed one that names it as an immediate parent, that meet no
type twice and are not longer than the tree may be deep.  Several ways to one type give it several
nodes, and a circle of types ends where it would come back.  What the tree was built with to bound
its recursion cuts no such way off, since every step of a way uses up a type of the list.
-/

namespace SymbolAtlas

open Tables

namespace DescendantTree

mutual

/-- The paths from the root of a tree to its nodes. -/
def paths : DescendantTree → List (List Symbol)
  | .node symbol children => [symbol] :: (pathsOfAll children).map (symbol :: ·)

def pathsOfAll : List DescendantTree → List (List Symbol)
  | [] => []
  | tree :: rest => paths tree ++ pathsOfAll rest

end

/-- At every node of a tree the children are in order. -/
inductive SortedBy (r : Symbol → Symbol → Prop) : DescendantTree → Prop where
  | node {symbol : Symbol} {children : List DescendantTree}
      (hsiblings : (children.map DescendantTree.symbol).Pairwise r)
      (hbelow : ∀ child ∈ children, SortedBy r child) :
      SortedBy r (.node symbol children)

variable {tree : DescendantTree} {trees : List DescendantTree} {path : List Symbol}

theorem pathsOfAll_eq_flatMap : pathsOfAll trees = trees.flatMap paths := by
  induction trees with
  | nil => rfl
  | cons tree rest ih => simp [pathsOfAll, ih]

theorem head?_of_mem_paths (hpath : path ∈ tree.paths) : path.head? = some tree.symbol := by
  cases tree with
  | node symbol children =>
      rw [paths, List.mem_cons, List.mem_map] at hpath
      rcases hpath with rfl | ⟨rest, -, rfl⟩ <;> rfl

theorem singleton_mem_paths (tree : DescendantTree) : [tree.symbol] ∈ tree.paths := by
  cases tree
  simp [paths, symbol]

theorem cons_mem_paths_node_iff {symbol c : Symbol} :
    symbol :: c :: path ∈ (node symbol trees).paths ↔ ∃ tree ∈ trees, c :: path ∈ tree.paths := by
  simp [paths, pathsOfAll_eq_flatMap]

/-- Siblings that are told apart by their symbols have no path in common. -/
theorem nodup_paths_node {symbol : Symbol} (hsiblings : (trees.map DescendantTree.symbol).Nodup)
    (hbelow : ∀ tree ∈ trees, tree.paths.Nodup) : (node symbol trees).paths.Nodup := by
  have hapart : trees.Pairwise fun a b => List.Disjoint a.paths b.paths := by
    rw [List.Nodup, List.pairwise_map] at hsiblings
    refine hsiblings.imp fun hne path ha hb => hne ?_
    have hheads := (head?_of_mem_paths ha).symm.trans (head?_of_mem_paths hb)
    exact Option.some.inj hheads
  have hall : (pathsOfAll trees).Nodup := by
    rw [pathsOfAll_eq_flatMap, List.nodup_flatMap]
    exact ⟨hbelow, hapart⟩
  have hroot : [symbol] ∉ (pathsOfAll trees).map (symbol :: ·) := by
    rw [pathsOfAll_eq_flatMap]
    intro hmem
    obtain ⟨rest, hrest, heq⟩ := List.mem_map.mp hmem
    obtain ⟨tree, -, hpath⟩ := List.mem_flatMap.mp hrest
    have hhead := head?_of_mem_paths hpath
    simp_all
  rw [paths, List.nodup_cons]
  exact ⟨hroot, hall.map (List.cons_injective)⟩

end DescendantTree

namespace Snapshot

variable {s : Snapshot} {flat seen path : List Symbol} {amongInterfaces : Bool}
  {unseen depth maxDepth : Nat} {type parent child : Symbol}

/-! ## Immediate parents -/

/-- The second type names the first as its base or, among interfaces, declares it. -/
def IsParent (s : Snapshot) (amongInterfaces : Bool) (parent child : Symbol) : Prop :=
  ∃ id, s.symbol? id = some parent ∧
    if amongInterfaces then id ∈ s.tables.declaredInterfaces.listAt child.id
    else s.tables.baseTypes.get? child.id = some id

theorem mem_parentsOf_iff :
    parent ∈ s.parentsOf child amongInterfaces ↔ s.IsParent amongInterfaces parent child := by
  cases amongInterfaces with
  | true =>
      simp only [parentsOf, interfacesOf, symbolsOf, mem_symbolsOf, IsParent, if_true]
      simp [and_comm, symbol?]
  | false => simp [parentsOf, baseOf?, IsParent, Option.bind_eq_some_iff, and_comm]

theorem childOf_iff :
    s.ChildOf flat amongInterfaces parent child ↔
      child ∈ flat ∧ s.IsParent amongInterfaces parent child := by
  rw [ChildOf, mem_parentsOf_iff]

/-! ## Siblings in order -/

/-- Symbols are in order by their names, and by their displays if these are equal. -/
def SiblingOrder (a b : Symbol) : Prop :=
  a.name ≠ b.name ∧ Text.precedes a.name b.name = true ∨
    a.name = b.name ∧ Text.precedes a.display b.display = true

theorem siblingPrecedes_iff {a b : Symbol} : siblingPrecedes a b = true ↔ SiblingOrder a b := by
  by_cases hname : a.name = b.name <;> simp [siblingPrecedes, SiblingOrder, Symbol.precedes, hname]

theorem siblingPrecedes_total (a b : Symbol) :
    siblingPrecedes a b = true ∨ siblingPrecedes b a = true := by
  by_cases hname : a.name = b.name
  · simpa [siblingPrecedes, Symbol.precedes, hname] using
      Text.precedes_total a.display b.display
  · simpa [siblingPrecedes, hname, Ne.symm hname] using Text.precedes_total a.name b.name

theorem siblingPrecedes_trans {a b c : Symbol} (hab : siblingPrecedes a b = true)
    (hbc : siblingPrecedes b c = true) : siblingPrecedes a c = true := by
  unfold siblingPrecedes at hab hbc ⊢
  by_cases hfirst : a.name = b.name
  · by_cases hlast : b.name = c.name
    · rw [if_pos hfirst] at hab
      rw [if_pos hlast] at hbc
      rw [if_pos (hfirst.trans hlast)]
      exact Text.precedes_trans hab hbc
    · rw [if_neg hlast] at hbc
      rwa [hfirst, if_neg hlast]
  · rw [if_neg hfirst] at hab
    by_cases hlast : b.name = c.name
    · rwa [← hlast, if_neg hfirst]
    · rw [if_neg hlast] at hbc
      have hne : a.name ≠ c.name := by
        intro heq
        rw [← heq] at hbc
        exact hfirst (Text.precedes_antisymm hab hbc)
      rw [if_neg hne]
      exact Text.precedes_trans hab hbc

theorem pairwise_childrenAmong :
    (s.childrenAmong flat amongInterfaces type).Pairwise SiblingOrder := by
  unfold childrenAmong
  refine (List.pairwise_mergeSort ?_ ?_ _).imp siblingPrecedes_iff.mp
  · intro a b c hab hbc
    exact siblingPrecedes_trans hab hbc
  · intro a b
    rw [Bool.or_eq_true]
    exact siblingPrecedes_total a b

theorem nodup_childrenAmong (hflat : flat.Nodup) :
    (s.childrenAmong flat amongInterfaces type).Nodup :=
  (List.mergeSort_perm _ _).nodup_iff.mpr (hflat.filter _)

/-! ## Ways down -/

/-- A way down from a type through listed types, each reached from an immediate parent, that meets
no type twice and takes at most `maxDepth` steps. -/
structure WayDown (s : Snapshot) (flat : List Symbol) (amongInterfaces : Bool) (maxDepth : Nat)
    (type : Symbol) (path : List Symbol) : Prop where
  head : path.head? = some type
  steps : path.IsChain fun parent child => child ∈ flat ∧ s.IsParent amongInterfaces parent child
  nodup : path.Nodup
  length_le : path.length ≤ maxDepth + 1

/-- The children of a node: the tree goes on where it is not yet as deep as it may be. -/
theorem treeFrom_succ :
    s.treeFrom flat amongInterfaces (.whole maxDepth) (unseen + 1) depth seen type =
      .node type (if depth < maxDepth then
        ((s.childrenAmong flat amongInterfaces type).filter fun c => !seen.contains c).map
          fun child => s.treeFrom flat amongInterfaces (.whole maxDepth) unseen (depth + 1)
            (child :: seen) child
      else []) := by
  have hlt : (Number.whole depth).lt (.whole maxDepth) = decide (depth < maxDepth) := by
    rw [Number.lt_of_whole rfl rfl, decide_eq_decide]
    exact Nat.cast_lt
  rw [treeFrom, hlt]
  by_cases hdepth : depth < maxDepth <;> simp [hdepth]

theorem cons_mem_paths_treeFrom_iff :
    type :: child :: path ∈
        (s.treeFrom flat amongInterfaces (.whole maxDepth) (unseen + 1) depth seen type).paths ↔
      depth < maxDepth ∧ s.ChildOf flat amongInterfaces type child ∧ child ∉ seen ∧
        child :: path ∈ (s.treeFrom flat amongInterfaces (.whole maxDepth) unseen (depth + 1)
          (child :: seen) child).paths := by
  rw [treeFrom_succ, DescendantTree.cons_mem_paths_node_iff]
  by_cases hdepth : depth < maxDepth
  · simp only [hdepth, if_true, true_and]
    constructor
    · rintro ⟨tree, htree, hpath⟩
      obtain ⟨c, hc, rfl⟩ := List.mem_map.mp htree
      have hhead := DescendantTree.head?_of_mem_paths hpath
      rw [symbol_treeFrom, List.head?_cons, Option.some.injEq] at hhead
      subst hhead
      simp only [List.mem_filter, mem_childrenAmong_iff] at hc
      exact ⟨hc.1, by simpa using hc.2, hpath⟩
    · rintro ⟨hchild, hnew, hpath⟩
      refine ⟨_, List.mem_map_of_mem ?_, hpath⟩
      simp [mem_childrenAmong_iff, hchild, hnew]
  · simp [hdepth]

/-- A tree leads along every way that keeps off what has been met and is not too long. -/
theorem mem_paths_treeFrom_iff
    (hunseen : (flat.filter fun d => d ∉ seen).length ≤ unseen) (hdepth : depth ≤ maxDepth) :
    type :: path ∈
        (s.treeFrom flat amongInterfaces (.whole maxDepth) unseen depth seen type).paths ↔
      (type :: path).IsChain (s.ChildOf flat amongInterfaces) ∧ path.Nodup ∧
        (∀ x ∈ path, x ∉ seen) ∧ depth + path.length ≤ maxDepth := by
  induction path generalizing unseen depth seen type with
  | nil =>
      have hroot := DescendantTree.singleton_mem_paths
        (s.treeFrom flat amongInterfaces (.whole maxDepth) unseen depth seen type)
      rw [symbol_treeFrom] at hroot
      simpa [hroot] using hdepth
  | cons c rest ih =>
      cases unseen with
      | zero =>
          -- every listed type has been met, so that no way leads on
          have hseen : ∀ d ∈ flat, d ∈ seen := by simpa using hunseen
          constructor
          · intro hpath
            simp [treeFrom, DescendantTree.paths, DescendantTree.pathsOfAll] at hpath
          · rintro ⟨hchain, -, hnew, -⟩
            have hc := (List.isChain_cons_cons.mp hchain).1.1
            exact absurd (hseen c hc) (hnew c List.mem_cons_self)
      | succ unseen =>
          rw [cons_mem_paths_treeFrom_iff, List.isChain_cons_cons, List.nodup_cons]
          constructor
          · rintro ⟨hdeeper, hchild, hnew, hpath⟩
            have hless := length_unseen_lt hchild.1 hnew
            obtain ⟨hchain, hnodup, hapart, hlength⟩ := (ih (by omega) (by omega)).mp hpath
            simp only [List.mem_cons, not_or] at hapart
            refine ⟨⟨hchild, hchain⟩, ⟨fun hmem => (hapart c hmem).1 rfl, hnodup⟩, ?_, ?_⟩
            · rw [List.forall_mem_cons]
              exact ⟨hnew, fun x hx => (hapart x hx).2⟩
            · rw [List.length_cons]
              omega
          · rintro ⟨⟨hchild, hchain⟩, ⟨hc, hnodup⟩, hapart, hlength⟩
            rw [List.forall_mem_cons] at hapart
            rw [List.length_cons] at hlength
            have hless := length_unseen_lt hchild.1 hapart.1
            refine ⟨by omega, hchild, hapart.1, (ih (by omega) (by omega)).mpr ?_⟩
            refine ⟨hchain, hnodup, ?_, by omega⟩
            intro x hx
            have hne : x ≠ c := by
              rintro rfl
              exact hc hx
            simp [hne, hapart.2 x hx]

/-- The children of a node stand for the types that it goes on with. -/
theorem map_symbol_treeFrom (children : List Symbol) :
    (children.map fun child => s.treeFrom flat amongInterfaces (.whole maxDepth) unseen (depth + 1)
      (child :: seen) child).map DescendantTree.symbol = children := by
  rw [List.map_map]
  calc
    _ = children.map id := List.map_congr_left fun child _ => symbol_treeFrom
    _ = children := List.map_id children

theorem nodup_paths_treeFrom (hflat : flat.Nodup) :
    (s.treeFrom flat amongInterfaces (.whole maxDepth) unseen depth seen type).paths.Nodup := by
  induction unseen generalizing depth seen type with
  | zero => simp [treeFrom, DescendantTree.paths, DescendantTree.pathsOfAll]
  | succ unseen ih =>
      rw [treeFrom_succ]
      by_cases hdepth : depth < maxDepth
      · rw [if_pos hdepth]
        refine DescendantTree.nodup_paths_node ?_ ?_
        · rw [map_symbol_treeFrom]
          exact (nodup_childrenAmong hflat).filter _
        · intro tree htree
          obtain ⟨child, -, rfl⟩ := List.mem_map.mp htree
          exact ih
      · simp [hdepth, DescendantTree.paths, DescendantTree.pathsOfAll]

theorem sorted_treeFrom :
    (s.treeFrom flat amongInterfaces (.whole maxDepth) unseen depth seen type).SortedBy
      SiblingOrder := by
  induction unseen generalizing depth seen type with
  | zero => exact .node (by simp) (by simp)
  | succ unseen ih =>
      rw [treeFrom_succ]
      by_cases hdepth : depth < maxDepth
      · rw [if_pos hdepth]
        refine .node ?_ ?_
        · rw [map_symbol_treeFrom]
          exact pairwise_childrenAmong.filter _
        · intro tree htree
          obtain ⟨child, -, rfl⟩ := List.mem_map.mp htree
          exact ih
      · rw [if_neg hdepth]
        exact .node (by simp) (by simp)

theorem nodup_descendantsOf (type : Symbol) (inSourceOnly : Bool) :
    (s.descendantsOf type inSourceOnly).Nodup :=
  (List.mergeSort_perm _ _).nodup_iff.mpr (nodup_distinctSymbols _)

/-- The paths of the tree below a type are, each exactly once, the ways down from it through the
listed descendants, and siblings are ordered by name and display. -/
theorem descendantTree_paths (s : Snapshot) (root : Symbol) (inSourceOnly : Bool) (maxDepth : Nat) :
    let flat := s.descendantsOf root inSourceOnly
    let tree := s.descendantTree root flat (.whole maxDepth)
    tree.paths.Nodup ∧
      (∀ path, path ∈ tree.paths ↔ s.WayDown flat (isInterface root) maxDepth root path) ∧
      tree.SortedBy SiblingOrder := by
  intro flat tree
  refine ⟨nodup_paths_treeFrom (nodup_descendantsOf root inSourceOnly), ?_, sorted_treeFrom⟩
  intro path
  have hsteps : s.ChildOf flat (isInterface root) = fun parent child =>
      child ∈ flat ∧ s.IsParent (isInterface root) parent child := by
    funext parent child
    exact propext childOf_iff
  have hpaths : ∀ rest, root :: rest ∈ tree.paths ↔ _ := fun rest =>
    mem_paths_treeFrom_iff (List.length_filter_le _ flat) (Nat.zero_le maxDepth)
  rw [hsteps] at hpaths
  constructor
  · intro hpath
    have hhead := DescendantTree.head?_of_mem_paths hpath
    have hsymbol : tree.symbol = root := symbol_treeFrom
    rw [hsymbol] at hhead
    obtain ⟨rest, rfl⟩ := List.head?_eq_some_iff.mp hhead
    obtain ⟨hchain, hnodup, hapart, hlength⟩ := (hpaths rest).mp hpath
    have hroot : root ∉ rest := fun hmem => hapart root hmem (List.mem_singleton_self root)
    refine ⟨rfl, hchain, List.nodup_cons.mpr ⟨hroot, hnodup⟩, ?_⟩
    rw [List.length_cons]
    omega
  · rintro ⟨hhead, hchain, hnodup, hlength⟩
    obtain ⟨rest, rfl⟩ := List.head?_eq_some_iff.mp hhead
    rw [List.nodup_cons] at hnodup
    rw [List.length_cons] at hlength
    refine (hpaths rest).mpr ⟨hchain, hnodup.2, ?_, by omega⟩
    intro x hx hmem
    obtain rfl := List.mem_singleton.mp hmem
    exact hnodup.1 hx

end Snapshot
end SymbolAtlas
