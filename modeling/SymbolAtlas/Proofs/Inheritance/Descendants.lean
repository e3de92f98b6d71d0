import SymbolAtlas.Proofs.Number.Whole
import SymbolAtlas.Proofs.Snapshot.Hierarchy
import Mathlib.Tactic

/-!
# The tree of descendants

A hierarchy comes with the descendants of its root twice, as a flat list and as a tree.  The tree
links each of them to its immediate parents in the list, so that it shows those that a chain of such
links connects to the root, however the links branch or come back.  As long as nothing is left out
of the list these are all of them.  A list of types in source alone may have left out the only type
between a descendant and the root, and then the descendant is not in the tree.
-/

namespace SymbolAtlas

open Relation Tables

namespace DescendantTree

mutual

/-- The symbols of a tree, its root first. -/
def symbols : DescendantTree → List Symbol
  | .node symbol children => symbol :: symbolsOfAll children

def symbolsOfAll : List DescendantTree → List Symbol
  | [] => []
  | tree :: rest => symbols tree ++ symbolsOfAll rest

end

/-- The symbols below the root of a tree. -/
def descendants : DescendantTree → List Symbol
  | .node _ children => symbolsOfAll children

variable {x : Symbol}

theorem mem_symbols_iff {tree : DescendantTree} :
    x ∈ tree.symbols ↔ x = tree.symbol ∨ x ∈ tree.descendants := by
  cases tree
  simp [symbols, symbol, descendants]

theorem mem_symbolsOfAll_iff {trees : List DescendantTree} :
    x ∈ symbolsOfAll trees ↔ ∃ tree ∈ trees, x ∈ tree.symbols := by
  induction trees with
  | nil => simp [symbolsOfAll]
  | cons tree rest ih => simp [symbolsOfAll, ih]

end DescendantTree

namespace Snapshot

variable {s : Snapshot} {flat path : List Symbol} {amongInterfaces : Bool} {maxDepth : Number}
  {unseen depth : Nat} {type c x : Symbol}

/-! ## What a tree shows -/

/-- A listed type has another one as an immediate parent. -/
def ChildOf (s : Snapshot) (flat : List Symbol) (amongInterfaces : Bool) (parent child : Symbol) :
    Prop :=
  child ∈ flat ∧ parent ∈ s.parentsOf child amongInterfaces

theorem mem_childrenAmong_iff :
    c ∈ s.childrenAmong flat amongInterfaces type ↔ s.ChildOf flat amongInterfaces type c := by
  simp [childrenAmong, ChildOf]

theorem symbol_treeFrom :
    (s.treeFrom flat amongInterfaces maxDepth unseen depth path type).symbol = type := by
  cases unseen with
  | zero => rfl
  | succ unseen =>
      unfold treeFrom
      split <;> rfl

/-- What is below a type in a tree is a child that is not on the path, or below such a child. -/
theorem mem_descendants_treeFrom_iff
    (hdepth : (Number.whole depth).lt maxDepth = true) :
    x ∈ (s.treeFrom flat amongInterfaces maxDepth (unseen + 1) depth path type).descendants ↔
      ∃ c, s.ChildOf flat amongInterfaces type c ∧ c ∉ path ∧
        (x = c ∨ x ∈ (s.treeFrom flat amongInterfaces maxDepth unseen (depth + 1) (c :: path)
          c).descendants) := by
  rw [treeFrom, if_pos hdepth]
  change x ∈ DescendantTree.symbolsOfAll (List.map _ _) ↔ _
  rw [DescendantTree.mem_symbolsOfAll_iff]
  simp [mem_childrenAmong_iff, DescendantTree.mem_symbols_iff, symbol_treeFrom, and_assoc]

theorem not_mem_descendants_treeFrom (hdepth : (Number.whole depth).lt maxDepth ≠ true) :
    x ∉ (s.treeFrom flat amongInterfaces maxDepth unseen depth path type).descendants := by
  cases unseen with
  | zero => exact List.not_mem_nil
  | succ unseen =>
      rw [treeFrom, if_neg hdepth]
      exact List.not_mem_nil

/-- Whatever is in a tree is connected to its root. -/
theorem transGen_of_mem_treeFrom
    (hx : x ∈ (s.treeFrom flat amongInterfaces maxDepth unseen depth path type).descendants) :
    TransGen (s.ChildOf flat amongInterfaces) type x := by
  induction unseen generalizing depth path type with
  | zero => cases hx
  | succ unseen ih =>
      by_cases hdepth : (Number.whole depth).lt maxDepth = true
      · obtain ⟨c, hchild, -, rfl | hbelow⟩ := (mem_descendants_treeFrom_iff hdepth).mp hx
        · exact .single hchild
        · exact .head hchild (ih hbelow)
      · exact absurd hx (not_mem_descendants_treeFrom hdepth)

/-- What can be reached from somewhere can be reached without coming back there. -/
theorem eq_or_transGen_avoiding {α : Type} {r : α → α → Prop} {a b : α}
    (hreach : ReflTransGen r a b) : b = a ∨ TransGen (fun p c => r p c ∧ c ≠ a) a b := by
  induction hreach with
  | refl => exact Or.inl rfl
  | @tail p c _ hlast ih =>
      by_cases hc : c = a
      · exact Or.inl hc
      · refine Or.inr ?_
        obtain rfl | hway := ih
        · exact .single ⟨hlast, hc⟩
        · exact hway.tail ⟨hlast, hc⟩

/-- A step onto the path leaves less of the list beside it. -/
theorem length_unseen_lt (hc : c ∈ flat) (hpath : c ∉ path) :
    (flat.filter fun d => d ∉ c :: path).length < (flat.filter fun d => d ∉ path).length := by
  have hsplit : (flat.filter fun d => d ∉ c :: path) =
      (flat.filter fun d => d ∉ path).filter fun d => d ≠ c := by
    rw [List.filter_filter]
    congr 1
    funext d
    simp [not_or]
  rw [hsplit, List.length_filter_lt_length_iff_exists]
  exact ⟨c, List.mem_filter.mpr ⟨hc, by simpa using hpath⟩, by simp⟩

/-- Whatever is connected to the root of a tree beside its path is in the tree, if the tree may grow
deep enough for all types beside the path. -/
theorem mem_treeFrom_of_transGen
    (hunseen : (flat.filter fun d => d ∉ path).length ≤ unseen)
    (hdeep : ∀ j < unseen, (Number.whole ((depth + j : Nat) : Int)).lt maxDepth = true)
    (hx : TransGen (fun p c => s.ChildOf flat amongInterfaces p c ∧ c ∉ path) type x) :
    x ∈ (s.treeFrom flat amongInterfaces maxDepth unseen depth path type).descendants := by
  induction unseen generalizing depth path type with
  | zero =>
      obtain ⟨c, ⟨⟨hc, -⟩, hpath⟩, -⟩ := TransGen.head'_iff.mp hx
      have hnone := length_unseen_lt hc hpath
      omega
  | succ unseen ih =>
      obtain ⟨c, ⟨hchild, hpath⟩, hreach⟩ := TransGen.head'_iff.mp hx
      have hless := length_unseen_lt hchild.1 hpath
      refine (mem_descendants_treeFrom_iff (hdeep 0 (by omega))).mpr ⟨c, hchild, hpath, ?_⟩
      refine (eq_or_transGen_avoiding hreach).imp_right fun hway => ?_
      refine ih (by omega) ?_ (TransGen.mono ?_ _ _ hway)
      · intro j hj
        have hj := hdeep (j + 1) (by omega)
        rwa [← Nat.add_assoc, Nat.add_right_comm] at hj
      · rintro p d ⟨⟨hd, havoids⟩, hne⟩
        exact ⟨hd, by simp [hne, havoids]⟩

/-! ## The flat list -/

theorem mem_distinctSymbols_iff {symbols : List Symbol} :
    x ∈ distinctSymbols symbols ↔ x ∈ symbols := by
  have hfold := Table.foldl_iff (p := fun seen : List Symbol => x ∈ seen) (q := fun y => x = y)
    (f := fun seen y => if seen.contains y then seen else seen ++ [y]) ?_ [] symbols
  · simpa [distinctSymbols] using hfold
  · intro seen y
    split
    next hold =>
      rw [List.contains_iff_mem] at hold
      constructor
      · exact Or.inl
      · rintro (hx | rfl)
        · exact hx
        · exact hold
    next => simp

theorem nodup_distinctSymbols (symbols : List Symbol) : (distinctSymbols symbols).Nodup := by
  unfold distinctSymbols
  refine List.foldlRecOn (motive := List.Nodup) symbols _ List.nodup_nil ?_
  intro seen hseen y _
  split
  next => exact hseen
  next hnew =>
    rw [List.contains_iff_mem] at hnew
    rw [← List.concat_eq_append]
    exact hseen.concat hnew

/-- The first type has the second as a base or, among interfaces, extends it. -/
def Above (s : Snapshot) (amongInterfaces : Bool) (a b : String) : Prop :=
  if amongInterfaces then s.Extends a b else s.HasBase a b

variable {inSourceOnly : Bool}

theorem mem_descendantsOf_iff :
    x ∈ s.descendantsOf type inSourceOnly ↔
      x ∈ (if isInterface type then s.derivedInterfaces type true else s.derivedTypes type true) ∧
        (inSourceOnly = true → x.inSource = true) := by
  unfold descendantsOf byDisplay keepInSource
  rw [List.mem_mergeSort, mem_distinctSymbols_iff]
  cases inSourceOnly <;> simp

theorem holds_of_mem_descendantsOf (hs : s.tables.WellFormed) (hlinks : s.tables.LinksTypes)
    (hx : x ∈ s.descendantsOf type inSourceOnly) :
    Holds s.tables.symbols x ∧ x.kind = .namedType := by
  obtain ⟨hfound, -⟩ := mem_descendantsOf_iff.mp hx
  split at hfound
  next =>
    exact ⟨holds_of_mem_sorted hs.closed hfound,
      (isInterface_of_mem_derivedInterfaces hs hlinks hfound).2⟩
  next =>
    exact ⟨holds_of_mem_sorted hs.closed hfound, kind_of_mem_derivedTypes hs hlinks hfound⟩

theorem mem_descendantsOf_false_iff (hs : s.tables.WellFormed) (hx : Holds s.tables.symbols x) :
    x ∈ s.descendantsOf type false ↔
      x.id ≠ type.id ∧ TransGen (s.Above (isInterface type)) x.id type.id := by
  rw [mem_descendantsOf_iff]
  cases hinterface : isInterface type with
  | true =>
      have habove : s.Above true = s.Extends := by
        funext a b
        simp [Above]
      rw [habove, if_pos rfl, mem_derivedInterfaces_iff hs hx]
      simp
  | false =>
      have habove : s.Above false = s.HasBase := by
        funext a b
        simp [Above]
      rw [habove, if_neg (by simp), mem_derivedTypes_iff hs hx]
      simp

theorem not_mem_descendantsOf_self (hs : s.tables.WellFormed)
    (htype : Holds s.tables.symbols type) : type ∉ s.descendantsOf type inSourceOnly := by
  intro hself
  have hall : type ∈ s.descendantsOf type false := by
    refine mem_descendantsOf_iff.mpr ⟨(mem_descendantsOf_iff.mp hself).1, ?_⟩
    intro hfalse
    cases hfalse
  exact ((mem_descendantsOf_false_iff hs htype).mp hall).1 rfl

/-- A list of descendants is not longer than that of all types. -/
theorem length_descendantsOf_le (hs : s.tables.WellFormed) (hlinks : s.tables.LinksTypes) :
    (s.descendantsOf type inSourceOnly).length ≤ s.size.types := by
  have hnodup : (s.descendantsOf type inSourceOnly).Nodup :=
    (List.mergeSort_perm _ _).nodup_iff.mpr (nodup_distinctSymbols _)
  have hids : ((s.descendantsOf type inSourceOnly).map Symbol.id).Nodup := by
    refine hnodup.map_on ?_
    intro x hx y hy hid
    have hxHeld := (holds_of_mem_descendantsOf hs hlinks hx).1
    exact hxHeld.eq_of_id (holds_of_mem_descendantsOf hs hlinks hy).1 hid
  have hsubset : (s.descendantsOf type inSourceOnly).map Symbol.id ⊆
      Link.distinct s.tables.typeNames.values := by
    intro id hid
    obtain ⟨x, hx, rfl⟩ := List.mem_map.mp hid
    obtain ⟨hheld, hkind⟩ := holds_of_mem_descendantsOf hs hlinks hx
    rw [Link.mem_distinct, hs.closed.typeNames]
    exact ⟨x, List.mem_map.mpr ⟨(x.id, x), Table.mem_of_find? hheld, rfl⟩, hkind, rfl⟩
  calc
    (s.descendantsOf type inSourceOnly).length =
        ((s.descendantsOf type inSourceOnly).map Symbol.id).length := (List.length_map _).symm
    _ ≤ (Link.distinct s.tables.typeNames.values).length :=
      (List.subperm_of_subset hids hsubset).length_le

/-! ## Links between descendants -/

theorem exists_holds_of_above (hs : s.tables.Closed) (hlinks : s.tables.LinksTypes) {a b : String}
    (habove : s.Above amongInterfaces a b) : ∃ p, Holds s.tables.symbols p ∧ p.id = b := by
  have hknown : KnownAs s.tables.symbols .namedType b := by
    unfold Above at habove
    split at habove
    next =>
      obtain ⟨ids, hget, hmem⟩ := Table.mem_listAt_iff.mp habove.2
      exact (hlinks.interfaces.get? hget).2 b hmem
    next => exact (hlinks.bases.get? habove).2
  obtain ⟨p, hp, -⟩ := hknown
  have hid : p.id = b := hs.ids.get? hp
  refine ⟨p, ?_, hid⟩
  unfold Holds
  rw [hid]
  exact hp

theorem mem_parentsOf_of_above (hs : s.tables.Closed) {p : Symbol}
    (hp : Holds s.tables.symbols p) (habove : s.Above amongInterfaces x.id p.id) :
    p ∈ s.parentsOf x amongInterfaces := by
  unfold Above at habove
  unfold parentsOf
  split at habove
  next hinterfaces =>
    rw [if_pos hinterfaces]
    exact (mem_symbolsOf_iff hs hp).mpr habove.2
  next hbases =>
    have hbase : s.tables.baseTypes.get? x.id = some p.id := habove
    have hp : s.symbol? p.id = some p := hp
    rw [if_neg hbases]
    unfold baseOf?
    rw [hbase, Option.bind_some, hp]
    simp

/-- Where no descendant is left out, every descendant is connected to the root. -/
theorem transGen_childOf_of_above (hs : s.tables.WellFormed) (hlinks : s.tables.LinksTypes)
    (htype : Holds s.tables.symbols type) {a : String}
    (hchain : TransGen (s.Above (isInterface type)) a type.id) (hx : Holds s.tables.symbols x)
    (hid : x.id = a) (hne : x.id ≠ type.id) :
    TransGen (s.ChildOf (s.descendantsOf type false) (isInterface type)) type x := by
  induction hchain using TransGen.head_induction_on generalizing x with
  | single habove =>
      subst hid
      exact .single ⟨(mem_descendantsOf_false_iff hs hx).mpr ⟨hne, .single habove⟩,
        mem_parentsOf_of_above hs.closed htype habove⟩
  | head habove hrest ih =>
      subst hid
      have hlisted := (mem_descendantsOf_false_iff hs hx).mpr ⟨hne, .head habove hrest⟩
      obtain ⟨p, hp, rfl⟩ := exists_holds_of_above hs.closed hlinks habove
      have hchild : s.ChildOf (s.descendantsOf type false) (isInterface type) p x :=
        ⟨hlisted, mem_parentsOf_of_above hs.closed hp habove⟩
      -- the way up may come through the root more than once
      by_cases hroot : p.id = type.id
      · obtain rfl := hp.eq_of_id htype hroot
        exact .single hchild
      · exact (ih hp rfl hroot).tail hchild

/-- A tree that may be as deep as there are types shows what a chain of immediate parents within
the list connects to the root. -/
theorem mem_descendantTree_iff (hs : s.tables.WellFormed) (hlinks : s.tables.LinksTypes)
    (htype : Holds s.tables.symbols type)
    (hdeep : (Number.whole (s.size.types : Int)).le maxDepth = true) :
    x ∈ (s.descendantTree type (s.descendantsOf type inSourceOnly) maxDepth).descendants ↔
      TransGen (s.ChildOf (s.descendantsOf type inSourceOnly) (isInterface type)) type x := by
  unfold descendantTree
  constructor
  · exact transGen_of_mem_treeFrom
  · intro hchain
    refine mem_treeFrom_of_transGen (List.length_filter_le _ _) ?_ (TransGen.mono ?_ _ _ hchain)
    · intro j hj
      have hlength : (s.descendantsOf type inSourceOnly).length ≤ s.size.types :=
        length_descendantsOf_le hs hlinks
      exact Number.lt_of_whole_le (by omega) hdeep
    · intro p c hchild
      refine ⟨hchild, ?_⟩
      rw [List.mem_singleton]
      rintro rfl
      exact not_mem_descendantsOf_self hs htype hchild.1

theorem exists_hierarchyOf (hkind : type.kind = .namedType) {deadline : Deadline}
    (hdeadline : deadline.check = .ok ()) {view : HierarchyView}
    (hdown : view.direction.goesDown = true)
    (hdepth : Target.ordered view.maxDepth = .ok maxDepth) :
    ∃ h, s.hierarchyOf deadline type view = .ok h ∧
      h.descendants = s.descendantsOf type view.inSourceOnly ∧
      h.tree = some (s.descendantTree type (s.descendantsOf type view.inSourceOnly) maxDepth) := by
  unfold hierarchyOf
  simp only [hkind, hdown, hdeadline, hdepth]
  cases view.withOverrides with
  | false => exact ⟨_, rfl, rfl, rfl⟩
  | true =>
      cases (s.overridableMembers type).isEmpty <;> exact ⟨_, rfl, rfl, rfl⟩

/-- The tree in a hierarchy shows the listed descendants that a chain of immediate parents within
the list connects to the root, if it may be as deep as there are types.  Where types outside of the
source are listed as well, these are all that are listed. -/
theorem hierarchyOf_tree_covers (hs : s.tables.WellFormed) (hlinks : s.tables.LinksTypes)
    (htype : Holds s.tables.symbols type) (hkind : type.kind = .namedType) {deadline : Deadline}
    (hdeadline : deadline.check = .ok ()) {view : HierarchyView}
    (hdown : view.direction.goesDown = true) (hdepth : Target.ordered view.maxDepth = .ok maxDepth)
    (hdeep : (Number.whole (s.size.types : Int)).le maxDepth = true) :
    ∃ h tree, s.hierarchyOf deadline type view = .ok h ∧ h.tree = some tree ∧
      h.descendants = s.descendantsOf type view.inSourceOnly ∧
      (∀ x, x ∈ tree.descendants ↔
        TransGen (s.ChildOf h.descendants (isInterface type)) type x) ∧
      (∀ x ∈ tree.descendants, x ∈ h.descendants) ∧
      (view.inSourceOnly = false → ∀ x, x ∈ tree.descendants ↔ x ∈ h.descendants) := by
  obtain ⟨h, hh, hlist, htree⟩ := exists_hierarchyOf (s := s) hkind hdeadline hdown hdepth
  have hconnected : ∀ x,
      x ∈ (s.descendantTree type (s.descendantsOf type view.inSourceOnly) maxDepth).descendants ↔
        TransGen (s.ChildOf (s.descendantsOf type view.inSourceOnly) (isInterface type)) type x :=
    fun x => mem_descendantTree_iff hs hlinks htype hdeep
  have hlisted : ∀ x,
      x ∈ (s.descendantTree type (s.descendantsOf type view.inSourceOnly) maxDepth).descendants →
        x ∈ s.descendantsOf type view.inSourceOnly := by
    intro x hx
    obtain ⟨_, -, hchild⟩ := TransGen.tail'_iff.mp ((hconnected x).mp hx)
    exact hchild.1
  refine ⟨h, _, hh, htree, hlist, hlist ▸ hconnected, hlist ▸ hlisted, ?_⟩
  intro hall x
  rw [hlist]
  refine ⟨hlisted x, fun hx => (hconnected x).mpr ?_⟩
  rw [hall] at hx ⊢
  have hheld := (holds_of_mem_descendantsOf hs hlinks hx).1
  obtain ⟨hne, hchain⟩ := (mem_descendantsOf_false_iff hs hheld).mp hx
  exact transGen_childOf_of_above hs hlinks htype hchain hheld rfl hne

/-- A shape and a circle in source, and between them a curve that is not. -/
def circleDocument : Value :=
  let type (name : String) (more : List (Value × Value)) : Value :=
    .mapping ((.text "name", .text name) :: more)
  let inFile (file : String) : List (Value × Value) :=
    [(.text "file", .text file), (.text "line", .int 1)]
  .mapping [(.text "types", .list [
    type "Shape" (inFile "Shape.cs"),
    type "Curve" [(.text "base", .text "Shape"), (.text "metadata", .bool true)],
    type "Circle" ((.text "base", .text "Curve") :: inFile "Circle.cs")])]

def circleView (inSourceOnly : Bool) : HierarchyView :=
  ⟨.both, .int 10, true, false, inSourceOnly⟩

theorem exists_circleSnapshot : ∃ s shape curve circle,
    ofDocument .empty circleDocument "/work" none = .ok s ∧ s.size.types = 3 ∧
      (Holds s.tables.symbols shape ∧ shape.id = "T:Shape" ∧ shape.kind = .namedType ∧
        isInterface shape = false) ∧
      (Holds s.tables.symbols curve ∧ curve.id = "T:Curve" ∧ curve.inSource = false) ∧
      circle.id = "T:Circle" ∧ circle.inSource = true ∧ s.HasBase circle.id curve.id ∧
      circle ∈ s.descendantsOf shape false := by
  have hfacts : (ofDocument .empty circleDocument "/work" none).toOption.any (fun s => decide (
      s.size.types = 3 ∧
      (s.symbol? "T:Shape").any (fun t =>
        decide (t.kind = .namedType ∧ isInterface t = false)) = true ∧
      (s.symbol? "T:Curve").any (fun t => !t.inSource) = true ∧
      (s.symbol? "T:Circle").any Symbol.inSource = true ∧
      s.tables.baseTypes.get? "T:Curve" = some "T:Shape" ∧
      s.tables.baseTypes.get? "T:Circle" = some "T:Curve")) = true := by
    decide +kernel
  obtain ⟨s, hs, hfacts⟩ := Attempt.exists_ok_of_any hfacts
  obtain ⟨hsize, hshape, hcurve, hcircle, hcurveBase, hcircleBase⟩ := of_decide_eq_true hfacts
  have hwell := wellFormed_of_ofDocument hs
  obtain ⟨shape, hshapeHeld, hshapeId, hshape⟩ := hwell.closed.exists_holds_of_any hshape
  obtain ⟨curve, hcurveHeld, hcurveId, hcurve⟩ := hwell.closed.exists_holds_of_any hcurve
  obtain ⟨circle, hcircleHeld, hcircleId, hcircle⟩ := hwell.closed.exists_holds_of_any hcircle
  obtain ⟨hkind, hinterface⟩ := of_decide_eq_true hshape
  rw [← hcurveId] at hcurveBase hcircleBase
  rw [← hshapeId] at hcurveBase
  rw [← hcircleId] at hcircleBase
  refine ⟨s, shape, curve, circle, hs, hsize, ⟨hshapeHeld, hshapeId, hkind, hinterface⟩,
    ⟨hcurveHeld, hcurveId, by simpa using hcurve⟩, hcircleId, hcircle, hcircleBase, ?_⟩
  refine (mem_descendantsOf_false_iff hwell hcircleHeld).mpr ⟨?_, ?_⟩
  · rw [hcircleId, hshapeId]
    decide
  · rw [hinterface]
    exact .tail (.single hcircleBase) hcurveBase

theorem hierarchyOf_tree_covers_circle : ∃ s shape circle h tree,
    ofDocument .empty circleDocument "/work" none = .ok s ∧
      shape.id = "T:Shape" ∧ circle.id = "T:Circle" ∧
      s.hierarchyOf .none shape (circleView false) = .ok h ∧ h.tree = some tree ∧
      circle ∈ h.descendants ∧ circle ∈ tree.descendants := by
  obtain ⟨s, shape, curve, circle, hs, hsize, ⟨hshape, hshapeId, hkind, -⟩, -, hcircleId, -, -,
    hcircle⟩ := exists_circleSnapshot
  have hdeep : (Number.whole (s.size.types : Int)).le (.whole 10) = true := by
    rw [hsize]
    rfl
  have hdeadline : Deadline.none.check = .ok () := rfl
  have hdown : (circleView false).direction.goesDown = true := rfl
  have hdepth : Target.ordered (circleView false).maxDepth = .ok (.whole 10) := rfl
  obtain ⟨h, tree, hh, htree, hlist, -, -, hall⟩ :=
    hierarchyOf_tree_covers (wellFormed_of_ofDocument hs) (linksTypes_of_ofDocument hs) hshape hkind
      hdeadline hdown hdepth hdeep
  have hlisted : circle ∈ h.descendants := by
    rw [hlist]
    exact hcircle
  exact ⟨s, shape, circle, h, tree, hs, hshapeId, hcircleId, hh, htree, hlisted,
    (hall rfl circle).mpr hlisted⟩

/-- A listed descendant is not in the tree if its only way to the root leaves the source. -/
theorem listed_but_not_in_tree : ∃ s shape circle h tree,
    ofDocument .empty circleDocument "/work" none = .ok s ∧
      shape.id = "T:Shape" ∧ circle.id = "T:Circle" ∧
      shape.kind = .namedType ∧ s.size.types ≤ 10 ∧
      s.hierarchyOf .none shape (circleView true) = .ok h ∧ h.tree = some tree ∧
      circle ∈ h.descendants ∧ circle ∉ tree.descendants := by
  obtain ⟨s, shape, curve, circle, hs, hsize, ⟨hshape, hshapeId, hkind, hinterface⟩,
    ⟨hcurve, hcurveId, hcurveSource⟩, hcircleId, hcircleSource, hbase, hcircle⟩ :=
    exists_circleSnapshot
  have hdeadline : Deadline.none.check = .ok () := rfl
  have hdown : (circleView true).direction.goesDown = true := rfl
  have hdepth : Target.ordered (circleView true).maxDepth = .ok (.whole 10) := rfl
  obtain ⟨h, hh, hlist, htree⟩ := exists_hierarchyOf (s := s) hkind hdeadline hdown hdepth
  refine ⟨s, shape, circle, h, _, hs, hshapeId, hcircleId, hkind, by omega, hh, htree, ?_, ?_⟩
  · rw [hlist]
    exact mem_descendantsOf_iff.mpr
      ⟨(mem_descendantsOf_iff.mp hcircle).1, fun _ => hcircleSource⟩
  · intro hbelow
    obtain ⟨p, hway, -, hparent⟩ := TransGen.tail'_iff.mp (transGen_of_mem_treeFrom hbelow)
    rw [hinterface] at hparent
    have hp : p = curve := by
      have hbase : s.tables.baseTypes.get? circle.id = some curve.id := hbase
      have hcurve : s.symbol? curve.id = some curve := hcurve
      simpa [parentsOf, baseOf?, hbase, hcurve] using hparent
    subst hp
    obtain rfl | hlast := reflTransGen_iff_eq_or_transGen.mp hway
    · rw [hshapeId] at hcurveId
      exact absurd hcurveId (by decide)
    · obtain ⟨_, -, hlisted, -⟩ := TransGen.tail'_iff.mp hlast
      have hsource := (mem_descendantsOf_iff.mp hlisted).2 rfl
      rw [hcurveSource] at hsource
      cases hsource

end Snapshot
end SymbolAtlas
