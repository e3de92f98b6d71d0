import SymbolAtlas.Classification
import SymbolAtlas.Proofs.Operation.Walk
import Mathlib.Tactic

/-!
# Uses along the paths of a tree

An edge from an operation to a child either fixes what the value of the child is used for, or is
neutral and leaves that open.  A path lists the edges from the root of a tree to one of its
operations, and the last edge of it that is not neutral decides about the use of that operation.

The same is said by handing a use down the tree, each edge replacing it unless it is neutral.
`Operation.mem_uses_iff` is the agreement of the two readings.
-/

namespace SymbolAtlas
namespace Operation

/-- The children of an operation, each with the use that its edge fixes if it is not neutral.
An argument is written when it is passed by reference or as an output. -/
def edges : Operation → List (Option Use × Operation)
  | .plain _ children _ => children.map fun child => (none, child)
  | .argument value .byRef _ => [(some .write, value)]
  | .argument value .out _ => [(some .write, value)]
  | .argument value .byValue _ => [(some .read, value)]
  | .argument value .input _ => [(some .read, value)]
  | .invocation _ receiver arguments _ =>
      receiver.toList.map (fun child => (some .read, child)) ++
        arguments.map fun child => (none, child)
  | .creation _ arguments initializer _ =>
      (arguments ++ initializer.toList).map fun child => (none, child)
  | .propertyReference _ receiver arguments _ =>
      (receiver.toList ++ arguments).map fun child => (some .read, child)
  | .fieldReference _ receiver _ => receiver.toList.map fun child => (some .read, child)
  | .eventReference _ receiver _ => receiver.toList.map fun child => (some .read, child)
  | .assignment target value _ => [(some .write, target), (some .read, value)]
  | .compound target value _ _ => [(some .both, target), (some .read, value)]
  | .step target _ _ _ => [(some .both, target)]

/-- The property, field or event that an operation refers to. -/
def member? : Operation → Option Symbol
  | .propertyReference property _ _ _ => some property
  | .fieldReference field _ _ => some field
  | .eventReference event _ _ => some event
  | _ => none

/-- The method or constructor that an operation calls. -/
def callee? : Operation → Option Symbol
  | .invocation target _ _ _ => target
  | .creation constructor _ _ _ => constructor
  | _ => none

theorem edges_map_snd (op : Operation) : op.edges.map Prod.snd = op.children := by
  cases op with
  | argument value passing _ => cases passing <;> rfl
  | _ => simp [edges, children, Function.comp_def]

theorem mem_children_of_mem_edges {op child : Operation} {edge : Option Use}
    (hmem : (edge, child) ∈ op.edges) : child ∈ op.children := by
  rw [← edges_map_snd]
  exact List.mem_map.mpr ⟨(edge, child), hmem, rfl⟩

/-- The edges that lead from the root of a tree to an operation in it. -/
inductive Path : Operation → List (Option Use) → Operation → Prop where
  | root (tree : Operation) : Path tree [] tree
  | descend {tree child op : Operation} {edge : Option Use} {path : List (Option Use)}
      (hedge : (edge, child) ∈ tree.edges) (hpath : Path child path op) :
      Path tree (edge :: path) op

/-- The use that the last edge of a path fixes, neutral edges apart. -/
def lastFixed? (path : List (Option Use)) : Option Use :=
  (path.filterMap id).getLast?

/-- All operations of a tree in preorder, each with its use if the root has the given one. -/
def uses (op : Operation) (use : Use) : List (Operation × Use) :=
  (op, use) :: op.edges.attach.flatMap fun edge => edge.1.2.uses (edge.1.1.getD use)
termination_by op.count
decreasing_by exact count_lt_of_mem_children (mem_children_of_mem_edges edge.2)

theorem uses_eq (op : Operation) (use : Use) :
    op.uses use = (op, use) :: op.edges.flatMap fun edge => edge.2.uses (edge.1.getD use) := by
  rw [uses, List.flatMap_subtype (g := fun edge => edge.2.uses (edge.1.getD use))
    (fun _ _ => rfl), List.unattach_attach]

theorem uses_map_fst (op : Operation) (use : Use) : (op.uses use).map Prod.fst = op.walk := by
  induction op using childInduction generalizing use with
  | step op ih =>
      rw [uses_eq, walk_eq, List.map_cons, List.map_flatMap, ← edges_map_snd, List.flatMap_map]
      congr 1
      apply List.flatMap_congr
      intro edge hmem
      exact ih edge.2 (mem_children_of_mem_edges hmem) (edge.1.getD use)

theorem lastFixed?_cons_getD (edge : Option Use) (path : List (Option Use)) (use : Use) :
    (lastFixed? (edge :: path)).getD use = (lastFixed? path).getD (edge.getD use) := by
  cases edge with
  | none => simp [lastFixed?]
  | some fixed =>
      rw [lastFixed?, List.filterMap_cons, id, List.getLast?_cons]
      rfl

/-- Handing a use down a tree gives each operation the use that is fixed last on a path to it. -/
theorem mem_uses_iff (tree op : Operation) (use found : Use) :
    (op, found) ∈ tree.uses use ↔
      ∃ path, Path tree path op ∧ (lastFixed? path).getD use = found := by
  induction tree using childInduction generalizing use with
  | step tree ih =>
      rw [uses_eq, List.mem_cons, List.mem_flatMap]
      constructor
      · rintro (hroot | ⟨⟨edge, child⟩, hedge, hbelow⟩)
        · obtain ⟨rfl, rfl⟩ := Prod.mk.injEq .. ▸ hroot
          exact ⟨[], .root op, rfl⟩
        · obtain ⟨path, hpath, hfound⟩ :=
            (ih child (mem_children_of_mem_edges hedge) (edge.getD use)).mp hbelow
          refine ⟨edge :: path, .descend hedge hpath, ?_⟩
          rw [lastFixed?_cons_getD]
          exact hfound
      · rintro ⟨path, hpath, hfound⟩
        cases hpath with
        | root =>
            left
            simpa [lastFixed?] using hfound.symm
        | @descend _ child _ edge path hedge hbelow =>
            right
            rw [lastFixed?_cons_getD] at hfound
            exact ⟨(edge, child), hedge,
              (ih child (mem_children_of_mem_edges hedge) (edge.getD use)).mpr
                ⟨path, hbelow, hfound⟩⟩

end Operation
end SymbolAtlas
