import SymbolAtlas.Operation
import Mathlib.Tactic

/-!
# Walks in preorder

The stack of a walk holds the trees that are still to come, the next one on top.  What a stack
yields is what its trees yield one after the other, so that a walk is the preorder of its tree:
the root, and then the walks of its children.

Every property of operations that passes from the children of an operation to the operation
itself holds of all operations; `Operation.childInduction` is that principle.
-/

namespace SymbolAtlas
namespace Operation

theorem count_le_countAll {op : Operation} {ops : List Operation} (hmem : op ∈ ops) :
    op.count ≤ countAll ops := by
  induction ops with
  | nil => simp at hmem
  | cons first rest ih =>
      rw [countAll]
      rcases List.mem_cons.mp hmem with heq | hrest
      · subst op
        omega
      · have hle := ih hrest
        omega

theorem count_lt_of_mem_children {op child : Operation} (hmem : child ∈ op.children) :
    child.count < op.count := by
  have hle := count_le_countAll hmem
  have hcount := count_eq op
  omega

@[elab_as_elim]
theorem childInduction {motive : Operation → Prop}
    (step : ∀ op, (∀ child ∈ op.children, motive child) → motive op)
    (op : Operation) :
    motive op := by
  apply step
  intro child hmem
  exact childInduction step child
termination_by op.count
decreasing_by exact count_lt_of_mem_children hmem

theorem walkStack_append (top below : List Operation) :
    walkStack (top ++ below) = walkStack top ++ walkStack below := by
  induction top using walkStack.induct with
  | case1 => simp [walkStack]
  | case2 op rest ih =>
      rw [List.cons_append, walkStack, walkStack, ← List.append_assoc, ih, List.cons_append]

theorem walkStack_eq_flatMap (stack : List Operation) :
    walkStack stack = stack.flatMap walk := by
  induction stack with
  | nil => simp [walkStack]
  | cons op rest ih =>
      rw [List.flatMap_cons, ← ih, walk, ← walkStack_append, List.singleton_append]

/-- A walk yields its root first and then walks the children in order. -/
theorem walk_eq (op : Operation) : op.walk = op :: op.children.flatMap walk := by
  rw [walk, walkStack, List.append_nil, walkStack_eq_flatMap]

/-- What holds throughout a tree holds of its root and throughout its children. -/
theorem forall_walk_iff (op : Operation) (P : Operation → Prop) :
    (∀ inner ∈ op.walk, P inner) ↔ P op ∧ ∀ child ∈ op.children, ∀ inner ∈ child.walk, P inner := by
  rw [walk_eq, List.forall_mem_cons]
  simp only [List.mem_flatMap, forall_exists_index, and_imp]
  exact and_congr_right fun _ => ⟨fun h child hchild inner hinner => h inner child hchild hinner,
    fun h inner child hchild hinner => h child hchild inner hinner⟩

end Operation
end SymbolAtlas
