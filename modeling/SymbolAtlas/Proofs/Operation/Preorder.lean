import SymbolAtlas.Proofs.Index.Tree
import SymbolAtlas.Proofs.Operation.Walk
import Mathlib.Tactic

/-!
# The order of a walk

The preorder of a tree is given by recursion on the forms of operations, without a stack.  A walk
yields exactly that: its stack holds the trees whose preorders are still to come, one after the
other, so that what has been yielded and the preorders on the stack make up the preorder of the
whole tree at every turn.  Each turn takes one operation off what is left, and the walk ends after
as many turns as the tree has operations.

An operation may occur several times in a tree, and it is the paths to the occurrences that tell
them apart.  In preorder these paths ascend in the lexicographic order, so that a walk yields every
occurrence once.
-/

namespace SymbolAtlas
namespace Operation

/-! ## Preorder by recursion on the tree -/

mutual

/-- An operation before its children, and each child with all that is below it before the next. -/
def preorder (op : Operation) : List Operation :=
  op :: match op with
    | .plain _ children _ => preorderAll children
    | .argument value _ _ => preorder value
    | .invocation _ receiver arguments _ => preorderOptional receiver ++ preorderAll arguments
    | .creation _ arguments initializer _ => preorderAll arguments ++ preorderOptional initializer
    | .propertyReference _ receiver arguments _ =>
        preorderOptional receiver ++ preorderAll arguments
    | .fieldReference _ receiver _ => preorderOptional receiver
    | .eventReference _ receiver _ => preorderOptional receiver
    | .assignment target value _ => preorder target ++ preorder value
    | .compound target value _ _ => preorder target ++ preorder value
    | .step target _ _ _ => preorder target

def preorderAll : List Operation → List Operation
  | [] => []
  | op :: rest => preorder op ++ preorderAll rest

def preorderOptional : Option Operation → List Operation
  | none => []
  | some op => preorder op

end

theorem preorderAll_eq_flatMap (ops : List Operation) : preorderAll ops = ops.flatMap preorder := by
  induction ops with
  | nil => rfl
  | cons op rest ih => rw [preorderAll, ih, List.flatMap_cons]

theorem preorderOptional_eq_flatMap (op : Option Operation) :
    preorderOptional op = op.toList.flatMap preorder := by
  cases op with
  | none => rfl
  | some op => simp [preorderOptional]

theorem preorder_eq (op : Operation) : op.preorder = op :: op.children.flatMap preorder := by
  cases op <;>
    simp [preorder, children, preorderAll_eq_flatMap, preorderOptional_eq_flatMap]

theorem walk_eq_preorder (tree : Operation) : tree.walk = tree.preorder := by
  induction tree using childInduction with
  | step op ih => rw [walk_eq, preorder_eq, List.flatMap_congr ih]

theorem walkStack_eq_flatMap_preorder (stack : List Operation) :
    walkStack stack = stack.flatMap preorder := by
  rw [walkStack_eq_flatMap]
  exact List.flatMap_congr fun op _ => walk_eq_preorder op

/-! ## The length of a walk -/

theorem length_walkStack (stack : List Operation) : (walkStack stack).length = countAll stack := by
  induction stack using walkStack.induct with
  | case1 => simp [walkStack, countAll]
  | case2 op rest ih =>
      rw [walkStack, List.length_cons, ih, countAll_append, countAll, count_eq op]
      omega

theorem countAll_eq_zero_iff (stack : List Operation) : countAll stack = 0 ↔ stack = [] := by
  cases stack with
  | nil => simp [countAll]
  | cons op rest => simp [countAll, count_eq op]

theorem length_walk (tree : Operation) : tree.walk.length = tree.count := by
  rw [walk, length_walkStack, countAll, countAll, Nat.add_zero]

/-! ## Turns of a walk -/

/-- A walk under way: what it has yielded, and the trees still to come, the next one on top. -/
structure Walking where
  yielded : List Operation
  stack : List Operation

namespace Walking

/-- A turn yields the root of the tree on top, and its children go on top of what is left.  There
is no turn once the stack is empty. -/
def turn? : Walking → Option Walking
  | ⟨_, []⟩ => none
  | ⟨yielded, op :: rest⟩ => some ⟨yielded ++ [op], op.children ++ rest⟩

/-- The walk of a tree after a number of turns, if it takes so many. -/
def after? (tree : Operation) : Nat → Option Walking
  | 0 => some ⟨[], [tree]⟩
  | turns + 1 => (after? tree turns).bind turn?

/-- What has been yielded, one operation each turn, and what the stack will yield are the walk. -/
structure Follows (tree : Operation) (turns : Nat) (w : Walking) : Prop where
  length_yielded : w.yielded.length = turns
  walk_eq : tree.walk = w.yielded ++ walkStack w.stack

variable {tree : Operation} {turns : Nat} {w next : Walking}

theorem turn?_eq_some_iff :
    w.turn? = some next ↔
      ∃ op rest, w.stack = op :: rest ∧ next = ⟨w.yielded ++ [op], op.children ++ rest⟩ := by
  obtain ⟨yielded, stack⟩ := w
  cases stack with
  | nil => simp [turn?]
  | cons op rest => simp [turn?, eq_comm]

theorem follows_start (tree : Operation) : Follows tree 0 ⟨[], [tree]⟩ where
  length_yielded := rfl
  walk_eq := rfl

theorem Follows.turn (h : Follows tree turns w) (hturn : w.turn? = some next) :
    Follows tree (turns + 1) next := by
  obtain ⟨op, rest, hstack, rfl⟩ := turn?_eq_some_iff.mp hturn
  constructor
  · rw [List.length_append, h.length_yielded, List.length_singleton]
  · rw [h.walk_eq, hstack, walkStack, List.append_assoc, List.singleton_append]

theorem follows_of_after? (hafter : after? tree turns = some w) : Follows tree turns w := by
  induction turns generalizing w with
  | zero =>
      obtain rfl := Option.some.inj hafter
      exact follows_start tree
  | succ turns ih =>
      obtain ⟨before, hbefore, hturn⟩ := Option.bind_eq_some_iff.mp hafter
      exact (ih hbefore).turn hturn

/-- What the stack still holds is what has not been yielded yet. -/
theorem Follows.turns_add (h : Follows tree turns w) :
    turns + countAll w.stack = tree.count := by
  have hlength := congrArg List.length h.walk_eq
  rw [length_walk, List.length_append, h.length_yielded, length_walkStack] at hlength
  exact hlength.symm

theorem Follows.yielded_eq (h : Follows tree turns w) : w.yielded = tree.walk.take turns := by
  rw [h.walk_eq, List.take_left' h.length_yielded]

theorem Follows.walkStack_eq (h : Follows tree turns w) :
    walkStack w.stack = tree.walk.drop turns := by
  rw [h.walk_eq, List.drop_left' h.length_yielded]

/-- A walk goes on as long as there are operations left. -/
theorem exists_after? (hle : turns ≤ tree.count) : ∃ w, after? tree turns = some w := by
  induction turns with
  | zero => exact ⟨_, rfl⟩
  | succ turns ih =>
      obtain ⟨w, hw⟩ := ih (by omega)
      have hleft := (follows_of_after? hw).turns_add
      -- As many turns as there are operations have not been taken yet, so the stack is not empty.
      obtain ⟨op, rest, hstack⟩ : ∃ op rest, w.stack = op :: rest := by
        apply List.exists_cons_of_ne_nil
        intro hnil
        have hzero := (countAll_eq_zero_iff w.stack).mpr hnil
        omega
      have hturn := turn?_eq_some_iff.mpr ⟨op, rest, hstack, rfl⟩
      exact ⟨_, Option.bind_eq_some_iff.mpr ⟨w, hw, hturn⟩⟩

theorem after?_eq_end_iff (tree : Operation) (turns : Nat) (yielded : List Operation) :
    after? tree turns = some ⟨yielded, []⟩ ↔ turns = tree.count ∧ yielded = tree.walk := by
  constructor
  · intro hafter
    have h := follows_of_after? hafter
    have hturns : turns = tree.count := h.turns_add
    refine ⟨hturns, ?_⟩
    rw [h.walk_eq, walkStack, List.append_nil]
  · rintro ⟨rfl, rfl⟩
    obtain ⟨⟨yielded, stack⟩, hafter⟩ := exists_after? (le_refl tree.count)
    have h := follows_of_after? hafter
    have hleft : tree.count + countAll stack = tree.count := h.turns_add
    obtain rfl : stack = [] := (countAll_eq_zero_iff stack).mp (by omega)
    rw [hafter, h.walk_eq, walkStack, List.append_nil]

end Walking

/-! ## Occurrences -/

/-- The paths to the operations of a tree, in preorder. -/
def occurrences (op : Operation) : List (List Nat) :=
  [] :: (op.children.attach.mapIdx fun i child => child.1.occurrences.map (i :: ·)).flatten
termination_by op.count
decreasing_by exact count_lt_of_mem_children child.2

theorem occurrences_eq (op : Operation) :
    op.occurrences =
      [] :: (op.children.mapIdx fun i child => child.occurrences.map (i :: ·)).flatten := by
  rw [occurrences]
  congr 2
  apply List.ext_getElem <;> simp

/-- The paths that occur are those that lead to an operation. -/
theorem mem_occurrences_iff (tree : Operation) (path : List Nat) :
    path ∈ tree.occurrences ↔ (tree.at? path).isSome := by
  induction path generalizing tree with
  | nil =>
      rw [occurrences_eq]
      simp [at?]
  | cons i path ih =>
      rw [occurrences_eq, at?]
      simp only [List.mem_cons, reduceCtorEq, false_or, List.mem_flatten, List.mem_mapIdx]
      constructor
      · rintro ⟨_, ⟨j, hj, rfl⟩, hmem⟩
        obtain ⟨below, hbelow, heq⟩ := List.mem_map.mp hmem
        obtain ⟨rfl, rfl⟩ := List.cons.inj heq
        rw [List.getElem?_eq_getElem hj]
        exact (ih _).mp hbelow
      · intro hsome
        obtain ⟨child, hchild⟩ := Option.isSome_iff_exists.mp (Option.isSome_of_isSome_bind hsome)
        rw [hchild, Option.bind_some] at hsome
        obtain ⟨hi, rfl⟩ := List.getElem?_eq_some_iff.mp hchild
        exact ⟨_, ⟨i, hi, rfl⟩, List.mem_map_of_mem ((ih _).mpr hsome)⟩

/-- The paths ascend, a path before those that lead on from it. -/
theorem pairwise_occurrences (tree : Operation) : tree.occurrences.Pairwise (· < ·) := by
  induction tree using childInduction with
  | step op ih =>
      rw [occurrences_eq, List.pairwise_cons, List.pairwise_flatten]
      -- The root comes before all paths, those through one child ascend by induction, and those
      -- through different children are told apart by their first step.
      refine ⟨?_, ?_, ?_⟩
      · intro path hmem
        obtain ⟨_, hin, hpath⟩ := List.mem_flatten.mp hmem
        obtain ⟨i, hi, rfl⟩ := List.mem_mapIdx.mp hin
        obtain ⟨below, -, rfl⟩ := List.mem_map.mp hpath
        exact List.nil_lt_cons i below
      · intro paths hmem
        obtain ⟨i, hi, rfl⟩ := List.mem_mapIdx.mp hmem
        rw [List.pairwise_map]
        exact (ih _ (List.getElem_mem hi)).imp List.cons_lt_cons_self.mpr
      · rw [List.pairwise_iff_getElem]
        intro i j hi hj hlt path hpath other hother
        rw [List.getElem_mapIdx] at hpath hother
        obtain ⟨below, -, rfl⟩ := List.mem_map.mp hpath
        obtain ⟨below', -, rfl⟩ := List.mem_map.mp hother
        exact List.cons_lt_cons_iff.mpr (.inl hlt)

/-- A walk yields what is found at the paths, one after the other. -/
theorem map_at?_occurrences (tree : Operation) :
    tree.occurrences.map tree.at? = tree.walk.map some := by
  induction tree using childInduction with
  | step op ih =>
      rw [occurrences_eq, walk_eq, List.map_cons, List.map_cons, List.map_flatten, List.map_flatMap,
        List.flatMap_def]
      refine congrArg₂ List.cons rfl (congrArg List.flatten ?_)
      apply List.ext_getElem
      · simp
      · intro i hi hi'
        simp only [List.getElem_map, List.getElem_mapIdx, List.map_map]
        rw [← ih _ (List.getElem_mem _)]
        apply List.map_congr_left
        intro path _
        rw [Function.comp_apply, at?, List.getElem?_eq_getElem (by simpa using hi),
          Option.bind_some]

/-! ## Every operation once -/

/-- A walk is the preorder of its tree: the root, and then the walks of the children in order.
Every occurrence of an operation is yielded once, in the order of the paths to it.  At every turn
the stack holds the part of the preorder that is still to come, and the stack is empty after as
many turns as the tree has operations. -/
theorem walk_preorder (tree : Operation) :
    tree.walk = tree.preorder ∧
      tree.walk = tree :: tree.children.flatMap walk ∧
      (∃ paths : List (List Nat),
        paths.Pairwise (· < ·) ∧
          (∀ path, path ∈ paths ↔ (tree.at? path).isSome) ∧
          paths.map tree.at? = tree.walk.map some) ∧
      (∀ turns w, Walking.after? tree turns = some w →
        w.yielded = tree.preorder.take turns ∧
          w.stack.flatMap preorder = tree.preorder.drop turns) ∧
      ∀ turns yielded,
        Walking.after? tree turns = some ⟨yielded, []⟩ ↔
          turns = tree.count ∧ yielded = tree.walk := by
  refine ⟨walk_eq_preorder tree, walk_eq tree, ?_, ?_, Walking.after?_eq_end_iff tree⟩
  · exact ⟨tree.occurrences, pairwise_occurrences tree, mem_occurrences_iff tree,
      map_at?_occurrences tree⟩
  · intro turns w hafter
    have h := Walking.follows_of_after? hafter
    rw [← walk_eq_preorder, ← walkStack_eq_flatMap_preorder]
    exact ⟨h.yielded_eq, h.walkStack_eq⟩

/-- A call on an object with a key and a new box, which has a size and an initializer. -/
def boxCall : Operation :=
  .invocation none (some (.plain "this" [] none))
    [.argument (.plain "key" [] none) .byValue none,
      .argument
        (.creation none [.argument (.plain "size" [] none) .byValue none]
          (some (.plain "initializer" [] none)) none)
        .byValue none]
    none

/-- After six turns the creation of the box has been yielded.  Its argument comes next, and then
its initializer. -/
theorem walk_preorder_box :
    (∃ w, Walking.after? boxCall 6 = some w ∧
      w.stack =
        [.argument (.plain "size" [] none) .byValue none, .plain "initializer" [] none] ∧
      w.yielded = boxCall.preorder.take 6 ∧
      w.stack.flatMap preorder = boxCall.preorder.drop 6) ∧
    Walking.after? boxCall 9 = some ⟨boxCall.walk, []⟩ := by
  obtain ⟨-, -, -, hturn, hend⟩ := walk_preorder boxCall
  exact ⟨⟨_, rfl, rfl, hturn 6 _ rfl⟩, (hend 9 boxCall.walk).mpr ⟨rfl, rfl⟩⟩

end Operation
end SymbolAtlas
