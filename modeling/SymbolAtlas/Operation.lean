import SymbolAtlas.Symbol

/-!
# Operation trees

The body of a method is a tree of operations.  Calls, member references and assignments have their
own form; every other operation is a plain one with a kind and children.  A walk visits a tree from
its root, each operation before its children and these in the order of their evaluation.
-/

namespace SymbolAtlas

inductive Operation where
  | plain (kind : String) (children : List Operation) (location : Option Location)
  | argument (value : Operation) (passing : Passing) (location : Option Location)
  | invocation (target : Option Symbol) (receiver : Option Operation) (arguments : List Operation)
      (location : Option Location)
  | creation (constructor : Option Symbol) (arguments : List Operation)
      (initializer : Option Operation) (location : Option Location)
  | propertyReference (property : Symbol) (receiver : Option Operation)
      (arguments : List Operation) (location : Option Location)
  | fieldReference (field : Symbol) (receiver : Option Operation) (location : Option Location)
  | eventReference (event : Symbol) (receiver : Option Operation) (location : Option Location)
  | assignment (target value : Operation) (location : Option Location)
  | compound (target value : Operation) (operator : String) (location : Option Location)
  | step (target : Operation) (isDecrement isPostfix : Bool) (location : Option Location)
  deriving Inhabited

namespace Operation

/-- The children of an operation in the order of their evaluation. -/
def children : Operation → List Operation
  | .plain _ children _ => children
  | .argument value _ _ => [value]
  | .invocation _ receiver arguments _ => receiver.toList ++ arguments
  | .creation _ arguments initializer _ => arguments ++ initializer.toList
  | .propertyReference _ receiver arguments _ => receiver.toList ++ arguments
  | .fieldReference _ receiver _ => receiver.toList
  | .eventReference _ receiver _ => receiver.toList
  | .assignment target value _ => [target, value]
  | .compound target value _ _ => [target, value]
  | .step target _ _ _ => [target]

mutual

def count : Operation → Nat
  | .plain _ children _ => countAll children + 1
  | .argument value _ _ => count value + 1
  | .invocation _ receiver arguments _ => countOptional receiver + countAll arguments + 1
  | .creation _ arguments initializer _ => countAll arguments + countOptional initializer + 1
  | .propertyReference _ receiver arguments _ => countOptional receiver + countAll arguments + 1
  | .fieldReference _ receiver _ => countOptional receiver + 1
  | .eventReference _ receiver _ => countOptional receiver + 1
  | .assignment target value _ => count target + count value + 1
  | .compound target value _ _ => count target + count value + 1
  | .step target _ _ _ => count target + 1

def countAll : List Operation → Nat
  | [] => 0
  | op :: rest => count op + countAll rest

def countOptional : Option Operation → Nat
  | none => 0
  | some op => count op

end

theorem countAll_append (a b : List Operation) : countAll (a ++ b) = countAll a + countAll b := by
  induction a with
  | nil => simp [countAll]
  | cons op rest ih => simp [countAll, ih, Nat.add_assoc]

theorem countAll_toList (op : Option Operation) : countAll op.toList = countOptional op := by
  cases op <;> simp [countAll, countOptional]

/-- A tree has one operation more than its children together. -/
theorem count_eq (op : Operation) : op.count = countAll op.children + 1 := by
  cases op <;> simp [count, children, countAll, countAll_append, countAll_toList]

/-- Visits the trees of a stack from its top, children going on top of what is left. -/
def walkStack : List Operation → List Operation
  | [] => []
  | op :: rest => op :: walkStack (op.children ++ rest)
termination_by stack => countAll stack
decreasing_by
  simp only [countAll_append, countAll]
  have := count_eq op
  omega

/-- All operations of a tree, each before its children. -/
def walk (op : Operation) : List Operation :=
  walkStack [op]

def location : Operation → Option Location
  | .plain _ _ location => location
  | .argument _ _ location => location
  | .invocation _ _ _ location => location
  | .creation _ _ _ location => location
  | .propertyReference _ _ _ location => location
  | .fieldReference _ _ location => location
  | .eventReference _ _ location => location
  | .assignment _ _ location => location
  | .compound _ _ _ location => location
  | .step _ _ _ location => location

end Operation
end SymbolAtlas
