import SymbolAtlas.Classification
import SymbolAtlas.Deadline
import SymbolAtlas.Snapshot.Usage

/-!
# Dependencies of a method

Calls are followed breadth first from a root method, whose level is one, and only from methods
above a given depth.  Each method is classified once; its calls, reads and writes join those of the
root, and its calls become edges of a graph.  The body of a method may be out of reach: that ends
the search if the backend is gone, and otherwise leaves the method out.
-/

namespace SymbolAtlas

/-- Why the body of a method cannot be fetched. -/
inductive Outage where
  | backendGone
  | unreadable
  deriving DecidableEq, Repr

/-- The failure that a lost backend is reported by. -/
def Outage.failure : Failure :=
  .reported .backendUnavailable "backend went away" []

structure Dependencies where
  found : Classification := .empty
  visited : Nat := 0
  deepest : Nat := 0
  /-- The calls of each classified method. -/
  edges : Reach.Links := []
  /-- The displays of the methods that were left out. -/
  skipped : List String := []
  deriving Inhabited

namespace Dependencies

/-- The distinct calls between ids, each from its caller to its callee. -/
def arrows (d : Dependencies) : List (String × String) :=
  (d.edges.flatMap fun (caller, callees) => callees.map fun callee => (caller, callee)).eraseDups

def edgeCount (d : Dependencies) : Nat :=
  d.arrows.length

/-- Some method is reached again along its own calls. -/
def isCyclic (d : Dependencies) : Bool :=
  d.edges.any fun (caller, _) => (Reach.explore d.edges [caller]).contains caller

def visit (d : Dependencies) (level : Nat) : Dependencies :=
  { d with visited := d.visited + 1, deepest := max d.deepest level }

/-- The classification of a method joins the others. -/
def add (d : Dependencies) (method : Symbol) (c : Classification) : Dependencies :=
  { d with
    found := d.found.merge c
    edges := d.edges ++ [(method.id, c.calls.map Symbol.id)] }

def skip (d : Dependencies) (method : Symbol) : Dependencies :=
  { d with skipped := d.skipped ++ [method.display] }

end Dependencies

/-- The calls on a level above the depth that are met there first, in the order of their displays. -/
def firstMet (depth : Number) (level : Nat) (met calls : List Symbol) : List Symbol :=
  if (Number.whole level).lt depth then
    (calls.filter fun callee => !met.contains callee).mergeSort Symbol.precedes
  else []

namespace Snapshot

/-- Visits the methods of a queue, each with its level.  `bodies` are those not fetched yet, and
`met` are the methods that have been in the queue. -/
def followCalls (s : Snapshot) (accessors : Bool) (outage : Symbol → Option Outage)
    (depth : Number) (bodies : List (String × Operation)) (queue : List (Symbol × Nat))
    (met : List Symbol) (d : Dependencies) : Attempt Dependencies :=
  match queue with
  | [] => .ok d
  | (method, level) :: rest =>
      match outage method with
      | some .backendGone => .error (.failure Outage.failure)
      | some .unreadable =>
          s.followCalls accessors outage depth bodies rest met ((d.visit level).skip method)
      | none =>
          match _h : Table.find? method.id bodies with
          | none => s.followCalls accessors outage depth bodies rest met (d.visit level)
          | some body =>
              let c := s.classifyTree accessors (some body)
              let new := firstMet depth level met c.calls
              s.followCalls accessors outage depth (Table.without method.id bodies)
                (rest ++ new.map fun callee => (callee, level + 1)) (met ++ new)
                ((d.visit level).add method c)
termination_by (bodies.length, queue.length)
decreasing_by
  · exact Prod.Lex.right _ (Nat.lt_succ_self _)
  · exact Prod.Lex.right _ (Nat.lt_succ_self _)
  · exact Prod.Lex.left _ _ (Table.length_without_lt _h)

/-- The dependencies of a method down to a depth of at least one, and its callers if wanted. -/
def dependenciesOf (s : Snapshot) (accessors : Bool) (outage : Symbol → Option Outage)
    (deadline : Deadline) (root : Symbol) (depth : Number) (withCallers : Bool) :
    Attempt (Dependencies × Option (List Caller)) := do
  deadline.check
  let d ← s.followCalls accessors outage (Number.greater (.whole 1) depth) s.tables.bodies.entries
    [(root, 1)] [root] {}
  pure (d, if withCallers then some (s.callersOf root) else none)

end Snapshot
end SymbolAtlas
