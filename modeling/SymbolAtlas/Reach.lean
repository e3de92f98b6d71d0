import SymbolAtlas.Table

/-!
# Reachability

Links lead from an id to a list of ids.  Exploring follows them breadth first and lists every id
that is reached, in the order in which it is first met; a start is listed only if some link leads
back to it.  The links of an id are used up when it is expanded, which is why the search ends on
cyclic links too.
-/

namespace SymbolAtlas
namespace Reach

/-- What leads from an id to others. -/
abbrev Links := List (String × List String)

def fresh (found : List String) : List String → List String
  | [] => []
  | id :: rest =>
      if found.contains id then fresh found rest else id :: fresh (id :: found) rest

/-- Expands the ids of a queue; `found` lists what has been reached so far. -/
def exploreFrom (links : Links) (queue found : List String) : List String :=
  match queue with
  | [] => found
  | id :: rest =>
      match _h : Table.find? id links with
      | none => exploreFrom links rest found
      | some next =>
          let new := fresh found next
          exploreFrom (Table.without id links) (rest ++ new) (found ++ new)
termination_by (links.length, queue.length)
decreasing_by
  · exact Prod.Lex.right _ (Nat.lt_succ_self _)
  · exact Prod.Lex.left _ _ (Table.length_without_lt _h)

def explore (links : Links) (starts : List String) : List String :=
  exploreFrom links starts []

/-- A table with one target per id as links. -/
def single (t : Table String) : Links :=
  t.entries.map fun (id, target) => (id, [target])

/-- The links of a table with one target per id, turned round. -/
def reversed (t : Table String) : Links :=
  (t.entries.foldl
    (fun (r : Table (List String)) (id, target) => r.append target id) .empty).entries

/-- What is reached from a start other than itself. -/
def beyond (links : Links) (start : String) : List String :=
  (explore links [start]).filter (· != start)

/-- The targets of an id, or everything reached from it. -/
def targets (links : Links) (start : String) (isTransitive : Bool) : List String :=
  if isTransitive then beyond links start else (Table.find? start links).getD []

end Reach
end SymbolAtlas
