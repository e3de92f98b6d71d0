import SymbolAtlas.Report.Basic
import SymbolAtlas.Tool.Answer

/-!
# Reporting answers

The answer of a tool is a record that says whether the tool succeeded, followed by what it found
out or by its failure.  Of a failure only those fields are shown that have a value.
-/

namespace SymbolAtlas
namespace Report

open Value (record)

def loadedWorkspace (w : LoadedWorkspace) : List (String × Value) :=
  [ ("workspace", .text w.name), ("index_path", .text w.indexPath), ("root", .text w.root),
    ("types", count w.size.types), ("symbols", count w.size.symbols),
    ("method_bodies", count w.size.bodies), ("generation", count w.generation) ]

def description (d : Description) : List (String × Value) :=
  [ ("symbol", symbol d.symbol), ("base_type", optional symbol d.base),
    ("interfaces", optional sortedSymbols d.interfaces),
    ("property_accessors", optional (each symbol) d.accessors) ]

def reference (r : Reference) : Value :=
  record (placeFields (some r.location) ++ [("text", .text r.text)])

def referenceList (r : ReferenceList) : List (String × Value) :=
  [("symbol", symbol r.symbol), ("references", each reference r.references.items)] ++
    pageFields r.references

def caller (c : Caller) : Value :=
  record
    [ ("caller", symbol c.method), ("is_direct", .bool c.isDirect),
      ("call_sites", each location c.callSites) ]

def statistics (d : Dependencies) : Value :=
  record
    [ ("methods_visited", count d.visited), ("max_level_reached", count d.deepest),
      ("call_edges", count d.edgeCount), ("is_cyclic", .bool d.isCyclic),
      ("skipped_methods", count d.skipped.length) ]

def dependencyReport (d : DependencyReport) : List (String × Value) :=
  [ ("symbol", symbol d.method), ("depth", .ofNumber d.depth), ("calls", each symbol d.calls.items),
    ("reads", sortedSymbols d.found.found.reads), ("writes", sortedSymbols d.found.found.writes),
    ("callers", optional (each caller) d.callers), ("stats", statistics d.found) ] ++
    pageFields d.calls

mutual

def tree : DescendantTree → Value
  | .node type children =>
      record [("symbol", symbol type), ("children", .list (trees children))]

def trees : List DescendantTree → List Value
  | [] => []
  | t :: rest => tree t :: trees rest

end

def overriding (entry : Symbol × List Symbol) : Value :=
  record [("member", symbol entry.1), ("overrides", each symbol entry.2)]

def hierarchyReport (r : HierarchyReport) : List (String × Value) :=
  let shownIf (condition : Bool) (symbols : List Symbol) : Value :=
    if condition then each symbol symbols else .null
  let h := r.hierarchy
  [ ("type", symbol h.root), ("direction", .text r.view.direction.text),
    ("max_depth", .ofNumber r.maxDepth), ("ancestors", shownIf r.view.direction.goesUp h.ancestors),
    ("interfaces", shownIf r.view.withInterfaces h.interfaces),
    ("descendants", each symbol r.descendants.items), ("descendants_tree", optional tree h.tree),
    ("overrides", optional (each overriding) h.overrides) ] ++
    pageFields r.descendants

def implementationList (i : ImplementationList) : List (String × Value) :=
  [ ("target", symbol i.target), ("implementations", each symbol i.implementations.items),
    ("derived_interfaces", optional (each symbol) i.extensions) ] ++
    pageFields i.implementations

def definition (d : Definition) : List (String × Value) :=
  [ ("symbol", symbol d.symbol), ("definition", symbol d.definition),
    ("is_source_definition", .bool d.isSource), ("is_from_metadata", .bool d.isMetadata) ]

def typeDescription (t : TypeDescription) : List (String × Value) :=
  [ ("type", symbol t.type), ("base_type", optional symbol t.base),
    ("interfaces", sortedSymbols t.interfaces), ("members", each member t.members.items) ] ++
    pageFields t.members

def answerFields : Answer → List (String × Value)
  | .workspace w => loadedWorkspace w
  | .description d => description d
  | .references r => referenceList r
  | .dependencies d => dependencyReport d
  | .hierarchy h => hierarchyReport h
  | .implementations i => implementationList i
  | .definition d => definition d
  | .type t => typeDescription t

def answer (a : Answer) : Value :=
  record (("success", .bool true) :: answerFields a)

/-- A failure as a record.  An ambiguous target comes with its candidates, every other failure with
its details. -/
def failureFields (f : Failure) : List (String × Value) :=
  let main := [("code", .text f.code.text), ("message", .text f.message)]
  match f with
  | .ambiguous _ candidates hint =>
      main ++ [("candidates", each symbol candidates)] ++ hint.toList.map fun h => ("hint", .text h)
  | f => if f.details.isEmpty then main else main ++ [("details", .mapping f.details)]

def refusal (fields : List (String × Value)) : Value :=
  record [("success", .bool false), ("error", record fields)]

end Report
end SymbolAtlas
