import SymbolAtlas.CallGraph
import SymbolAtlas.Inheritance
import SymbolAtlas.Page.Basic

/-!
# Answers of tools

What the tools find out, one form for each of them.  Long lists come as a page; everything beside
them is complete.
-/

namespace SymbolAtlas

/-- A workspace that has just been loaded. -/
structure LoadedWorkspace where
  name : String
  indexPath : String
  root : String
  size : Snapshot.Size
  generation : Nat

/-- A symbol with its neighbours: base and interfaces of a type, accessors of a property. -/
structure Description where
  symbol : Symbol
  base : Option Symbol := none
  interfaces : Option (List Symbol) := none
  accessors : Option (List Symbol) := none

structure ReferenceList where
  symbol : Symbol
  references : Page Reference

/-- What a method depends on, its calls by pages, and who calls it if that was asked for. -/
structure DependencyReport where
  method : Symbol
  depth : Number
  calls : Page Symbol
  found : Dependencies
  callers : Option (List Caller)

/-- The hierarchy around a type, its descendants by pages. -/
structure HierarchyReport where
  hierarchy : Hierarchy
  view : HierarchyView
  maxDepth : Number
  descendants : Page Symbol

structure ImplementationList where
  target : Symbol
  implementations : Page Symbol
  extensions : Option (List Symbol)

/-- The definition of a symbol: its declaration in source, or itself if there is none. -/
structure Definition where
  symbol : Symbol
  definition : Symbol
  /-- A declaration in source was found. -/
  isSource : Bool
  /-- Nothing but metadata is known. -/
  isMetadata : Bool

structure TypeDescription where
  type : Symbol
  base : Option Symbol
  interfaces : List Symbol
  members : Page Symbol

inductive Answer where
  | workspace (w : LoadedWorkspace)
  | description (d : Description)
  | references (r : ReferenceList)
  | dependencies (d : DependencyReport)
  | hierarchy (h : HierarchyReport)
  | implementations (i : ImplementationList)
  | definition (d : Definition)
  | type (t : TypeDescription)

end SymbolAtlas
