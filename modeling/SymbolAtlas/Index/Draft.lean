import SymbolAtlas.Failure
import SymbolAtlas.Operation
import SymbolAtlas.Table
import SymbolAtlas.Text.Cut

/-!
# Tables of a workspace and their draft

A loaded workspace is a set of tables between symbol ids.  While a document is read they are a
draft: types and members come in one by one, and what refers to other symbols waits until all
declarations are known.  Every change of a draft is one of the operations of this module.
-/

namespace SymbolAtlas

/-- The extent of a declaration, both ends included. -/
structure Span where
  file : String
  startLine : Int
  startColumn : Int
  endLine : Int
  endColumn : Int
  deriving DecidableEq, Repr, Inhabited

/-- The column that a span without an end column reaches to. -/
def Span.openEnd : Int := 1000000000

structure Tables where
  /-- All symbols by their ids, in the order of their declaration. -/
  symbols : Table Symbol := .empty
  /-- The ids of types by their qualified names. -/
  typeNames : Table String := .empty
  /-- The member ids of a type in the order of their declaration. -/
  members : Table (List String) := .empty
  /-- The id of the symbol around a symbol. -/
  containing : Table String := .empty
  baseTypes : Table String := .empty
  declaredInterfaces : Table (List String) := .empty
  /-- Getter and setter of a property. -/
  accessors : Table (Option String × Option String) := .empty
  /-- The member that a member overrides. -/
  overridden : Table String := .empty
  /-- The interface members that a member names as implemented. -/
  explicitImplementations : Table (List String) := .empty
  bodies : Table Operation := .empty
  spans : Table Span := .empty
  explicitReferences : Table (List Location) := .empty
  /-- The source type that a metadata type stands for. -/
  sourceDefinitions : Table String := .empty
  sourceLines : Table (List String) := .empty
  deriving Inhabited

/-- A body that waits until all symbols are declared: its method, the file around it, its text. -/
structure PendingBody where
  method : String
  file : Option String
  body : Value

structure Draft extends Tables where
  /-- The types that may get further members when a body mentions them. -/
  metadataTypes : List String := []
  pendingLinks : List (String × Value) := []
  pendingMembers : List (String × Value) := []
  pendingBodies : List PendingBody := []
  deriving Inhabited

/-- A step of reading a document: it may change the draft, or end with a fault. -/
abbrev Building := StateT Draft Attempt

namespace Tables

def symbolsOf (t : Tables) (ids : List String) : List Symbol :=
  ids.filterMap t.symbols.get?

/-- The members of a type in the order of their declaration. -/
def membersOf (t : Tables) (type : String) : List Symbol :=
  t.symbolsOf (t.members.listAt type)

end Tables

namespace Draft

def empty : Draft := {}

/-- Nested types are found under their names with dots as well, unless these are taken. -/
def registerTypeName (d : Draft) (qualified id : String) : Draft :=
  let names := d.typeNames.insert qualified id
  let names :=
    if qualified.toList.contains '+' then names.insertNew (Text.exchange '+' '.' qualified) id
    else names
  { d with typeNames := names }

def putType (d : Draft) (qualified : String) (symbol : Symbol) (isMetadata : Bool) : Draft :=
  let d := { d with symbols := d.symbols.insert symbol.id symbol }
  let d := d.registerTypeName qualified symbol.id
  { d with
    members := d.members.insert symbol.id []
    metadataTypes := if isMetadata then d.metadataTypes ++ [symbol.id] else d.metadataTypes }

def putSpan (d : Draft) (id : String) (span : Option Span) : Draft :=
  match span with
  | some span => { d with spans := d.spans.insert id span }
  | none => d

def putMember (d : Draft) (type : String) (symbol : Symbol) (span : Option Span) : Draft :=
  let d :=
    { d with
      symbols := d.symbols.insert symbol.id symbol
      members := d.members.append type symbol.id
      containing := d.containing.insert symbol.id type }
  d.putSpan symbol.id span

def putContaining (d : Draft) (id container : String) : Draft :=
  { d with containing := d.containing.insert id container }

def putAccessors (d : Draft) (property : String) (getter setter : Option String) : Draft :=
  { d with accessors := d.accessors.insert property (getter, setter) }

def putBase (d : Draft) (type base : String) : Draft :=
  { d with baseTypes := d.baseTypes.insert type base }

def putInterfaces (d : Draft) (type : String) (interfaces : List String) : Draft :=
  { d with declaredInterfaces := d.declaredInterfaces.insert type interfaces }

def putSourceDefinition (d : Draft) (type source : String) : Draft :=
  { d with sourceDefinitions := d.sourceDefinitions.insert type source }

def putOverridden (d : Draft) (member target : String) : Draft :=
  { d with overridden := d.overridden.insert member target }

def putImplementations (d : Draft) (member : String) (targets : List String) : Draft :=
  { d with explicitImplementations := d.explicitImplementations.insert member targets }

def putBody (d : Draft) (method : String) (body : Operation) : Draft :=
  { d with bodies := d.bodies.insert method body }

def putReferences (d : Draft) (id : String) (locations : List Location) : Draft :=
  { d with
    explicitReferences :=
      d.explicitReferences.insert id (d.explicitReferences.listAt id ++ locations) }

def putSourceLines (d : Draft) (file : String) (lines : List String) : Draft :=
  { d with sourceLines := d.sourceLines.insert file lines }

def deferLink (d : Draft) (type : String) (data : Value) : Draft :=
  { d with pendingLinks := d.pendingLinks ++ [(type, data)] }

def deferMember (d : Draft) (member : String) (data : Value) : Draft :=
  { d with pendingMembers := d.pendingMembers ++ [(member, data)] }

/-- A body that is null is none. -/
def deferBody (d : Draft) (method : String) (file : Option String) (data : Value) : Draft :=
  let body := data.field "body"
  if body.isNull then d else { d with pendingBodies := d.pendingBodies ++ [⟨method, file, body⟩] }

end Draft

namespace Building

def refuse {α : Type} (cause : InvalidInput) : Building α :=
  throw (.failure (.invalidInput cause))

def refuseIf (holds : Bool) (cause : InvalidInput) : Building Unit :=
  if holds then refuse cause else pure ()

/-- Adds a member, whose id must be new. -/
def addMember (type : String) (symbol : Symbol) (span : Option Span) : Building Unit := do
  let d ← get
  refuseIf (d.symbols.contains symbol.id) (.memberDeclaredTwice symbol.display)
  set (d.putMember type symbol span)

def forAll {α β : Type} (step : α → Building β) : List α → Building (List β)
  | [] => pure []
  | a :: rest => do
      let b ← step a
      let bs ← forAll step rest
      pure (b :: bs)

def forEach {α : Type} (step : α → Building Unit) : List α → Building Unit
  | [] => pure ()
  | a :: rest => do
      step a
      forEach step rest

end Building
end SymbolAtlas
