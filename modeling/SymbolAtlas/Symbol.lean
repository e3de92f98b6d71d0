import SymbolAtlas.Value.Basic
import SymbolAtlas.Value.Equality
import SymbolAtlas.Value.Text

/-!
# Symbols

A symbol is a type or a member of a type, with everything that is known about it.  Its id is a
letter for its kind, a colon and its qualified name, methods adding their canonical parameter
types.  A symbol is in source when it has a location; all others come from metadata alone.
-/

namespace SymbolAtlas

inductive SymbolKind where
  | namedType
  | method
  | property
  | field
  | event
  deriving DecidableEq, Repr, Inhabited

inductive TypeKind where
  | classType
  | structType
  | interface
  | enumeration
  | delegate
  deriving DecidableEq, Repr

inductive MethodKind where
  | ordinary
  | constructor
  | staticConstructor
  | propertyGet
  | propertySet
  deriving DecidableEq, Repr

inductive Passing where
  | byValue
  | byRef
  | out
  | input
  deriving DecidableEq, Repr, Inhabited

def SymbolKind.text : SymbolKind → String
  | .namedType => "NamedType"
  | .method => "Method"
  | .property => "Property"
  | .field => "Field"
  | .event => "Event"

def TypeKind.text : TypeKind → String
  | .classType => "Class"
  | .structType => "Struct"
  | .interface => "Interface"
  | .enumeration => "Enum"
  | .delegate => "Delegate"

/-- Classes and structs have members with bodies and may implement interfaces. -/
def TypeKind.isConcrete : TypeKind → Bool
  | .classType => true
  | .structType => true
  | _ => false

def MethodKind.text : MethodKind → String
  | .ordinary => "Ordinary"
  | .constructor => "Constructor"
  | .staticConstructor => "StaticConstructor"
  | .propertyGet => "PropertyGet"
  | .propertySet => "PropertySet"

def Passing.text : Passing → String
  | .byValue => "none"
  | .byRef => "ref"
  | .out => "out"
  | .input => "in"

def Passing.all : List Passing :=
  [.byValue, .byRef, .out, .input]

def Passing.ofText? (s : String) : Option Passing :=
  Passing.all.find? fun p => p.text == s

/-- The callee may assign what is passed this way. -/
def Passing.writes : Passing → Bool
  | .byRef => true
  | .out => true
  | _ => false

/-- A place in a source file; lines and columns count from one. -/
structure Location where
  file : String
  line : Int
  column : Int
  deriving DecidableEq, Repr, Inhabited

def Location.text (l : Location) : String :=
  l.file ++ ":" ++ Number.wholeText l.line ++ ":" ++ Number.wholeText l.column

/-- Locations are ordered by file, then line, then column. -/
def Location.precedes (a b : Location) : Bool :=
  if a.file = b.file then
    if a.line = b.line then decide (a.column ≤ b.column) else decide (a.line < b.line)
  else Text.precedes a.file b.file

structure Parameter where
  name : String
  type : String
  passing : Passing := .byValue
  deriving DecidableEq, Repr, Inhabited

structure Symbol where
  id : String
  name : String
  kind : SymbolKind
  display : String
  location : Option Location := none
  containingType : Option String := none
  /-- The namespace as the document gives it, whatever its shape. -/
  containingNamespace : Value := .null
  typeKind : Option TypeKind := none
  methodKind : Option MethodKind := none
  parameters : List Parameter := []
  /-- The type of a member, for a method the type it returns. -/
  memberType : Option String := none
  accessibility : String := "Public"
  isStatic : Bool := false
  isVirtual : Bool := false
  isAbstract : Bool := false
  isOverride : Bool := false
  isSealed : Bool := false
  isImplicit : Bool := false
  deriving DecidableEq, Inhabited

namespace Symbol

def inSource (s : Symbol) : Bool :=
  s.location.isSome

def isConstructor (s : Symbol) : Bool :=
  s.methodKind == some .constructor || s.methodKind == some .staticConstructor

def isAccessor (s : Symbol) : Bool :=
  s.methodKind == some .propertyGet || s.methodKind == some .propertySet

def isOverridable (s : Symbol) : Bool :=
  s.isVirtual || s.isAbstract || s.isOverride

def parameterTypes (s : Symbol) : List String :=
  s.parameters.map Parameter.type

/-- What members of different types are matched by: the name and the parameter types as written. -/
def signature (s : Symbol) : String × List String :=
  (s.name, s.parameterTypes)

/-- The display form, with the place of a symbol in source. -/
def text (s : Symbol) : String :=
  match s.location with
  | some l => s.display ++ " at " ++ l.text
  | none => s.display

/-- The dotted path that partial names are compared with. -/
def path (s : Symbol) : String :=
  match s.kind, s.containingType with
  | .namedType, _ => s.display
  | _, none => s.display
  | _, some type => type ++ "." ++ s.name

/-- Symbols are listed in the order of their displays. -/
def precedes (a b : Symbol) : Bool :=
  Text.precedes a.display b.display

end Symbol
end SymbolAtlas
