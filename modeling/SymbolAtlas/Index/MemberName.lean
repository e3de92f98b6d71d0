import SymbolAtlas.Index.Declaration

/-!
# Members by name

Bodies, overrides and references name members as `Type.Member`, perhaps with a parameter list.  A
name that fits exactly one member stands for it.  Types that a document does not declare are taken
from metadata, and a metadata type gets a member for every name that it does not have yet.
-/

namespace SymbolAtlas
namespace MemberName

open Building

/-- What a member has in common with its metadata type. -/
def metadataSymbol (type : Symbol) (id name : String) (kind : SymbolKind) (display : String) :
    Symbol :=
  { id := id
    name := name
    kind := kind
    display := display
    containingType := some type.display
    containingNamespace := type.containingNamespace }

def positionalParameters (i : Nat) : List String → List Parameter
  | [] => []
  | type :: rest => ⟨Entry.positionalName i, type, .byValue⟩ :: positionalParameters (i + 1) rest

/-- A metadata method; without a parameter list it takes an object for every argument. -/
def metadataMethod (type : Symbol) (qualified name : String) (list : Option String)
    (arguments : Option Nat) : Symbol :=
  let types :=
    match list with
    | some list => Signature.parameters list
    | none => List.replicate (arguments.getD 0) "object"
  let parameters := positionalParameters 0 types
  let isConstructor := name == Signature.constructorName
  let shown := if isConstructor then type.name else name
  { metadataSymbol type (Entry.methodId qualified name parameters) name .method
      (Entry.methodDisplay type.display shown types) with
    methodKind := some (if isConstructor then .constructor else .ordinary)
    parameters := parameters }

def metadataAccessor (type : Symbol) (qualified name keyword : String) (kind : MethodKind) :
    Symbol :=
  { metadataSymbol type ("M:" ++ qualified ++ "." ++ keyword ++ "_" ++ name)
      (keyword ++ "_" ++ name) .method (type.display ++ "." ++ name ++ "." ++ keyword) with
    methodKind := some kind
    parameters := if kind == .propertySet then [⟨"value", "object", .byValue⟩] else [] }

/-- The letter that ids of a kind begin with. -/
def kindLetter : SymbolKind → String
  | .namedType => "T"
  | .method => "M"
  | .property => "P"
  | .field => "F"
  | .event => "E"

def addMetadataAccessor (type property accessor : Symbol) : Building Unit := do
  addMember type.id accessor none
  modify fun d => d.putContaining accessor.id property.id

def metadataVariable (type : Symbol) (qualified name : String) (kind : SymbolKind) : Symbol :=
  metadataSymbol type (kindLetter kind ++ ":" ++ qualified ++ "." ++ name) name kind
    (type.display ++ "." ++ name)

def addMetadataAccessors (type property : Symbol) (qualified : String) : Building Unit := do
  let getter := metadataAccessor type qualified property.name "get" .propertyGet
  let setter := metadataAccessor type qualified property.name "set" .propertySet
  addMetadataAccessor type property getter
  addMetadataAccessor type property setter
  modify fun d => d.putAccessors property.id (some getter.id) (some setter.id)

def declareMetadata (type : Symbol) (qualified name : String) (list : Option String)
    (kind : SymbolKind) (arguments : Option Nat) : Building Symbol :=
  match kind with
  | .method => do
      let symbol := metadataMethod type qualified name list arguments
      addMember type.id symbol none
      pure symbol
  | kind => do
      let symbol := metadataVariable type qualified name kind
      addMember type.id symbol none
      if kind == .property then addMetadataAccessors type symbol qualified else pure ()
      pure symbol

/-- The members that a name, a kind, a parameter list and, among several, a number of arguments
leave. -/
def candidates (members : List Symbol) (name : String) (kind : Option SymbolKind)
    (list : Option String) (arguments : Option Nat) : List Symbol :=
  let named := members.filter fun m => m.name == name && (kind.isNone || kind == some m.kind)
  match list, arguments with
  | some list, _ =>
      let wanted := Signature.parameters list
      named.filter fun m => Signature.typesMatch wanted m.parameterTypes
  | none, some n =>
      if 1 < named.length then named.filter fun m => m.parameters.length == n else named
  | none, none => named

def resolve (reference place : String) (kind : Option SymbolKind) (arguments : Option Nat) :
    Building Symbol := do
  let parts := Signature.split reference
  match Signature.splitMember? parts.1 with
  | none => refuse (.notAMemberReference reference place)
  | some (typeName, name) =>
      let type ← Declaration.ensureType typeName .classType
      let d ← get
      match candidates (d.membersOf type) name kind parts.2 arguments with
      | [found] => pure found
      | _ :: _ => refuse (.severalOverloads reference place)
      | [] =>
          if d.metadataTypes.contains type then
            match d.symbols.get? type with
            | some symbol =>
                declareMetadata symbol (String.ofList (type.toList.drop 2)) name parts.2
                  (kind.getD .method) arguments
            | none => throw (.misuse .unknownKey)
          else refuse (.noSuchMember reference place typeName)

end MemberName
end SymbolAtlas
