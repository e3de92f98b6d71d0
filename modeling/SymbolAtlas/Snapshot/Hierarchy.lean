import SymbolAtlas.Snapshot.Basic

/-!
# Type hierarchy of a snapshot

Bases, interfaces and overrides link types and members upwards; the queries of this module follow
the links in either direction.  A type implements the interfaces that it or one of its bases
declares and all that these extend, and a member implements an interface member either by saying
so or by having its name and parameter types.
-/

namespace SymbolAtlas
namespace Snapshot

/-- The bases of a type, nearest first; a type in a cycle of bases ends its own chain. -/
def baseChain (s : Snapshot) (type : String) : List String :=
  Reach.explore (Reach.single s.tables.baseTypes) [type]

/-- All interfaces of a type: declared, inherited and extended. -/
def interfaceIds (s : Snapshot) (type : String) : List String :=
  (Reach.explore s.tables.declaredInterfaces.entries (type :: s.baseChain type)).filter (· != type)

def overriddenChain (s : Snapshot) (member : String) : List String :=
  Reach.explore (Reach.single s.tables.overridden) [member]

def baseOf? (s : Snapshot) (type : Symbol) : Option Symbol :=
  (s.tables.baseTypes.get? type.id).bind s.symbol?

def interfacesOf (s : Snapshot) (type : Symbol) (isTransitive : Bool) : List Symbol :=
  s.symbolsOf <|
    if isTransitive then s.interfaceIds type.id else s.tables.declaredInterfaces.listAt type.id

/-- From an interface to the interfaces that declare it, in the order of their declaration. -/
def extensionLinks (s : Snapshot) : Reach.Links :=
  (s.tables.declaredInterfaces.entries.foldl
    (fun (r : Table (List String)) (type, interfaces) =>
      if (s.symbol? type).any fun t => t.typeKind == some .interface then
        interfaces.foldl (fun r interface => r.append interface type) r
      else r)
    .empty).entries

def derivedTypes (s : Snapshot) (type : Symbol) (isTransitive : Bool) : List Symbol :=
  s.sorted (Reach.targets (Reach.reversed s.tables.baseTypes) type.id isTransitive)

def derivedInterfaces (s : Snapshot) (type : Symbol) (isTransitive : Bool) : List Symbol :=
  s.sorted (Reach.targets s.extensionLinks type.id isTransitive)

def overridesOf (s : Snapshot) (member : Symbol) : List Symbol :=
  s.sorted (Reach.targets (Reach.reversed s.tables.overridden) member.id true)

/-- The classes and structs that have an interface. -/
def implementers (s : Snapshot) (interface : String) : List Symbol :=
  s.sorted (s.tables.typeNames.values.filter fun type =>
    ((s.symbol? type).any fun t => t.typeKind.any TypeKind.isConcrete) &&
      (s.interfaceIds type).contains interface)

/-- The first member of the nearest type that has the signature of an interface member and does not
say what it implements. -/
def matchingMember? (s : Snapshot) (signature : String × List String) (owners : List String) :
    Option String :=
  owners.findSome? fun owner =>
    ((s.tables.membersOf owner).find? fun m =>
      m.signature == signature && !s.tables.explicitImplementations.contains m.id).map Symbol.id

def memberImplementations (s : Snapshot) (member : Symbol) : List Symbol :=
  match s.tables.containing.get? member.id with
  | none => []
  | some interface =>
      let explicit := s.tables.explicitImplementations.keysWhere (·.contains member.id)
      let matched := (s.implementers interface).filterMap fun type =>
        s.matchingMember? member.signature (type.id :: s.baseChain type.id)
      s.sorted (explicit ++ matched)

/-- The types that implement an interface, or the members that implement one of its members. -/
def implementationsOf (s : Snapshot) (symbol : Symbol) : List Symbol :=
  if symbol.kind == .namedType then s.implementers symbol.id else s.memberImplementations symbol

/-- The interface members that a member implements: those that it names, or those of its type's
interfaces with its signature. -/
def implementedMembers (s : Snapshot) (member : Symbol) : List Symbol :=
  match s.tables.explicitImplementations.listAt member.id with
  | [] =>
      match s.tables.containing.get? member.id with
      | none => []
      | some type =>
          (s.interfaceIds type).flatMap fun interface =>
            (s.tables.membersOf interface).filter fun m => m.signature == member.signature
  | named => s.symbolsOf named

end Snapshot
end SymbolAtlas
