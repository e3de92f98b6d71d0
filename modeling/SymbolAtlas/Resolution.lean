import SymbolAtlas.Snapshot.Hierarchy
import SymbolAtlas.Target

/-!
# Resolution

A target stands for one symbol, for several, or for none.  Symbols, methods and types are resolved
by rules of their own: a type's name stands for its constructor where a method is wanted, and a
member's name for its type where a type is wanted.  A name that is not found as written is looked
up among all declarations whose path ends with it.
-/

namespace SymbolAtlas

inductive Resolution where
  | resolved (symbol : Symbol)
  | ambiguous (candidates : List Symbol) (owner : Option Symbol)
  | notFound (absence : Absence)
  deriving DecidableEq

namespace Resolution

/-- The first of some methods whose parameters match a list; without a list, the only method. -/
def choose? (methods : List Symbol) (list : Option String) : Option Symbol :=
  match list, methods with
  | none, [method] => some method
  | none, _ => none
  | some list, methods =>
      let wanted := Signature.parameters list
      methods.find? fun m => Signature.typesMatch wanted m.parameterTypes

/-- The only candidate, all of several, or none. -/
def ofCandidates (candidates : List Symbol) (absence : Absence) : Resolution :=
  match candidates with
  | [] => .notFound absence
  | [symbol] => .resolved symbol
  | several => .ambiguous several none

def noOverload (owner : Symbol) (member : String) (list : Option String) : Resolution :=
  .notFound (.noOverload member list owner.display)

end Resolution

namespace Snapshot

open Resolution

def constructorsOf (s : Snapshot) (type : Symbol) : List Symbol :=
  (s.membersOf type).filter Symbol.isConstructor

def explicitConstructorsOf (s : Snapshot) (type : Symbol) : List Symbol :=
  (s.constructorsOf type).filter fun c => !c.isImplicit

/-- The declared constructors of a type, or else its implicit one. -/
def callableConstructorsOf (s : Snapshot) (type : Symbol) : List Symbol :=
  match s.explicitConstructorsOf type with
  | [] => s.constructorsOf type
  | explicit => explicit

/-- The members that a name stands for within a type. -/
def membersCalled (s : Snapshot) (owner : Symbol) (name : String) : List Symbol :=
  if name = Signature.constructorName then s.callableConstructorsOf owner
  else s.membersNamed owner name

/-- A path ends with a dotted name. -/
def pathEndsWith (path name : String) : Bool :=
  path == name || (Text.beforeEnding? ('.' :: name.toList) path.toList).isSome

/-- The declarations whose path ends with a name and whose parameters match. -/
def declarationsCalled (s : Snapshot) (base : String) (list : Option String) (methodsOnly : Bool) :
    List Symbol :=
  let simple := ((Signature.splitMember? base).map Prod.snd).getD base
  let found := (s.declarationsNamed simple).filter fun d => pathEndsWith d.path base
  let found := if methodsOnly then found.filter fun d => d.kind == .method else found
  match list with
  | some list =>
      let wanted := Signature.parameters list
      found.filter fun d => Signature.typesMatch wanted d.parameterTypes
  | none => found

def resolveDeclaration (s : Snapshot) (base : String) (list : Option String)
    (methodsOnly : Bool) : Resolution :=
  ofCandidates (s.declarationsCalled base list methodsOnly) (.noSymbol base list)

/-- What the members of a type that have a name come to, if there are any. -/
def resolveMembers? (s : Snapshot) (owner : Symbol) (name : String) (list : Option String) :
    Option Resolution :=
  match s.membersCalled owner name with
  | [] => none
  | members =>
      match choose? members list with
      | some chosen => some (.resolved chosen)
      | none =>
          some (if list.isSome then noOverload owner name list else .ambiguous members none)

/-- The owner and the name of a member, if the owner is a known type. -/
def ownerAndName? (s : Snapshot) (base : String) : Option (Symbol × String) := do
  let (type, member) ← Signature.splitMember? base
  let owner ← s.typeNamed? type
  return (owner, member)

/-- A type's name with a parameter list stands for a constructor. -/
def resolveTypeName? (s : Snapshot) (base : String) (list : Option String) :
    Option Resolution := do
  let type ← s.typeNamed? base
  match list with
  | none => some (.resolved type)
  | some _ => (choose? (s.constructorsOf type) list).map .resolved

def resolveName (s : Snapshot) (name : String) : Resolution :=
  let (base, list) := Signature.split name
  let byMember := do
    let (owner, member) ← s.ownerAndName? base
    s.resolveMembers? owner member list
  ((s.resolveTypeName? base list) <|> byMember).getD (s.resolveDeclaration base list false)

/-- Resolves a position to any symbol; an accessor counts as its property unless accessors are
wanted. -/
def resolveAt (s : Snapshot) (file : String) (p : Position) (accessors : Bool)
    (shown : String) : Resolution :=
  match s.symbolAt? file p with
  | none => .notFound (.noSymbolAt shown)
  | some symbol =>
      if symbol.isAccessor && !accessors then .resolved ((s.containerOf? symbol).getD symbol)
      else .resolved symbol

/-- What a type's name stands for where a method is wanted: its only declared constructor, even
beside ordinary methods. -/
def resolveTypeAsMethod (s : Snapshot) (type : Symbol) (list : Option String) : Resolution :=
  match list with
  | some _ =>
      match choose? (s.callableConstructorsOf type) list with
      | some chosen => .resolved chosen
      | none => noOverload type Signature.constructorName list
  | none =>
      match s.explicitConstructorsOf type with
      | [constructor] => .resolved constructor
      | constructors =>
          let methods := (s.membersOf type).filter fun m =>
            m.kind == .method && m.methodKind == some .ordinary && !m.isImplicit
          match constructors ++ methods with
          | [] => .notFound (.nothingCallable type.display)
          | candidates => .ambiguous candidates (some type)

def resolveConstructor (s : Snapshot) (owner : Symbol) (list : Option String) : Resolution :=
  let candidates := s.callableConstructorsOf owner
  match choose? candidates list with
  | some chosen => .resolved chosen
  | none =>
      if list.isSome || candidates.isEmpty then noOverload owner Signature.constructorName list
      else .ambiguous candidates (some owner)

/-- The getter of a property, or else its setter. -/
def accessorOf? (s : Snapshot) (property : Symbol) : Option Symbol :=
  let (getter, setter) := s.accessorsOf property
  getter <|> setter

/-- What a member's name comes to within a type where a method is wanted; a property stands for its
accessor. -/
def resolveMemberAsMethod? (s : Snapshot) (owner : Symbol) (name : String)
    (list : Option String) : Option Resolution :=
  if name = Signature.constructorName then some (s.resolveConstructor owner list)
  else
    let members := s.membersNamed owner name
    let accessor := members.findSome? fun m =>
      if m.kind == .property then s.accessorOf? m else none
    match accessor with
    | some accessor => some (.resolved accessor)
    | none =>
        match members.filter fun m => m.kind == .method && !m.isImplicit with
        | [] => none
        | methods =>
            match choose? methods list with
            | some chosen => some (.resolved chosen)
            | none =>
                some <|
                  if list.isSome then noOverload owner name list
                  else .ambiguous methods (some owner)

def resolveMethodName (s : Snapshot) (name : String) : Resolution :=
  let (base, list) := Signature.split name
  match s.typeNamed? base with
  | some type => s.resolveTypeAsMethod type list
  | none =>
      let byMember := do
        let (owner, member) ← s.ownerAndName? base
        s.resolveMemberAsMethod? owner member list
      byMember.getD (s.resolveDeclaration base list true)

/-- What the symbol at a position comes to where a method is wanted, if it has a say. -/
def symbolAsMethod? (s : Snapshot) (symbol : Symbol) (accessors : Bool) : Option Resolution :=
  match symbol.kind with
  | .method => some (.resolved symbol)
  | .property => if accessors then (s.accessorOf? symbol).map .resolved else none
  | .namedType => some (s.resolveTypeAsMethod symbol none)
  | _ => none

/-- Resolves a position to a method: the one at the position, or else the one around it. -/
def resolveMethodAt (s : Snapshot) (file : String) (p : Position) (accessors : Bool)
    (shown : String) : Resolution :=
  let here := (s.symbolAt? file p).bind fun symbol => s.symbolAsMethod? symbol accessors
  match here with
  | some result => result
  | none =>
      match s.enclosing? file p with
      | some method =>
          if method.kind == .method then .resolved method else .notFound (.noMethodAt shown)
      | none => .notFound (.noMethodAt shown)

/-- The type around a symbol, following each containing entry at most once; a way outwards that
comes back ends with the symbol to which it does. -/
def enclosingTypeFrom (s : Snapshot) (links : List (String × String)) (symbol : Symbol) :
    Option Symbol :=
  if symbol.kind == .namedType then some symbol
  else
    match _h : Table.find? symbol.id links with
    | none => (s.tables.containing.get? symbol.id).map fun _ => symbol
    | some container =>
        match s.symbol? container with
        | none => none
        | some next => s.enclosingTypeFrom (Table.without symbol.id links) next
termination_by links.length
decreasing_by exact Table.length_without_lt _h

/-- The type that a symbol is or lies in. -/
def enclosingType? (s : Snapshot) (symbol : Symbol) : Option Symbol :=
  s.enclosingTypeFrom s.tables.containing.entries symbol

def distinctSymbols (symbols : List Symbol) : List Symbol :=
  symbols.foldl (fun seen x => if seen.contains x then seen else seen ++ [x]) []

/-- What the resolution of a name comes to where a type is wanted. -/
def typeOfResolution (s : Snapshot) (name : String) : Resolution → Resolution
  | .notFound absence => .notFound absence
  | .resolved symbol =>
      match s.enclosingType? symbol with
      | some type => .resolved type
      | none => .notFound (.noType name)
  | .ambiguous _ (some owner) => .resolved owner
  | .ambiguous candidates none =>
      match distinctSymbols (candidates.filterMap s.enclosingType?) with
      | [] => .notFound (.noType name)
      | [type] => .resolved type
      | types => .ambiguous (types.mergeSort Symbol.precedes) none

/-- Resolves the name of a type, or of a member for its type. -/
def resolveTypeOf (s : Snapshot) (name : String) : Resolution :=
  match s.typeNamed? (Signature.split name).1 with
  | some type => .resolved type
  | none => s.typeOfResolution name (s.resolveName name)

/-- Resolves a position to the type around it. -/
def resolveTypeAt (s : Snapshot) (file : String) (p : Position) (shown : String) : Resolution :=
  match (s.symbolAt? file p).bind s.enclosingType? with
  | some type => .resolved type
  | none => .notFound (.noTypeAt shown)

/-- The file of a position, which has to be a text. -/
def fileOfTarget : Value → Attempt String
  | .text file => .ok file
  | _ => misused .notAPath

def resolve (s : Snapshot) (target : Target) (accessors : Bool) : Attempt Resolution :=
  match target with
  | .named name => .ok (s.resolveName name)
  | .at file p => (fileOfTarget file).map fun f => s.resolveAt f p accessors target.text

def resolveMethod (s : Snapshot) (target : Target) (accessors : Bool) : Attempt Resolution :=
  match target with
  | .named name => .ok (s.resolveMethodName name)
  | .at file p => (fileOfTarget file).map fun f => s.resolveMethodAt f p accessors target.text

def resolveType (s : Snapshot) (target : Target) : Attempt Resolution :=
  match target with
  | .named name => .ok (s.resolveTypeOf name)
  | .at file p => (fileOfTarget file).map fun f => s.resolveTypeAt f p target.text

end Snapshot

namespace Resolution

def methodHint : String :=
  "Try fully_qualified_name: \"My.Namespace.Type..ctor\" or \"My.Namespace.Type.MethodName\" " ++
    "(optionally with signature, e.g. \"My.Namespace.Type.MethodName(int, string)\")."

def symbolHint : String :=
  "Add a parameter list to pick an overload, e.g. \"My.Namespace.Type.MethodName(int)\"."

/-- The one symbol that a target stands for. -/
def require (result : Resolution) (target : Target) (hint : String) : Attempt Symbol :=
  match result with
  | .resolved symbol => .ok symbol
  | .ambiguous candidates (some owner) =>
      .error (.failure (.ambiguous (.membersOf target.text owner.display) candidates (some hint)))
  | .ambiguous candidates none =>
      .error (.failure
        (.ambiguous (.symbols target.text candidates.length) candidates (some hint)))
  | .notFound absence => .error (.failure (.notFound absence))

end Resolution
end SymbolAtlas
