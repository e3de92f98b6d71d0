import SymbolAtlas.Deadline
import SymbolAtlas.Resolution

/-!
# The hierarchy around a type

Ancestors, interfaces, descendants and overrides of one type, and the implementations of an
interface or of one of its members.  Every list may be restricted to symbols in source; the search
itself always passes through the others.  Descendants come as a flat list and as a tree, in which
no path meets a type twice and none is longer than a given depth.
-/

namespace SymbolAtlas

inductive Direction where
  | both
  | ancestors
  | descendants
  deriving DecidableEq, Repr

namespace Direction

def text : Direction → String
  | .both => "both"
  | .ancestors => "ancestors"
  | .descendants => "descendants"

def ofText? : String → Option Direction
  | "both" => some .both
  | "ancestors" => some .ancestors
  | "descendants" => some .descendants
  | _ => none

/-- The direction that a request names, in any letter case; both if it names none. -/
def parse (v : Value) : Attempt Direction :=
  if !v.isPresent then .ok .both
  else
    match v with
    | .text s =>
        match ofText? (Text.lower (Text.trim s)) with
        | some direction => .ok direction
        | none => refuse (.unknownDirection v)
    | _ => misused .noSuchOperation

def goesUp (d : Direction) : Bool :=
  d != .descendants

def goesDown (d : Direction) : Bool :=
  d != .ancestors

end Direction

/-- A type with the types below it. -/
inductive DescendantTree where
  | node (symbol : Symbol) (children : List DescendantTree)
  deriving Inhabited

namespace DescendantTree

def symbol : DescendantTree → Symbol
  | .node symbol _ => symbol

mutual

def depth : DescendantTree → Nat
  | .node _ children => depthOfAll children

def depthOfAll : List DescendantTree → Nat
  | [] => 0
  | tree :: rest => max (depth tree + 1) (depthOfAll rest)

end

end DescendantTree

structure Hierarchy where
  root : Symbol
  /-- The bases of the type, nearest first. -/
  ancestors : List Symbol
  interfaces : List Symbol
  descendants : List Symbol
  tree : Option DescendantTree
  /-- Each overridable member with the members that override it. -/
  overrides : Option (List (Symbol × List Symbol))

structure Implementations where
  interface : Symbol
  member : Option Symbol
  found : List Symbol
  extensions : Option (List Symbol)

/-- What a request for a hierarchy wants to see. -/
structure HierarchyView where
  direction : Direction
  /-- The greatest depth of the tree of descendants. -/
  maxDepth : Value
  withInterfaces : Bool
  withOverrides : Bool
  inSourceOnly : Bool

def byDisplay (symbols : List Symbol) : List Symbol :=
  (Snapshot.distinctSymbols symbols).mergeSort Symbol.precedes

def keepInSource (inSourceOnly : Bool) (symbols : List Symbol) : List Symbol :=
  if inSourceOnly then symbols.filter Symbol.inSource else symbols

namespace Snapshot

def ancestorsOf (s : Snapshot) (type : Symbol) : List Symbol :=
  s.symbolsOf ((s.baseChain type.id).filter (· != type.id))

def isInterface (type : Symbol) : Bool :=
  type.typeKind == some .interface

/-- The types that derive from a type, or the interfaces that extend an interface. -/
def descendantsOf (s : Snapshot) (type : Symbol) (inSourceOnly : Bool) : List Symbol :=
  let found :=
    if isInterface type then s.derivedInterfaces type true else s.derivedTypes type true
  byDisplay (keepInSource inSourceOnly found)

/-- The immediate parents of a type in a hierarchy of interfaces or of other types. -/
def parentsOf (s : Snapshot) (type : Symbol) (amongInterfaces : Bool) : List Symbol :=
  if amongInterfaces then s.interfacesOf type false else (s.baseOf? type).toList

/-- Siblings are ordered by name, then by display. -/
def siblingPrecedes (a b : Symbol) : Bool :=
  if a.name = b.name then a.precedes b else Text.precedes a.name b.name

/-- The types of a list right below a type. -/
def childrenAmong (s : Snapshot) (flat : List Symbol) (amongInterfaces : Bool) (type : Symbol) :
    List Symbol :=
  (flat.filter fun d => (s.parentsOf d amongInterfaces).contains type).mergeSort siblingPrecedes

/-- The tree below a type at a depth.  `path` leads to the type and includes it; `unseen` is at
least the number of types of the list that are not on the path. -/
def treeFrom (s : Snapshot) (flat : List Symbol) (amongInterfaces : Bool) (maxDepth : Number) :
    Nat → Nat → List Symbol → Symbol → DescendantTree
  | 0, _, _, type => .node type []
  | unseen + 1, depth, path, type =>
      if (Number.whole depth).lt maxDepth then
        let below := (s.childrenAmong flat amongInterfaces type).filter fun c => !path.contains c
        .node type <| below.map fun child =>
          treeFrom s flat amongInterfaces maxDepth unseen (depth + 1) (child :: path) child
      else .node type []

def descendantTree (s : Snapshot) (root : Symbol) (flat : List Symbol) (maxDepth : Number) :
    DescendantTree :=
  s.treeFrom flat (isInterface root) maxDepth flat.length 0 [root] root

/-- The members of a class or struct that others may override. -/
def overridableMembers (s : Snapshot) (type : Symbol) : List Symbol :=
  if type.typeKind.any TypeKind.isConcrete then
    (s.membersOf type).filter fun m => m.isOverridable && !m.isAccessor
  else []

def overridesIn (s : Snapshot) (type : Symbol) (inSourceOnly : Bool) :
    List (Symbol × List Symbol) :=
  (s.overridableMembers type).map fun m =>
    (m, byDisplay (keepInSource inSourceOnly (s.overridesOf m)))

def hierarchyOf (s : Snapshot) (deadline : Deadline) (type : Symbol) (view : HierarchyView) :
    Attempt Hierarchy := do
  if type.kind != .namedType then refuse (.notAType type.display)
  let keep := keepInSource view.inSourceOnly
  let ancestors := if view.direction.goesUp then keep (s.ancestorsOf type) else []
  let interfaces :=
    if view.withInterfaces then byDisplay (keep (s.interfacesOf type true)) else []
  let (descendants, tree) ←
    if view.direction.goesDown then do
      deadline.check
      let flat := s.descendantsOf type view.inSourceOnly
      let maxDepth ← Target.ordered view.maxDepth
      pure (flat, some (s.descendantTree type flat maxDepth))
    else pure ([], none)
  let overrides ←
    if view.withOverrides then do
      if !(s.overridableMembers type).isEmpty then deadline.check
      pure (some (s.overridesIn type view.inSourceOnly))
    else pure none
  pure ⟨type, ancestors, interfaces, descendants, tree, overrides⟩

/-- The interface that a target is, or the one around a target that is a member. -/
def interfaceOf? (s : Snapshot) (target : Symbol) : Option Symbol :=
  match target.kind with
  | .namedType => if isInterface target then some target else none
  | .field => none
  | _ => ((s.containerOf? target).bind s.enclosingType?).filter isInterface

/-- The member that implementations are wanted of, if not of the whole interface. -/
def wantedMember (s : Snapshot) (target : Symbol) (member : Value) : Attempt (Option Symbol) :=
  if target.kind != .namedType then .ok (some target)
  else if !member.isPresent then .ok none
  else
    let matching :=
      match member with
      | .text name => (s.membersNamed target name).find? fun m => !m.isAccessor
      | _ => none
    match matching with
    | some m => .ok (some m)
    | none => .error (.failure (.notFound (.noInterfaceMember target.display member)))

def implementationsFor (s : Snapshot) (deadline : Deadline) (target : Symbol) (member : Value)
    (withExtensions inSourceOnly : Bool) : Attempt Implementations := do
  match s.interfaceOf? target with
  | none => refuse .notAnInterface
  | some interface =>
      let member ← s.wantedMember target member
      deadline.check
      let extensions :=
        if withExtensions then some (s.descendantsOf interface inSourceOnly) else none
      let found := s.implementationsOf (member.getD interface)
      pure ⟨interface, member, byDisplay (keepInSource inSourceOnly found), extensions⟩

end Snapshot
end SymbolAtlas
