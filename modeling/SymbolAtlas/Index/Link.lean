import SymbolAtlas.Index.MemberName

/-!
# Links

The second pass joins what the first one declared: bases and interfaces of types, the members that
a member overrides or implements, and the accessors of overriding properties side by side.  An
override that names no member is looked up along the bases of its type.
-/

namespace SymbolAtlas
namespace Link

open Building

/-- The distinct items of a list, each where it first occurs. -/
def distinct (ids : List String) : List String :=
  (ids.foldl (fun seen id => if seen.contains id then seen else id :: seen) []).reverse

def linkSource (type : String) (data : Value) : Building Unit :=
  let given := data.field "source_definition"
  if given.isPresent then do
    Entry.mustWrite given
    let d ← get
    match d.typeNames.get? given.plain with
    | some source => set (d.putSourceDefinition type source)
    | none => refuse (.unknownSourceDefinition given (String.ofList (type.toList.drop 2)))
  else pure ()

def linkBase (type : String) (data : Value) : Building Unit :=
  let base := data.field "base"
  if base.isPresent then do
    Entry.mustWrite base
    let id ← Declaration.ensureType base.plain .classType
    modify fun d => d.putBase type id
  else pure ()

def ensureInterface (name : Value) : Building String := do
  Entry.mustWrite name
  Declaration.ensureType name.plain .interface

def linkInterfaces (type : String) (data : Value) : Building Unit := do
  let items ← allowing (data.field "interfaces").itemsIfPresent
  let interfaces ← forAll ensureInterface items
  modify fun d =>
    if interfaces.isEmpty then d else d.putInterfaces type (distinct interfaces)

def linkType (type : String) (data : Value) : Building Unit := do
  linkBase type data
  linkInterfaces type data
  linkSource type data

/-- The first member of a type that a member of a derived type may override. -/
def overridable? (t : Tables) (member : Symbol) (type : String) : Option String :=
  ((t.membersOf type).find? fun candidate =>
    candidate.name == member.name && candidate.kind == member.kind &&
      Signature.typesMatch member.parameterTypes candidate.parameterTypes).map Symbol.id

/-- Looks for an overridden member up the bases, each base entry being followed at most once. -/
def inheritedFrom (t : Tables) (member : Symbol) (bases : List (String × String))
    (type : String) : Option String :=
  match _h : Table.find? type bases with
  | none => none
  | some base =>
      match overridable? t member base with
      | some found => some found
      | none => inheritedFrom t member (Table.without type bases) base
termination_by bases.length
decreasing_by exact Table.length_without_lt _h

/-- The member of a base type that a member overrides. -/
def inherited? (t : Tables) (member : Symbol) : Option String :=
  match t.containing.get? member.id with
  | some type => inheritedFrom t member t.baseTypes.entries type
  | none => none

def linkAccessor (d : Draft) (own base : Option String) : Draft :=
  match own, base with
  | some own, some base => d.putOverridden own base
  | _, _ => d

/-- Links the accessors of a property to those of the property it overrides, side by side. -/
def linkAccessors (d : Draft) (property overridden : String) : Draft :=
  let own := (d.accessors.get? property).getD (none, none)
  let base := (d.accessors.get? overridden).getD (none, none)
  linkAccessor (linkAccessor d own.1 base.1) own.2 base.2

/-- Links a member to the one it names as overridden, or to one that it inherits. -/
def linkOverridden (member : Symbol) (data : Value) : Building Unit :=
  let given := data.field "overrides"
  if given.isPresent then do
    Entry.mustWrite given
    let target ← MemberName.resolve given.plain member.display (some member.kind) none
    modify fun d => d.putOverridden member.id target.id
  else if member.isOverride then
    modify fun d =>
      match inherited? d.toTables member with
      | some target => d.putOverridden member.id target
      | none => d
  else pure ()

def linkProperty (d : Draft) (property : String) : Draft :=
  match d.overridden.get? property with
  | some target => linkAccessors d property target
  | none => d

def linkOverride (member : Symbol) (data : Value) : Building Unit := do
  linkOverridden member data
  if member.kind == .property then modify fun d => linkProperty d member.id else pure ()

/-- The names that a value lists; one that is not in a list stands for itself. -/
def namesIn : Value → List Value
  | .list names => names
  | name => [name]

def implemented (member : Symbol) (name : Value) : Building Symbol := do
  Entry.mustWrite name
  MemberName.resolve name.plain member.display (some member.kind) none

def linkImplementations (member : Symbol) (data : Value) : Building Unit :=
  let given := data.field "implements"
  if given.isPresent then do
    let targets ← forAll (implemented member) (namesIn given)
    modify fun d => d.putImplementations member.id (targets.map Symbol.id)
  else pure ()

def linkMember (id : String) (data : Value) : Building Unit := do
  match (← get).symbols.get? id with
  | none => throw (.misuse .unknownKey)
  | some member => do
      linkOverride member data
      linkImplementations member data

end Link
end SymbolAtlas
