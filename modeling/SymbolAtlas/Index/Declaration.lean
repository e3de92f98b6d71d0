import SymbolAtlas.Index.Entry

/-!
# Declarations

The first pass over a document declares its types with all their members.  A class or struct that
declares no constructor gets an implicit one, unless it is static, and a property has accessors of
its own.  Bases, overrides and bodies wait for the second pass.
-/

namespace SymbolAtlas
namespace Declaration

open Building

def typeKindNamed? : String → Option TypeKind
  | "class" => some .classType
  | "struct" => some .structType
  | "interface" => some .interface
  | "enum" => some .enumeration
  | "delegate" => some .delegate
  | _ => none

/-- What stands before the last plus sign of a nested type's name, empty for other types. -/
def outerName (qualified : String) : String :=
  match Text.cutAtLast? '+' qualified.toList with
  | some (outer, _) => String.ofList outer
  | none => ""

/-- The dotted path around the last segment of a name. -/
def namespaceOf (path : String) : Value :=
  match Text.cutAtLast? '.' path.toList with
  | some (before, _) => .text (String.ofList before)
  | none => .null

/-- The symbol of a type.  Its namespace is the given one or that of its outermost type's path. -/
def typeSymbol (qualified : String) (kind : TypeKind) (location : Option Location)
    (modifiers : List String) (given : Value) : Symbol :=
  let outer := outerName qualified
  let namespaceValue :=
    if given.isNull then namespaceOf (if outer.isEmpty then qualified else outer) else given
  { id := "T:" ++ qualified
    name := Signature.simpleName qualified
    kind := .namedType
    display := Text.exchange '+' '.' qualified
    location := location
    containingType := if outer.isEmpty then none else some (Text.exchange '+' '.' outer)
    containingNamespace := if namespaceValue.isPresent then namespaceValue else .null
    typeKind := some kind
    isStatic := modifiers.contains "static"
    isAbstract := modifiers.contains "abstract" || kind == .interface
    isSealed := modifiers.contains "sealed" || kind == .structType || kind == .enumeration }

/-- The type of a name, added from metadata if it is not declared. -/
def ensureType (qualified : String) (kind : TypeKind) : Building String := do
  let d ← get
  match d.typeNames.get? qualified with
  | some id => pure id
  | none =>
      let symbol := typeSymbol qualified kind none [] .null
      set (d.putType qualified symbol true)
      pure symbol.id

/-- The surroundings of a member: its type, the type's qualified name, its file and its root. -/
structure Owner where
  type : Symbol
  qualified : String
  file : Option String
  root : String
  isMetadata : Bool

/-- A member symbol with what all members of a declaration have in common. -/
def memberSymbol (owner : Owner) (data : Value) (modifiers : List String)
    (location : Option Location) (id name : String) (kind : SymbolKind) (display : String) :
    Symbol :=
  { id := id
    name := name
    kind := kind
    display := display
    location := location
    containingType := some owner.type.display
    containingNamespace := owner.type.containingNamespace
    accessibility := Entry.accessibility data
    isStatic := modifiers.contains "static"
    isVirtual := modifiers.contains "virtual"
    isAbstract := modifiers.contains "abstract"
    isOverride := modifiers.contains "override"
    isSealed := modifiers.contains "sealed" }

/-- The location of an entry, none for metadata. -/
def locate (isMetadata : Bool) (root : String) (data : Value) (file : Option String)
    (place : String) : Attempt (Option Location) :=
  if isMetadata then .ok none else Entry.location root data file place

/-- The data of an accessor if the property has it; a property without accessors of its own has a
getter. -/
def accessorData? (data : Value) (keyword : String) : Option Value :=
  let isExplicit := (data.get? "get").isSome || (data.get? "set").isSome
  let raw := data.fieldOr keyword (.bool (keyword == "get" && !isExplicit))
  if raw.isPresent then some (if raw.isMapping then raw else .mapping []) else none

/-- The accessor of a property, which lies where the property does unless it is located itself. -/
def accessorSymbol (owner : Owner) (property : Symbol) (propertyType keyword : String)
    (kind : MethodKind) (located : Option Location) : Symbol :=
  let isGetter := keyword == "get"
  { property with
    id := "M:" ++ owner.qualified ++ "." ++ keyword ++ "_" ++ property.name
    name := keyword ++ "_" ++ property.name
    kind := .method
    display := owner.type.display ++ "." ++ property.name ++ "." ++ keyword
    location := if owner.isMetadata then none else located <|> property.location
    methodKind := some kind
    parameters := if isGetter then [] else [⟨"value", propertyType, .byValue⟩]
    memberType := some (if isGetter then propertyType else "void") }

def accessorSpan (owner : Owner) (accessorData : Value) (place : String) :
    Attempt (Option Span) :=
  if accessorData.isPresent then do
    let own ← Entry.location owner.root accessorData owner.file place
    Entry.span accessorData own place
  else .ok none

def declareAccessor (owner : Owner) (data : Value) (property : Symbol) (propertyType : String)
    (keyword : String) (kind : MethodKind) : Building (Option String) := do
  match accessorData? data keyword with
  | none => pure none
  | some accessorData =>
      let place := "property " ++ owner.qualified ++ "." ++ property.name
      let located ← locate owner.isMetadata owner.root accessorData owner.file place
      let accessor := accessorSymbol owner property propertyType keyword kind located
      let span ← accessorSpan owner accessorData place
      addMember owner.type.id accessor span
      modify fun d =>
        (d.putContaining accessor.id property.id).deferBody accessor.id owner.file accessorData
      pure (some accessor.id)

/-- What an entry says about the type of a variable, any object if it says nothing. -/
def typeOfVariable (data : Value) : Value :=
  data.fieldOr "type" (.text "object")

/-- A property, a field or an event; ids of different kinds begin with different letters. -/
def variableSymbol (owner : Owner) (data : Value) (modifiers : List String)
    (location : Option Location) (letter name : String) (kind : SymbolKind) : Symbol :=
  { memberSymbol owner data modifiers location (letter ++ ":" ++ owner.qualified ++ "." ++ name)
      name kind (owner.type.display ++ "." ++ name) with
    memberType := some (typeOfVariable data).plain }

def declareProperty (owner : Owner) (data : Value) (modifiers : List String)
    (location : Option Location) (span : Option Span) : Building String := do
  let name ← Entry.required data "name" ("property of " ++ owner.qualified)
  Entry.mustWrite name
  Entry.mustWrite (typeOfVariable data)
  let type := (typeOfVariable data).plain
  let property := variableSymbol owner data modifiers location "P" name.plain .property
  addMember owner.type.id property span
  let getter ← declareAccessor owner data property type "get" .propertyGet
  let setter ← declareAccessor owner data property type "set" .propertySet
  modify fun d => d.putAccessors property.id getter setter
  pure property.id

/-- A method or a constructor, whose display shows the given name. -/
def methodSymbol (owner : Owner) (data : Value) (modifiers : List String)
    (location : Option Location) (name shown returns : String) (kind : MethodKind)
    (parameters : List Parameter) : Symbol :=
  { memberSymbol owner data modifiers location (Entry.methodId owner.qualified name parameters)
      name .method
      (Entry.methodDisplay owner.type.display shown (parameters.map Parameter.type)) with
    methodKind := some kind
    parameters := parameters
    memberType := some returns
    isImplicit := (data.field "implicit").isPresent }

def declareMethod (owner : Owner) (data : Value) (modifiers : List String)
    (location : Option Location) (span : Option Span) (name shown : String) (returns : Value)
    (place : String) (kind : MethodKind) : Building String := do
  let parameters ← Entry.parameters (data.field "parameters") place
  Entry.mustWrite returns
  let symbol := methodSymbol owner data modifiers location name shown returns.plain kind parameters
  addMember owner.type.id symbol span
  modify fun d => d.deferBody symbol.id owner.file data
  pure symbol.id

def declareVariable (owner : Owner) (data : Value) (modifiers : List String)
    (location : Option Location) (span : Option Span) (letter place : String)
    (kind : SymbolKind) : Building String := do
  let name ← Entry.required data "name" place
  Entry.mustWrite name
  Entry.mustWrite (typeOfVariable data)
  let symbol := variableSymbol owner data modifiers location letter name.plain kind
  addMember owner.type.id symbol span
  pure symbol.id

/-- The members of an interface are abstract unless they are static. -/
def memberModifiers (owner : Owner) (data : Value) : Attempt (List String) := do
  let modifiers ← Entry.modifiers data
  pure <|
    if owner.type.typeKind == some .interface && !modifiers.contains "static" then
      modifiers ++ ["abstract"]
    else modifiers

def declareNamedKind (owner : Owner) (data : Value) (modifiers : List String)
    (location : Option Location) (span : Option Span) (place : String) :
    String → Building String
  | "constructor" | "ctor" =>
      declareMethod owner data modifiers location span Signature.constructorName owner.type.name
        (.text "void") place .constructor
  | "static_constructor" =>
      declareMethod owner data modifiers location span Signature.staticConstructorName
        owner.type.name (.text "void") place .staticConstructor
  | "method" => do
      let name ← Entry.required data "name" place
      Entry.mustWrite name
      declareMethod owner data modifiers location span name.plain name.plain
        (data.fieldOr "returns" (.text "void")) place .ordinary
  | "property" => declareProperty owner data modifiers location span
  | "field" => declareVariable owner data modifiers location span "F" place .field
  | "event" => declareVariable owner data modifiers location span "E" place .event
  | kind => refuse (.unknownMemberKind kind place)

def declareMember (owner : Owner) (data : Value) : Building Unit := do
  let place := "member of " ++ owner.qualified
  refuseIf (!data.isMapping) (.memberNotAMapping place)
  let given := data.fieldOr "kind" (.text "method")
  Entry.mustWrite given
  let kind := Text.lower given.plain
  let modifiers ← memberModifiers owner data
  let location ← locate owner.isMetadata owner.root data owner.file place
  let span ← Entry.span data location place
  Entry.mustWrite (Entry.access data)
  let id ← declareNamedKind owner data modifiers location span place kind
  modify fun d => d.deferMember id data

def implicitConstructor (type : Symbol) (qualified : String) : Symbol :=
  { id := Entry.methodId qualified Signature.constructorName []
    name := Signature.constructorName
    kind := .method
    display := Entry.methodDisplay type.display type.name []
    location := type.location
    containingType := some type.display
    containingNamespace := type.containingNamespace
    methodKind := some .constructor
    memberType := some "void"
    isImplicit := true }

/-- Puts a nested type into its outer type if that is declared. -/
def nest (qualified id : String) : Building Unit :=
  modify fun d =>
    if qualified.toList.contains '+' then
      match d.typeNames.get? (outerName qualified) with
      | some outer => d.putContaining id outer
      | none => d
    else d

/-- Adds the implicit constructor to a type that needs one and declares none. -/
def addConstructor (type : Symbol) (qualified : String) (isNeeded : Bool) : Building Unit := do
  let declared := (← get).membersOf type.id
  let hasConstructor := declared.any fun m => m.methodKind == some .constructor
  if !hasConstructor && isNeeded then addMember type.id (implicitConstructor type qualified) none
  else pure ()

/-- Declares what belongs to a type that is there already: its extent, its place in an outer type
and its members. -/
def declareContents (owner : Owner) (data : Value) (location : Option Location)
    (needsConstructor : Bool) : Building Unit := do
  let span ← Entry.span data location ("type " ++ owner.qualified)
  modify fun d => d.putSpan owner.type.id span
  nest owner.qualified owner.type.id
  let members ← allowing (data.field "members").itemsIfPresent
  forEach (declareMember owner) members
  addConstructor owner.type owner.qualified needsConstructor
  modify fun d => d.deferLink owner.type.id data

def declaredType (qualified : String) (kind : TypeKind) (location : Option Location)
    (modifiers : List String) (data : Value) : Symbol :=
  { typeSymbol qualified kind location modifiers (data.field "namespace") with
    accessibility := Entry.accessibility data }

def declareNewType (root : String) (data : Value) (qualified : String) (kind : TypeKind) :
    Building Unit := do
  let isMetadata := (data.field "metadata").isPresent
  let given := data.field "file"
  Entry.mustWrite (if isMetadata then .null else given)
  let file :=
    if isMetadata || !given.isPresent then none else some (Entry.pathFrom root given.plain)
  let location ← locate isMetadata root data file ("type " ++ qualified)
  let modifiers ← Entry.modifiers data
  Entry.mustWrite (Entry.access data)
  let symbol := declaredType qualified kind location modifiers data
  modify fun d => d.putType qualified symbol isMetadata
  declareContents ⟨symbol, qualified, file, root, isMetadata⟩ data location
    (kind.isConcrete && !modifiers.contains "static")

def declareType (root : String) (data : Value) : Building Unit := do
  refuseIf (!data.isMapping) .typeNotAMapping
  let name ← Entry.required data "name" "type declaration"
  Entry.mustWrite name
  refuseIf ((← get).typeNames.contains name.plain) (.typeDeclaredTwice name.plain)
  let given := data.fieldOr "kind" (.text "class")
  Entry.mustWrite given
  match typeKindNamed? (Text.lower given.plain) with
  | none => refuse (.unknownTypeKind (data.field "kind") name.plain)
  | some kind => declareNewType root data name.plain kind

end Declaration
end SymbolAtlas
