import SymbolAtlas.Index.MemberName

/-!
# Bodies

A body is read into an operation tree while the members it names are resolved.  The forms of
operations are told apart by their names, in any letter case; a list is a block, a mapping with
another name is a plain operation of that kind, and anything else is a literal.
-/

namespace SymbolAtlas
namespace Body

open Building

structure Place where
  root : String
  file : Option String
  /-- What messages call the body. -/
  text : String

def formName : String → String
  | "call" => "invocation"
  | "new" => "object_creation"
  | "property" => "property_reference"
  | "field" => "field_reference"
  | "event" => "event_reference"
  | "assign" => "assignment"
  | "compound" => "compound_assignment"
  | name => name

/-- The form of operation that a node names. -/
def formOf (node : Value) : String :=
  formName (Text.lower (node.fieldOr "op" (.text "block")).plain)

/-- How the parts of an operation are read. -/
abbrev Reader := Value → Building Operation

def optional (read : Reader) (node : Value) (key : String) : Building (Option Operation) :=
  let part := node.field key
  if part.isNull then pure none
  else do
    let op ← read part
    pure (some op)

def needed (read : Reader) (place : Place) (node : Value) (key : String) : Building Operation := do
  let part ← Entry.required node key place.text
  read part

/-- How an argument is passed: as it says itself or else as its parameter says. -/
def passingOf (place : Place) (node : Value) (parameter : Passing) : Attempt Passing :=
  let own := node.field "ref_kind"
  if own.isPresent then Entry.passing own place.text else .ok parameter

def argument (read : Reader) (place : Place) (node : Value) (parameter : Passing) :
    Building Operation := do
  let passing ← passingOf place node parameter
  let value ← needed read place node "value"
  let location ← Entry.location place.root node place.file place.text
  pure (.argument value passing location)

/-- An item of an argument list that is an argument by itself. -/
def isArgument (item : Value) : Bool :=
  item.isMapping &&
    ((item.field "op").text? == some "argument" ||
      ((item.get? "value").isSome && (item.get? "op").isNone))

/-- An item of an argument list, which may be the value alone. -/
def listedArgument (read : Reader) (place : Place) (item : Value) (parameter : Passing) :
    Building Operation :=
  if isArgument item then argument read place item parameter
  else do
    let value ← read item
    pure (.argument value parameter none)

def arguments (read : Reader) (place : Place) : List Parameter → List Value →
    Building (List Operation)
  | _, [] => pure []
  | parameters, item :: rest => do
      let passing := (parameters.head?.map Parameter.passing).getD .byValue
      let first ← listedArgument read place item passing
      let others ← arguments read place parameters.tail rest
      pure (first :: others)

def argumentList (node : Value) : Attempt (List Value) :=
  allowing (node.field "arguments").itemsIfPresent

def argumentCount (node : Value) : Attempt Nat :=
  let given := node.field "arguments"
  if given.isPresent then allowing given.size? else .ok 0

/-- The reference to the constructor that an operation calls. -/
def constructorReference (node : Value) (place : Place) : Attempt String :=
  let given := node.field "constructor"
  if given.isPresent then do
    Entry.mustWrite given
    let reference := given.plain
    let (base, list) := Signature.split reference
    match Signature.splitMember? base with
    | some (_, ".ctor") => pure reference
    | _ => pure (withParameters (base ++ "." ++ Signature.constructorName) list)
  else do
    let type ← Entry.required node "type" place.text
    Entry.mustWrite type
    pure (type.plain ++ "." ++ Signature.constructorName)

def member (node : Value) (place : Place) (key : String) (kind : SymbolKind) :
    Building Symbol := do
  let reference ← Entry.required node key place.text
  Entry.mustWrite reference
  MemberName.resolve reference.plain place.text (some kind) none

def invocation (read : Reader) (place : Place) (node : Value) (location : Option Location) :
    Building Operation := do
  let reference ← Entry.required node "target" place.text
  Entry.mustWrite reference
  let count ← argumentCount node
  let target ← MemberName.resolve reference.plain place.text (some .method) (some count)
  let receiver ← optional read node "instance"
  let items ← argumentList node
  let arguments ← arguments read place target.parameters items
  pure (.invocation (some target) receiver arguments location)

def creation (read : Reader) (place : Place) (node : Value) (location : Option Location) :
    Building Operation := do
  let count ← argumentCount node
  let reference ← constructorReference node place
  let target ← MemberName.resolve reference place.text (some .method) (some count)
  let items ← argumentList node
  let arguments ← arguments read place target.parameters items
  let initializer ← optional read node "initializer"
  pure (.creation (some target) arguments initializer location)

def propertyReference (read : Reader) (place : Place) (node : Value)
    (location : Option Location) : Building Operation := do
  let property ← member node place "property" .property
  let receiver ← optional read node "instance"
  let items ← argumentList node
  let arguments ← arguments read place [] items
  pure (.propertyReference property receiver arguments location)

def step (read : Reader) (place : Place) (node : Value) (location : Option Location)
    (isDecrement : Bool) : Building Operation := do
  let target ← needed read place node "target"
  let isPostfix := (node.fieldOr "postfix" (.bool true)).isPresent
  pure (.step target isDecrement isPostfix location)

/-- The children of a plain operation; one that is not in a list stands for itself. -/
def childList (node : Value) : List Value :=
  let given := node.field "children"
  if given.isPresent then
    match given with
    | .list items => items
    | v => [v]
  else []

/-- Reads an operation of a form at a location, whose parts are read by `read`. -/
def operationOf (read : Reader) (place : Place) (node : Value) (location : Option Location) :
    String → Building Operation
  | "invocation" => invocation read place node location
  | "object_creation" => creation read place node location
  | "property_reference" => propertyReference read place node location
  | "field_reference" => do
      let field ← member node place "field" .field
      let receiver ← optional read node "instance"
      pure (.fieldReference field receiver location)
  | "event_reference" => do
      let event ← member node place "event" .event
      let receiver ← optional read node "instance"
      pure (.eventReference event receiver location)
  | "assignment" => do
      let target ← needed read place node "target"
      let value ← needed read place node "value"
      pure (.assignment target value location)
  | "compound_assignment" => do
      let target ← needed read place node "target"
      let value ← needed read place node "value"
      let operator := node.fieldOr "operator" (.text "+")
      Entry.mustWrite operator
      pure (.compound target value operator.plain location)
  | "increment" => step read place node location false
  | "decrement" => step read place node location true
  | "argument" => argument read place node .byValue
  | kind => do
      let children ← forAll read (childList node)
      pure (.plain kind children location)

def operation (read : Reader) (place : Place) (node : Value) : Building Operation := do
  Entry.mustWrite (node.fieldOr "op" (.text "block"))
  let location ← Entry.location place.root node place.file place.text
  operationOf read place node location (formOf node)

/-- Reads an operation tree; `fuel` exceeds the nesting that is left. -/
def readWith (place : Place) : Nat → Reader
  | 0, _ => throw (.misuse .unexplained)
  | fuel + 1, .list items => do
      let children ← forAll (readWith place fuel) items
      pure (.plain "block" children none)
  | fuel + 1, .mapping entries => operation (readWith place fuel) place (.mapping entries)
  | _ + 1, _ => pure (.plain "literal" [] none)

def read (place : Place) (node : Value) : Building Operation :=
  readWith place (node.depth + 1) node

end Body
end SymbolAtlas
