import SymbolAtlas.Report.Basic
import SymbolAtlas.Snapshot.Position
import SymbolAtlas.Snapshot.Usage

/-!
# Reporting a whole workspace

Everything that a workspace holds, table by table.  Here symbols stand for themselves by their
ids, and places are lists of a file, a line and a column.
-/

namespace SymbolAtlas
namespace Report

open Value (record)

def symbolId (s : Symbol) : Value :=
  .text s.id

def symbolIds (symbols : List Symbol) : Value :=
  each symbolId symbols

def place (l : Location) : Value :=
  .list [.text l.file, .int l.line, .int l.column]

/-- The properties that a symbol may have, in the order in which they are listed. -/
def flags (s : Symbol) : List String :=
  [ ("is_static", s.isStatic), ("is_virtual", s.isVirtual), ("is_abstract", s.isAbstract),
    ("is_override", s.isOverride), ("is_sealed", s.isSealed), ("is_implicit", s.isImplicit),
    ("in_source", s.inSource), ("is_constructor", s.isConstructor), ("is_accessor", s.isAccessor),
    ("is_overridable", s.isOverridable) ].filterMap fun (name, holds) =>
      if holds then some name else none

def wholeSymbol (s : Symbol) : Value :=
  let parameter (p : Parameter) : Value :=
    .list [.text p.name, .text p.type, .text p.passing.text]
  record
    [ ("id", symbolId s), ("name", .text s.name), ("kind", .text s.kind.text),
      ("display", .text s.display), ("location", optional place s.location),
      ("containing_type", text? s.containingType),
      ("containing_namespace", s.containingNamespace),
      ("type_kind", text? (s.typeKind.map TypeKind.text)),
      ("method_kind", text? (s.methodKind.map MethodKind.text)),
      ("parameters", each parameter s.parameters), ("member_type", text? s.memberType),
      ("accessibility", .text s.accessibility), ("flags", each .text (flags s)),
      ("str", .text s.text) ]

def nodeName : Operation → String
  | .plain .. => "OperationNode"
  | .argument .. => "Argument"
  | .invocation .. => "Invocation"
  | .creation .. => "ObjectCreation"
  | .propertyReference .. => "PropertyReference"
  | .fieldReference .. => "FieldReference"
  | .eventReference .. => "EventReference"
  | .assignment .. => "SimpleAssignment"
  | .compound .. => "CompoundAssignment"
  | .step .. => "IncrementOrDecrement"

/-- An operation with its form, its place and its own fields. -/
def node (op : Operation) (fields : List (String × Value)) : Value :=
  record ([("node", .text (nodeName op)), ("location", optional place op.location)] ++ fields)

mutual

def operation : Operation → Value
  | .plain kind children l =>
      node (.plain kind children l)
        [("kind", .text kind), ("children", .list (operations children))]
  | .argument value passing l =>
      node (.argument value passing l)
        [("value", operation value), ("ref_kind", .text passing.text)]
  | .invocation target receiver arguments l =>
      node (.invocation target receiver arguments l)
        [ ("target", optional symbolId target), ("instance", operation? receiver),
          ("arguments", .list (operations arguments)) ]
  | .creation constructor arguments initializer l =>
      node (.creation constructor arguments initializer l)
        [ ("constructor", optional symbolId constructor),
          ("arguments", .list (operations arguments)), ("initializer", operation? initializer) ]
  | .propertyReference property receiver arguments l =>
      node (.propertyReference property receiver arguments l)
        [ ("property", symbolId property), ("instance", operation? receiver),
          ("arguments", .list (operations arguments)) ]
  | .fieldReference field receiver l =>
      node (.fieldReference field receiver l)
        [("field", symbolId field), ("instance", operation? receiver)]
  | .eventReference event receiver l =>
      node (.eventReference event receiver l)
        [("event", symbolId event), ("instance", operation? receiver)]
  | .assignment target value l =>
      node (.assignment target value l)
        [("target", operation target), ("value", operation value)]
  | .compound target value operator l =>
      node (.compound target value operator l)
        [("target", operation target), ("value", operation value), ("operator", .text operator)]
  | .step target isDecrement isPostfix l =>
      node (.step target isDecrement isPostfix l)
        [ ("target", operation target), ("is_decrement", .bool isDecrement),
          ("is_postfix", .bool isPostfix) ]

def operations : List Operation → List Value
  | [] => []
  | op :: rest => operation op :: operations rest

def operation? : Option Operation → Value
  | none => .null
  | some op => operation op

end

def table {α : Type} (f : α → Value) (t : Table α) : Value :=
  record (t.entries.map fun (key, value) => (key, f value))

def size (s : Snapshot.Size) : List (String × Value) :=
  [("types", count s.types), ("symbols", count s.symbols), ("method_bodies", count s.bodies)]

def span (s : Span) : Value :=
  .list [.text s.file, .int s.startLine, .int s.startColumn, .int s.endLine, .int s.endColumn]

def snapshot (s : Snapshot) : Value :=
  let t := s.tables
  record
    [ ("name", .text s.name), ("root", .text s.root), ("source_path", text? s.sourcePath),
      ("symbols", each wholeSymbol t.symbols.values), ("type_names", table .text t.typeNames),
      ("members", table (each .text) t.members), ("containing", table .text t.containing),
      ("base_types", table .text t.baseTypes),
      ("declared_interfaces", table (each .text) t.declaredInterfaces),
      ("accessors", table (fun (getter, setter) => .list [text? getter, text? setter]) t.accessors),
      ("overridden", table .text t.overridden),
      ("explicit_implementations", table (each .text) t.explicitImplementations),
      ("bodies", table operation t.bodies), ("spans", table span t.spans),
      ("explicit_references", table (each place) t.explicitReferences),
      ("source_definitions", table .text t.sourceDefinitions),
      ("source_lines", table (each .text) t.sourceLines) ]

end Report
end SymbolAtlas
