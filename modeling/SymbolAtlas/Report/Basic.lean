import SymbolAtlas.Page.Basic
import SymbolAtlas.Symbol

/-!
# Reporting symbols

Answers show symbols, places and pages as records.  A record names all of its fields, null standing
for what does not apply, so that the answers to one kind of request have one shape.
-/

namespace SymbolAtlas
namespace Report

def optional {α : Type} (f : α → Value) (a : Option α) : Value :=
  (a.map f).getD .null

def text? (s : Option String) : Value :=
  optional .text s

def count (n : Nat) : Value :=
  .int n

def each {α : Type} (f : α → Value) (items : List α) : Value :=
  .list (items.map f)

def placeFields (l : Option Location) : List (String × Value) :=
  [ ("file", optional (fun l => .text l.file) l), ("line", optional (fun l => .int l.line) l),
    ("column", optional (fun l => .int l.column) l) ]

def location (l : Location) : Value :=
  Value.record (placeFields (some l))

def parameter (p : Parameter) : Value :=
  Value.record
    [("name", .text p.name), ("type", .text p.type), ("ref_kind", .text p.passing.text)]

def symbol (s : Symbol) : Value :=
  Value.record <|
    [("display", .text s.display), ("name", .text s.name), ("kind", .text s.kind.text)] ++
      placeFields s.location ++
      [ ("containing_type", text? s.containingType),
        ("containing_namespace", s.containingNamespace),
        ("type_kind", text? (s.typeKind.map TypeKind.text)),
        ("method_kind", text? (s.methodKind.map MethodKind.text)),
        ("member_type", text? s.memberType), ("accessibility", .text s.accessibility),
        ("is_static", .bool s.isStatic), ("is_abstract", .bool s.isAbstract),
        ("is_virtual", .bool s.isVirtual), ("is_override", .bool s.isOverride),
        ("parameters", if s.methodKind.isSome then each parameter s.parameters else .null) ]

def sortedSymbols (symbols : List Symbol) : Value :=
  each symbol (symbols.mergeSort Symbol.precedes)

/-- A member as the listing of its type shows it. -/
def member (m : Symbol) : Value :=
  Value.record <|
    [ ("name", .text m.name), ("display", .text m.display), ("kind", .text m.kind.text),
      ("accessibility", .text m.accessibility), ("is_static", .bool m.isStatic),
      ("type", text? m.memberType), ("method_kind", text? (m.methodKind.map MethodKind.text)),
      ("parameters", if m.kind == .method then each parameter m.parameters else .null) ] ++
      placeFields m.location

def pageFields {α : Type} (p : Page α) : List (String × Value) :=
  [ ("total", count p.total), ("page", .ofNumber p.number), ("page_size", .ofNumber p.size),
    ("next_cursor", text? p.nextCursor), ("has_more", .bool p.hasMore) ]

end Report
end SymbolAtlas
