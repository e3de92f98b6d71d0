import SymbolAtlas.Index.Build
import SymbolAtlas.Reach

/-!
# Snapshots

A snapshot is a loaded workspace: its name, its root and its tables, which never change.  Two lists
are worked out from the tables once: every distinct mention of a symbol at a place, and every call
in a body.  They are fields of the snapshot together with the fact that they belong to its tables.
-/

namespace SymbolAtlas

/-- A symbol is mentioned at a place.  A mention that shows the symbol's name is a token, as long
as that name. -/
structure Mention where
  symbol : String
  location : Location
  token : Option Nat
  deriving DecidableEq, Repr

/-- A body calls a method, perhaps at a known place. -/
structure CallSite where
  target : String
  caller : String
  location : Option Location
  deriving DecidableEq, Repr

namespace Tables

/-- A mention that shows the name of a symbol. -/
def tokenMention (s : Symbol) (location : Option Location) : List Mention :=
  match location with
  | some l => [⟨s.id, l, some s.name.length⟩]
  | none => []

/-- The mentions in one operation.  The name at a creation is that of the type, so the constructor
is mentioned without a token. -/
def mentionsIn (t : Tables) : Operation → List Mention
  | .invocation (some target) _ _ location => tokenMention target location
  | .creation (some constructor) _ _ location =>
      let type := t.symbolsOf (t.containing.get? constructor.id).toList
      type.flatMap (fun s => tokenMention s location) ++
        location.toList.map fun l => ⟨constructor.id, l, none⟩
  | .propertyReference property _ _ location => tokenMention property location
  | .fieldReference field _ location => tokenMention field location
  | .eventReference event _ location => tokenMention event location
  | _ => []

def callsIn (method : String) : Operation → List CallSite
  | .invocation (some target) _ _ location => [⟨target.id, method, location⟩]
  | .creation (some constructor) _ _ location => [⟨constructor.id, method, location⟩]
  | _ => []

/-- All mentions, those in bodies before those that the document lists. -/
def mentions (t : Tables) : List Mention :=
  t.bodies.entries.flatMap (fun (_, body) => body.walk.flatMap t.mentionsIn) ++
    t.explicitReferences.entries.flatMap fun (id, locations) =>
      (t.symbolsOf [id]).flatMap fun s => locations.flatMap fun l => tokenMention s (some l)

def calls (t : Tables) : List CallSite :=
  t.bodies.entries.flatMap fun (method, body) => body.walk.flatMap (callsIn method)

end Tables

namespace Mention

def sameAs (a b : Mention) : Bool :=
  a.symbol == b.symbol && a.location == b.location

/-- The first mention of every symbol at every place; `seen` is reversed. -/
def distinctFrom (seen : List Mention) : List Mention → List Mention
  | [] => seen.reverse
  | m :: rest =>
      if seen.any m.sameAs then distinctFrom seen rest else distinctFrom (m :: seen) rest

/-- The first mention of every symbol at every place. -/
def distinct (mentions : List Mention) : List Mention :=
  distinctFrom [] mentions

end Mention

structure Snapshot where
  name : String
  root : String
  /-- The index file that the workspace was loaded from. -/
  sourcePath : Option String
  tables : Tables
  mentions : List Mention
  calls : List CallSite
  mentions_eq : mentions = Mention.distinct tables.mentions
  calls_eq : calls = tables.calls

namespace Snapshot

def ofTables (name root : String) (sourcePath : Option String) (tables : Tables) : Snapshot :=
  { name := name
    root := root
    sourcePath := sourcePath
    tables := tables
    mentions := Mention.distinct tables.mentions
    calls := tables.calls
    mentions_eq := rfl
    calls_eq := rfl }

/-- The name that a document gives, or that of its root. -/
def nameOf (data : Value) (root : String) : String :=
  let given := data.field "name"
  if given.isPresent then given.plain
  else
    let last := Path.lastName root
    if last.isEmpty then "workspace" else last

def ofDocument (disk : Disk) (data : Value) (root : String) (sourcePath : Option String) :
    Attempt Snapshot := do
  let tables ← Index.tables disk root data
  Entry.mustWrite (data.field "name")
  pure (ofTables (nameOf data root) root sourcePath tables)

def symbol? (s : Snapshot) (id : String) : Option Symbol :=
  s.tables.symbols.get? id

def symbolsOf (s : Snapshot) (ids : List String) : List Symbol :=
  s.tables.symbolsOf ids

/-- The symbols of ids, each once, in the order of their displays. -/
def sorted (s : Snapshot) (ids : List String) : List Symbol :=
  (s.symbolsOf (Link.distinct ids)).mergeSort Symbol.precedes

def typeNamed? (s : Snapshot) (name : String) : Option Symbol :=
  (s.tables.typeNames.get? name).bind s.symbol?

def membersOf (s : Snapshot) (type : Symbol) : List Symbol :=
  s.tables.membersOf type.id

def membersNamed (s : Snapshot) (type : Symbol) (name : String) : List Symbol :=
  (s.membersOf type).filter fun m => m.name == name

/-- The symbols of a simple name that are no accessors. -/
def declarationsNamed (s : Snapshot) (name : String) : List Symbol :=
  (s.tables.symbols.values.filter fun d => !d.isAccessor && d.name == name).mergeSort
    Symbol.precedes

def accessorsOf (s : Snapshot) (property : Symbol) : Option Symbol × Option Symbol :=
  match s.tables.accessors.get? property.id with
  | some (getter, setter) => (getter.bind s.symbol?, setter.bind s.symbol?)
  | none => (none, none)

def containerOf? (s : Snapshot) (symbol : Symbol) : Option Symbol :=
  (s.tables.containing.get? symbol.id).bind s.symbol?

def bodyOf? (s : Snapshot) (method : Symbol) : Option Operation :=
  s.tables.bodies.get? method.id

/-- The source declaration of a symbol: itself, or the type that it stands for. -/
def sourceOf? (s : Snapshot) (symbol : Symbol) : Option Symbol :=
  if symbol.inSource then some symbol
  else (s.tables.sourceDefinitions.get? symbol.id).bind s.symbol?

structure Size where
  types : Nat
  symbols : Nat
  bodies : Nat
  deriving DecidableEq, Repr

def size (s : Snapshot) : Size where
  types := (Link.distinct s.tables.typeNames.values).length
  symbols := s.tables.symbols.size
  bodies := s.tables.bodies.size

/-- The normal form of a path seen from the root. -/
def normalizePath (s : Snapshot) (file : String) : String :=
  Entry.pathFrom s.root file

end Snapshot
end SymbolAtlas
