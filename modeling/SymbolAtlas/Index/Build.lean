import SymbolAtlas.Disk
import SymbolAtlas.Index.Body
import SymbolAtlas.Index.Link

/-!
# Tables from a document

A document lists types with their members, references, and the texts of source files.  All types
are declared before anything is linked, all links are made before any body is read, and source
files that the document does not hold are taken from the files at hand.
-/

namespace SymbolAtlas
namespace Index

open Building

def readBody (root : String) (pending : PendingBody) : Building Unit := do
  match (← get).symbols.get? pending.method with
  | none => throw (.misuse .unknownKey)
  | some method =>
      let tree ← Body.read ⟨root, pending.file, "body of " ++ method.display⟩ pending.body
      modify fun d => d.putBody pending.method tree

/-- The id of the type or the member that a name stands for. -/
def referencedId (name : String) : Building String := do
  match (← get).typeNames.get? name with
  | some id => pure id
  | none =>
      let symbol ← MemberName.resolve name "references" none none
      pure symbol.id

def readReferences (root : String) (entry : Value) : Building Unit := do
  refuseIf (!entry.isMapping) .referenceNotAMapping
  let given ← Entry.required entry "symbol" "references entry"
  Entry.mustWrite given
  let name := given.plain
  let id ← referencedId name
  let items ← allowing (entry.field "locations").itemsIfPresent
  let locations ← forAll
    (fun item => liftM (Entry.writtenLocation root item ("references of " ++ name))) items
  modify fun d => d.putReferences id locations

def entriesIfPresent (v : Value) : Attempt (List (Value × Value)) :=
  if v.isPresent then
    match v with
    | .mapping entries => .ok entries
    | _ => misused .noSuchOperation
  else .ok []

/-- The text of a file and its path, which a document gives as an entry. -/
def readFile (root : String) (entry : Value × Value) : Building Unit := do
  Entry.mustWrite entry.2
  Entry.mustWrite entry.1
  modify fun d =>
    d.putSourceLines (Entry.pathFrom root entry.1.plain) (Text.lines entry.2.plain)

def readFiles (root : String) (data : Value) : Building Unit := do
  let entries ← entriesIfPresent (data.field "files")
  forEach (readFile root) entries

def mentionedFiles (t : Tables) : List String :=
  Link.distinct
    (t.symbols.values.filterMap (fun s => s.location.map Location.file) ++
      t.spans.values.map Span.file)

/-- Adds the lines of a mentioned file that is at hand and not known yet. -/
def addSourceFile (disk : Disk) (d : Draft) (file : String) : Draft :=
  if d.sourceLines.contains file then d
  else
    match disk.read? file with
    | some text => d.putSourceLines file (Text.lines text)
    | none => d

def typesOf (data : Value) : Attempt (List Value) :=
  let types := data.field "types"
  if types.isPresent then
    match types with
    | .list types => .ok types
    | _ => SymbolAtlas.refuse .typesNotAList
  else .ok []

/-- The whole course of reading a document. -/
def readDocument (disk : Disk) (root : String) (data : Value) : Building Unit := do
  let types ← typesOf data
  forEach (Declaration.declareType root) types
  forEach (fun (id, data) => Link.linkType id data) (← get).pendingLinks
  forEach (fun (id, data) => Link.linkMember id data) (← get).pendingMembers
  forEach (readBody root) (← get).pendingBodies
  let entries ← allowing (data.field "references").itemsIfPresent
  forEach (readReferences root) entries
  readFiles root data
  modify fun d => (mentionedFiles d.toTables).foldl (addSourceFile disk) d

/-- The tables of a document, which has to be a mapping. -/
def tables (disk : Disk) (root : String) (data : Value) : Attempt Tables :=
  if data.isMapping then (readDocument disk root data Draft.empty).map fun (_, d) => d.toTables
  else misused .noSuchOperation

end Index
end SymbolAtlas
