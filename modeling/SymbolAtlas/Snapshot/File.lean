import SymbolAtlas.Snapshot.Basic
import SymbolAtlas.Yaml.Document

/-!
# Workspaces from index files

An index file is found by its path, told by its extension, and read as a document, which has to be
a mapping.  Its own directory is the root of the workspace unless the document names another one,
seen from there.
-/

namespace SymbolAtlas
namespace Snapshot

def indexExtensions : List String :=
  [".yaml", ".yml", ".json"]

def indexPath (disk : Disk) (path : String) : Except Misuse String := do
  let expanded ← disk.expandHome path
  if Path.isBroken expanded then throw .brokenPath
  pure (Path.resolve disk.directory expanded)

def documentOf (path text : String) : Attempt Value :=
  match Yaml.read text with
  | .ok document => .ok document
  | .error (.misuse m) => misused m
  | .error (.flaw reason) => refuse (.unreadableIndex path reason)

def rootOf (directory : String) (data : Value) : Except Misuse String :=
  let given := data.field "root"
  if given.isPresent then
    if !given.isWritable then .error .notANumeral
    else if Path.isBroken given.plain then .error .brokenPath
    else .ok (Path.resolve directory given.plain)
  else .ok directory

def ofFile (disk : Disk) (path : Value) : Attempt Snapshot := do
  match path with
  | .text path => do
      let found ← allowing (indexPath disk path)
      match disk.read? found with
      | none => refuse (.indexNotFound path)
      | some text => do
          let extension := Path.extension found
          if !indexExtensions.contains (Text.lower extension) then
            refuse (.unsupportedExtension extension)
          let data ← documentOf path text
          if !data.isMapping then refuse (.indexNotAMapping path)
          let root ← allowing (rootOf (Path.parent found) data)
          ofDocument disk data root (some found)
  | _ => misused .notAPath

end Snapshot
end SymbolAtlas
