import SymbolAtlas.Misuse
import SymbolAtlas.Path

/-!
# Files at hand

The files that a workspace may read, with the directory that relative paths are seen from and the
home directory that a tilde stands for.  Files never change while a request runs, so they are
plain data here.
-/

namespace SymbolAtlas

structure Disk where
  directory : String
  home : String
  /-- The texts of the files, each under its absolute normal path. -/
  files : List (String × String)
  deriving Inhabited

namespace Disk

def empty : Disk where
  directory := "/"
  home := "/"
  files := []

def read? (disk : Disk) (path : String) : Option String :=
  if Path.isBroken path then none
  else disk.files.lookup (Path.resolve disk.directory path)

/-- A path that starts with a tilde seen from the home directory; no other user's home is known. -/
def expandHome (disk : Disk) (path : String) : Except Misuse String :=
  if Path.isAbsolute path then .ok path
  else
    match Path.names path with
    | "~" :: rest => .ok ("/".intercalate (disk.home :: rest))
    | first :: _ => if first.toList.head? == some '~' then .error .homeUnknown else .ok path
    | [] => .ok path

end Disk
end SymbolAtlas
