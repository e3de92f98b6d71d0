import SymbolAtlas.Text.Blank
import SymbolAtlas.Text.Cut

/-!
# Paths

A path is a text whose parts are separated by slashes.  It is brought into normal form by its
spelling alone: empty parts and single dots vanish, and two dots take back the part before them.
Exactly two slashes at the start are kept apart from one, since they may name another root.
-/

namespace SymbolAtlas
namespace Path

def isAbsolute (path : String) : Bool :=
  path.toList.head? == some '/'

def parts (path : String) : List String :=
  (Text.splitWhere (· == '/') path.toList).map String.ofList

def join (directory path : String) : String :=
  if isAbsolute path then path
  else if directory.isEmpty || directory.toList.getLast? == some '/' then directory ++ path
  else directory ++ "/" ++ path

/-- The slashes that an absolute path keeps at its start. -/
def rootMark (path : String) : String :=
  match path.toList with
  | '/' :: '/' :: '/' :: _ => "/"
  | '/' :: '/' :: _ => "//"
  | '/' :: _ => "/"
  | _ => ""

def pushPart (rooted : Bool) (before : List String) (part : String) : List String :=
  if part = "" ∨ part = "." then before
  else if part = ".." then
    match before with
    | [] => if rooted then [] else [".."]
    | last :: rest => if last = ".." then ".." :: before else rest
  else part :: before

def normalize (path : String) : String :=
  let mark := rootMark path
  let kept := ((parts path).foldl (pushPart (!mark.isEmpty)) []).reverse
  let normal := mark ++ "/".intercalate kept
  if normal.isEmpty then "." else normal

/-- The parts of a path that name something; two dots are kept as they are. -/
def names (path : String) : List String :=
  (parts path).filter fun part => part != "" && part != "."

/-- The last name of a path, empty if it has none. -/
def lastName (path : String) : String :=
  (names path).getLast?.getD ""

def parent (path : String) : String :=
  match Text.cutAtLast? '/' path.toList with
  | some ([], _) => "/"
  | some (before, _) => String.ofList before
  | none => "."

/-- What a name has from its last point on, if something stands on both sides of that point. -/
def extension (path : String) : String :=
  match Text.cutAtLast? '.' (lastName path).toList with
  | some (_ :: _, ending) => if ending.isEmpty then "" else String.ofList ('.' :: ending)
  | _ => ""

/-- The absolute normal form of a path seen from a directory, with a single slash at its start. -/
def resolve (directory path : String) : String :=
  let normal := normalize (join directory path)
  match normal.toList with
  | '/' :: '/' :: rest => String.ofList ('/' :: rest)
  | _ => normal

/-- No file has a name with the character zero. -/
def isBroken (path : String) : Bool :=
  path.toList.contains '\x00'

end Path
end SymbolAtlas
