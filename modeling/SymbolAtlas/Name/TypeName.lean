import SymbolAtlas.Text.Blank
import SymbolAtlas.Text.Cut
import SymbolAtlas.Text.Word

/-!
# Canonical type names

Signatures are compared by type names in one spelling: without the words that say how an argument
is passed, without blanks and the global qualifier, and with the runtime name in place of every
keyword alias, in generic arguments and arrays as well.
-/

namespace SymbolAtlas
namespace TypeName

/-- Keyword aliases and the runtime names they stand for. -/
def aliases : List (String × String) :=
  [ ("bool", "System.Boolean"), ("byte", "System.Byte"), ("sbyte", "System.SByte"),
    ("char", "System.Char"), ("decimal", "System.Decimal"), ("double", "System.Double"),
    ("float", "System.Single"), ("int", "System.Int32"), ("uint", "System.UInt32"),
    ("long", "System.Int64"), ("ulong", "System.UInt64"), ("short", "System.Int16"),
    ("ushort", "System.UInt16"), ("object", "System.Object"), ("string", "System.String"),
    ("void", "System.Void"), ("nint", "System.IntPtr"), ("nuint", "System.UIntPtr") ]

/-- The qualifier that names the outermost namespace. -/
def globalMark : List Char :=
  "global::".toList

/-- The words in front of a type that say how an argument is passed, each with its space. -/
def passingWords : List (List Char) :=
  ["ref ".toList, "out ".toList, "in ".toList, "params ".toList, "this ".toList]

/-- The rest of a text that begins with a passing word. -/
def afterPassingWord? (cs : List Char) : Option (List Char) :=
  passingWords.findSome? fun word => Text.afterStart? word cs

/-- Drops all passing words in front; each costs a character, so the length bounds the steps. -/
def dropPassingWords : Nat → List Char → List Char
  | 0, cs => cs
  | steps + 1, cs =>
      match afterPassingWord? cs with
      | some rest => dropPassingWords steps (Text.trimStart Text.isBlank rest)
      | none => cs

def startsIdentifier (c : Char) : Bool :=
  c.isAlpha || c == '_'

def continuesPath (c : Char) : Bool :=
  Text.isWordChar c || c == '.'

/-- The runtime name of an alias, any other path as it is. -/
def canonicalPath (path : List Char) : List Char :=
  match aliases.lookup (String.ofList path) with
  | some name => name.toList
  | none => path

/-- Replaces the aliases among the dotted paths of a text; `open?` is the path being read,
reversed. -/
def replaceAliases : Option (List Char) → List Char → List Char
  | none, [] => []
  | some path, [] => canonicalPath path.reverse
  | none, c :: rest =>
      if startsIdentifier c then replaceAliases (some [c]) rest
      else c :: replaceAliases none rest
  | some path, c :: rest =>
      if continuesPath c then replaceAliases (some (c :: path)) rest
      else canonicalPath path.reverse ++ c :: replaceAliases none rest

def canonicalChars (cs : List Char) : List Char :=
  let bare := Text.eraseWord globalMark (Text.trimChars cs)
  let type := dropPassingWords bare.length bare
  replaceAliases none (type.filter fun c => !Text.isBlank c)

def canonical (name : String) : String :=
  String.ofList (canonicalChars name.toList)

end TypeName
end SymbolAtlas
