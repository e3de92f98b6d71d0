import SymbolAtlas.Number.Shortest
import SymbolAtlas.Text.CodePoint
import SymbolAtlas.Value.Text

/-!
# Writing JSON

Values are written without spaces and in ASCII; a character beyond ASCII is escaped by its UTF-16
units, and a lone surrogate by its own.  Entries keep their order.
-/

namespace SymbolAtlas
namespace Json

open Text

def escapedUnit (n : Nat) : List Char :=
  '\\' :: 'u' :: hexadecimal 4 n

def escaped (c : Char) : List Char :=
  let n := codePoint c
  if c = '"' ∨ c = '\\' then ['\\', c]
  else if 32 ≤ n ∧ n < 127 then [c]
  else if n < 0x10000 then escapedUnit n
  else escapedUnit (0xD800 + (n - 0x10000) / 0x400) ++ escapedUnit (0xDC00 + (n - 0x10000) % 0x400)

def writeText (s : String) : String :=
  String.ofList ('"' :: s.toList.flatMap escaped ++ ['"'])

def writeFloat : Binary64 → String
  | .notANumber => "NaN"
  | .infinite negative => if negative then "-Infinity" else "Infinity"
  | x => x.text

def writeKey : Value → String
  | .null => writeText "null"
  | .bool b => writeText (if b then "true" else "false")
  | k => writeText k.plain

mutual

def write : Value → String
  | .null => "null"
  | .bool b => if b then "true" else "false"
  | .int n => Number.wholeText n
  | .float x => writeFloat x
  | .text s => writeText s
  | .stamp t => writeText t.text
  | .list items => "[" ++ ",".intercalate (writeItems items) ++ "]"
  | .mapping entries => "\x7b" ++ ",".intercalate (writeEntries entries) ++ "\x7d"

def writeItems : List Value → List String
  | [] => []
  | v :: rest => write v :: writeItems rest

def writeEntries : List (Value × Value) → List String
  | [] => []
  | (k, v) :: rest => (writeKey k ++ ":" ++ write v) :: writeEntries rest

end

end Json
end SymbolAtlas
