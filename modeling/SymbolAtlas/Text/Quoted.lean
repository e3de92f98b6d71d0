import SymbolAtlas.Text.CodePoint
import SymbolAtlas.Text.PrintTable
import SymbolAtlas.Text.Word

/-!
# Quoted text

A text is quoted between apostrophes, or between double quotes if it has an apostrophe and no
double quote.  The quote and the backslash take a backslash, and every character without a
printed form is spelled by its code point with two, four or eight hexadecimal digits.
-/

namespace SymbolAtlas
namespace Text

def isPrintable (c : Char) : Bool :=
  if c.toNat < 128 then 32 ≤ c.toNat && c.toNat < 127
  else !isCarrier c && !inRanges unprintableRanges c.toNat

/-- The quote that a text is written between. -/
def quoteFor (cs : List Char) : Char :=
  if cs.contains '\'' && !cs.contains '"' then '"' else '\''

/-- A code point spelled with the fewest of two, four or eight digits. -/
def escapedCodePoint (n : Nat) : List Char :=
  if n < 0x100 then '\\' :: 'x' :: hexadecimal 2 n
  else if n < 0x10000 then '\\' :: 'u' :: hexadecimal 4 n
  else '\\' :: 'U' :: hexadecimal 8 n

def quotedChar (quote c : Char) : List Char :=
  if c = quote ∨ c = '\\' then ['\\', c]
  else if c = '\t' then ['\\', 't']
  else if c = '\n' then ['\\', 'n']
  else if c = '\r' then ['\\', 'r']
  else if isPrintable c then [c]
  else escapedCodePoint (codePoint c)

def quoted (s : String) : String :=
  let quote := quoteFor s.toList
  String.ofList (quote :: s.toList.flatMap (quotedChar quote) ++ [quote])

end Text
end SymbolAtlas
