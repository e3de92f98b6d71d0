/-!
# Code points and lone surrogates

A document may spell one half of a surrogate pair on its own.  No `Char` has such a code point,
so a text carries it as one of 2048 private-use characters set aside for the purpose.  Lengths,
searches and cuts then see a single character, while the order of texts and every written form
go through `codePoint`, which gives back the surrogate that a carrier stands for.
-/

namespace SymbolAtlas
namespace Text

/-- The first of the characters that stand for lone surrogates. -/
def carrierBase : Nat := 0x10E000

def surrogateCount : Nat := 0x800

def isSurrogate (n : Nat) : Bool :=
  0xD800 ≤ n && n < 0xE000

def isCarrier (c : Char) : Bool :=
  carrierBase ≤ c.toNat && c.toNat < carrierBase + surrogateCount

/-- The code point that a character of a text stands for. -/
def codePoint (c : Char) : Nat :=
  if isCarrier c then c.toNat - carrierBase + 0xD800 else c.toNat

def ofCodePoint? (n : Nat) : Option Char :=
  if isSurrogate n then some (Char.ofNat (n - 0xD800 + carrierBase))
  else if n < 0x110000 then some (Char.ofNat n)
  else none

/-- The code points of a text: the key that texts are ordered by. -/
def orderKey (s : String) : List Nat :=
  s.toList.map codePoint

/-- One list comes before another, or is the same, when the first difference says so; a list comes
before its own continuations. -/
def listPrecedes : List Nat → List Nat → Bool
  | [], _ => true
  | _ :: _, [] => false
  | n :: as, m :: bs => if n = m then listPrecedes as bs else n < m

def precedes (a b : String) : Bool :=
  listPrecedes (orderKey a) (orderKey b)

/-- The hexadecimal digits of a number, at least `width` of them. -/
def hexadecimal (width n : Nat) : List Char :=
  let digits := Nat.toDigits 16 n
  List.replicate (width - digits.length) '0' ++ digits

end Text
end SymbolAtlas
