import SymbolAtlas.Misuse

/-!
# Spots in a YAML text

Reading goes from spot to spot.  A spot knows what is left of the text, how many characters are
behind it, and the line and column it has come to, both counted from zero.  A line ends at any of
five characters, a carriage return and a line feed together counting as one break.
-/

namespace SymbolAtlas
namespace Yaml

/-- Why a text could not be read: it breaks the rules of the format, or a scalar in it has the form
of a value that does not exist. -/
inductive Flaw where
  | flaw (reason : String)
  | misuse (m : Misuse)
  deriving DecidableEq

def isBreak (c : Char) : Bool :=
  c == '\n' || c == '\r' || c == '\x85' || c == '\u2028' || c == '\u2029'

def isSpace (c : Char) : Bool :=
  c == ' ' || c == '\t'

/-- A text starts with a space or a break, or is at its end. -/
def isGap : List Char → Bool
  | [] => true
  | c :: _ => isSpace c || isBreak c

/-- The character that may stand at the start of a text without being part of it. -/
def byteOrderMark : Char := '\uFEFF'

structure Spot where
  rest : List Char
  index : Nat := 0
  line : Nat := 0
  column : Nat := 0
  deriving Inhabited

namespace Spot

def next (s : Spot) : Spot :=
  match s.rest with
  | [] => s
  | c :: rest =>
      if isBreak c && !(c == '\r' && rest.head? == some '\n') then
        ⟨rest, s.index + 1, s.line + 1, 0⟩
      else
        ⟨rest, s.index + 1, s.line, if c == byteOrderMark then s.column else s.column + 1⟩

def forward : Nat → Spot → Spot
  | 0, s => s
  | n + 1, s => forward n s.next

/-- The characters ahead that satisfy a condition, and the spot behind them. -/
def takeWhile (p : Char → Bool) (s : Spot) : List Char × Spot :=
  let taken := s.rest.takeWhile p
  (taken, s.forward taken.length)

def skipWhile (p : Char → Bool) (s : Spot) : Spot :=
  (s.takeWhile p).2

def skipSpaces (s : Spot) : Spot :=
  s.skipWhile (· == ' ')

def skipLine (s : Spot) : Spot :=
  s.skipWhile fun c => !isBreak c

/-- A line break ahead: the character that it stands for, and the spot behind it. -/
def lineBreak? (s : Spot) : Option (Char × Spot) :=
  match s.rest with
  | '\r' :: '\n' :: _ => some ('\n', s.forward 2)
  | c :: _ =>
      if c == '\u2028' || c == '\u2029' then some (c, s.next)
      else if isBreak c then some ('\n', s.next)
      else none
  | [] => none

def isAtMark (mark : String) (s : Spot) : Bool :=
  s.rest.take 3 == mark.toList && isGap (s.rest.drop 3)

/-- A mark before or behind a document stands ahead. -/
def isAtSeparator (s : Spot) : Bool :=
  s.isAtMark "---" || s.isAtMark "..."

end Spot

/-- What folding makes of a line break and the breaks behind it: a single line feed turns into a
space, one with more breaks behind it vanishes. -/
def folded (first : Char) (more : List Char) : List Char :=
  if first != '\n' then first :: more else if more.isEmpty then [' '] else more

end Yaml
end SymbolAtlas
