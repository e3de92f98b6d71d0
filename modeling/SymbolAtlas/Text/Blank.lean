/-!
# Blanks, words and lines

The blank characters are the whole white-space class, separators of lines, paragraphs and files
included.  Trimming drops blanks at the ends, words are what blanks leave apart, and a text is
cut into lines at every character that ends one, a carriage return with its line feed counting once.
-/

namespace SymbolAtlas
namespace Text

def isBlank (c : Char) : Bool :=
  let n := c.toNat
  (9 ≤ n && n ≤ 13) || (28 ≤ n && n ≤ 32) || n == 0x85 || n == 0xA0 || n == 0x1680 ||
    (0x2000 ≤ n && n ≤ 0x200A) || n == 0x2028 || n == 0x2029 || n == 0x202F ||
    n == 0x205F || n == 0x3000

def isLineEnd (c : Char) : Bool :=
  let n := c.toNat
  (10 ≤ n && n ≤ 13) || (28 ≤ n && n ≤ 30) || n == 0x85 || n == 0x2028 || n == 0x2029

def trimStart (p : Char → Bool) (cs : List Char) : List Char :=
  cs.dropWhile p

def trimBy (p : Char → Bool) (cs : List Char) : List Char :=
  ((cs.dropWhile p).reverse.dropWhile p).reverse

def trimChars (cs : List Char) : List Char :=
  trimBy isBlank cs

def trim (s : String) : String :=
  String.ofList (trimChars s.toList)

/-- The pieces between the characters of a class, empty ones included. -/
def splitWhere (p : Char → Bool) : List Char → List (List Char)
  | [] => [[]]
  | c :: rest =>
      if p c then [] :: splitWhere p rest
      else
        match splitWhere p rest with
        | [] => [[c]]
        | piece :: pieces => (c :: piece) :: pieces

/-- The runs of characters that are not blank. -/
def words (s : String) : List String :=
  ((splitWhere isBlank s.toList).filter (!·.isEmpty)).map String.ofList

/-- Walks the text once; `done` holds the finished lines and `line` the open one, both reversed. -/
def linesFrom (done : List String) (line : List Char) : List Char → List String
  | [] =>
      (if line.isEmpty then done else String.ofList line.reverse :: done).reverse
  | '\r' :: '\n' :: rest => linesFrom (String.ofList line.reverse :: done) [] rest
  | c :: rest =>
      if isLineEnd c then linesFrom (String.ofList line.reverse :: done) [] rest
      else linesFrom done (c :: line) rest

def lines (s : String) : List String :=
  linesFrom [] [] s.toList

end Text
end SymbolAtlas
