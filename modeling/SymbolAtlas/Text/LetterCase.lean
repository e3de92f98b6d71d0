import SymbolAtlas.Text.CaseTable
import SymbolAtlas.Text.Word

/-!
# Lower, upper and capitalized texts

The full letter-case forms, one character at a time, with one exception: a capital sigma becomes
its final form when a letter stands before it and none behind it.  Capitalizing gives the title
form to the first character and the lower form to all others.
-/

namespace SymbolAtlas
namespace Text

def CaseRun.holds (run : CaseRun) (n : Nat) : Bool :=
  run.first ≤ n && n ≤ run.last && (n - run.first) % run.step == 0

/-- The other form of a character beyond ASCII, itself if it has none. -/
def caseForm (runs : List CaseRun) (spellings : List (Nat × List Nat)) (c : Char) : List Char :=
  let n := c.toNat
  match runs.find? (·.holds n) with
  | some run => [Char.ofNat (Int.toNat (n + run.shift))]
  | none =>
      match spellings.find? (·.1 == n) with
      | some (_, spelling) => spelling.map Char.ofNat
      | none => [c]

def lowerForm (c : Char) : List Char :=
  if c.toNat < 128 then [c.toLower] else caseForm lowerRuns lowerSpellings c

def upperForm (c : Char) : List Char :=
  if c.toNat < 128 then [c.toUpper] else caseForm upperRuns upperSpellings c

def titleForm (c : Char) : List Char :=
  if c.toNat < 128 then [c.toUpper] else caseForm titleRuns titleSpellings c

def isCased (c : Char) : Bool :=
  if c.toNat < 128 then c.isAlpha else inRanges casedRanges c.toNat

def isCaseIgnorable (c : Char) : Bool :=
  inRanges caseIgnorableRanges c.toNat

/-- The nearest neighbour that is not passed over has a case. -/
def meetsCased (neighbours : List Char) : Bool :=
  match neighbours.dropWhile isCaseIgnorable with
  | [] => false
  | c :: _ => isCased c

/-- A sigma ends a word when a letter stands before it and none behind it. -/
def endsWord (before after : List Char) : Bool :=
  meetsCased before && !meetsCased after

/-- The lower form of what follows the reversed text `before`. -/
def lowerAfter (before : List Char) : List Char → List Char
  | [] => []
  | c :: rest =>
      (if c = 'Σ' then [if endsWord before rest then 'ς' else 'σ'] else lowerForm c) ++
        lowerAfter (c :: before) rest

def lower (s : String) : String :=
  String.ofList (lowerAfter [] s.toList)

def upper (s : String) : String :=
  String.ofList (s.toList.flatMap upperForm)

def capitalized (s : String) : String :=
  match s.toList with
  | [] => ""
  | c :: rest => String.ofList (titleForm c ++ lowerAfter [c] rest)

end Text
end SymbolAtlas
