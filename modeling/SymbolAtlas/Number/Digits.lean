import SymbolAtlas.Text.Blank
import SymbolAtlas.Text.Word

/-!
# Decimal digits of whole numbers

Writing a whole number gives its decimal digits without leading zeros, after a minus sign if it
is negative.  Reading is more liberal: blanks around the number, a sign, digits of any script and
single underscores between digits are allowed.  No numeral, written or read, has more than
`digitLimit` digits.
-/

namespace SymbolAtlas
namespace Number

def digitChar (d : Nat) : Char :=
  Char.ofNat ('0'.toNat + d)

/-- The decimal digits of a natural number, most significant first. -/
def naturalDigits (n : Nat) : List Char :=
  if n < 10 then [digitChar n] else naturalDigits (n / 10) ++ [digitChar (n % 10)]

def wholeDigits : Int → List Char
  | .ofNat n => naturalDigits n
  | .negSucc n => '-' :: naturalDigits (n + 1)

/-- The text of a number, however many digits it has; whoever needs the text of a number of any
size asks first whether it is writable. -/
def wholeText (n : Int) : String :=
  String.ofList (wholeDigits n)

/-- The value of a run of decimal digits of any script, continuing from `value`. -/
def valueOfDigits? (value : Nat) : List Char → Option Nat
  | [] => some value
  | c :: rest =>
      match Text.digitValue? c with
      | some d => valueOfDigits? (10 * value + d) rest
      | none => none

/-- Drops the single underscores that stand between two digits of a numeral; any other underscore
refuses it. -/
def joinDigitGroups? : List Char → Option (List Char)
  | [] => some []
  | [c] => if c = '_' then none else some [c]
  | c :: '_' :: rest =>
      if c = '_' ∨ rest.isEmpty ∨ rest.head? = some '_' then none
      else (joinDigitGroups? rest).map (c :: ·)
  | c :: rest => if c = '_' then none else (joinDigitGroups? rest).map (c :: ·)

/-- The most digits that a numeral may have. -/
def digitLimit : Nat := 4300

/-- The digits of the number are few enough for a numeral. -/
def isWritable (n : Int) : Bool :=
  n.natAbs < Nat.pow 10 digitLimit

/-- The blanks that may surround a numeral: all but the four separators below the space. -/
def surroundsNumeral (c : Char) : Bool :=
  Text.isBlank c && !(28 ≤ c.toNat && c.toNat ≤ 31)

def readNatural? (cs : List Char) : Option Nat := do
  let digits ← joinDigitGroups? cs
  if digits.isEmpty ∨ digitLimit < digits.length then none
  else valueOfDigits? 0 digits

def readWhole? (s : String) : Option Int :=
  match Text.trimBy surroundsNumeral s.toList with
  | '-' :: digits => (readNatural? digits).map fun n => -(n : Int)
  | '+' :: digits => (readNatural? digits).map fun n => (n : Int)
  | digits => (readNatural? digits).map fun n => (n : Int)

end Number
end SymbolAtlas
