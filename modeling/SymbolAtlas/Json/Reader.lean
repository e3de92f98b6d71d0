import SymbolAtlas.Number.Digits
import SymbolAtlas.Text.CodePoint
import SymbolAtlas.Value.Basic

/-!
# Reading JSON

A reader takes the characters in front of it and returns a value with the characters it left.
Besides the standard it accepts the three names of numbers that are not finite, and keeps the last
of several entries with one key in the place of the first.  Whole numbers stay exact, and all other
numbers are rounded once.
-/

namespace SymbolAtlas
namespace Json

open Text

def isSpace (c : Char) : Bool :=
  c == ' ' || c == '\t' || c == '\n' || c == '\r'

def skipSpace (cs : List Char) : List Char :=
  cs.dropWhile isSpace

def hexValue? (c : Char) : Option Nat :=
  if c.isDigit then some (c.toNat - '0'.toNat)
  else if 'a' ≤ c ∧ c ≤ 'f' then some (c.toNat - 'a'.toNat + 10)
  else if 'A' ≤ c ∧ c ≤ 'F' then some (c.toNat - 'A'.toNat + 10)
  else none

def readUnit? : List Char → Option (Nat × List Char)
  | a :: b :: c :: d :: rest => do
      let a ← hexValue? a
      let b ← hexValue? b
      let c ← hexValue? c
      let d ← hexValue? d
      return (((a * 16 + b) * 16 + c) * 16 + d, rest)
  | _ => none

/-- The character of a single-letter escape. -/
def escapedChar? : Char → Option Char
  | '"' => some '"'
  | '\\' => some '\\'
  | '/' => some '/'
  | 'b' => some '\x08'
  | 'f' => some '\x0c'
  | 'n' => some '\n'
  | 'r' => some '\r'
  | 't' => some '\t'
  | _ => none

/-- The code point of an escape, a high and a low surrogate in a row making one. -/
def readCodePoint? (cs : List Char) : Option (Char × List Char) := do
  let (unit, rest) ← readUnit? cs
  let single := (ofCodePoint? unit).map fun c => (c, rest)
  if 0xD800 ≤ unit ∧ unit < 0xDC00 then
    match rest with
    | '\\' :: 'u' :: more =>
        match readUnit? more with
        | some (low, after) =>
            if 0xDC00 ≤ low ∧ low < 0xE000 then
              (ofCodePoint? (0x10000 + (unit - 0xD800) * 0x400 + (low - 0xDC00))).map
                fun c => (c, after)
            else single
        | none => single
    | _ => single
  else single

/-- The rest of a string after its opening quote; `done` is what was read, reversed. -/
def readStringFrom? (done : List Char) : Nat → List Char → Option (String × List Char)
  | 0, _ => none
  | _ + 1, [] => none
  | _ + 1, '"' :: rest => some (String.ofList done.reverse, rest)
  | fuel + 1, '\\' :: 'u' :: rest =>
      match readCodePoint? rest with
      | some (c, after) => readStringFrom? (c :: done) fuel after
      | none => none
  | fuel + 1, '\\' :: e :: rest =>
      match escapedChar? e with
      | some c => readStringFrom? (c :: done) fuel rest
      | none => none
  | fuel + 1, c :: rest =>
      if c = '\\' ∨ c.toNat < 32 then none else readStringFrom? (c :: done) fuel rest

def spanDigits (cs : List Char) : List Char × List Char :=
  cs.span Char.isDigit

/-- An exponent, if one is spelled out in full. -/
def readExponent (cs : List Char) : Option (Int × List Char) :=
  match cs with
  | e :: rest =>
      if e = 'e' ∨ e = 'E' then
        let (negative, rest) :=
          match rest with
          | '-' :: r => (true, r)
          | '+' :: r => (false, r)
          | r => (false, r)
        match spanDigits rest with
        | ([], _) => none
        | (digits, after) =>
            (Number.valueOfDigits? 0 digits).map fun n =>
              (if negative then -(n : Int) else n, after)
      else none
  | [] => none

/-- A fraction, if one is spelled out in full. -/
def readFraction (cs : List Char) : Option (List Char × List Char) :=
  match cs with
  | '.' :: rest =>
      match spanDigits rest with
      | ([], _) => none
      | found => some found
  | _ => none

/-- The whole part of a number, in which a leading zero stands alone. -/
def spanWhole : List Char → List Char × List Char
  | '0' :: rest => (['0'], rest)
  | cs => spanDigits cs

def readUnsigned? (negative : Bool) (cs : List Char) : Option (Value × List Char) := do
  let (digits, rest) := spanWhole cs
  if digits.isEmpty then none
  let fraction := readFraction rest
  let (fractionDigits, rest) := fraction.getD ([], rest)
  let exponent := readExponent rest
  let (power, rest) := exponent.getD (0, rest)
  if fraction.isNone && exponent.isNone then
    if Number.digitLimit < digits.length then none
    let n ← Number.valueOfDigits? 0 digits
    return (.int (if negative then -(n : Int) else n), rest)
  else
    let n ← Number.valueOfDigits? 0 (digits ++ fractionDigits)
    return (.float (.ofDecimal negative n (power - fractionDigits.length)), rest)

/-- The rest of a text that begins with a name. -/
def afterName? (name : String) (cs : List Char) : Option (List Char) :=
  let letters := name.toList
  if letters.isPrefixOf cs then some (cs.drop letters.length) else none

def readName? (cs : List Char) : Option (Value × List Char) :=
  let names : List (String × Value) :=
    [("null", .null), ("true", .bool true), ("false", .bool false), ("NaN", .float .notANumber),
     ("Infinity", .float (.infinite false)), ("-Infinity", .float (.infinite true))]
  names.findSome? fun (name, value) => (afterName? name cs).map fun rest => (value, rest)

mutual

/-- One value; `fuel` bounds the number of values, items and entries still to read. -/
def readValue? : Nat → List Char → Option (Value × List Char)
  | 0, _ => none
  | fuel + 1, cs =>
      match cs with
      | '"' :: rest =>
          (readStringFrom? [] (rest.length + 1) rest).map fun (s, after) => (.text s, after)
      | '[' :: rest =>
          match skipSpace rest with
          | ']' :: after => some (.list [], after)
          | rest => readItems? fuel [] rest
      | '\x7b' :: rest =>
          match skipSpace rest with
          | '\x7d' :: after => some (.mapping [], after)
          | rest => readEntries? fuel [] rest
      | cs =>
          match readName? cs with
          | some found => some found
          | none =>
              match cs with
              | '-' :: rest => readUnsigned? true rest
              | cs => readUnsigned? false cs

/-- The items of a list up to its end; `done` is what was read, reversed. -/
def readItems? : Nat → List Value → List Char → Option (Value × List Char)
  | 0, _, _ => none
  | fuel + 1, done, cs =>
      match readValue? fuel (skipSpace cs) with
      | none => none
      | some (v, rest) =>
          match skipSpace rest with
          | ']' :: after => some (.list (v :: done).reverse, after)
          | ',' :: after => readItems? fuel (v :: done) after
          | _ => none

def readEntries? : Nat → List (Value × Value) → List Char → Option (Value × List Char)
  | 0, _, _ => none
  | fuel + 1, done, cs =>
      match skipSpace cs with
      | '"' :: rest =>
          match readStringFrom? [] (rest.length + 1) rest with
          | none => none
          | some (key, rest) =>
              match skipSpace rest with
              | ':' :: rest =>
                  match readValue? fuel (skipSpace rest) with
                  | none => none
                  | some (v, rest) =>
                      let entries := Value.putEntry done (.text key) v
                      match skipSpace rest with
                      | '\x7d' :: after => some (.mapping entries, after)
                      | ',' :: after => readEntries? fuel entries after
                      | _ => none
              | _ => none
      | _ => none

end

def read? (cs : List Char) : Option Value :=
  match readValue? (cs.length + 1) (skipSpace cs) with
  | some (v, rest) => if (skipSpace rest).isEmpty then some v else none
  | none => none

end Json
end SymbolAtlas
