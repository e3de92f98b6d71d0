import SymbolAtlas.Json.Reader
import SymbolAtlas.Yaml.Spot

/-!
# What plain scalars mean

A plain scalar that looks like a null, a truth value, a number or a point in time is one; every
other one is a text.  Numbers may be grouped by underscores and may count in sixties, with colons
between the places.  Looking like a number or a day is a matter of form alone: a form without a
value, such as the thirtieth of February, is a flaw and not a text.
-/

namespace SymbolAtlas
namespace Yaml
namespace Schema

/-- The characters ahead that satisfy a condition, and what follows. -/
def span (p : Char → Bool) (cs : List Char) : List Char × List Char :=
  (cs.takeWhile p, cs.dropWhile p)

def isGrouped (isDigit : Char → Bool) (c : Char) : Bool :=
  isDigit c || c == '_'

def ungrouped (cs : List Char) : List Char :=
  cs.filter (· != '_')

/-- A sign in front of a number, and what follows. -/
def signOf : List Char → Bool × List Char
  | '-' :: rest => (true, rest)
  | '+' :: rest => (false, rest)
  | cs => (false, cs)

def isBinary (c : Char) : Bool :=
  c == '0' || c == '1'

def isOctal (c : Char) : Bool :=
  '0' ≤ c && c ≤ '7'

def isHexadecimal (c : Char) : Bool :=
  (Json.hexValue? c).isSome

def valueIn (base : Nat) (digits : List Char) : Nat :=
  digits.foldl (fun n c => base * n + (Json.hexValue? c).getD 0) 0

/-- The number that decimal digits spell; there is a limit to their number. -/
def decimalValue (digits : List Char) : Except Flaw Nat :=
  if digits.isEmpty || Number.digitLimit < digits.length then .error (.misuse .notANumeral)
  else .ok (valueIn 10 digits)

/-- The number behind the mark of a base. -/
def markedValue (base : Nat) (digits : List Char) : Except Flaw Nat :=
  if digits.isEmpty then .error (.misuse .notANumeral) else .ok (valueIn base digits)

/-- A place in a number that counts in sixties: one or two digits, the first of two below six. -/
def isPlaceOfSixty : List Char → Bool
  | [a] => a.isDigit
  | [a, b] => '0' ≤ a && a ≤ '5' && b.isDigit
  | _ => false

def partsOf (cs : List Char) : List (List Char) :=
  Text.splitWhere (· == ':') cs

/-- A first place with groups of digits. -/
def startsNumber (isFirst : Char → Bool) : List Char → Bool
  | [] => false
  | c :: rest => isFirst c && rest.all (isGrouped Char.isDigit)

/-- The natural number of a form without a sign, if it has the form of one. -/
def natural? (cs : List Char) : Option (Except Flaw Nat) :=
  let isPositive (c : Char) : Bool := '1' ≤ c && c ≤ '9'
  match cs with
  | ['0'] => some (.ok 0)
  | '0' :: 'b' :: digits =>
      if !digits.isEmpty && digits.all (isGrouped isBinary) then
        some (markedValue 2 (ungrouped digits))
      else none
  | '0' :: 'x' :: digits =>
      if !digits.isEmpty && digits.all (isGrouped isHexadecimal) then
        some (markedValue 16 (ungrouped digits))
      else none
  | '0' :: digits =>
      if digits.all (isGrouped isOctal) then some (.ok (valueIn 8 (ungrouped digits))) else none
  | cs =>
      match partsOf cs with
      | [digits] =>
          if startsNumber isPositive digits then some (decimalValue (ungrouped digits)) else none
      | first :: places =>
          if startsNumber isPositive first && places.all isPlaceOfSixty then
            some ((first :: places).foldl
              (fun n part => do return 60 * (← n) + (← decimalValue (ungrouped part))) (.ok 0))
          else none
      | [] => none

/-- The whole number that a text has the form of. -/
def whole? (cs : List Char) : Option (Except Flaw Value) :=
  let (isNegative, body) := signOf cs
  (natural? body).map fun n => n.map fun n => .int (if isNegative then -(n : Int) else n)

def exponent? : List Char → Option Int
  | [] => some 0
  | e :: sign :: digits =>
      if (e == 'e' || e == 'E') && (sign == '-' || sign == '+') && !digits.isEmpty &&
          digits.all Char.isDigit then
        let n := valueIn 10 digits
        some (if sign == '-' then -(n : Int) else n)
      else none
  | _ => none

def fraction (isNegative : Bool) (before behind : List Char) (power : Int) : Binary64 :=
  let before := ungrouped before
  let behind := ungrouped behind
  .ofDecimal isNegative (valueIn 10 (before ++ behind)) (power - behind.length)

/-- A number with a point and perhaps an exponent, without a sign. -/
def pointed? (isNegative : Bool) (cs : List Char) : Option Binary64 :=
  let (before, rest) := span (isGrouped Char.isDigit) cs
  match rest with
  | '.' :: rest =>
      let (behind, rest) := span (isGrouped Char.isDigit) rest
      if startsNumber Char.isDigit before ||
          (before.isEmpty && startsNumber Char.isDigit behind) then
        (exponent? rest).map (fraction isNegative before behind)
      else none
  | _ => none

def addPlaces : List Binary64 → Nat → Binary64 → Except Flaw Binary64
  | [], _, sum => .ok sum
  | place :: rest, unit, sum =>
      match Binary64.ofInt unit with
      | .infinite _ => .error (.misuse .tooLarge)
      | unitValue => addPlaces rest (60 * unit) (sum.add (place.mul unitValue))

/-- A number that counts in sixties and has a point in its last place, without a sign. -/
def sixties? (cs : List Char) : Option (Except Flaw Binary64) :=
  match (partsOf cs).reverse with
  | last :: middle =>
      let (place, rest) := span Char.isDigit last
      match rest, middle.reverse with
      | '.' :: behind, first :: places =>
          if isPlaceOfSixty place && behind.all (isGrouped Char.isDigit) &&
              startsNumber Char.isDigit first && places.all isPlaceOfSixty then
            let lastPlace := fraction false place behind 0
            some (addPlaces (lastPlace :: middle.map fun p => fraction false p [] 0) 1
              (.zero false))
          else none
      | _, _ => none
  | [] => none

/-- The names of the numbers that are not finite. -/
def isInfinityName (s : String) : Bool :=
  [".inf", ".Inf", ".INF"].contains s

def isUndefinedName (s : String) : Bool :=
  [".nan", ".NaN", ".NAN"].contains s

/-- The binary fraction that a text has the form of. -/
def real? (cs : List Char) : Option (Except Flaw Value) :=
  let (isNegative, body) := signOf cs
  let hasSign := body.length < cs.length
  if isInfinityName (String.ofList body) then some (.ok (.float (.infinite isNegative)))
  else if isUndefinedName (String.ofList cs) then some (.ok (.float .notANumber))
  else
    match pointed? isNegative body with
    | some x => if hasSign && body.head? == some '.' then none else some (.ok (.float x))
    | none =>
        (sixties? body).map fun x =>
          x.map fun x => .float (if isNegative then x.neg else x)

def isLeapYear (year : Nat) : Bool :=
  year % 4 == 0 && (year % 100 != 0 || year % 400 == 0)

def daysIn (year month : Nat) : Nat :=
  if month == 2 then if isLeapYear year then 29 else 28
  else if [4, 6, 9, 11].contains month then 30
  else 31

/-- The calendar and the clock know such a point in time. -/
def isPossible (t : Timestamp) : Bool :=
  1 ≤ t.year && 1 ≤ t.month && t.month ≤ 12 && 1 ≤ t.day && t.day ≤ daysIn t.year t.month &&
    (t.time.all fun (hour, minute, second, _) => hour < 24 && minute < 60 && second < 60) &&
    t.zone.all fun z => z.natAbs < 24 * 60

/-- A number of digits between two bounds, as many as there are, and what follows. -/
def digits? (least most : Nat) (cs : List Char) : Option (Nat × List Char) :=
  let found := (cs.take most).takeWhile Char.isDigit
  if found.length < least then none else some (valueIn 10 found, cs.drop found.length)

/-- What follows a character that has to stand ahead. -/
def after? (c : Char) : List Char → Option (List Char)
  | d :: rest => if d == c then some rest else none
  | [] => none

/-- Millionths of a second: the first six digits behind a point. -/
def micros (cs : List Char) : Nat :=
  valueIn 10 ((cs ++ List.replicate 6 '0').take 6)

/-- A zone behind a time: a letter for the prime meridian, or hours and minutes from it. -/
def zone? (cs : List Char) : Option (Option Int) :=
  let behind := cs.dropWhile isSpace
  match behind with
  | [] => if cs.isEmpty then some none else none
  | ['Z'] => some (some 0)
  | sign :: rest =>
      if sign == '-' || sign == '+' then do
        let (hours, rest) ← digits? 1 2 rest
        let minutes ←
          match rest with
          | [] => some 0
          | rest => do
              let (minutes, rest) ← digits? 2 2 (← after? ':' rest)
              if rest.isEmpty then some minutes else none
        let distance : Int := hours * 60 + minutes
        return some (if sign == '-' then -distance else distance)
      else none

/-- A time of day with its zone, behind the gap or letter that sets it apart from the day. -/
def time? (cs : List Char) : Option ((Nat × Nat × Nat × Nat) × Option Int) := do
  let rest ←
    match cs with
    | [] => none
    | c :: rest =>
        if c == 'T' || c == 't' then some rest
        else if isSpace c then some (rest.dropWhile isSpace)
        else none
  let (hour, rest) ← digits? 1 2 rest
  let (minute, rest) ← digits? 2 2 (← after? ':' rest)
  let (second, rest) ← digits? 2 2 (← after? ':' rest)
  let (fractionDigits, rest) :=
    match rest with
    | '.' :: rest => span Char.isDigit rest
    | rest => ([], rest)
  let zone ← zone? rest
  return ((hour, minute, second, micros fractionDigits), zone)

/-- The point in time that a text has the form of: a day with two digits for month and day, or a
day and a time. -/
def timestamp? (cs : List Char) : Option Timestamp := do
  let (year, rest) ← digits? 4 4 cs
  let rest ← after? '-' rest
  let (month, behindMonth) ← digits? 1 2 rest
  let (day, behindDay) ← digits? 1 2 (← after? '-' behindMonth)
  if behindDay.isEmpty then
    if cs.length = 10 then some ⟨year, month, day, none, none⟩ else none
  else
    let (time, zone) ← time? behindDay
    some ⟨year, month, day, some time, zone⟩

def isNullName (s : String) : Bool :=
  ["", "~", "null", "Null", "NULL"].contains s

/-- The names of the two truth values, each in three letter cases. -/
def isTrueName (s : String) : Bool :=
  ["yes", "Yes", "YES", "true", "True", "TRUE", "on", "On", "ON"].contains s

def isFalseName (s : String) : Bool :=
  ["no", "No", "NO", "false", "False", "FALSE", "off", "Off", "OFF"].contains s

/-- The key whose value is taken over entry by entry. -/
def mergeMark : String := "<<"

/-- The mark of a value that speaks for its mapping; it is a text only as a key. -/
def defaultMark : String := "="

def valueOf (s : String) : Except Flaw Value :=
  let cs := s.toList
  if isNullName s then .ok .null
  else if isTrueName s then .ok (.bool true)
  else if isFalseName s then .ok (.bool false)
  else if s == mergeMark || s == defaultMark then .error (.flaw "a mark stands for no value")
  else
    match real? cs <|> whole? cs with
    | some value => value
    | none =>
        match timestamp? cs with
        | some t => if isPossible t then .ok (.stamp t) else .error (.misuse .noSuchDay)
        | none => .ok (.text s)

end Schema
end Yaml
end SymbolAtlas
