import SymbolAtlas.Number.Shortest
import SymbolAtlas.Text.Quoted
import SymbolAtlas.Value.Basic

/-!
# The text of a value

Messages and names show values.  A text shows as it is, except inside a list or a mapping, where
it is quoted; everything else has one spelling.  A number with too many digits cannot be written,
and neither can a list or a mapping with such a number in it.
-/

namespace SymbolAtlas

def padded (width n : Nat) : String :=
  let digits := Number.naturalDigits n
  String.ofList (List.replicate (width - digits.length) '0' ++ digits)

namespace Timestamp

/-- A zone as a sign, hours and minutes. -/
def zoneText (minutes : Int) : String :=
  (if minutes < 0 then "-" else "+") ++ padded 2 (minutes.natAbs / 60) ++ ":" ++
    padded 2 (minutes.natAbs % 60)

def text (t : Timestamp) : String :=
  let date := padded 4 t.year ++ "-" ++ padded 2 t.month ++ "-" ++ padded 2 t.day
  match t.time with
  | none => date
  | some (hour, minute, second, micro) =>
      date ++ " " ++ padded 2 hour ++ ":" ++ padded 2 minute ++ ":" ++ padded 2 second ++
        (if micro = 0 then "" else "." ++ padded 6 micro) ++ (t.zone.map zoneText).getD ""

/-- The zone inside the spelling of a time: a distance in days and seconds, or the zero zone. -/
def spelledZone (minutes : Int) : String :=
  if minutes = 0 then "datetime.timezone.utc"
  else
    let days := Int.fdiv minutes 1440
    let seconds := (minutes - 1440 * days) * 60
    let parts :=
      (if days = 0 then [] else ["days=" ++ Number.wholeText days]) ++
        (if seconds = 0 then [] else ["seconds=" ++ Number.wholeText seconds])
    "datetime.timezone(datetime.timedelta(" ++ ", ".intercalate parts ++ "))"

/-- The spelling that a list or a message shows: the parts as arguments, trailing zero seconds and
microseconds left out. -/
def spelled (t : Timestamp) : String :=
  let day := [t.year, t.month, t.day]
  let join (parts : List Nat) : String :=
    ", ".intercalate (parts.map fun (n : Nat) => Number.wholeText n)
  match t.time with
  | none => "datetime.date(" ++ join day ++ ")"
  | some (hour, minute, second, micro) =>
      let tail := if micro ≠ 0 then [second, micro] else if second ≠ 0 then [second] else []
      let zone := (t.zone.map fun z => ", tzinfo=" ++ spelledZone z).getD ""
      "datetime.datetime(" ++ join (day ++ [hour, minute] ++ tail) ++ zone ++ ")"

end Timestamp

namespace Value

mutual

/-- The spelling of a value inside a list, a mapping or a message. -/
def spelled : Value → String
  | .null => "None"
  | .bool b => if b then "True" else "False"
  | .int n => Number.wholeText n
  | .float x => x.text
  | .text s => Text.quoted s
  | .stamp t => t.spelled
  | .list items => "[" ++ ", ".intercalate (spelledItems items) ++ "]"
  | .mapping entries => "\x7b" ++ ", ".intercalate (spelledEntries entries) ++ "\x7d"

def spelledItems : List Value → List String
  | [] => []
  | v :: rest => spelled v :: spelledItems rest

def spelledEntries : List (Value × Value) → List String
  | [] => []
  | (k, v) :: rest => (spelled k ++ ": " ++ spelled v) :: spelledEntries rest

end

/-- The text of a value, if it is writable. -/
def plain : Value → String
  | .text s => s
  | .stamp t => t.text
  | v => v.spelled

mutual

/-- Every number that the text of the value shows can be written. -/
def isWritable : Value → Bool
  | .int n => Number.isWritable n
  | .list items => areWritable items
  | .mapping entries => entriesAreWritable entries
  | _ => true

def areWritable : List Value → Bool
  | [] => true
  | v :: rest => isWritable v && areWritable rest

def entriesAreWritable : List (Value × Value) → Bool
  | [] => true
  | (k, v) :: rest => isWritable k && isWritable v && entriesAreWritable rest

end

end Value

def Number.text (n : Number) : String :=
  (Value.ofNumber n).plain

end SymbolAtlas
