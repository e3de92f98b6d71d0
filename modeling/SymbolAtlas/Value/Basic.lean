import SymbolAtlas.Misuse
import SymbolAtlas.Number.Basic

/-!
# Document values

What a parsed document is made of.  A mapping keeps its entries in the order in which their keys
first appear; its keys may be values of any scalar form.  The empty forms of every shape count as
absent, which is what defaults and switches go by.
-/

namespace SymbolAtlas

/-- A point in time as a document spells it: a day, or a day with a time and perhaps a zone. -/
structure Timestamp where
  year : Nat
  month : Nat
  day : Nat
  /-- Hours, minutes, seconds and microseconds. -/
  time : Option (Nat × Nat × Nat × Nat)
  /-- Minutes east of the prime meridian. -/
  zone : Option Int
  deriving DecidableEq, Repr, Inhabited

inductive Value where
  | null
  | bool (b : Bool)
  | int (n : Int)
  | float (x : Binary64)
  | text (s : String)
  | stamp (t : Timestamp)
  | list (items : List Value)
  | mapping (entries : List (Value × Value))
  deriving Inhabited

namespace Value

def number? : Value → Option Number
  | .bool b => some (.flag b)
  | .int n => some (.whole n)
  | .float x => some (.real x)
  | _ => none

def ofNumber : Number → Value
  | .flag b => .bool b
  | .whole n => .int n
  | .real x => .float x

def text? : Value → Option String
  | .text s => some s
  | _ => none

def isNull : Value → Bool
  | .null => true
  | _ => false

def isMapping : Value → Bool
  | .mapping _ => true
  | _ => false

def isList : Value → Bool
  | .list _ => true
  | _ => false

/-- A value counts as present unless it is null, false, zero or empty. -/
def isPresent : Value → Bool
  | .null => false
  | .bool b => b
  | .int n => n != 0
  | .float x => !x.isZero
  | .text s => !s.isEmpty
  | .stamp _ => true
  | .list items => !items.isEmpty
  | .mapping entries => !entries.isEmpty

/-- Two scalars are the same key when they are equal numbers, texts, times or both null.  As a key,
what is not a number equals itself. -/
def sameKey : Value → Value → Bool
  | .null, .null => true
  | .float .notANumber, .float .notANumber => true
  | .text s, .text t => s == t
  | .stamp s, .stamp t => s == t
  | a, b =>
      match a.number?, b.number? with
      | some x, some y => x.eq y
      | _, _ => false

/-- The value under a text key among the entries of a mapping. -/
def entry? (key : String) (entries : List (Value × Value)) : Option Value :=
  (entries.find? fun (k, _) => k.text? == some key).map Prod.snd

/-- Adds an entry; an entry whose key is already there keeps its place and takes the new value. -/
def putEntry (entries : List (Value × Value)) (key value : Value) : List (Value × Value) :=
  if entries.any fun (k, _) => k.sameKey key then
    entries.map fun (k, v) => if k.sameKey key then (k, value) else (k, v)
  else entries ++ [(key, value)]

def get? (key : String) : Value → Option Value
  | .mapping entries => entry? key entries
  | _ => none

/-- The value under a text key, null if there is none. -/
def field (v : Value) (key : String) : Value :=
  (v.get? key).getD .null

/-- The value under a text key, or the given one if the key is missing. -/
def fieldOr (v : Value) (key : String) (missing : Value) : Value :=
  (v.get? key).getD missing

/-- The items to walk through: those of a list, the characters of a text, the keys of a mapping. -/
def items? : Value → Except Misuse (List Value)
  | .list items => .ok items
  | .text s => .ok (s.toList.map fun c => .text (String.singleton c))
  | .mapping entries => .ok (entries.map Prod.fst)
  | _ => .error .notIterable

/-- The items of a value that is present, none otherwise. -/
def itemsIfPresent (v : Value) : Except Misuse (List Value) :=
  if v.isPresent then v.items? else .ok []

def size? (v : Value) : Except Misuse Nat :=
  match v.items? with
  | .ok items => .ok items.length
  | .error _ => .error .notMeasurable

def record (fields : List (String × Value)) : Value :=
  .mapping (fields.map fun (key, value) => (.text key, value))

mutual

def depth : Value → Nat
  | .list items => depthOfItems items + 1
  | .mapping entries => depthOfEntries entries + 1
  | _ => 0

def depthOfItems : List Value → Nat
  | [] => 0
  | v :: rest => max (depth v) (depthOfItems rest)

def depthOfEntries : List (Value × Value) → Nat
  | [] => 0
  | (_, v) :: rest => max (depth v) (depthOfEntries rest)

end

end Value
end SymbolAtlas
