import SymbolAtlas.Yaml.Node
import SymbolAtlas.Yaml.Schema

/-!
# Documents from YAML

The value of a document is worked out level by level, so that of several flaws the one nearest to
the top counts, and the first of those.  A mapping takes over the entries under its merge keys
before its own, which may replace them; of several entries with one key the last one counts.
-/

namespace SymbolAtlas
namespace Yaml

/-- A flaw with the level on which it comes to light. -/
abbrev Levelled := Except (Nat × Flaw)

/-- The flaw nearer to the top, the first one of two on a level. -/
def nearer (a b : Nat × Flaw) : Nat × Flaw :=
  if b.1 < a.1 then b else a

def gather {α β : Type} (f : α → Levelled β) (items : List α) : Levelled (List β) :=
  (items.foldl
    (fun (found : Levelled (List β)) item =>
      match found, f item with
      | .ok bs, .ok b => .ok (b :: bs)
      | .ok _, .error flaw => .error flaw
      | .error flaw, .ok _ => .error flaw
      | .error flaw, .error other => .error (nearer flaw other))
    (.ok [])).map List.reverse

namespace Node

mutual

def depth : Node → Nat
  | .scalar _ _ => 0
  | .sequence items => depthOfItems items + 1
  | .mapping entries => depthOfEntries entries + 1

def depthOfItems : List Node → Nat
  | [] => 0
  | item :: rest => max (depth item) (depthOfItems rest)

def depthOfEntries : List (Node × Node) → Nat
  | [] => 0
  | (key, value) :: rest => max (max (depth key) (depth value)) (depthOfEntries rest)

end

def isMark (mark : String) : Node → Bool
  | .scalar text true => text == mark
  | _ => false

/-- A key as it is, the mark of a default value counting as a text. -/
def asKey (key : Node) : Node :=
  if key.isMark Schema.defaultMark then .scalar Schema.defaultMark false else key

mutual

/-- The entries that a mapping takes over, and its own. -/
def splitMerged : List (Node × Node) → Except Flaw (List (Node × Node) × List (Node × Node))
  | [] => .ok ([], [])
  | (key, value) :: rest =>
      if key.isMark Schema.mergeMark then do
        let taken ← takenFrom value
        let (more, own) ← splitMerged rest
        pure (taken ++ more, own)
      else do
        let (taken, own) ← splitMerged rest
        pure (taken, (key.asKey, value) :: own)

/-- The entries that come from the value of a merge key: a mapping, or a list of them, in which
earlier ones have the last word. -/
def takenFrom : Node → Except Flaw (List (Node × Node))
  | .mapping entries => do
      let (taken, own) ← splitMerged entries
      pure (taken ++ own)
  | .sequence items => takenFromItems items
  | .scalar _ _ => .error (.flaw "only mappings can be merged")

def takenFromItems : List Node → Except Flaw (List (Node × Node))
  | [] => .ok []
  | item :: rest =>
      match item with
      | .mapping entries => do
          let (taken, own) ← splitMerged entries
          let later ← takenFromItems rest
          pure (later ++ taken ++ own)
      | _ => .error (.flaw "only mappings can be merged")

end

/-- The entries of a mapping with those that it takes over in front of its own. -/
def merged (entries : List (Node × Node)) : Except Flaw (List (Node × Node)) := do
  let (taken, own) ← splitMerged entries
  pure (taken ++ own)

def scalarValue (text : String) (isPlain : Bool) : Except Flaw Value :=
  if isPlain then Schema.valueOf text else .ok (.text text)

/-- The key that a node stands for; a collection is none. -/
def keyValue : Node → Except Flaw Value
  | .scalar text isPlain => scalarValue text isPlain
  | _ => .error (.flaw "a collection is no key")

def atLevel {α : Type} (level : Nat) : Except Flaw α → Levelled α
  | .ok a => .ok a
  | .error flaw => .error (level, flaw)

/-- The value of a node whose own items are on a level; `fuel` is at least its depth. -/
def valueAt : Nat → Nat → Node → Levelled Value
  | _, level, .scalar text isPlain => atLevel (level - 1) (scalarValue text isPlain)
  | 0, level, _ => .error (level, .flaw "a collection is nested too deeply")
  | fuel + 1, level, .sequence items =>
      (gather (valueAt fuel (level + 1)) items).map Value.list
  | fuel + 1, level, .mapping entries =>
      match merged entries with
      | .error flaw => .error (level, flaw)
      | .ok entries => do
          let found ← gather
            (fun (key, value) => do
              let key ← atLevel level (keyValue key)
              let value ← valueAt fuel (level + 1) value
              pure (key, value))
            entries
          pure <| .mapping <|
            found.foldl (fun known (key, value) => Value.putEntry known key value) []

def value (n : Node) : Except Flaw Value :=
  match valueAt n.depth 0 n with
  | .ok v => .ok v
  | .error (_, flaw) => .error flaw

end Node

/-- Documents hold printable characters, tabs and line breaks only. -/
def isPrintable (c : Char) : Bool :=
  let n := c.toNat
  n == 9 || n == 10 || n == 13 || (0x20 ≤ n && n ≤ 0x7E) || n == 0x85 ||
    (0xA0 ≤ n && n ≤ 0xD7FF) || (0xE000 ≤ n && n ≤ 0xFFFD) || 0x10000 ≤ n

def read (text : String) : Except Flaw Value := do
  let cs := text.toList
  if !cs.all isPrintable then throw (.flaw "a character is not printable")
  match ← Node.ofTokens (tokens cs) with
  | some node => node.value
  | none => pure .null

end Yaml
end SymbolAtlas
