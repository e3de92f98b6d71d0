import SymbolAtlas.Yaml.Token

/-!
# Nodes of a YAML text

A text holds at most one document, and a document is a tree of scalars, sequences and mappings.
Every function of this module takes the tokens in front of it and returns what they form with the
tokens it left.  A node that is missing where one may be left out is an empty plain scalar.
-/

namespace SymbolAtlas
namespace Yaml

inductive Node where
  | scalar (text : String) (isPlain : Bool)
  | sequence (items : List Node)
  | mapping (entries : List (Node × Node))
  deriving Inhabited

namespace Node

def absent : Node :=
  .scalar "" true

/-- Why the tokens ahead do not fit: they may be broken themselves. -/
def misfit (ts : List Token) : Flaw :=
  match ts with
  | .broken flaw :: _ => flaw
  | _ => .flaw "a token does not fit here"

def isAhead (expected : List Token) (ts : List Token) : Bool :=
  ts.head?.any expected.contains

/-- Where a node stands, which says what it may be. -/
inductive Place where
  | inBlock
  /-- Behind a key or a value, where items need no indentation of their own. -/
  | inMapping
  | inFlow
  deriving DecidableEq

abbrev Read := Except Flaw (Node × List Token)

/-- A missing node before one of some tokens, what is ahead otherwise. -/
def orAbsent (ends : List Token) (read : List Token → Read) (ts : List Token) : Read :=
  if isAhead ends ts then .ok (absent, ts) else read ts

mutual

def read : Nat → Place → List Token → Read
  | 0, _, ts => .error (misfit ts)
  | fuel + 1, place, ts =>
      match ts with
      | .scalar text isPlain :: rest => .ok (.scalar text isPlain, rest)
      | .openList :: rest => readList fuel [] true rest
      | .openMapping :: rest => readMapping fuel [] true rest
      | .dash :: _ =>
          if place = .inMapping then readLooseItems fuel [] ts else .error (misfit ts)
      | .blockSequence :: rest =>
          if place = .inFlow then .error (misfit ts) else readItems fuel [] rest
      | .blockMapping :: rest =>
          if place = .inFlow then .error (misfit ts) else readEntries fuel [] rest
      | ts => .error (misfit ts)

def readItems : Nat → List Node → List Token → Read
  | 0, _, ts => .error (misfit ts)
  | fuel + 1, items, ts =>
      match ts with
      | .blockEnd :: rest => .ok (.sequence items.reverse, rest)
      | .dash :: rest =>
          match orAbsent [.dash, .blockEnd] (read fuel .inBlock) rest with
          | .ok (item, rest) => readItems fuel (item :: items) rest
          | .error flaw => .error flaw
      | ts => .error (misfit ts)

/-- The items of a sequence that is not indented against the mapping around it. -/
def readLooseItems : Nat → List Node → List Token → Read
  | 0, _, ts => .error (misfit ts)
  | fuel + 1, items, ts =>
      match ts with
      | .dash :: rest =>
          match orAbsent [.dash, .key, .value, .blockEnd] (read fuel .inBlock) rest with
          | .ok (item, rest) => readLooseItems fuel (item :: items) rest
          | .error flaw => .error flaw
      | ts => .ok (.sequence items.reverse, ts)

def readEntries : Nat → List (Node × Node) → List Token → Read
  | 0, _, ts => .error (misfit ts)
  | fuel + 1, entries, ts =>
      match ts with
      | .blockEnd :: rest => .ok (.mapping entries.reverse, rest)
      | .key :: rest =>
          match orAbsent [.key, .value, .blockEnd] (read fuel .inMapping) rest with
          | .error flaw => .error flaw
          | .ok (key, rest) =>
              match readValue fuel .inMapping [.key, .value, .blockEnd] rest with
              | .error flaw => .error flaw
              | .ok (value, rest) => readEntries fuel ((key, value) :: entries) rest
      | ts => .error (misfit ts)

/-- The value of an entry, missing if no colon is ahead or if it ends at once. -/
def readValue : Nat → Place → List Token → List Token → Read
  | 0, _, _, ts => .error (misfit ts)
  | fuel + 1, place, ends, ts =>
      match ts with
      | .value :: rest => orAbsent ends (read fuel place) rest
      | ts => .ok (absent, ts)

def readList : Nat → List Node → Bool → List Token → Read
  | 0, _, _, ts => .error (misfit ts)
  | fuel + 1, items, isFirst, ts =>
      match ts with
      | .closeList :: rest => .ok (.sequence items.reverse, rest)
      | ts =>
          match afterComma isFirst ts with
          | .error flaw => .error flaw
          | .ok (.closeList :: rest) => .ok (.sequence items.reverse, rest)
          | .ok (.key :: rest) =>
              match orAbsent [.value, .comma, .closeList] (read fuel .inFlow) rest with
              | .error flaw => .error flaw
              | .ok (key, rest) =>
                  match readValue fuel .inFlow [.comma, .closeList] rest with
                  | .error flaw => .error flaw
                  | .ok (value, rest) =>
                      readList fuel (.mapping [(key, value)] :: items) false rest
          | .ok rest =>
              match read fuel .inFlow rest with
              | .error flaw => .error flaw
              | .ok (item, rest) => readList fuel (item :: items) false rest

def readMapping : Nat → List (Node × Node) → Bool → List Token → Read
  | 0, _, _, ts => .error (misfit ts)
  | fuel + 1, entries, isFirst, ts =>
      match ts with
      | .closeMapping :: rest => .ok (.mapping entries.reverse, rest)
      | ts =>
          match afterComma isFirst ts with
          | .error flaw => .error flaw
          | .ok (.closeMapping :: rest) => .ok (.mapping entries.reverse, rest)
          | .ok (.key :: rest) =>
              match orAbsent [.value, .comma, .closeMapping] (read fuel .inFlow) rest with
              | .error flaw => .error flaw
              | .ok (key, rest) =>
                  match readValue fuel .inFlow [.comma, .closeMapping] rest with
                  | .error flaw => .error flaw
                  | .ok (value, rest) =>
                      readMapping fuel ((key, value) :: entries) false rest
          | .ok rest =>
              match read fuel .inFlow rest with
              | .error flaw => .error flaw
              | .ok (key, rest) => readMapping fuel ((key, absent) :: entries) false rest

/-- The tokens behind the comma that has to stand before all items but the first. -/
def afterComma : Bool → List Token → Except Flaw (List Token)
  | true, ts => .ok ts
  | false, .comma :: rest => .ok rest
  | false, ts => .error (misfit ts)

end

/-- The tokens behind the directives of a document. -/
def afterDirectives (hasVersion : Bool) : List Token → Except Flaw (List Token)
  | .directive :: rest => afterDirectives hasVersion rest
  | .version isSupported :: rest =>
      if hasVersion || !isSupported then .error (.flaw "a version does not fit")
      else afterDirectives true rest
  | ts => .ok ts

/-- The node of a document that starts with a mark, perhaps after directives. -/
def readMarked (fuel : Nat) (ts : List Token) : Read := do
  match ← afterDirectives false ts with
  | .documentStart :: rest =>
      orAbsent [.version true, .version false, .directive, .documentStart, .documentEnd, .streamEnd]
        (read fuel .inBlock) rest
  | ts => throw (misfit ts)

/-- Nothing but marks may stand between a document and the end of the text. -/
def readEnd : List Token → Except Flaw Unit
  | .documentEnd :: rest => readEnd rest
  | .streamEnd :: _ => .ok ()
  | ts => .error (misfit ts)

/-- The node of the only document, none if the text is empty. -/
def ofTokens (ts : List Token) : Except Flaw (Option Node) := do
  let fuel := 3 * ts.length + 3
  match ts with
  | .streamEnd :: _ => pure none
  | ts =>
      let isMarked :=
        isAhead [.version true, .version false, .directive, .documentStart] ts
      let (node, rest) ← if isMarked then readMarked fuel ts else read fuel .inBlock ts
      readEnd rest
      pure (some node)

end Node
end Yaml
end SymbolAtlas
