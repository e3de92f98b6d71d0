import SymbolAtlas.Yaml.Spot

/-!
# Plain scalars

A plain scalar has no quotes around it.  It ends before a colon with a gap behind it, before a
comment, at a mark between documents, or where a line is not indented enough; inside brackets it
also ends before a comma, a question mark or another bracket.  Breaks inside it are folded.
-/

namespace SymbolAtlas
namespace Yaml
namespace Plain

/-- The characters that have a meaning of their own inside brackets. -/
def isFlowMark (c : Char) : Bool :=
  c == ',' || c == '[' || c == ']' || c == '\x7b' || c == '\x7d'

/-- A text goes on with a colon that ends a plain scalar. -/
def isAtValue (inFlow : Bool) : List Char → Bool
  | ':' :: rest => isGap rest || (inFlow && rest.head?.any isFlowMark)
  | _ => false

/-- The number of characters up to the next gap or the end of the scalar, beyond `count`. -/
def runLength (inFlow : Bool) (count : Nat) : List Char → Nat
  | [] => count
  | c :: rest =>
      if isSpace c || isBreak c || isAtValue inFlow (c :: rest) ||
          (inFlow && (isFlowMark c || c == '?')) then count
      else runLength inFlow (count + 1) rest

structure Gap where
  /-- The text that the gap adds; none if the scalar ends at it. -/
  text : Option (List Char)
  spot : Spot
  hasBreak : Bool

/-- The breaks behind a line break, reversed; none if a mark between documents follows one. -/
def breaksFrom : Nat → List Char → Spot → Option (List Char) × Spot
  | 0, found, s => (some found, s)
  | fuel + 1, found, s =>
      if s.isAtSeparator then (none, s)
      else
        let s := s.skipSpaces
        match s.lineBreak? with
        | some (c, s) => breaksFrom fuel (c :: found) s
        | none => (some found, s)

def gap (s : Spot) : Gap :=
  let (spaces, s) := s.takeWhile (· == ' ')
  match s.lineBreak? with
  | none => ⟨if spaces.isEmpty then none else some spaces, s, false⟩
  | some (c, s) =>
      let (more, s) := breaksFrom (s.rest.length + 1) [] s
      ⟨more.map fun found => folded c found.reverse, s, true⟩

/-- A plain scalar, the spot behind it, and whether a new line has begun since its last run. -/
structure Scalar where
  text : List Char
  spot : Spot
  endsLine : Bool

/-- Reads run after run; `found` is reversed and ends with the gap before the next run. -/
def readFrom (inFlow : Bool) (indent : Nat) : Nat → List Char → List Char → Spot → Bool → Scalar
  | 0, found, _, s, endsLine => ⟨found.reverse, s, endsLine⟩
  | fuel + 1, found, before, s, endsLine =>
      let length := if s.rest.head? == some '#' then 0 else runLength inFlow 0 s.rest
      if length = 0 then ⟨found.reverse, s, endsLine⟩
      else
        let found := (s.rest.take length).reverseAux (before.reverseAux found)
        let between := gap (s.forward length)
        let s := between.spot
        match between.text with
        | none => ⟨found.reverse, s, between.hasBreak⟩
        | some text =>
            if s.rest.head? == some '#' || (!inFlow && s.column < indent) then
              ⟨found.reverse, s, between.hasBreak⟩
            else readFrom inFlow indent fuel found text s between.hasBreak

def read (inFlow : Bool) (indent : Nat) (s : Spot) : Scalar :=
  readFrom inFlow indent (s.rest.length + 1) [] [] s false

end Plain
end Yaml
end SymbolAtlas
