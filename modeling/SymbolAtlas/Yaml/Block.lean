import SymbolAtlas.Yaml.Spot

/-!
# Block scalars

A block scalar starts with a bar or an angle on a line of its own and takes the lines below that
are indented.  A bar keeps their breaks, an angle folds those between two lines of text.  A header
may fix the indentation, and says what becomes of the last break and the empty lines behind it.
-/

namespace SymbolAtlas
namespace Yaml
namespace Block

/-- What becomes of the breaks at the end: one is kept, none or all. -/
inductive Chomping where
  | clip
  | strip
  | keep
  deriving DecidableEq, Repr

structure Header where
  chomping : Chomping := .clip
  /-- The indentation beyond that of the surrounding block, unless it is to be found out. -/
  increment : Option Nat := none

def chomping? : Char → Option Chomping
  | '+' => some .keep
  | '-' => some .strip
  | _ => none

def increment? (c : Char) : Option Nat :=
  if '0' ≤ c ∧ c ≤ '9' then some (c.toNat - '0'.toNat) else none

/-- The signs of a header, in either order, with the number of characters they take. -/
def headerOf : List Char → Header × Nat
  | [] => ({}, 0)
  | c :: rest =>
      match chomping? c, increment? c with
      | some chomping, _ =>
          match rest.head?.bind increment? with
          | some n => (⟨chomping, some n⟩, 2)
          | none => (⟨chomping, none⟩, 1)
      | none, some n =>
          match rest.head?.bind chomping? with
          | some chomping => (⟨chomping, some n⟩, 2)
          | none => (⟨.clip, some n⟩, 1)
      | none, none => ({}, 0)

/-- The spot behind the line of a header, on which only a comment may follow. -/
def endOfHeader (s : Spot) : Except Flaw Spot :=
  let isApart := match s.rest with
    | [] => true
    | c :: _ => c == ' ' || isBreak c
  if !isApart then .error (.flaw "the header of a block scalar is malformed")
  else
    let s := s.skipSpaces
    let s := if s.rest.head? == some '#' then s.skipLine else s
    match s.lineBreak? with
    | some (_, s) => .ok s
    | none =>
        if s.rest.isEmpty then .ok s else .error (.flaw "the header of a block scalar is malformed")

def skipIndent (column : Nat) (s : Spot) : Spot :=
  s.forward ((s.rest.take (column - s.column)).takeWhile (· == ' ')).length

/-- The empty lines ahead, their breaks reversed, and the greatest column that their spaces and
those of the line behind them reach. -/
def leadingBreaks : Nat → List Char → Nat → Spot → List Char × Nat × Spot
  | 0, found, deepest, s => (found, deepest, s)
  | fuel + 1, found, deepest, s =>
      let s := s.skipSpaces
      let deepest := max deepest s.column
      match s.lineBreak? with
      | some (c, s) => leadingBreaks fuel (c :: found) deepest s
      | none => (found, deepest, s)

/-- The empty lines ahead in a block of known indentation, their breaks reversed. -/
def breaksFrom (indent : Nat) : Nat → List Char → Spot → List Char × Spot
  | 0, found, s => (found, s)
  | fuel + 1, found, s =>
      let s := skipIndent indent s
      match s.lineBreak? with
      | some (c, s) => breaksFrom indent fuel (c :: found) s
      | none => (found, s)

def breaks (indent : Nat) (s : Spot) : List Char × Spot :=
  breaksFrom indent (s.rest.length + 1) [] s

/-- The lines of a block; `found` and `before` are reversed, `before` being the empty lines in
front of the next line. -/
def linesFrom (isFolded : Bool) (chomping : Chomping) (indent : Nat) :
    Nat → List Char → List Char → Spot → List Char × Spot
  | 0, found, _, s => (found.reverse, s)
  | fuel + 1, found, before, s =>
      let (line, behind) := s.takeWhile fun c => !isBreak c
      let found := line.reverseAux (before ++ found)
      let (ending, behind) : List Char × Spot :=
        match behind.lineBreak? with
        | some (c, behind) => ([c], behind)
        | none => ([], behind)
      let (more, behind) := breaks indent behind
      if behind.column = indent ∧ !behind.rest.isEmpty then
        let isText (cs : List Char) : Bool := !cs.head?.any isSpace
        let joined :=
          if isFolded && ending == ['\n'] && isText s.rest && isText behind.rest then
            if more.isEmpty then [' '] else []
          else ending
        linesFrom isFolded chomping indent fuel (joined ++ found) more behind
      else
        let kept :=
          match chomping with
          | .strip => []
          | .clip => ending
          | .keep => more ++ ending
        ((kept ++ found).reverse, behind)

def read (isFolded : Bool) (around : Nat) (s : Spot) : Except Flaw (String × Spot) := do
  let (header, width) := headerOf s.rest
  if header.increment == some 0 then throw (.flaw "an indentation of zero")
  let s ← endOfHeader (s.forward width)
  let least := max around 1
  let (indent, before, s) : Nat × List Char × Spot :=
    match header.increment with
    | none =>
        let (found, deepest, s) := leadingBreaks (s.rest.length + 1) [] 0 s
        (max least deepest, found, s)
    | some n =>
        let indent := least + n - 1
        let (found, s) := breaks indent s
        (indent, found, s)
  if s.column = indent ∧ !s.rest.isEmpty then
    let (text, s) :=
      linesFrom isFolded header.chomping indent (s.rest.length + 1) [] before s
    pure (String.ofList text, s)
  else
    pure (if header.chomping = .keep then String.ofList before.reverse else "", s)

end Block
end Yaml
end SymbolAtlas
