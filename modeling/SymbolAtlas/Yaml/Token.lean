import SymbolAtlas.Yaml.Block
import SymbolAtlas.Yaml.Plain
import SymbolAtlas.Yaml.Quoted

/-!
# Tokens of a YAML text

Indentation becomes tokens that open and close blocks, and whatever turns out to have a colon
behind it on its line gets a token in front that makes it a key.  Until then it is a candidate: the
tokens before it are settled, those from it on are not.  Anchors, aliases, tags and their
directives have no place in an index file and are refused.
-/

namespace SymbolAtlas
namespace Yaml

inductive Token where
  | version (isSupported : Bool)
  | directive
  | documentStart
  | documentEnd
  | streamEnd
  | blockSequence
  | blockMapping
  | blockEnd
  | openList
  | closeList
  | openMapping
  | closeMapping
  | dash
  | comma
  | key
  | value
  | scalar (text : String) (isPlain : Bool)
  /-- No token can be read from here on. -/
  | broken (flaw : Flaw)
  deriving DecidableEq, Inhabited

/-- Something that is a key if a colon follows. -/
structure Candidate where
  /-- The number of tokens before it. -/
  tokens : Nat
  /-- The text is in error if no colon follows. -/
  isRequired : Bool
  index : Nat
  line : Nat
  column : Nat

/-- The tokens read so far and all that the reading of further ones depends on. -/
structure Lexer where
  spot : Spot
  /-- The tokens so far, reversed. -/
  found : List Token := []
  count : Nat := 0
  /-- The column of the innermost block; nothing is indented less than the whole text. -/
  indent : Int := -1
  /-- The columns of the blocks around it. -/
  outer : List Int := []
  /-- A candidate for each open bracket, innermost first, and one outside all brackets. -/
  candidates : List (Option Candidate) := [none]
  /-- A key may start here. -/
  allowsKey : Bool := true

namespace Lexer

/-- The greatest distance between the start of a key and its colon. -/
def keyLimit : Nat := 1024

def inFlow (l : Lexer) : Bool :=
  l.candidates.length > 1

def push (l : Lexer) (t : Token) : Lexer :=
  { l with found := t :: l.found, count := l.count + 1 }

/-- Puts a token behind the first `place` tokens. -/
def insertAt (l : Lexer) (place : Nat) (t : Token) : Lexer :=
  let later := l.count - place
  { l with found := l.found.take later ++ t :: l.found.drop later, count := l.count + 1 }

def isStale (s : Spot) (c : Candidate) : Bool :=
  c.line != s.line || s.index - c.index > keyLimit

/-- Drops the candidates that no colon can follow any more. -/
def dropStale (l : Lexer) : Except Flaw Lexer :=
  if l.candidates.any fun c => c.any fun c => isStale l.spot c && c.isRequired then
    .error (.flaw "a key has no colon behind it")
  else
    .ok
      { l with
        candidates := l.candidates.map fun c => c.filter fun c => !isStale l.spot c }

def dropCandidate (l : Lexer) : Except Flaw Lexer :=
  match l.candidates with
  | some c :: rest =>
      if c.isRequired then .error (.flaw "a key has no colon behind it")
      else .ok { l with candidates := none :: rest }
  | _ => .ok l

/-- What comes next is a candidate if a key may start here. -/
def noteCandidate (l : Lexer) : Except Flaw Lexer :=
  if l.allowsKey then do
    let l ← l.dropCandidate
    let isRequired := !l.inFlow && l.indent == l.spot.column
    let c : Candidate := ⟨l.count, isRequired, l.spot.index, l.spot.line, l.spot.column⟩
    pure { l with candidates := some c :: l.candidates.drop 1 }
  else .ok l

/-- Ends the blocks that are indented deeper than a column. -/
def closeBlocks (column : Int) : List Int → Lexer → Lexer
  | [], l => l
  | around :: rest, l =>
      if column < l.indent then
        closeBlocks column rest { l.push .blockEnd with indent := around, outer := rest }
      else l

/-- Ends the blocks that are indented deeper than a column; inside brackets there are none. -/
def unwind (l : Lexer) (column : Int) : Lexer :=
  if l.inFlow then l else closeBlocks column l.outer l

/-- Starts a block at a column unless the innermost one has that column; its token goes behind the
first `place` tokens. -/
def openBlock (l : Lexer) (column : Nat) (place : Nat) (t : Token) : Lexer :=
  if !l.inFlow && l.indent < column then
    { l.insertAt place t with indent := column, outer := l.indent :: l.outer }
  else l

def advance (l : Lexer) (n : Nat) : Lexer :=
  { l with spot := l.spot.forward n }

/-- Skips spaces, comments and line breaks; outside brackets a key may start on a new line. -/
def skipGaps : Nat → Lexer → Lexer
  | 0, l => l
  | fuel + 1, l =>
      let spot := l.spot.skipSpaces
      let spot := if spot.rest.head? == some '#' then spot.skipLine else spot
      match spot.lineBreak? with
      | some (_, spot) =>
          skipGaps fuel { l with spot := spot, allowsKey := l.allowsKey || !l.inFlow }
      | none => { l with spot := spot }

def documentMark (l : Lexer) (t : Token) : Except Flaw Lexer := do
  let l ← (l.unwind (-1)).dropCandidate
  pure ({ l with allowsKey := false }.push t |>.advance 3)

def streamEnd (l : Lexer) : Except Flaw Lexer := do
  let l ← (l.unwind (-1)).dropCandidate
  pure (l.push .streamEnd)

def openBracket (l : Lexer) (t : Token) : Except Flaw Lexer := do
  let l ← l.noteCandidate
  let l := l.push t |>.advance 1
  pure { l with candidates := none :: l.candidates, allowsKey := true }

def closeBracket (l : Lexer) (t : Token) : Except Flaw Lexer := do
  if !l.inFlow then throw (.flaw "a bracket is closed that was not opened")
  let l ← l.dropCandidate
  let l := l.push t |>.advance 1
  pure { l with candidates := l.candidates.drop 1, allowsKey := false }

def comma (l : Lexer) : Except Flaw Lexer := do
  let l ← l.dropCandidate
  pure ({ l with allowsKey := true }.push .comma |>.advance 1)

def dash (l : Lexer) : Except Flaw Lexer := do
  if !l.inFlow && !l.allowsKey then throw (.flaw "an item cannot start here")
  let l := l.openBlock l.spot.column l.count .blockSequence
  let l ← l.dropCandidate
  pure ({ l with allowsKey := true }.push .dash |>.advance 1)

def explicitKey (l : Lexer) : Except Flaw Lexer := do
  if !l.inFlow && !l.allowsKey then throw (.flaw "a key cannot start here")
  let l := l.openBlock l.spot.column l.count .blockMapping
  let l ← l.dropCandidate
  pure ({ l with allowsKey := !l.inFlow }.push .key |>.advance 1)

/-- A colon: what is a candidate becomes a key. -/
def colon (l : Lexer) : Except Flaw Lexer := do
  match l.candidates with
  | some c :: rest =>
      let l := { l with candidates := none :: rest }
      let l := l.insertAt c.tokens .key
      let l := l.openBlock c.column c.tokens .blockMapping
      pure ({ l with allowsKey := false }.push .value |>.advance 1)
  | _ =>
      if !l.inFlow && !l.allowsKey then throw (.flaw "a value cannot start here")
      let l := l.openBlock l.spot.column l.count .blockMapping
      pure ({ l with allowsKey := !l.inFlow }.push .value |>.advance 1)

def quoted (l : Lexer) (isDouble : Bool) : Except Flaw Lexer := do
  let l ← l.noteCandidate
  let (text, spot) ← Quoted.read isDouble l.spot.next
  pure { l.push (.scalar text false) with spot := spot, allowsKey := false }

def block (l : Lexer) (isFolded : Bool) : Except Flaw Lexer := do
  let l ← l.dropCandidate
  let (text, spot) ← Block.read isFolded (l.indent + 1).toNat l.spot.next
  pure { l.push (.scalar text false) with spot := spot, allowsKey := true }

def plain (l : Lexer) : Except Flaw Lexer := do
  let l ← l.noteCandidate
  let scalar := Plain.read l.inFlow (l.indent + 1).toNat l.spot
  pure
    { l.push (.scalar (String.ofList scalar.text) true) with
      spot := scalar.spot
      allowsKey := scalar.endsLine }

def isNameChar (c : Char) : Bool :=
  c.isAlphanum || c == '-' || c == '_'

/-- A version is a pair of numbers; only the first one matters. -/
def versionOf (cs : List Char) : Option Bool :=
  let cs := cs.dropWhile (· == ' ')
  let major := cs.takeWhile Char.isDigit
  match cs.drop major.length with
  | '.' :: rest =>
      let minor := rest.takeWhile Char.isDigit
      let behind := rest.drop minor.length
      let isApart := match behind with
        | [] => true
        | c :: _ => c == ' '
      let comment := behind.dropWhile (· == ' ')
      if major.isEmpty || minor.isEmpty || !isApart ||
          !(comment.isEmpty || comment.head? == some '#') then none
      else some (major.dropWhile (· == '0') == ['1'])
  | _ => none

def directive (l : Lexer) : Except Flaw Lexer := do
  let l ← (l.unwind (-1)).dropCandidate
  let (name, spot) := l.spot.next.takeWhile isNameChar
  let (line, spot) := spot.takeWhile fun c => !isBreak c
  let spot := (spot.lineBreak?.map Prod.snd).getD spot
  if name.isEmpty || !(line.isEmpty || line.head? == some ' ') || name == "TAG".toList then
    throw (.flaw "a directive is malformed")
  let l := { l with spot := spot, allowsKey := false }
  if name == "YAML".toList then
    match versionOf line with
    | some isSupported => pure (l.push (.version isSupported))
    | none => throw (.flaw "a version is malformed")
  else pure (l.push .directive)

/-- The characters that cannot start a plain scalar. -/
def marks : List Char :=
  ['-', '?', ':', ',', '[', ']', '\x7b', '\x7d', '#', '&', '*', '!', '|', '>', '\'', '"', '%', '@',
    '\x60']

/-- A plain scalar starts with a character that has no meaning of its own, or has none here. -/
def startsPlain (l : Lexer) : Bool :=
  match l.spot.rest with
  | [] => false
  | c :: rest =>
      !(isSpace c || isBreak c || marks.contains c) ||
        (!isGap rest && (c == '-' || (!l.inFlow && (c == '?' || c == ':'))))

def token (l : Lexer) : Except Flaw Lexer :=
  match l.spot.rest with
  | [] => l.streamEnd
  | c :: rest =>
      let apart := l.inFlow || isGap rest
      if l.spot.column = 0 ∧ c = '%' then l.directive
      else if l.spot.column = 0 ∧ l.spot.isAtMark "---" then l.documentMark .documentStart
      else if l.spot.column = 0 ∧ l.spot.isAtMark "..." then l.documentMark .documentEnd
      else if c = '[' then l.openBracket .openList
      else if c = '\x7b' then l.openBracket .openMapping
      else if c = ']' then l.closeBracket .closeList
      else if c = '\x7d' then l.closeBracket .closeMapping
      else if c = ',' then l.comma
      else if c = '-' ∧ isGap rest then l.dash
      else if c = '?' ∧ apart then l.explicitKey
      else if c = ':' ∧ apart then l.colon
      else if c = '|' ∧ !l.inFlow then l.block false
      else if c = '>' ∧ !l.inFlow then l.block true
      else if c = '\'' then l.quoted false
      else if c = '"' then l.quoted true
      else if l.startsPlain then l.plain
      else .error (.flaw "a character cannot start a token")

def next (l : Lexer) : Except Flaw Lexer := do
  let l ← (skipGaps (l.spot.rest.length + 1) l).dropStale
  (l.unwind l.spot.column).token

/-- The tokens that no later colon changes, reversed. -/
def settled (l : Lexer) : List Token :=
  let pending := l.candidates.filterMap fun c => c.filter fun c => !isStale l.spot c
  let place := (pending.map Candidate.tokens).foldl min l.count
  l.found.drop (l.count - place)

/-- Reads tokens to the end of the text, or to the first flaw. -/
def run : Nat → Lexer → List Token
  | 0, l => l.found.reverse
  | fuel + 1, l =>
      match l.next with
      | .error flaw => (.broken flaw :: l.settled).reverse
      | .ok l => if l.found.head? == some .streamEnd then l.found.reverse else run fuel l

end Lexer

/-- The spot where the text of a file begins. -/
def startOf (text : List Char) : Spot :=
  match text with
  | c :: rest => if c == byteOrderMark then ⟨rest, 1, 0, 0⟩ else ⟨text, 0, 0, 0⟩
  | [] => ⟨[], 0, 0, 0⟩

def tokens (text : List Char) : List Token :=
  Lexer.run (text.length + 2) ⟨startOf text, [], 0, -1, [], [none], true⟩

end Yaml
end SymbolAtlas
