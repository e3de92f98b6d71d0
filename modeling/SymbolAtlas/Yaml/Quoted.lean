import SymbolAtlas.Json.Reader
import SymbolAtlas.Yaml.Spot

/-!
# Quoted scalars

A scalar between single quotes writes a quote twice and knows no other escape; between double
quotes a backslash starts an escape.  Spaces around a line break are dropped and the break is
folded, unless it is escaped itself.
-/

namespace SymbolAtlas
namespace Yaml
namespace Quoted

/-- The character of a short escape. -/
def escaped? : Char → Option Char
  | '0' => some '\x00'
  | 'a' => some '\x07'
  | 'b' => some '\x08'
  | 't' => some '\t'
  | '\t' => some '\t'
  | 'n' => some '\n'
  | 'v' => some '\x0b'
  | 'f' => some '\x0c'
  | 'r' => some '\r'
  | 'e' => some '\x1b'
  | ' ' => some ' '
  | '"' => some '"'
  | '\\' => some '\\'
  | '/' => some '/'
  | 'N' => some '\x85'
  | '_' => some '\xa0'
  | 'L' => some '\u2028'
  | 'P' => some '\u2029'
  | _ => none

/-- The number of hexadecimal digits that an escape announces. -/
def escapeWidth? : Char → Option Nat
  | 'x' => some 2
  | 'u' => some 4
  | 'U' => some 8
  | _ => none

def hexNumber? (cs : List Char) : Option Nat :=
  cs.foldl (fun n c => do return 16 * (← n) + (← Json.hexValue? c)) (some 0)

/-- The character of a code point, which has to be one. -/
def charOf (n : Nat) : Except Flaw Char :=
  match Text.ofCodePoint? n with
  | some c => .ok c
  | none => .error (.misuse (if n < 0x80000000 then .notANumeral else .tooLarge))

/-- The breaks behind a line break, with the spaces between them, reversed. -/
def breaksFrom : Nat → List Char → Spot → Except Flaw (List Char × Spot)
  | 0, found, s => .ok (found, s)
  | fuel + 1, found, s =>
      if s.isAtSeparator then .error (.flaw "a document ends inside a quoted scalar")
      else
        let s := s.skipWhile isSpace
        match s.lineBreak? with
        | some (c, s) => breaksFrom fuel (c :: found) s
        | none => .ok (found, s)

def breaks (s : Spot) : Except Flaw (List Char × Spot) :=
  (breaksFrom (s.rest.length + 1) [] s).map fun (found, s) => (found.reverse, s)

def gap (s : Spot) : Except Flaw (List Char × Spot) :=
  let (spaces, s) := s.takeWhile isSpace
  match s.lineBreak? with
  | some (c, s) => (breaks s).map fun (more, s) => (folded c more, s)
  | none =>
      if s.rest.isEmpty then .error (.flaw "a quoted scalar does not end") else .ok (spaces, s)

def escape (s : Spot) : Except Flaw (List Char × Spot) :=
  match s.rest with
  | [] => .error (.flaw "an escape is not complete")
  | c :: rest =>
      match escaped? c, escapeWidth? c with
      | some e, _ => .ok ([e], s.next)
      | none, some width =>
          let digits := rest.take width
          match hexNumber? digits with
          | some n =>
              if digits.length < width then .error (.flaw "an escape is not complete")
              else (charOf n).map fun e => ([e], s.forward (width + 1))
          | none => .error (.flaw "an escape has to be hexadecimal")
      | none, none =>
          match s.lineBreak? with
          | some (_, s) => breaks s
          | none => .error (.flaw "an escape is not known")

/-- The text up to the closing quote, what is behind being reversed in `found`. -/
def readFrom (isDouble : Bool) : Nat → List Char → Spot → Except Flaw (List Char × Spot)
  | 0, _, _ => .error (.flaw "a quoted scalar does not end")
  | fuel + 1, found, s => do
      let quote := if isDouble then '"' else '\''
      match s.rest with
      | [] => throw (.flaw "a quoted scalar does not end")
      | c :: rest =>
          if c == quote then
            if !isDouble && rest.head? == some quote then
              readFrom isDouble fuel (quote :: found) (s.forward 2)
            else pure (found.reverse, s.next)
          else if isDouble && c == '\\' then
            let (text, s) ← escape s.next
            readFrom isDouble fuel (text.reverse ++ found) s
          else if isSpace c || isBreak c then
            let (text, s) ← gap s
            readFrom isDouble fuel (text.reverse ++ found) s
          else readFrom isDouble fuel (c :: found) s.next

def read (isDouble : Bool) (s : Spot) : Except Flaw (String × Spot) :=
  (readFrom isDouble (s.rest.length + 1) [] s).map fun (text, s) => (String.ofList text, s)

end Quoted
end Yaml
end SymbolAtlas
