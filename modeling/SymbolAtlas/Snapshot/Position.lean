import SymbolAtlas.Snapshot.Basic

/-!
# Symbols at a position

A position in a file stands for the symbol whose token covers it, or else for the innermost
declaration around it: the one that starts last and, among these, ends first.
-/

namespace SymbolAtlas

/-- A line and a column, in whatever form of number they were given. -/
structure Position where
  line : Number
  column : Number
  deriving DecidableEq, Repr

namespace Position

def isBefore (p : Position) (line column : Int) : Bool :=
  if p.line.eq (.whole line) then p.column.lt (.whole column) else p.line.lt (.whole line)

/-- The position lies before a line and column, or there. -/
def isUpTo (p : Position) (line column : Int) : Bool :=
  if p.line.eq (.whole line) then p.column.le (.whole column) else p.line.le (.whole line)

end Position

namespace Span

def holds (span : Span) (p : Position) : Bool :=
  !p.isBefore span.startLine span.startColumn && p.isUpTo span.endLine span.endColumn

/-- What spans are compared by: the later start first, then the earlier end. -/
def nestingKey (span : Span) : List Int :=
  [-span.startLine, -span.startColumn, span.endLine, span.endColumn]

def nestsWithin (a b : Span) : Bool :=
  decide (a.nestingKey < b.nestingKey)

end Span

def Mention.covers (m : Mention) (p : Position) : Bool :=
  match m.token with
  | some length =>
      p.line.eq (.whole m.location.line) &&
        (Number.whole m.location.column).le p.column &&
          p.column.lt (.whole (m.location.column + length))
  | none => false

namespace Snapshot

/-- The extents of declarations in a file, in the order of their declaration. -/
def spansIn (s : Snapshot) (file : String) : List (Span × Symbol) :=
  s.tables.symbols.entries.filterMap fun (id, symbol) =>
    match s.tables.spans.get? id with
    | some span => if span.file = file then some (span, symbol) else none
    | none => none

/-- The innermost of some declarations, the first of several equal ones. -/
def innermost? : List (Span × Symbol) → Option (Span × Symbol)
  | [] => none
  | d :: rest =>
      match innermost? rest with
      | none => some d
      | some e => if e.1.nestsWithin d.1 then some e else some d

def enclosing? (s : Snapshot) (file : String) (p : Position) : Option Symbol :=
  (innermost? ((s.spansIn (s.normalizePath file)).filter fun d => d.1.holds p)).map Prod.snd

/-- The first token that covers a position in a file. -/
def tokenAt? (s : Snapshot) (file : String) (p : Position) : Option Symbol :=
  (s.mentions.find? fun m => m.location.file == s.normalizePath file && m.covers p).bind fun m =>
    s.symbol? m.symbol

/-- The symbol at a position.  The file is brought into normal form before either question, so
under a relative root the declarations are looked up one step deeper than the tokens. -/
def symbolAt? (s : Snapshot) (file : String) (p : Position) : Option Symbol :=
  s.tokenAt? file p <|> s.enclosing? (s.normalizePath file) p

end Snapshot
end SymbolAtlas
