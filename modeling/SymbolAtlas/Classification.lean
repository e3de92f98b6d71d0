import SymbolAtlas.Snapshot.Basic

/-!
# Calls, reads and writes of a body

Classifying a tree walks it once and hands down what the value of an operation is used for.
Targets of assignments and arguments passed by reference are written, receivers and assigned values
are read, and targets of compound assignments and steps are both; every other operation hands on
its own use.
-/

namespace SymbolAtlas

/-- What the value of an operation is used for. -/
inductive Use where
  | read
  | write
  | both
  deriving DecidableEq, Repr

def Use.reads : Use → Bool
  | .write => false
  | _ => true

def Use.writes : Use → Bool
  | .read => false
  | _ => true

def Passing.use (p : Passing) : Use :=
  if p.writes then .write else .read

/-- The symbols that a body calls, reads and writes, each once. -/
structure Classification where
  calls : List Symbol
  reads : List Symbol
  writes : List Symbol
  deriving DecidableEq, Inhabited

namespace Classification

def empty : Classification :=
  ⟨[], [], []⟩

def isEmpty (c : Classification) : Bool :=
  c.calls.isEmpty && c.reads.isEmpty && c.writes.isEmpty

/-- Adds a symbol to a list that does not have it. -/
def adding (symbols : List Symbol) (s : Symbol) : List Symbol :=
  if symbols.contains s then symbols else symbols ++ [s]

def withCall (c : Classification) (s : Symbol) : Classification :=
  { c with calls := adding c.calls s }

def withRead (c : Classification) (s : Symbol) : Classification :=
  { c with reads := adding c.reads s }

def withWrite (c : Classification) (s : Symbol) : Classification :=
  { c with writes := adding c.writes s }

/-- Everything that one of two classifications holds. -/
def merge (a b : Classification) : Classification where
  calls := b.calls.foldl adding a.calls
  reads := b.reads.foldl adding a.reads
  writes := b.writes.foldl adding a.writes

end Classification

namespace Snapshot

/-- The accessor that reading or writing a symbol runs. -/
def accessorFor? (s : Snapshot) (symbol : Symbol) (write : Bool) : Option Symbol :=
  if symbol.kind == .property then
    let (getter, setter) := s.accessorsOf symbol
    if write then setter else getter
  else none

def noteRead (s : Snapshot) (accessors : Bool) (symbol : Symbol) (c : Classification) :
    Classification :=
  let c := c.withRead symbol
  match accessors, s.accessorFor? symbol false with
  | true, some getter => c.withCall getter
  | _, _ => c

def noteWrite (s : Snapshot) (accessors : Bool) (symbol : Symbol) (c : Classification) :
    Classification :=
  let c := c.withWrite symbol
  match accessors, s.accessorFor? symbol true with
  | true, some setter => c.withCall setter
  | _, _ => c

def note (s : Snapshot) (accessors : Bool) (symbol : Symbol) (use : Use) (c : Classification) :
    Classification :=
  let c := if use.reads then s.noteRead accessors symbol c else c
  if use.writes then s.noteWrite accessors symbol c else c

mutual

/-- Classifies a tree whose value has the given use. -/
def visit (s : Snapshot) (accessors : Bool) : Operation → Use → Classification → Classification
  | .plain _ children _, use, c => s.visitAll accessors children use c
  | .argument value passing _, _, c => s.visit accessors value passing.use c
  | .invocation target receiver arguments _, use, c =>
      let c := (target.map c.withCall).getD c
      s.visitAll accessors arguments use (s.visitOptional accessors receiver .read c)
  | .creation constructor arguments initializer _, use, c =>
      let c := (constructor.map c.withCall).getD c
      s.visitOptional accessors initializer use (s.visitAll accessors arguments use c)
  | .propertyReference property receiver arguments _, use, c =>
      let c := s.note accessors property use c
      s.visitAll accessors arguments .read (s.visitOptional accessors receiver .read c)
  | .fieldReference field receiver _, use, c =>
      s.visitOptional accessors receiver .read (s.note accessors field use c)
  | .eventReference event receiver _, use, c =>
      s.visitOptional accessors receiver .read (s.note accessors event use c)
  | .assignment target value _, _, c =>
      s.visit accessors value .read (s.visit accessors target .write c)
  | .compound target value _ _, _, c =>
      s.visit accessors value .read (s.visit accessors target .both c)
  | .step target _ _ _, _, c => s.visit accessors target .both c

def visitAll (s : Snapshot) (accessors : Bool) :
    List Operation → Use → Classification → Classification
  | [], _, c => c
  | op :: rest, use, c => s.visitAll accessors rest use (s.visit accessors op use c)

def visitOptional (s : Snapshot) (accessors : Bool) :
    Option Operation → Use → Classification → Classification
  | none, _, c => c
  | some op, use, c => s.visit accessors op use c

end

def classifyTree (s : Snapshot) (accessors : Bool) (tree : Option Operation) : Classification :=
  s.visitOptional accessors tree .read .empty

/-- The calls, reads and writes of a method; one without a body has none. -/
def classify (s : Snapshot) (accessors : Bool) (method : Symbol) : Classification :=
  s.classifyTree accessors (s.bodyOf? method)

end Snapshot
end SymbolAtlas
