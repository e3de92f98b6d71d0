import SymbolAtlas.Snapshot.Hierarchy

/-!
# References and callers

The references to a symbol are its distinct places in order, each with the trimmed text of its
line.  The callers of a method call it directly, or indirectly by calling a member that it
overrides or implements; every caller comes with the places of its calls.
-/

namespace SymbolAtlas

structure Reference where
  location : Location
  text : String
  deriving DecidableEq, Repr

structure Caller where
  method : Symbol
  isDirect : Bool
  callSites : List Location
  deriving DecidableEq

namespace Snapshot

/-- The trimmed text of a line, empty if it is not known. -/
def lineText (s : Snapshot) (l : Location) : String :=
  if l.line < 1 then ""
  else
    match (s.tables.sourceLines.listAt l.file)[(l.line - 1).toNat]? with
    | some text => Text.trim text
    | none => ""

/-- The distinct places of a symbol in the order in which they were met. -/
def placesOf (s : Snapshot) (id : String) : List Location :=
  (s.mentions.filter fun m => m.symbol == id).map Mention.location

def referencesTo (s : Snapshot) (symbol : Symbol) : List Reference :=
  ((s.placesOf symbol.id).mergeSort Location.precedes).map fun l => ⟨l, s.lineText l⟩

def addCall (groups : Table (List Location)) (call : CallSite) : Table (List Location) :=
  let places := groups.listAt call.caller
  match call.location with
  | some l =>
      groups.insert call.caller (if places.contains l then places else places ++ [l])
  | none => groups.insert call.caller places

def callersBehind (s : Snapshot) (isDirect : Bool) (calls : List CallSite) : List Caller :=
  (calls.foldl addCall .empty).entries.filterMap fun (caller, places) =>
    (s.symbol? caller).map fun method =>
      ⟨method, isDirect, places.mergeSort Location.precedes⟩

def callsTo (s : Snapshot) (target : String) : List CallSite :=
  s.calls.filter fun c => c.target == target

/-- The members whose calls may end up in a method: what it overrides, and what it implements. -/
def dispatchTargets (s : Snapshot) (method : Symbol) : List String :=
  let overridden := s.overriddenChain method.id
  let implemented := (s.implementedMembers method).map Symbol.id
  overridden ++ implemented.filter fun id => !overridden.contains id

/-- Callers are listed by display, a direct one before an indirect one. -/
def callerPrecedes (a b : Caller) : Bool :=
  if a.method.display = b.method.display then a.isDirect || !b.isDirect
  else a.method.precedes b.method

def callersOf (s : Snapshot) (method : Symbol) : List Caller :=
  let direct := s.callersBehind true (s.callsTo method.id)
  let indirect := s.callersBehind false ((s.dispatchTargets method).flatMap s.callsTo)
  (direct ++ indirect).mergeSort callerPrecedes

end Snapshot
end SymbolAtlas
