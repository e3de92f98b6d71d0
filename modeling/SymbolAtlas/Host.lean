import SymbolAtlas.Snapshot.File

/-!
# The active workspace

A host holds the workspace that requests are answered from, if any, and counts how many have been
put in its place so far.  A workspace is complete before it becomes the active one, so that an
attempt to load another one either succeeds or changes nothing.
-/

namespace SymbolAtlas

structure Host where
  snapshot : Option Snapshot := none
  /-- The number of workspaces that have been active so far. -/
  generation : Nat := 0

namespace Host

def empty : Host := {}

def require (h : Host) : Attempt Snapshot :=
  match h.snapshot with
  | some s => .ok s
  | none => .error (.failure .noWorkspace)

def swap (h : Host) (s : Snapshot) : Host :=
  ⟨some s, h.generation + 1⟩

def clear (h : Host) : Host :=
  { h with snapshot := none }

def load (h : Host) (disk : Disk) (path : Value) : Attempt (Snapshot × Host) :=
  (Snapshot.ofFile disk path).map fun s => (s, h.swap s)

/-- Loads the workspace that the settings name, if they name one, and says whether it did.  A file
that does not hold a workspace is passed over. -/
def autoload (h : Host) (disk : Disk) (path : Value) : Attempt (Bool × Host) :=
  if path.isPresent then
    match h.load disk path with
    | .ok (_, loaded) => .ok (true, loaded)
    | .error (.failure _) => .ok (false, h)
    | .error fault => .error fault
  else .ok (false, h)

end Host
end SymbolAtlas
