import SymbolAtlas.Failure
import SymbolAtlas.Snapshot.Position
import SymbolAtlas.Text.Blank

/-!
# Targets of requests

A request is about a qualified name or about a position in a file, never about both.  The file of a
position is only looked at when the position is, so it is kept in the form in which it was given.
-/

namespace SymbolAtlas

inductive Target where
  | named (name : String)
  | at (file : Value) (position : Position)
  deriving DecidableEq

namespace Target

/-- The number behind a value that is ordered against others. -/
def ordered (v : Value) : Attempt Number :=
  match v.number? with
  | some n => .ok n
  | none => misused .notComparable

/-- The trimmed name of a request, if it gives one. -/
def givenName (v : Value) : Attempt (Option String) :=
  if !v.isPresent then .ok none
  else
    match v with
    | .text s =>
        let name := Text.trim s
        .ok (if name.isEmpty then none else some name)
    | _ => misused .noSuchOperation

def ofArguments (name file line column : Value) : Attempt Target := do
  match ← givenName name with
  | some name =>
      if file.isPresent || !line.isNull || !column.isNull then refuse .twoTargets
      else pure (.named name)
  | none =>
      if !file.isPresent || line.isNull || column.isNull then refuse .noTarget
      else
        let l ← ordered line
        if l.lt (.whole 1) then refuse (.positionBelowOne line column)
        else
          let c ← ordered column
          if c.lt (.whole 1) then refuse (.positionBelowOne line column)
          else pure (.at file ⟨l, c⟩)

def text : Target → String
  | .named name => name
  | .at file p => file.plain ++ ":" ++ p.line.text ++ ":" ++ p.column.text

end Target
end SymbolAtlas
