import SymbolAtlas.Index.Draft
import SymbolAtlas.Name.Signature
import SymbolAtlas.Path
import SymbolAtlas.Text.LetterCase
import SymbolAtlas.Value.Integer

/-!
# Entries of a document

The parts that declarations and operations have in common: required fields, whole numbers, files
and locations, extents and parameters.  A file that an entry gives is seen from the root of the
workspace, and an entry without one lies in the file around it.
-/

namespace SymbolAtlas
namespace Entry

/-- A field that is neither missing nor null nor the empty text. -/
def required (data : Value) (key place : String) : Attempt Value :=
  match data.field key with
  | .null => refuse (.missingField key place)
  | .text s => if s.isEmpty then refuse (.missingField key place) else .ok (.text s)
  | v => .ok v

/-- The text of the value is needed, which not every value has. -/
def mustWrite (v : Value) : Attempt Unit :=
  if v.isWritable then .ok () else misused .notANumeral

def integer (v : Value) (key place : String) : Attempt Int :=
  match v.toInteger with
  | .ok n => .ok n
  | .error .refused => do
      mustWrite v
      refuse (.notAnInteger key place v)
  | .error .infinite => misused .tooLarge

def pathFrom (root file : String) : String :=
  Path.normalize (Path.join root file)

def fileNamed (root : String) : Value → Attempt String
  | .text s => .ok (pathFrom root s)
  | _ => misused .notAPath

/-- The entry's own file if it gives one, the file around it otherwise. -/
def fileOf (root : String) (data : Value) (around : Option String) : Attempt (Option String) :=
  let own := data.field "file"
  if own.isPresent then (fileNamed root own).map some else .ok around

/-- The location of an entry that has a file and a line. -/
def location (root : String) (data : Value) (around : Option String) (place : String) :
    Attempt (Option Location) := do
  let file ← fileOf root data around
  match file with
  | none => pure none
  | some file =>
      let line := data.field "line"
      if line.isNull then pure none
      else
        let line ← integer line "line" place
        let column ← integer (data.fieldOr "column" (.int 1)) "column" place
        pure (some ⟨file, line, column⟩)

/-- The extent of an entry that has a location: from the start of its line to its end. -/
def span (data : Value) (location : Option Location) (place : String) : Attempt (Option Span) :=
  match location with
  | none => .ok none
  | some l => do
      let endLine ← integer (data.fieldOr "end_line" (.int l.line)) "end_line" place
      match data.get? "end_column" with
      | none => pure (some ⟨l.file, l.line, 1, endLine, Span.openEnd⟩)
      | some v =>
          let endColumn ← integer v "end_column" place
          pure (some ⟨l.file, l.line, 1, endLine, endColumn⟩)

/-- The last two colons of a text and what stands around them. -/
def cutLocation? (text : String) : Option (String × String × String) := do
  let (before, column) ← Text.cutAtLast? ':' text.toList
  let (file, line) ← Text.cutAtLast? ':' before
  return (String.ofList file, String.ofList line, String.ofList column)

/-- A location written as `file:line:column`, or as an entry of its own. -/
def writtenLocation (root : String) (v : Value) (place : String) : Attempt Location :=
  if v.isMapping then do
    match ← location root v none place with
    | some l => pure l
    | none => refuse (.incompleteLocation place)
  else do
    mustWrite v
    let text := v.plain
    let found := do
      let (file, line, column) ← cutLocation? text
      let line ← Number.readWhole? line
      let column ← Number.readWhole? column
      return (⟨pathFrom root file, line, column⟩ : Location)
    match found with
    | some l => pure l
    | none => refuse (.malformedLocation text place)

def passing (v : Value) (place : String) : Attempt Passing := do
  mustWrite v
  match Passing.ofText? (Text.lower v.plain) with
  | some p => pure p
  | none => refuse (.unknownPassing v place)

/-- The name of the parameter at a position that has none of its own. -/
def positionalName (i : Nat) : String :=
  "p" ++ Number.wholeText i

/-- A parameter written as text: perhaps a passing word, the type, perhaps a name. -/
def writtenParameter (i : Nat) (text place : String) : Attempt Parameter :=
  let words := Text.words text
  let (passing, words) :=
    match words with
    | "ref" :: rest => (Passing.byRef, rest)
    | "out" :: rest => (Passing.out, rest)
    | "in" :: rest => (Passing.input, rest)
    | words => (Passing.byValue, words)
  match words with
  | [] => refuse (.emptyParameter place)
  | [type] => .ok ⟨positionalName i, type, passing⟩
  | words => .ok ⟨words.getLastD "", " ".intercalate words.dropLast, passing⟩

def parameter (i : Nat) (item : Value) (place : String) : Attempt Parameter :=
  if item.isMapping then do
    let p ← passing (item.fieldOr "ref_kind" (.text "none")) place
    let name := item.fieldOr "name" (.text (positionalName i))
    mustWrite name
    let type ← required item "type" place
    mustWrite type
    pure ⟨name.plain, type.plain, p⟩
  else do
    mustWrite item
    writtenParameter i item.plain place

def parametersFrom (place : String) (i : Nat) : List Value → Attempt (List Parameter)
  | [] => .ok []
  | item :: rest => do
      let p ← parameter i item place
      let ps ← parametersFrom place (i + 1) rest
      pure (p :: ps)

def parameters (v : Value) (place : String) : Attempt (List Parameter) := do
  let items ← allowing v.itemsIfPresent
  parametersFrom place 0 items

def modifiers (data : Value) : Attempt (List String) := do
  let items ← allowing (data.field "modifiers").itemsIfPresent
  mustWrite (.list items)
  pure (items.map fun m => Text.lower m.plain)

/-- What an entry says about its accessibility, public if it says nothing. -/
def access (data : Value) : Value :=
  data.fieldOr "access" (.text "Public")

def accessibility (data : Value) : String :=
  Text.capitalized (access data).plain

/-- The id of a method: its type, its name and its canonical parameter types. -/
def methodId (type name : String) (parameters : List Parameter) : String :=
  let member :=
    if name = Signature.constructorName then "#ctor"
    else if name = Signature.staticConstructorName then "#cctor"
    else name
  "M:" ++ type ++ "." ++ member ++ "(" ++
    ",".intercalate (parameters.map fun p => TypeName.canonical p.type) ++ ")"

def methodDisplay (owner name : String) (types : List String) : String :=
  owner ++ "." ++ name ++ "(" ++ ", ".intercalate types ++ ")"

end Entry
end SymbolAtlas
