import SymbolAtlas.Json.Reader
import SymbolAtlas.Json.Writer
import SymbolAtlas.Report.Answer
import SymbolAtlas.Session

/-!
# The server

Reads its settings from the environment, loads the workspace that they name, and then answers one
request a line until its input ends.  A request is a JSON record with the name of a tool and its
arguments.  Files are read before a workspace is loaded from them, so that loading itself is pure.
-/

namespace SymbolAtlas
namespace Server

def readText? (path : String) : IO (Option String) := do
  try
    let text ← IO.FS.readFile path
    pure (some text)
  catch _ => pure none

def readFiles (paths : List String) : IO (List (String × String)) := do
  let found ← paths.mapM fun path => do
    let text ← readText? path
    pure (text.toList.map fun t => (path, t))
  pure found.flatten

/-- The directory and the home that relative paths are seen from, without any files. -/
def emptyDisk : IO Disk := do
  let directory ← IO.currentDir
  let home ← IO.getEnv "HOME"
  pure { directory := directory.toString, home := home.getD "/", files := [] }

/-- The files that loading an index file may ask for: the file itself, and those that its symbols
lie in. -/
def diskFor (path : String) : IO Disk := do
  let disk ← emptyDisk
  match Snapshot.indexPath disk path with
  | .error _ => pure disk
  | .ok found => do
      let disk := { disk with files := ← readFiles [found] }
      match Snapshot.ofFile disk (.text path) with
      | .error _ => pure disk
      | .ok s => do
          let sources ← readFiles (Index.mentionedFiles s.tables)
          pure { disk with files := disk.files ++ sources }

def diskOf : Action → IO Disk
  | .load (.text path) => diskFor path
  | .autoload (.text path) => diskFor path
  | .call .loadWorkspace arguments =>
      match arguments.value "path" with
      | .text path => diskFor (Text.trim path)
      | _ => emptyDisk
  | _ => emptyDisk

def carryOut (session : Session) (action : Action) : IO (Attempt Outcome × Session) := do
  let disk ← diskOf action
  pure ({ session with disk := disk }.act action)

def faultFields : Fault → List (String × Value)
  | .failure f => Report.failureFields f
  | .misuse _ =>
      [("code", .text FailureCode.internal.text), ("message", .text "Unhandled exception")]
  | .settings problems =>
      [("code", .text FailureCode.internal.text), ("message", .text (settingsMessage problems))]

def report : Attempt Outcome → Value
  | .ok (.answered a) => Report.answer a
  | .ok _ => Value.record [("success", .bool true)]
  | .error fault => Report.refusal (faultFields fault)

def actionOf (request : Value) : Attempt Action :=
  match (request.field "tool").text?.bind Tool.ofName?, request.fieldOr "args" (.mapping []) with
  | some tool, .mapping entries => (Arguments.ofEntries tool entries).map (.call tool)
  | _, _ => misused .wrongArguments

def answerLine (session : Session) (line : String) : IO (Value × Session) := do
  match (Json.read? line.toList).map actionOf with
  | some (.ok action) => do
      let (outcome, next) ← carryOut session action
      pure (report outcome, next)
  | some (.error fault) => pure (report (.error fault), session)
  | none => pure (report (misused .unexplained), session)

/-- Answers line after line. -/
partial def serve (session : Session) : IO Unit := do
  let line ← (← IO.getStdin).getLine
  if !line.isEmpty then
    let (answer, next) ← answerLine session line
    let out ← IO.getStdout
    out.putStrLn (Json.write answer)
    out.flush
    serve next

/-- The environment variables that settings are read from. -/
def environment : IO (String → Option String) := do
  let names :=
    ["CODESIGHT_SERVER_NAME", "CODESIGHT_TRANSPORT", "CODESIGHT_WORKSPACE", "LOG_LEVEL"] ++
      Config.numericVariables.map Prod.fst
  let found ← names.mapM fun name => do
    let value ← IO.getEnv name
    pure (value.toList.map fun v => (name, v))
  pure fun name => found.flatten.lookup name

def start : IO UInt32 := do
  let env ← environment
  match Config.ofEnvironment env with
  | .error fault => do
      IO.eprintln (Json.write (report (.error fault)))
      pure 1
  | .ok config => do
      let session : Session := ⟨← emptyDisk, config, .empty⟩
      let (outcome, session) ← carryOut session (.autoload config.workspaceIndexPath)
      match outcome with
      | .error fault => do
          IO.eprintln (Json.write (report (.error fault)))
          pure 1
      | .ok _ => do
          serve session
          pure 0

end Server
end SymbolAtlas

def main : IO UInt32 :=
  SymbolAtlas.Server.start
