import SymbolAtlas.Page.Basic
import SymbolAtlas.Text.LetterCase

/-!
# Settings of a server

Settings have defaults and are checked when they are put together: sizes, times and depths have to
fit between their bounds, and transport and log level have to be known.  Requests may ask for other
sizes, times and depths, which are then brought within the bounds.
-/

namespace SymbolAtlas

structure Config where
  serverName : Value
  transport : String
  /-- The index file to load at the start. -/
  workspaceIndexPath : Value
  defaultPageSize : Number
  maxPageSize : Number
  defaultTimeout : Number
  minTimeout : Number
  maxTimeout : Number
  defaultDependencyDepth : Number
  maxDependencyDepth : Number
  defaultTreeDepth : Number
  maxTreeDepth : Number
  logLevel : String
  deriving Inhabited

namespace Config

/-- All settings with their defaults, in the order in which they are reported. -/
def defaults : List (String × Value) :=
  [ ("server_name", .text "codesight-analysis"), ("transport", .text "stdio"),
    ("workspace_index_path", .null), ("default_page_size", .int 200), ("max_page_size", .int 500),
    ("default_timeout_ms", .int 60000), ("min_timeout_ms", .int 1000),
    ("max_timeout_ms", .int 300000), ("default_dependency_depth", .int 1),
    ("max_dependency_depth", .int 10), ("default_tree_depth", .int 10),
    ("max_tree_depth", .int 100), ("log_level", .text "INFO") ]

def numberOf (v : Value) : Attempt Number :=
  Target.ordered v

/-- The values do not decrease; a value behind the first decrease is not looked at. -/
def ascends : Number → List Value → Attempt Bool
  | _, [] => .ok true
  | n, v :: rest => do
      let m ← numberOf v
      if n.le m then ascends m rest else pure false

/-- The first value is positive and the others do not decrease from it. -/
def ascendsFromPositive (first : Value) (rest : List Value) : Attempt Bool := do
  let n ← numberOf first
  if (Number.whole 0).lt n then ascends n rest else pure false

def problemUnless (problem : SettingProblem) (holds : Bool) : List SettingProblem :=
  if holds then [] else [problem]

def isKnown (known : List String) (v : Value) : Bool :=
  v.text?.any known.contains

def problems (settings : Value) : Attempt (List SettingProblem) := do
  let get := settings.field
  let pages ← ascends (.whole 1) [get "default_page_size", get "max_page_size"]
  let times ← ascendsFromPositive (get "min_timeout_ms")
    [get "default_timeout_ms", get "max_timeout_ms"]
  let depths ← ascends (.whole 1) [get "default_dependency_depth", get "max_dependency_depth"]
  let trees ← ascends (.whole 1) [get "default_tree_depth", get "max_tree_depth"]
  pure <|
    problemUnless .pageSizes pages ++ problemUnless .timeouts times ++
      problemUnless .dependencyDepths depths ++ problemUnless .treeDepths trees ++
      problemUnless .transport (isKnown transports (get "transport")) ++
      problemUnless .logLevel (isKnown logLevels (get "log_level"))

/-- The settings with some of them changed; only known ones can be. -/
def changed (changes : List (Value × Value)) : Attempt Value :=
  if changes.all fun (k, _) => defaults.any fun (name, _) => k.text? == some name then
    .ok (.mapping ((Value.record defaults |> fun
      | .mapping entries => changes.foldl (fun es (k, v) => Value.putEntry es k v) entries
      | _ => [])))
  else misused .wrongArguments

/-- The configuration of settings without problems. -/
def ofSettings (settings : Value) : Attempt Config := do
  let found ← problems settings
  if !found.isEmpty then throw (.settings found)
  let number (key : String) : Attempt Number := numberOf (settings.field key)
  pure
    { serverName := settings.field "server_name"
      transport := (settings.field "transport").plain
      workspaceIndexPath := settings.field "workspace_index_path"
      defaultPageSize := ← number "default_page_size"
      maxPageSize := ← number "max_page_size"
      defaultTimeout := ← number "default_timeout_ms"
      minTimeout := ← number "min_timeout_ms"
      maxTimeout := ← number "max_timeout_ms"
      defaultDependencyDepth := ← number "default_dependency_depth"
      maxDependencyDepth := ← number "max_dependency_depth"
      defaultTreeDepth := ← number "default_tree_depth"
      maxTreeDepth := ← number "max_tree_depth"
      logLevel := (settings.field "log_level").plain }

/-- The configuration that differs from the defaults by some changes. -/
def ofChanges (changes : List (Value × Value)) : Attempt Config := do
  let settings ← changed changes
  ofSettings settings

/-- The environment variables of the numeric settings, in the order in which they are read. -/
def numericVariables : List (String × String) :=
  [ ("CODESIGHT_DEFAULT_PAGE_SIZE", "default_page_size"),
    ("CODESIGHT_MAX_PAGE_SIZE", "max_page_size"),
    ("CODESIGHT_DEFAULT_TIMEOUT_MS", "default_timeout_ms"),
    ("CODESIGHT_MIN_TIMEOUT_MS", "min_timeout_ms"),
    ("CODESIGHT_MAX_TIMEOUT_MS", "max_timeout_ms"),
    ("CODESIGHT_DEFAULT_DEPTH", "default_dependency_depth"),
    ("CODESIGHT_MAX_DEPTH", "max_dependency_depth"),
    ("CODESIGHT_DEFAULT_TREE_DEPTH", "default_tree_depth"),
    ("CODESIGHT_MAX_TREE_DEPTH", "max_tree_depth") ]

def numericChanges (environment : String → Option String) :
    List (String × String) → Attempt (List (Value × Value))
  | [] => .ok []
  | (variableName, key) :: rest =>
      match environment variableName with
      | none => numericChanges environment rest
      | some text =>
          match Number.readWhole? text with
          | none => misused .notANumeral
          | some n => do
              let changes ← numericChanges environment rest
              pure ((.text key, .int n) :: changes)

/-- The settings that are texts and that an environment changes; an empty path is none, and log
levels are read in any letter case. -/
def textChanges (environment : String → Option String) : List (Value × Value) :=
  let change (variableName key : String) (f : String → Value) : List (Value × Value) :=
    (environment variableName).toList.map fun text => (.text key, f text)
  change "CODESIGHT_SERVER_NAME" "server_name" .text ++
    change "CODESIGHT_TRANSPORT" "transport" .text ++
    change "CODESIGHT_WORKSPACE" "workspace_index_path"
      (fun path => if path.isEmpty then .null else .text path) ++
    change "LOG_LEVEL" "log_level" (fun level => .text (Text.upper level))

def ofEnvironment (environment : String → Option String) : Attempt Config := do
  let numbers ← numericChanges environment numericVariables
  ofChanges (numbers ++ textChanges environment)

/-- The configuration without any change. -/
def standard : Config where
  serverName := .text "codesight-analysis"
  transport := "stdio"
  workspaceIndexPath := .null
  defaultPageSize := .whole 200
  maxPageSize := .whole 500
  defaultTimeout := .whole 60000
  minTimeout := .whole 1000
  maxTimeout := .whole 300000
  defaultDependencyDepth := .whole 1
  maxDependencyDepth := .whole 10
  defaultTreeDepth := .whole 10
  maxTreeDepth := .whole 100
  logLevel := "INFO"

/-- A requested number brought between two bounds, the default if none is requested. -/
def clamp (standard low high : Number) (requested : Value) : Attempt Number :=
  if requested.isNull then .ok standard
  else (Target.ordered requested).map fun n => Number.lesser high (Number.greater low n)

def clampPageSize (c : Config) (requested : Value) : Attempt Number :=
  clamp c.defaultPageSize (.whole 1) c.maxPageSize requested

def clampTimeout (c : Config) (requested : Value) : Attempt Number :=
  clamp c.defaultTimeout c.minTimeout c.maxTimeout requested

def clampDependencyDepth (c : Config) (requested : Value) : Attempt Number :=
  clamp c.defaultDependencyDepth (.whole 1) c.maxDependencyDepth requested

def clampTreeDepth (c : Config) (requested : Value) : Attempt Number :=
  clamp c.defaultTreeDepth (.whole 1) c.maxTreeDepth requested

def toValue (c : Config) : Value :=
  Value.record
    [ ("server_name", c.serverName), ("transport", .text c.transport),
      ("workspace_index_path", c.workspaceIndexPath),
      ("default_page_size", .ofNumber c.defaultPageSize),
      ("max_page_size", .ofNumber c.maxPageSize),
      ("default_timeout_ms", .ofNumber c.defaultTimeout),
      ("min_timeout_ms", .ofNumber c.minTimeout), ("max_timeout_ms", .ofNumber c.maxTimeout),
      ("default_dependency_depth", .ofNumber c.defaultDependencyDepth),
      ("max_dependency_depth", .ofNumber c.maxDependencyDepth),
      ("default_tree_depth", .ofNumber c.defaultTreeDepth),
      ("max_tree_depth", .ofNumber c.maxTreeDepth), ("log_level", .text c.logLevel) ]

end Config
end SymbolAtlas
