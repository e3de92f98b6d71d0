import SymbolAtlas.Symbol

/-!
# Failures

A request that cannot be answered ends with a failure of one of six codes, whose message is worked
out from its cause.  What is wrong with an input, what could not be found and why a name is
ambiguous are causes of their own; a value used against its shape is a misuse, not a failure.
-/

namespace SymbolAtlas

inductive FailureCode where
  | invalidInput
  | notFound
  | ambiguous
  | timeout
  | backendUnavailable
  | internal
  deriving DecidableEq, Repr

def FailureCode.text : FailureCode → String
  | .invalidInput => "INVALID_INPUT"
  | .notFound => "NOT_FOUND"
  | .ambiguous => "AMBIGUOUS"
  | .timeout => "TIMEOUT"
  | .backendUnavailable => "BACKEND_UNAVAILABLE"
  | .internal => "INTERNAL"

def FailureCode.all : List FailureCode :=
  [.invalidInput, .notFound, .ambiguous, .timeout, .backendUnavailable, .internal]

/-- What is wrong with a document or a request.  `place` says which part of a document is meant. -/
inductive InvalidInput where
  | typesNotAList
  | typeNotAMapping
  | typeDeclaredTwice (name : String)
  | unknownTypeKind (kind : Value) (type : String)
  | missingField (key place : String)
  | notAnInteger (key place : String) (found : Value)
  | incompleteLocation (place : String)
  | malformedLocation (text place : String)
  | unknownPassing (found : Value) (place : String)
  | emptyParameter (place : String)
  | memberDeclaredTwice (display : String)
  | memberNotAMapping (place : String)
  | unknownMemberKind (kind place : String)
  | unknownSourceDefinition (found : Value) (type : String)
  | notAMemberReference (reference place : String)
  | severalOverloads (reference place : String)
  | noSuchMember (reference place type : String)
  | referenceNotAMapping
  | indexNotFound (path : String)
  | unsupportedExtension (extension : String)
  | unreadableIndex (path reason : String)
  | indexNotAMapping (path : String)
  | emptyPath
  | noTarget
  | twoTargets
  | positionBelowOne (line column : Value)
  | unknownDirection (found : Value)
  | notAType (display : String)
  | notAnInterface
  deriving DecidableEq

def InvalidInput.message : InvalidInput → String
  | .typesNotAList => "'types' must be a list"
  | .typeNotAMapping => "Each entry in 'types' must be a mapping"
  | .typeDeclaredTwice name => "Type declared twice: " ++ name
  | .unknownTypeKind kind type => "Unknown type kind '" ++ kind.plain ++ "' for " ++ type
  | .missingField key place => "Missing '" ++ key ++ "' in " ++ place
  | .notAnInteger key place found =>
      "'" ++ key ++ "' in " ++ place ++ " must be an integer (got " ++ found.spelled ++ ")"
  | .incompleteLocation place => "Location in " ++ place ++ " needs file and line"
  | .malformedLocation text place =>
      "Location '" ++ text ++ "' in " ++ place ++ " must look like file:line:column"
  | .unknownPassing found place =>
      "Unknown ref_kind '" ++ found.plain ++ "' in " ++ place ++ " (expected one of: " ++
        ", ".intercalate (Passing.all.map Passing.text) ++ ")"
  | .emptyParameter place => "Empty parameter in " ++ place
  | .memberDeclaredTwice display => "Member declared twice: " ++ display
  | .memberNotAMapping place => "Each " ++ place ++ " must be a mapping"
  | .unknownMemberKind kind place => "Unknown member kind '" ++ kind ++ "' in " ++ place
  | .unknownSourceDefinition found type =>
      "Unknown source_definition '" ++ found.plain ++ "' for " ++ type
  | .notAMemberReference reference place =>
      "'" ++ reference ++ "' in " ++ place ++ " is not a Type.Member reference"
  | .severalOverloads reference place =>
      "'" ++ reference ++ "' in " ++ place ++ " matches several overloads; add a parameter list"
  | .noSuchMember reference place type =>
      "'" ++ reference ++ "' in " ++ place ++ " does not name a member of " ++ type
  | .referenceNotAMapping => "Each entry in 'references' must be a mapping"
  | .indexNotFound path => "Workspace index not found: " ++ path
  | .unsupportedExtension extension => "Unsupported workspace index extension: " ++ extension
  | .unreadableIndex path reason => "Failed to read workspace index " ++ path ++ ": " ++ reason
  | .indexNotAMapping path =>
      "Workspace index " ++ path ++ " must contain a mapping at top level"
  | .emptyPath => "path cannot be empty"
  | .noTarget => "Provide either fully_qualified_name OR file+line+column."
  | .twoTargets => "Provide either fully_qualified_name OR file+line+column, not both."
  | .positionBelowOne line column =>
      "line and column are 1-based (got " ++ line.plain ++ ":" ++ column.plain ++ ")."
  | .unknownDirection found =>
      "direction must be one of ['both', 'ancestors', 'descendants'] (got '" ++ found.plain ++ "')"
  | .notAType display => display ++ " is not a type"
  | .notAnInterface => "Target must be an interface type or an interface member."

inductive Absence where
  | noSymbolAt (place : String)
  | noMethodAt (place : String)
  | noTypeAt (place : String)
  | noOverload (member : String) (parameters : Option String) (owner : String)
  | nothingCallable (type : String)
  | noSymbol (name : String) (parameters : Option String)
  | noType (name : String)
  | noInterfaceMember (interface : String) (member : Value)
  deriving DecidableEq

def withParameters (name : String) : Option String → String
  | some list => name ++ "(" ++ list ++ ")"
  | none => name

def Absence.message : Absence → String
  | .noSymbolAt place => "No symbol found at " ++ place
  | .noMethodAt place => "No method found at " ++ place
  | .noTypeAt place => "No type found at " ++ place
  | .noOverload member parameters owner =>
      "No " ++ withParameters member parameters ++ " declared on " ++ owner
  | .nothingCallable type => "Type " ++ type ++ " declares no constructors or methods"
  | .noSymbol name parameters => "Symbol not found: " ++ withParameters name parameters
  | .noType name => "Type not found: " ++ name
  | .noInterfaceMember interface member =>
      "Interface " ++ interface ++ " has no member '" ++ member.plain ++ "'"

/-- Why a target has several candidates: it names a type with several members to choose from, or
several symbols share its name. -/
inductive Ambiguity where
  | membersOf (target owner : String)
  | symbols (target : String) (count : Nat)
  | reported (message : String)
  deriving DecidableEq

def Ambiguity.message : Ambiguity → String
  | .membersOf target owner =>
      "Ambiguous: " ++ target ++ " resolves to " ++ owner ++ " with multiple candidates."
  | .symbols target count =>
      "Ambiguous: " ++ target ++ " matches " ++ Number.wholeText count ++ " symbols."
  | .reported message => message

/-- Why a request was stopped: it was cancelled itself, or its time or that of a request around it
is up. -/
inductive Expiry where
  | cancelled
  | timeUp (limit : Option Number)
  deriving DecidableEq

def limitValue (limit : Option Number) : Value :=
  (limit.map Value.ofNumber).getD .null

def Expiry.message : Expiry → String
  | .cancelled => "Operation canceled (external cancellation)."
  | .timeUp limit =>
      "Operation canceled (timeout after " ++ (limitValue limit).plain ++
        " ms or external cancellation)."

inductive Failure where
  | invalidInput (cause : InvalidInput)
  | notFound (absence : Absence)
  | ambiguous (cause : Ambiguity) (candidates : List Symbol) (hint : Option String)
  | timeout (cause : Expiry)
  | noWorkspace
  /-- A failure that comes with its own words and details. -/
  | reported (code : FailureCode) (message : String) (details : List (Value × Value))
  deriving DecidableEq

namespace Failure

def code : Failure → FailureCode
  | .invalidInput _ => .invalidInput
  | .notFound _ => .notFound
  | .ambiguous _ _ _ => .ambiguous
  | .timeout _ => .timeout
  | .noWorkspace => .backendUnavailable
  | .reported code _ _ => code

def message : Failure → String
  | .invalidInput cause => cause.message
  | .notFound absence => absence.message
  | .ambiguous cause _ _ => cause.message
  | .timeout cause => cause.message
  | .noWorkspace =>
      "No workspace is loaded. Call load_workspace with a semantic index file " ++
        "or set CODESIGHT_WORKSPACE before starting the server."
  | .reported _ message _ => message

def details : Failure → List (Value × Value)
  | .timeout (.timeUp limit) => [(.text "timeout_ms", limitValue limit)]
  | .reported _ _ details => details
  | _ => []

end Failure

/-- What is wrong with the settings of a server. -/
inductive SettingProblem where
  | pageSizes
  | timeouts
  | dependencyDepths
  | treeDepths
  | transport
  | logLevel
  deriving DecidableEq, Repr

def transports : List String :=
  ["stdio", "http", "sse", "streamable-http"]

def logLevels : List String :=
  ["DEBUG", "INFO", "WARNING", "ERROR", "CRITICAL"]

def SettingProblem.message : SettingProblem → String
  | .pageSizes => "default_page_size must be between 1 and max_page_size"
  | .timeouts => "timeouts must satisfy 0 < min <= default <= max"
  | .dependencyDepths => "default_dependency_depth must be between 1 and max_dependency_depth"
  | .treeDepths => "default_tree_depth must be between 1 and max_tree_depth"
  | .transport =>
      "transport must be one of " ++ (Value.list (transports.map Value.text)).spelled
  | .logLevel => "log_level must be one of " ++ (Value.list (logLevels.map Value.text)).spelled

/-- What ends an attempt: a failure, a misused value, or settings that do not fit together. -/
inductive Fault where
  | failure (f : Failure)
  | misuse (m : Misuse)
  | settings (problems : List SettingProblem)
  deriving DecidableEq

def settingsMessage (problems : List SettingProblem) : String :=
  "Invalid configuration: " ++ ", ".intercalate (problems.map SettingProblem.message)

/-- An attempt either succeeds or ends with a fault. -/
abbrev Attempt := Except Fault

def refuse {α : Type} (cause : InvalidInput) : Attempt α :=
  .error (.failure (.invalidInput cause))

def misused {α : Type} (m : Misuse) : Attempt α :=
  .error (.misuse m)

/-- Lets a misuse end an attempt. -/
def allowing {α : Type} : Except Misuse α → Attempt α
  | .ok a => .ok a
  | .error m => misused m

end SymbolAtlas
