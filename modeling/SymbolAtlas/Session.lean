import SymbolAtlas.Host
import SymbolAtlas.Tool.Query

/-!
# Sessions

A session carries out actions one after the other: workspaces are loaded, put in place and taken
away, and tools are called.  Every action either succeeds and says which host the next one finds,
or ends with a fault and leaves the host as it was.
-/

namespace SymbolAtlas

inductive Action where
  | load (path : Value)
  | autoload (path : Value)
  | swap (s : Snapshot)
  | clear
  | call (tool : Tool) (arguments : Arguments)

inductive Outcome where
  | done
  | autoloaded (isLoaded : Bool)
  | answered (a : Answer)

/-- Where actions take place. -/
structure Session where
  disk : Disk
  config : Config
  host : Host

namespace Session

def callLoad (s : Session) (path : Value) : Attempt (Answer × Host) :=
  if !path.isPresent then refuse .emptyPath
  else
    match path with
    | .text given => do
        let path := Text.trim given
        if path.isEmpty then refuse .emptyPath
        let (loaded, host) ← s.host.load s.disk (.text path)
        let answer : LoadedWorkspace :=
          { name := loaded.name
            indexPath := loaded.sourcePath.getD given
            root := loaded.root
            size := loaded.size
            generation := host.generation }
        pure (.workspace answer, host)
    | _ => misused .noSuchOperation

def query (s : Session) (handler : Query.Handler) (arguments : Arguments) :
    Attempt (Answer × Host) :=
  (handler s.config s.host.require arguments).map fun answer => (answer, s.host)

def call (s : Session) (tool : Tool) (arguments : Arguments) : Attempt (Answer × Host) :=
  match tool with
  | .loadWorkspace => s.callLoad (arguments.value "path")
  | .describeSymbol => s.query Query.describeSymbol arguments
  | .findReferences => s.query Query.findReferences arguments
  | .methodDependencies => s.query Query.methodDependencies arguments
  | .inheritanceTree => s.query Query.inheritanceTree arguments
  | .allImplementations => s.query Query.allImplementations arguments
  | .gotoDefinition => s.query Query.gotoDefinition arguments
  | .typeInfo => s.query Query.typeInfo arguments

def attempt (s : Session) : Action → Attempt (Outcome × Host)
  | .load path => (s.host.load s.disk path).map fun (_, host) => (.done, host)
  | .autoload path =>
      (s.host.autoload s.disk path).map fun (isLoaded, host) => (.autoloaded isLoaded, host)
  | .swap snapshot => .ok (.done, s.host.swap snapshot)
  | .clear => .ok (.done, s.host.clear)
  | .call tool arguments =>
      (s.call tool arguments).map fun (answer, host) => (.answered answer, host)

/-- What an action comes to, and the session in which the next one takes place. -/
def act (s : Session) (action : Action) : Attempt Outcome × Session :=
  match s.attempt action with
  | .ok (outcome, host) => (.ok outcome, { s with host := host })
  | .error fault => (.error fault, s)

def run (s : Session) : List Action → List (Attempt Outcome) × Session
  | [] => ([], s)
  | action :: rest =>
      let (outcome, next) := s.act action
      let (outcomes, last) := run next rest
      (outcome :: outcomes, last)

end Session
end SymbolAtlas
