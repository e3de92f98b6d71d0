import SymbolAtlas.Config
import SymbolAtlas.Tool.Answer
import SymbolAtlas.Tool.Basic

/-!
# Queries

Every tool but the one that loads a workspace asks the active one.  A request first says what it is
about, then takes hold of the workspace, and only then looks its target up; the page it asks for is
cut last, when everything else is known.
-/

namespace SymbolAtlas

/-- What a request works with: the workspace that was active when it began, the settings, and the
time until which it may run. -/
structure Request where
  snapshot : Snapshot
  config : Config
  deadline : Deadline

namespace Request

/-- Takes hold of a workspace, and lets the time of the request begin. -/
def start (config : Config) (workspace : Attempt Snapshot) (timeout : Value) : Attempt Request := do
  let snapshot ← workspace
  let limit ← config.clampTimeout timeout
  let deadline ← Deadline.start limit false none
  pure ⟨snapshot, config, deadline⟩

def page {α : Type} (r : Request) (items : List α) (number size cursor : Value) :
    Attempt (Page α) := do
  let size ← r.config.clampPageSize size
  let number ← Page.numberToServe number cursor (.ofNumber size)
  Page.serve items (.ofNumber number) (.ofNumber size) (.ofNumber r.config.maxPageSize)

def pageFor {α : Type} (r : Request) (arguments : Arguments) (items : List α) : Attempt (Page α) :=
  r.page items (arguments.value "page") (arguments.value "page_size") (arguments.value "cursor")

def symbolOf (r : Request) (target : Target) : Attempt Symbol := do
  let found ← r.snapshot.resolve target false
  found.require target Resolution.symbolHint

def methodOf (r : Request) (target : Target) (accessors : Bool) : Attempt Symbol := do
  let found ← r.snapshot.resolveMethod target accessors
  found.require target Resolution.methodHint

def typeOf (r : Request) (target : Target) : Attempt Symbol := do
  let found ← r.snapshot.resolveType target
  found.require target Resolution.symbolHint

def describe (r : Request) (symbol : Symbol) : Description :=
  match symbol.kind with
  | .namedType =>
      { symbol := symbol
        base := r.snapshot.baseOf? symbol
        interfaces := some (r.snapshot.interfacesOf symbol false) }
  | .property =>
      let (getter, setter) := r.snapshot.accessorsOf symbol
      { symbol := symbol, accessors := some (getter.toList ++ setter.toList) }
  | _ => { symbol := symbol }

/-- The declaration of a symbol in source, or what metadata tells about it. -/
def define (r : Request) (symbol : Symbol) : Definition :=
  match r.snapshot.sourceOf? symbol with
  | some source => ⟨symbol, source, true, false⟩
  | none => ⟨symbol, symbol, false, !symbol.inSource⟩

end Request

namespace Query

/-- What a request is carried out with: settings, the workspace if one is active, arguments. -/
abbrev Handler := Config → Attempt Snapshot → Arguments → Attempt Answer

def describeSymbol : Handler := fun config workspace arguments => do
  let target ← arguments.target
  let request ← Request.start config workspace .null
  let symbol ← request.symbolOf target
  pure (.description (request.describe symbol))

def findReferences : Handler := fun config workspace arguments => do
  let target ← arguments.target
  let request ← Request.start config workspace (arguments.value "timeout_ms")
  let symbol ← request.symbolOf target
  request.deadline.check
  let references ← request.pageFor arguments (request.snapshot.referencesTo symbol)
  pure (.references ⟨symbol, references⟩)

def methodDependencies : Handler := fun config workspace arguments => do
  let target ← arguments.target
  let request ← Request.start config workspace (arguments.value "timeout_ms")
  let depth ← config.clampDependencyDepth (arguments.value "depth")
  let accessors := arguments.isOn "treat_properties_as_methods"
  let method ← request.methodOf target accessors
  let (found, callers) ← request.snapshot.dependenciesOf accessors (fun _ => none)
    request.deadline method depth (arguments.isOn "include_callers")
  let calls ← request.pageFor arguments (found.found.calls.mergeSort Symbol.precedes)
  pure (.dependencies ⟨method, depth, calls, found, callers⟩)

def inheritanceTree : Handler := fun config workspace arguments => do
  let target ← arguments.target
  let direction ← Direction.parse (arguments.value "direction")
  let request ← Request.start config workspace (arguments.value "timeout_ms")
  let maxDepth ← config.clampTreeDepth (arguments.value "max_depth")
  let type ← request.typeOf target
  let view : HierarchyView :=
    { direction := direction
      maxDepth := .ofNumber maxDepth
      withInterfaces := arguments.isOn "include_interfaces"
      withOverrides := arguments.isOn "include_overrides"
      inSourceOnly := arguments.isOn "solution_only" }
  let hierarchy ← request.snapshot.hierarchyOf request.deadline type view
  let descendants ← request.pageFor arguments (hierarchy.descendants.mergeSort Symbol.precedes)
  pure (.hierarchy ⟨hierarchy, view, maxDepth, descendants⟩)

def allImplementations : Handler := fun config workspace arguments => do
  let target ← arguments.target
  let request ← Request.start config workspace (arguments.value "timeout_ms")
  let symbol ← request.symbolOf target
  let result ← request.snapshot.implementationsFor request.deadline symbol
    (arguments.value "member") (arguments.isOn "include_derived_interfaces")
    (arguments.isOn "solution_only")
  let implementations ← request.pageFor arguments result.found
  pure <| .implementations
    ⟨result.member.getD result.interface, implementations, result.extensions⟩

def gotoDefinition : Handler := fun config workspace arguments => do
  let target ← arguments.target
  let request ← Request.start config workspace .null
  let symbol ← request.symbolOf target
  pure (.definition (request.define symbol))

def typeInfo : Handler := fun config workspace arguments => do
  let target ← arguments.target
  let request ← Request.start config workspace .null
  let type ← request.typeOf target
  let members := (request.snapshot.membersOf type).filter fun m => m.kind != .namedType
  let page ← request.pageFor arguments members
  pure <| .type
    ⟨type, request.snapshot.baseOf? type, request.snapshot.interfacesOf type false, page⟩

end Query
end SymbolAtlas
