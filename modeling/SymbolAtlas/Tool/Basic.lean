import SymbolAtlas.Target

/-!
# Tools

Requests reach a workspace through eight tools, each with parameters of its own.  A parameter that
is not given has its standard value, if it has one; a request that leaves out another one, or gives
one that the tool does not know, is not carried out at all.
-/

namespace SymbolAtlas

inductive Tool where
  | loadWorkspace
  | describeSymbol
  | findReferences
  | methodDependencies
  | inheritanceTree
  | allImplementations
  | gotoDefinition
  | typeInfo
  deriving DecidableEq, Repr

namespace Tool

def all : List Tool :=
  [ .loadWorkspace, .describeSymbol, .findReferences, .methodDependencies, .inheritanceTree,
    .allImplementations, .gotoDefinition, .typeInfo ]

def name : Tool → String
  | .loadWorkspace => "load_workspace"
  | .describeSymbol => "describe_symbol"
  | .findReferences => "find_references"
  | .methodDependencies => "get_method_dependencies"
  | .inheritanceTree => "get_inheritance_tree"
  | .allImplementations => "get_all_implementations"
  | .gotoDefinition => "goto_definition"
  | .typeInfo => "get_type_info"

def ofName? (name : String) : Option Tool :=
  all.find? fun t => t.name == name

/-- Names of parameters, each with its standard value unless it has to be given. -/
abbrev Parameters := List (String × Option Value)

def targetParameters : Parameters :=
  [("fully_qualified_name", some .null), ("file", some .null), ("line", some .null),
    ("column", some .null)]

def pageParameters : Parameters :=
  [("page", some (.int 1)), ("page_size", some .null), ("cursor", some .null)]

def timeoutParameter : Parameters :=
  [("timeout_ms", some .null)]

def parameters : Tool → Parameters
  | .loadWorkspace => [("path", none)]
  | .describeSymbol => targetParameters
  | .findReferences => targetParameters ++ pageParameters ++ timeoutParameter
  | .methodDependencies =>
      targetParameters ++
        [ ("depth", some .null), ("include_callers", some (.bool false)),
          ("treat_properties_as_methods", some (.bool true)) ] ++
        pageParameters ++ timeoutParameter
  | .inheritanceTree =>
      targetParameters ++
        [ ("direction", some (.text "both")), ("include_interfaces", some (.bool true)),
          ("include_overrides", some (.bool false)), ("max_depth", some .null),
          ("solution_only", some (.bool true)) ] ++
        pageParameters ++ timeoutParameter
  | .allImplementations =>
      targetParameters ++
        [ ("member", some .null), ("include_derived_interfaces", some (.bool true)),
          ("solution_only", some (.bool true)) ] ++
        pageParameters ++ timeoutParameter
  | .gotoDefinition => targetParameters
  | .typeInfo => targetParameters ++ pageParameters

end Tool

structure Arguments where
  values : List (String × Value)
  deriving Inhabited

namespace Arguments

/-- Fills in the standard values around the entries that a request gives. -/
def fill (entries : List (Value × Value)) : Tool.Parameters → Attempt (List (String × Value))
  | [] => .ok []
  | (key, standard) :: rest =>
      match Value.entry? key entries <|> standard with
      | none => misused .wrongArguments
      | some v => (fill entries rest).map ((key, v) :: ·)

/-- The arguments of a request, which names each of them. -/
def ofEntries (tool : Tool) (entries : List (Value × Value)) : Attempt Arguments :=
  let known := tool.parameters.map Prod.fst
  if entries.all fun (k, _) => k.text?.any known.contains then
    (fill entries tool.parameters).map Arguments.mk
  else misused .wrongArguments

def value (a : Arguments) (key : String) : Value :=
  (a.values.lookup key).getD .null

/-- A switch is on unless its value counts as absent. -/
def isOn (a : Arguments) (key : String) : Bool :=
  (a.value key).isPresent

def target (a : Arguments) : Attempt Target :=
  Target.ofArguments (a.value "fully_qualified_name") (a.value "file") (a.value "line")
    (a.value "column")

end Arguments
end SymbolAtlas
