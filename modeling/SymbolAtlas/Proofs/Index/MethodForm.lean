import SymbolAtlas.Index.MemberName
import SymbolAtlas.Proofs.Index.Closed
import Mathlib.Tactic

/-!
# What methods are called

A method other than an accessor has the id that its type, its name and its parameters make up, and
is shown with the same parts.  This holds of declared methods and of constructors, static and
implicit ones included, and of the methods that metadata types get.
-/

namespace SymbolAtlas

/-- The name of a type as its id has it. -/
def Symbol.qualifiedName (type : Symbol) : String :=
  String.ofList (type.id.toList.drop 2)

theorem Symbol.qualifiedName_eq {type : Symbol} {qualified : String}
    (hid : type.id = "T:" ++ qualified) : type.qualifiedName = qualified := by
  unfold qualifiedName
  rw [hid, String.toList_append]
  simp

/-- A method is called by its type, its name and its parameters, and constructors have names of
their own. -/
structure Symbol.IsMethodOf (m type : Symbol) : Prop where
  kind : m.kind = .method
  id : m.id = Entry.methodId type.qualifiedName m.name m.parameters
  display : m.display = Entry.methodDisplay type.display
    (if m.isConstructor then type.name else m.name) m.parameterTypes
  constructor : m.methodKind = some .constructor → m.name = Signature.constructorName
  staticConstructor : m.methodKind = some .staticConstructor →
    m.name = Signature.staticConstructorName

/-- A method that is no accessor. -/
def Symbol.IsPlainMethod (m : Symbol) : Prop :=
  (m.kind = .method ∨ m.methodKind.isSome = true) ∧ m.isAccessor = false

namespace Tables

/-- The symbol is a method of the type of the id, which is found under some name. -/
def Titled (t : Tables) (type : String) (m : Symbol) : Prop :=
  ∃ owner name, t.symbols.get? type = some owner ∧ m.IsMethodOf owner ∧
    name ≠ "" ∧ t.typeNames.get? name = some type

end Tables

namespace Declaration

/-- A method's name, the name that it is shown with, and its kind. -/
inductive MethodForm (type : Symbol) : String → String → MethodKind → Prop where
  | ordinary (name : String) : MethodForm type name name .ordinary
  | constructor : MethodForm type Signature.constructorName type.name .constructor
  | staticConstructor :
      MethodForm type Signature.staticConstructorName type.name .staticConstructor

variable {owner : Owner} {name shown : String} {kind : MethodKind}

theorem MethodForm.isMethodOf (h : MethodForm owner.type name shown kind)
    (hid : owner.type.id = "T:" ++ owner.qualified) (data : Value) (modifiers : List String)
    (location : Option Location) (returns : String) (parameters : List Parameter) :
    (methodSymbol owner data modifiers location name shown returns kind parameters).IsMethodOf
      owner.type := by
  have hqualified := Symbol.qualifiedName_eq hid
  cases h <;> constructor <;>
    simp [methodSymbol, memberSymbol, hqualified, Symbol.isConstructor, Symbol.parameterTypes]

theorem MethodForm.isAccessor_eq_false (h : MethodForm owner.type name shown kind) (data : Value)
    (modifiers : List String) (location : Option Location) (returns : String)
    (parameters : List Parameter) :
    (methodSymbol owner data modifiers location name shown returns kind
      parameters).isAccessor = false := by
  cases h <;> rfl

theorem isMethodOf_implicitConstructor {type : Symbol} {qualified : String}
    (hid : type.id = "T:" ++ qualified) : (implicitConstructor type qualified).IsMethodOf type := by
  have hqualified := Symbol.qualifiedName_eq hid
  constructor <;>
    simp [implicitConstructor, hqualified, Symbol.isConstructor, Symbol.parameterTypes]

end Declaration

namespace MemberName

theorem map_type_positionalParameters (i : Nat) (types : List String) :
    (positionalParameters i types).map Parameter.type = types := by
  induction types generalizing i with
  | nil => rfl
  | cons type rest ih => rw [positionalParameters, List.map_cons, ih]

theorem isMethodOf_metadataMethod (type : Symbol) (name : String) (list : Option String)
    (arguments : Option Nat) :
    (metadataMethod type type.qualifiedName name list arguments).IsMethodOf type := by
  by_cases hname : name = Signature.constructorName <;> constructor <;>
    simp [metadataMethod, metadataSymbol, hname, Symbol.isConstructor, Symbol.parameterTypes,
      map_type_positionalParameters]

end MemberName
end SymbolAtlas
