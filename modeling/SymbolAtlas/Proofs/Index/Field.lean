import SymbolAtlas.Index.Build
import SymbolAtlas.Proofs.Value.Agreement
import Mathlib.Tactic

/-!
# What is read from an entry

Each reader looks at a few fields of an entry, so that entries which agree on these fields are read
alike, whatever else they hold.
-/

namespace SymbolAtlas

variable {data other : Value}

namespace Entry

open Value

theorem required_eq {keys : List String} (h : SameAt keys data other) {key : String}
    (hkey : key ∈ keys) (place : String) : required other key place = required data key place := by
  unfold required
  rw [h.field_eq hkey]

theorem location_eq (h : SameAt ["file", "line", "column"] data other) (root : String)
    (around : Option String) (place : String) :
    location root other around place = location root data around place := by
  unfold location fileOf
  rw [h.field_eq (by decide), h.field_eq (by decide), h.fieldOr_eq (by decide)]

theorem span_eq (h : SameAt ["end_line", "end_column"] data other) (location : Option Location)
    (place : String) : span other location place = span data location place := by
  have hline : ∀ missing, other.fieldOr "end_line" missing = data.fieldOr "end_line" missing :=
    h.fieldOr_eq (by decide)
  have hcolumn := h "end_column" (by decide)
  unfold span
  simp only [hline, hcolumn]

theorem modifiers_eq (h : SameAt ["modifiers"] data other) : modifiers other = modifiers data := by
  unfold modifiers
  rw [h.field_eq (by decide)]

theorem access_eq (h : SameAt ["access"] data other) : access other = access data :=
  h.fieldOr_eq (by decide) _

theorem accessibility_eq (h : SameAt ["access"] data other) :
    accessibility other = accessibility data := by
  unfold accessibility
  rw [access_eq h]

end Entry

namespace Declaration

open Value

theorem locate_eq (h : SameAt ["file", "line", "column"] data other) (isMetadata : Bool)
    (root : String) (file : Option String) (place : String) :
    locate isMetadata root other file place = locate isMetadata root data file place := by
  unfold locate
  rw [Entry.location_eq h]

theorem memberSymbol_eq (h : SameAt ["access"] data other) (owner : Owner)
    (modifiers : List String) (location : Option Location) (id name : String) (kind : SymbolKind)
    (display : String) :
    memberSymbol owner other modifiers location id name kind display =
      memberSymbol owner data modifiers location id name kind display := by
  unfold memberSymbol
  rw [Entry.accessibility_eq h]

theorem typeOfVariable_eq (h : SameAt ["type"] data other) :
    typeOfVariable other = typeOfVariable data :=
  h.fieldOr_eq (by decide) _

theorem variableSymbol_eq (h : SameAt ["access", "type"] data other) (owner : Owner)
    (modifiers : List String) (location : Option Location) (letter name : String)
    (kind : SymbolKind) :
    variableSymbol owner other modifiers location letter name kind =
      variableSymbol owner data modifiers location letter name kind := by
  unfold variableSymbol
  rw [memberSymbol_eq (h.mono (by decide)), typeOfVariable_eq (h.mono (by decide))]

theorem methodSymbol_eq (h : SameAt ["access", "implicit"] data other) (owner : Owner)
    (modifiers : List String) (location : Option Location) (name shown returns : String)
    (kind : MethodKind) (parameters : List Parameter) :
    methodSymbol owner other modifiers location name shown returns kind parameters =
      methodSymbol owner data modifiers location name shown returns kind parameters := by
  unfold methodSymbol
  rw [memberSymbol_eq (h.mono (by decide)), h.field_eq (by decide)]

theorem declaredType_eq (h : SameAt ["namespace", "access"] data other) (qualified : String)
    (kind : TypeKind) (location : Option Location) (modifiers : List String) :
    declaredType qualified kind location modifiers other =
      declaredType qualified kind location modifiers data := by
  unfold declaredType
  rw [h.field_eq (by decide), Entry.accessibility_eq (h.mono (by decide))]

end Declaration

namespace Link

open Value

theorem linkType_eq (h : SameAt ["base", "interfaces", "source_definition"] data other)
    (type : String) : linkType type other = linkType type data := by
  unfold linkType linkBase linkInterfaces linkSource
  rw [h.field_eq (by decide), h.field_eq (by decide), h.field_eq (by decide)]

theorem linkMember_eq (h : SameAt ["overrides", "implements"] data other) (id : String) :
    linkMember id other = linkMember id data := by
  unfold linkMember linkOverride linkOverridden linkImplementations
  rw [h.field_eq (by decide), h.field_eq (by decide)]

end Link

namespace Index

open Value

/-- Documents whose lists of types are related have related types. -/
theorem typesOf_agree {R : Value → Value → Prop}
    (h : AgreeEach R (data.field "types") (other.field "types")) (hrefl : ∀ type, R type type) :
    Attempt.Agrees (List.Forall₂ R) (typesOf data) (typesOf other) := by
  unfold typesOf
  generalize data.field "types" = v at h
  generalize other.field "types" = w at h
  cases h with
  | same => exact Attempt.agrees_refl (fun types => List.forall₂_same.mpr fun t _ => hrefl t) _
  | list htypes =>
      cases htypes with
      | nil => exact .ok .nil
      | cons hfirst hrest => exact .ok (.cons hfirst hrest)

end Index
end SymbolAtlas
