import SymbolAtlas.Index.MemberName
import SymbolAtlas.Proofs.Index.Draft
import SymbolAtlas.Proofs.Name.Segment
import Mathlib.Tactic

/-!
# What symbols are called

A type is called by the name that its id has, and a member by the type that it lies in and by a name
of its own.  This holds of declared symbols and of those that metadata adds; accessors alone are
called in another way.
-/

namespace SymbolAtlas
namespace Tables

/-- How a symbol is called among others. -/
inductive Calls (symbols : Table Symbol) (s : Symbol) : Prop where
  | type (name : String) (hkind : s.kind = .namedType) (hid : s.id = "T:" ++ name)
      (hname : s.name = Signature.simpleName name)
      (hdisplay : s.display = Text.exchange '+' '.' name)
  | accessor (hkind : s.kind ≠ .namedType) (haccessor : s.isAccessor = true)
  | member (owner : Symbol) (howner : Holds symbols owner) (htype : owner.kind = .namedType)
      (hkind : s.kind ≠ .namedType) (hinside : s.containingType = some owner.display)
      (hname : Signature.IsMember s.name)

/-- All symbols are called by their types and ids. -/
def CallsAll (symbols : Table Symbol) : Prop :=
  ∀ id s, symbols.get? id = some s → Calls symbols s

variable {before after : Table Symbol} {s : Symbol}

theorem Calls.mono (hkept : Kept before after) (h : Calls before s) : Calls after s := by
  cases h with
  | type name hkind hid hname hdisplay => exact .type name hkind hid hname hdisplay
  | accessor hkind haccessor => exact .accessor hkind haccessor
  | member owner howner htype hkind hinside hname =>
      exact .member owner (howner.mono hkept) htype hkind hinside hname

theorem CallsAll.insert (h : CallsAll before) (hnew : before.get? s.id = none)
    (hs : Calls before s) : CallsAll (before.insert s.id s) := by
  have hkept := Draft.kept_insert hnew
  intro id t ht
  rcases Draft.get?_insert_cases ht with ⟨-, rfl⟩ | hold
  · exact hs.mono hkept
  · exact (h id t hold).mono hkept

end Tables

namespace MemberName

open Tables

variable {symbols : Table Symbol} {type : Symbol} {name : String}

theorem calls_metadataMethod (htype : Holds symbols type) (hkind : type.kind = .namedType)
    (hname : Signature.IsMember name) (qualified : String) (list : Option String)
    (arguments : Option Nat) :
    Calls symbols (metadataMethod type qualified name list arguments) :=
  .member type htype hkind (by simp [metadataMethod, metadataSymbol]) rfl hname

theorem calls_metadataVariable (htype : Holds symbols type) (hkind : type.kind = .namedType)
    (hname : Signature.IsMember name) (qualified : String) {kind : SymbolKind}
    (hmember : kind ≠ .namedType) : Calls symbols (metadataVariable type qualified name kind) :=
  .member type htype hkind hmember rfl hname

theorem calls_metadataAccessor (symbols : Table Symbol) (type : Symbol)
    (qualified name keyword : String) {kind : MethodKind}
    (hkind : kind = .propertyGet ∨ kind = .propertySet) :
    Calls symbols (metadataAccessor type qualified name keyword kind) := by
  refine .accessor (by simp [metadataAccessor, metadataSymbol]) ?_
  rcases hkind with rfl | rfl <;> rfl

end MemberName
end SymbolAtlas
