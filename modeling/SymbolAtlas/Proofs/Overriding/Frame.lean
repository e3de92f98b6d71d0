import SymbolAtlas.Proofs.Index.Metadata
import SymbolAtlas.Proofs.Overriding.Search
import SymbolAtlas.Proofs.Reordering.Frame
import Mathlib.Tactic

/-!
# Steps that leave the hierarchy alone

Bases come in with the links of types and overridden members with those of members.  What a member
implements, bodies, references and source files change neither, though they may bring in metadata.
-/

namespace SymbolAtlas

open Building Draft Tables

namespace Draft

/-- Bases and overridden members are the same. -/
structure SameHierarchy (d d' : Draft) : Prop where
  baseTypes : ∀ id, d'.baseTypes.get? id = d.baseTypes.get? id
  overridden : ∀ id, d'.overridden.get? id = d.overridden.get? id

variable {d d' d'' : Draft}

theorem SameHierarchy.refl (d : Draft) : SameHierarchy d d :=
  ⟨fun _ => rfl, fun _ => rfl⟩

theorem SameHierarchy.trans (hfirst : SameHierarchy d d') (hlast : SameHierarchy d' d'') :
    SameHierarchy d d'' where
  baseTypes id := (hlast.baseTypes id).trans (hfirst.baseTypes id)
  overridden id := (hlast.overridden id).trans (hfirst.overridden id)

theorem hasBase_eq (h : ∀ id, d'.baseTypes.get? id = d.baseTypes.get? id) :
    d'.HasBase = d.HasBase := by
  funext type base
  simp only [HasBase, h type]

end Draft

namespace Building

variable {α : Type}

/-- The step leaves bases and overridden members as they are. -/
def KeepsHierarchy (step : Building α) : Prop :=
  ∀ d : Draft, Ensures step d fun _ d' => SameHierarchy d d'

theorem ignoresDeclarations_sameHierarchy : IgnoresDeclarations SameHierarchy where
  refl := SameHierarchy.refl
  trans := SameHierarchy.trans
  putType _ _ _ _ := ⟨fun _ => rfl, fun _ => rfl⟩
  putMember _ _ _ span := by cases span <;> exact ⟨fun _ => rfl, fun _ => rfl⟩
  putContaining _ _ _ := ⟨fun _ => rfl, fun _ => rfl⟩
  putAccessors _ _ _ _ := ⟨fun _ => rfl, fun _ => rfl⟩

theorem chains_keepsHierarchy : Chains KeepsHierarchy :=
  ignoresDeclarations_sameHierarchy.chains

theorem keepsHierarchy_modify {f : Draft → Draft} (h : ∀ d, SameHierarchy d (f d)) :
    KeepsHierarchy (modify f : Building PUnit) :=
  fun d => ensures_modify.mpr (h d)

end Building

theorem Link.linkImplementations_keepsHierarchy (member : Symbol) (data : Value) :
    KeepsHierarchy (linkImplementations member data) :=
  ignoresDeclarations_sameHierarchy.resolves.linkImplementations
    (fun _ => keepsHierarchy_modify fun _ => ⟨fun _ => rfl, fun _ => rfl⟩) data

namespace Index

theorem readBody_keepsHierarchy (root : String) (pending : PendingBody) :
    KeepsHierarchy (readBody root pending) :=
  ignoresDeclarations_sameHierarchy.resolves.readBody
    (fun _ => keepsHierarchy_modify fun _ => ⟨fun _ => rfl, fun _ => rfl⟩) root

theorem readEnd_keepsHierarchy (disk : Disk) (root : String) (data : Value) :
    KeepsHierarchy (readEnd disk root data) :=
  ignoresDeclarations_sameHierarchy.readEnd (fun _ _ _ => ⟨fun _ => rfl, fun _ => rfl⟩)
    (fun _ _ _ => ⟨fun _ => rfl, fun _ => rfl⟩) disk root data

end Index
end SymbolAtlas
