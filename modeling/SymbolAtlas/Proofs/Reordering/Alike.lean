import SymbolAtlas.Proofs.Index.Chain
import SymbolAtlas.Proofs.Index.Draft
import Mathlib.Tactic

/-!
# Drafts that answer alike

The order in which types and members come in decides where their entries stand in the tables of a
draft, but not what is found there.  Drafts are alike if every question has the same answer in both
and the same has been put off in both, in whatever order; they may differ at some slots, which are
the places where links and bodies are written.
-/

namespace SymbolAtlas

/-- Where a link is written: the type around a type, the base and the interfaces of a type, or what
belongs to a member. -/
inductive Slot where
  | place (type : String)
  | type (id : String)
  | member (id : String)

namespace Draft

/-- The links and bodies of two drafts are the same outside of some slots. -/
structure SameLinks (K : Set Slot) (d d' : Draft) : Prop where
  baseTypes : ∀ id, .type id ∉ K → d'.baseTypes.get? id = d.baseTypes.get? id
  declaredInterfaces : ∀ id, .type id ∉ K →
    d'.declaredInterfaces.get? id = d.declaredInterfaces.get? id
  overridden : ∀ id, .member id ∉ K → d'.overridden.get? id = d.overridden.get? id
  explicitImplementations : ∀ id, .member id ∉ K →
    d'.explicitImplementations.get? id = d.explicitImplementations.get? id
  bodies : ∀ id, .member id ∉ K → d'.bodies.get? id = d.bodies.get? id

/-- Whatever is asked of two drafts, but for some slots, has the same answer in both. -/
structure Alike (K : Set Slot) (d d' : Draft) : Prop extends SameLinks K d d' where
  symbols : ∀ id, d'.symbols.get? id = d.symbols.get? id
  typeNames : ∀ name, d'.typeNames.get? name = d.typeNames.get? name
  members : ∀ type, d'.members.listAt type = d.members.listAt type
  containing : ∀ id, Apart id ∨ .place id ∉ K →
    d'.containing.get? id = d.containing.get? id
  accessors : ∀ id, d'.accessors.get? id = d.accessors.get? id
  spans : ∀ id, d'.spans.get? id = d.spans.get? id
  metadataTypes : ∀ type, type ∈ d'.metadataTypes ↔ type ∈ d.metadataTypes
  pendingLinks : d'.pendingLinks.Perm d.pendingLinks
  pendingMembers : d'.pendingMembers.Perm d.pendingMembers
  pendingBodies : d'.pendingBodies.Perm d.pendingBodies

variable {K L : Set Slot} {d d' d'' : Draft}

theorem SameLinks.refl (K : Set Slot) (d : Draft) : SameLinks K d d :=
  ⟨fun _ _ => rfl, fun _ _ => rfl, fun _ _ => rfl, fun _ _ => rfl, fun _ _ => rfl⟩

theorem SameLinks.symm (h : SameLinks K d d') : SameLinks K d' d where
  baseTypes id hid := (h.baseTypes id hid).symm
  declaredInterfaces id hid := (h.declaredInterfaces id hid).symm
  overridden id hid := (h.overridden id hid).symm
  explicitImplementations id hid := (h.explicitImplementations id hid).symm
  bodies id hid := (h.bodies id hid).symm

theorem SameLinks.trans (hfirst : SameLinks K d d') (hlast : SameLinks K d' d'') :
    SameLinks K d d'' where
  baseTypes id hid := (hlast.baseTypes id hid).trans (hfirst.baseTypes id hid)
  declaredInterfaces id hid :=
    (hlast.declaredInterfaces id hid).trans (hfirst.declaredInterfaces id hid)
  overridden id hid := (hlast.overridden id hid).trans (hfirst.overridden id hid)
  explicitImplementations id hid :=
    (hlast.explicitImplementations id hid).trans (hfirst.explicitImplementations id hid)
  bodies id hid := (hlast.bodies id hid).trans (hfirst.bodies id hid)

theorem SameLinks.mono (hKL : K ⊆ L) (h : SameLinks K d d') : SameLinks L d d' where
  baseTypes id hid := h.baseTypes id fun hmem => hid (hKL hmem)
  declaredInterfaces id hid := h.declaredInterfaces id fun hmem => hid (hKL hmem)
  overridden id hid := h.overridden id fun hmem => hid (hKL hmem)
  explicitImplementations id hid := h.explicitImplementations id fun hmem => hid (hKL hmem)
  bodies id hid := h.bodies id fun hmem => hid (hKL hmem)

/-- Drafts that differ at one set of slots only, and at another only, differ where both meet. -/
theorem SameLinks.inter (hK : SameLinks K d d') (hL : SameLinks L d d') :
    SameLinks (K ∩ L) d d' where
  baseTypes id hid := (not_and_or.mp hid).elim (hK.baseTypes id) (hL.baseTypes id)
  declaredInterfaces id hid :=
    (not_and_or.mp hid).elim (hK.declaredInterfaces id) (hL.declaredInterfaces id)
  overridden id hid := (not_and_or.mp hid).elim (hK.overridden id) (hL.overridden id)
  explicitImplementations id hid :=
    (not_and_or.mp hid).elim (hK.explicitImplementations id) (hL.explicitImplementations id)
  bodies id hid := (not_and_or.mp hid).elim (hK.bodies id) (hL.bodies id)

namespace Alike

theorem refl (K : Set Slot) (d : Draft) : Alike K d d where
  toSameLinks := .refl K d
  symbols _ := rfl
  typeNames _ := rfl
  members _ := rfl
  containing _ _ := rfl
  accessors _ := rfl
  spans _ := rfl
  metadataTypes _ := .rfl
  pendingLinks := .refl _
  pendingMembers := .refl _
  pendingBodies := .refl _

theorem symm (h : Alike K d d') : Alike K d' d where
  toSameLinks := h.toSameLinks.symm
  symbols id := (h.symbols id).symm
  typeNames name := (h.typeNames name).symm
  members type := (h.members type).symm
  containing id hid := (h.containing id hid).symm
  accessors id := (h.accessors id).symm
  spans id := (h.spans id).symm
  metadataTypes type := (h.metadataTypes type).symm
  pendingLinks := h.pendingLinks.symm
  pendingMembers := h.pendingMembers.symm
  pendingBodies := h.pendingBodies.symm

theorem trans (hfirst : Alike K d d') (hlast : Alike K d' d'') : Alike K d d'' where
  toSameLinks := hfirst.toSameLinks.trans hlast.toSameLinks
  symbols id := (hlast.symbols id).trans (hfirst.symbols id)
  typeNames name := (hlast.typeNames name).trans (hfirst.typeNames name)
  members type := (hlast.members type).trans (hfirst.members type)
  containing id hid := (hlast.containing id hid).trans (hfirst.containing id hid)
  accessors id := (hlast.accessors id).trans (hfirst.accessors id)
  spans id := (hlast.spans id).trans (hfirst.spans id)
  metadataTypes type := (hlast.metadataTypes type).trans (hfirst.metadataTypes type)
  pendingLinks := hlast.pendingLinks.trans hfirst.pendingLinks
  pendingMembers := hlast.pendingMembers.trans hfirst.pendingMembers
  pendingBodies := hlast.pendingBodies.trans hfirst.pendingBodies

theorem mono (hKL : K ⊆ L) (h : Alike K d d') : Alike L d d' :=
  { h with
    toSameLinks := h.toSameLinks.mono hKL
    containing := fun id hid => h.containing id (hid.imp_right fun hnot hmem => hnot (hKL hmem)) }

theorem inter (hK : Alike K d d') (hL : Alike L d d') : Alike (K ∩ L) d d' := by
  refine { hK with toSameLinks := hK.toSameLinks.inter hL.toSameLinks, containing := ?_ }
  rintro id (hapart | hid)
  · exact hK.containing id (Or.inl hapart)
  · obtain hid | hid := not_and_or.mp hid
    · exact hK.containing id (Or.inr hid)
    · exact hL.containing id (Or.inr hid)

theorem contains (h : Alike K d d') (id : String) :
    d'.symbols.contains id = d.symbols.contains id := by
  unfold Table.contains
  rw [h.symbols]

theorem membersOf (h : Alike K d d') (type : String) :
    d'.membersOf type = d.membersOf type := by
  unfold Tables.membersOf Tables.symbolsOf
  rw [h.members type]
  exact List.filterMap_congr fun id _ => h.symbols id

theorem contains_metadataTypes (h : Alike K d d') (type : String) :
    d'.metadataTypes.contains type = d.metadataTypes.contains type := by
  rw [Bool.eq_iff_iff, List.contains_iff_mem, List.contains_iff_mem]
  exact h.metadataTypes type

/-! ## The same changes -/

theorem putType (h : Alike K d d') (qualified : String) (s : Symbol) (isMetadata : Bool) :
    Alike K (d.putType qualified s isMetadata) (d'.putType qualified s isMetadata) where
  toSameLinks := { h.toSameLinks with }
  symbols id := Table.get?_insert_congr s.id s (h.symbols id)
  typeNames name := by
    have hinsert := Table.get?_insert_congr qualified s.id (h.typeNames name)
    unfold Draft.putType registerTypeName
    simp only []
    split
    next => exact Table.get?_insertNew_congr _ _ hinsert
    next => exact hinsert
  members type := by
    have hlist : ∀ d : Draft, (d.putType qualified s isMetadata).members.listAt type =
        if s.id = type then [] else d.members.listAt type :=
      fun d => Table.listAt_insert d.members s.id type []
    rw [hlist, hlist, h.members]
  containing := h.containing
  accessors := h.accessors
  spans := h.spans
  metadataTypes type := by
    unfold Draft.putType
    simp only []
    split
    next =>
      rw [List.mem_append, List.mem_append]
      exact or_congr_left (h.metadataTypes type)
    next => exact h.metadataTypes type
  pendingLinks := h.pendingLinks
  pendingMembers := h.pendingMembers
  pendingBodies := h.pendingBodies

theorem putMember (h : Alike K d d') (type : String) (s : Symbol) :
    Alike K (d.putMember type s none) (d'.putMember type s none) :=
  { h with
    symbols := fun id => Table.get?_insert_congr s.id s (h.symbols id)
    members := by
      intro other
      have hlist : ∀ d : Draft, (d.putMember type s none).members.listAt other =
          if type = other then d.members.listAt type ++ [s.id] else d.members.listAt other :=
        fun d => Table.listAt_insert d.members type other _
      rw [hlist, hlist, h.members, h.members]
    containing := fun id hid => Table.get?_insert_congr s.id type (h.containing id hid) }

theorem putContaining (h : Alike K d d') (id container : String) :
    Alike K (d.putContaining id container) (d'.putContaining id container) :=
  { h with
    containing := fun other hother =>
      Table.get?_insert_congr id container (h.containing other hother) }

theorem putAccessors (h : Alike K d d') (property : String) (getter setter : Option String) :
    Alike K (d.putAccessors property getter setter) (d'.putAccessors property getter setter) :=
  { h with
    accessors := fun id => Table.get?_insert_congr property (getter, setter) (h.accessors id) }

theorem putBase (h : Alike K d d') (type base : String) :
    Alike K (d.putBase type base) (d'.putBase type base) :=
  { h with
    baseTypes := fun id hid => Table.get?_insert_congr type base (h.baseTypes id hid) }

theorem putInterfaces (h : Alike K d d') (type : String) (interfaces : List String) :
    Alike K (d.putInterfaces type interfaces) (d'.putInterfaces type interfaces) :=
  { h with
    declaredInterfaces := fun id hid =>
      Table.get?_insert_congr type interfaces (h.declaredInterfaces id hid) }

theorem putSourceDefinition (h : Alike K d d') (type source : String) :
    Alike K (d.putSourceDefinition type source) (d'.putSourceDefinition type source) :=
  { h with }

theorem putOverridden (h : Alike K d d') (member target : String) :
    Alike K (d.putOverridden member target) (d'.putOverridden member target) :=
  { h with
    overridden := fun id hid => Table.get?_insert_congr member target (h.overridden id hid) }

theorem putImplementations (h : Alike K d d') (member : String) (targets : List String) :
    Alike K (d.putImplementations member targets) (d'.putImplementations member targets) :=
  { h with
    explicitImplementations := fun id hid =>
      Table.get?_insert_congr member targets (h.explicitImplementations id hid) }

theorem putBody (h : Alike K d d') (method : String) (body : Operation) :
    Alike K (d.putBody method body) (d'.putBody method body) :=
  { h with
    bodies := fun id hid => Table.get?_insert_congr method body (h.bodies id hid) }

theorem putReferences (h : Alike K d d') (id : String) (locations : List Location) :
    Alike K (d.putReferences id locations) (d'.putReferences id locations) :=
  { h with }

/-- The lines of source files make no difference. -/
theorem withSourceLines (h : Alike K d d') (lines lines' : Table (List String)) :
    Alike K { d with sourceLines := lines } { d' with sourceLines := lines' } :=
  { h with }

end Alike

/-! ## Changes at one slot -/

theorem get?_insert_other {α : Type} {make : String → Slot} (t : Table α) {key id : String}
    (value : α) (hid : make id ∉ ({make key} : Set Slot)) :
    (t.insert key value).get? id = t.get? id := by
  have hne : key ≠ id := fun heq => hid (by rw [heq]; rfl)
  rw [Table.get?_insert, if_neg hne]

theorem sameLinks_putBase (d : Draft) (type base : String) :
    SameLinks {.type type} d (d.putBase type base) :=
  { SameLinks.refl _ d with baseTypes := fun _ hid => get?_insert_other _ base hid }

theorem sameLinks_putInterfaces (d : Draft) (type : String) (interfaces : List String) :
    SameLinks {.type type} d (d.putInterfaces type interfaces) :=
  { SameLinks.refl _ d with
    declaredInterfaces := fun _ hid => get?_insert_other _ interfaces hid }

theorem sameLinks_putOverridden (d : Draft) (member target : String) :
    SameLinks {.member member} d (d.putOverridden member target) :=
  { SameLinks.refl _ d with overridden := fun _ hid => get?_insert_other _ target hid }

theorem sameLinks_putImplementations (d : Draft) (member : String) (targets : List String) :
    SameLinks {.member member} d (d.putImplementations member targets) :=
  { SameLinks.refl _ d with
    explicitImplementations := fun _ hid => get?_insert_other _ targets hid }

theorem sameLinks_putBody (d : Draft) (method : String) (body : Operation) :
    SameLinks {.member method} d (d.putBody method body) :=
  { SameLinks.refl _ d with bodies := fun _ hid => get?_insert_other _ body hid }

theorem alike_putOverridden (d : Draft) (member target : String) :
    Alike {.member member} d (d.putOverridden member target) :=
  { Alike.refl _ d with toSameLinks := sameLinks_putOverridden d member target }

end Draft
end SymbolAtlas
