import SymbolAtlas.Proofs.Index.Metadata
import SymbolAtlas.Proofs.Index.Ownership
import SymbolAtlas.Proofs.Reordering.Passes
import Mathlib.Tactic

/-!
# What the first pass puts off

A declaration puts off the link of its type, and members and bodies under ids that have just come
in.  So nothing waits twice for the later passes, and of accessors only bodies wait: each of them
lies in a property, with which it is linked.
-/

namespace SymbolAtlas
namespace Draft

open Tables

variable {α : Type} {key : α → String} {d d' d'' : Draft} {before middle after : List α}

/-- What is put off beside something else belongs to different symbols, all of which come in. -/
def PutsOff (key : α → String) (d d' : Draft) (before after : List α) : Prop :=
  ∃ more, after = before ++ more ∧ (more.map key).Nodup ∧ ∀ a ∈ more, Brings d d' (key a)

/-- A draft grows by symbols, for which bodies alone are put off. -/
structure PutsOffBodies (d d' : Draft) : Prop where
  kept : Kept d.symbols d'.symbols
  members : d'.pendingMembers = d.pendingMembers
  bodies : PutsOff PendingBody.method d d' d.pendingBodies d'.pendingBodies

/-- A draft grows by symbols, for which bodies are put off, and members other than accessors. -/
structure PutsOffMembers (d d' : Draft) : Prop where
  kept : Kept d.symbols d'.symbols
  members : PutsOff Prod.fst d d' d.pendingMembers d'.pendingMembers
  bodies : PutsOff PendingBody.method d d' d.pendingBodies d'.pendingBodies
  plain : ∀ pending ∈ d'.pendingMembers, pending ∈ d.pendingMembers ∨
    ∃ s, d'.symbols.get? pending.1 = some s ∧ s.isAccessor = false

/-- A symbol other than an accessor has come in. -/
def BringsPlain (d d' : Draft) (id : String) : Prop :=
  d.symbols.get? id = none ∧ ∃ s, d'.symbols.get? id = some s ∧ s.isAccessor = false

theorem putsOff_of_eq (h : after = before) : PutsOff key d d' before after := by
  refine ⟨[], by rw [h, List.append_nil], List.nodup_nil, ?_⟩
  intro a ha
  cases ha

theorem PutsOff.trans (hfirst : PutsOff key d d' before middle)
    (hlast : PutsOff key d' d'' middle after) (hkept : Kept d.symbols d'.symbols)
    (hkept' : Kept d'.symbols d''.symbols) : PutsOff key d d'' before after := by
  obtain ⟨more, rfl, hnodup, hbrings⟩ := hfirst
  obtain ⟨others, rfl, hnodup', hbrings'⟩ := hlast
  refine ⟨more ++ others, List.append_assoc _ _ _, ?_, ?_⟩
  · rw [List.map_append]
    refine hnodup.append hnodup' ?_
    intro id hid hother
    obtain ⟨a, ha, rfl⟩ := List.mem_map.mp hid
    obtain ⟨b, hb, heq⟩ := List.mem_map.mp hother
    obtain ⟨s, hs⟩ := (hbrings a ha).2
    rw [← heq, (hbrings' b hb).1] at hs
    cases hs
  · intro a ha
    obtain ha | ha := List.mem_append.mp ha
    · exact (hbrings a ha).mono hkept'
    · exact (hbrings' a ha).after hkept

/-- Nothing waits twice if nothing has waited before. -/
theorem PutsOff.nodup (h : PutsOff key d d' [] after) : (after.map key).Nodup := by
  obtain ⟨more, rfl, hnodup, -⟩ := h
  exact hnodup

theorem PutsOffBodies.trans (hfirst : PutsOffBodies d d') (hlast : PutsOffBodies d' d'') :
    PutsOffBodies d d'' where
  kept := hfirst.kept.trans hlast.kept
  members := hlast.members.trans hfirst.members
  bodies := hfirst.bodies.trans hlast.bodies hfirst.kept hlast.kept

theorem PutsOffBodies.putsOffMembers (h : PutsOffBodies d d') : PutsOffMembers d d' where
  kept := h.kept
  members := putsOff_of_eq h.members
  bodies := h.bodies
  plain _ hpending := Or.inl (h.members ▸ hpending)

theorem PutsOffMembers.trans (hfirst : PutsOffMembers d d') (hlast : PutsOffMembers d' d'') :
    PutsOffMembers d d'' where
  kept := hfirst.kept.trans hlast.kept
  members := hfirst.members.trans hlast.members hfirst.kept hlast.kept
  bodies := hfirst.bodies.trans hlast.bodies hfirst.kept hlast.kept
  plain pending hpending := by
    obtain hpending | hnew := hlast.plain pending hpending
    · obtain hold | ⟨s, hs, haccessor⟩ := hfirst.plain pending hpending
      · exact Or.inl hold
      · exact Or.inr ⟨s, hlast.kept _ _ hs, haccessor⟩
    · exact Or.inr hnew

/-- A change that brings no symbol and puts nothing off. -/
theorem putsOffBodies_of_same (hsymbols : d'.symbols = d.symbols)
    (hmembers : d'.pendingMembers = d.pendingMembers)
    (hbodies : d'.pendingBodies = d.pendingBodies) : PutsOffBodies d d' := by
  refine ⟨?_, hmembers, putsOff_of_eq hbodies⟩
  rw [hsymbols]
  exact Kept.refl _

theorem putsOffBodies_putSpan (d : Draft) (id : String) (span : Option Span) :
    PutsOffBodies d (d.putSpan id span) := by
  cases span <;> exact putsOffBodies_of_same rfl rfl rfl

theorem putsOffBodies_putType {s : Symbol} (hnew : d.symbols.get? s.id = none) (name : String)
    (isMetadata : Bool) : PutsOffBodies d (d.putType name s isMetadata) :=
  ⟨kept_insert hnew, rfl, putsOff_of_eq rfl⟩

theorem putsOffBodies_putMember {s : Symbol} (hnew : d.symbols.get? s.id = none) (type : String)
    (span : Option Span) : PutsOffBodies d (d.putMember type s span) := by
  refine PutsOffBodies.trans ?_ (putsOffBodies_putSpan _ s.id span)
  exact ⟨kept_insert hnew, rfl, putsOff_of_eq rfl⟩

theorem PutsOffBodies.putContaining (h : PutsOffBodies d d') (id container : String) :
    PutsOffBodies d (d'.putContaining id container) :=
  ⟨h.kept, h.members, h.bodies⟩

theorem PutsOffBodies.putAccessors (h : PutsOffBodies d d') (property : String)
    (getter setter : Option String) : PutsOffBodies d (d'.putAccessors property getter setter) :=
  ⟨h.kept, h.members, h.bodies⟩

/-- The body of a symbol waits once, if it comes in with that symbol. -/
theorem PutsOffBodies.deferBody {method : String} (h : PutsOffBodies d d')
    (hbodies : d'.pendingBodies = d.pendingBodies) (hmethod : Brings d d' method)
    (file : Option String) (data : Value) : PutsOffBodies d (d'.deferBody method file data) := by
  unfold Draft.deferBody
  simp only []
  split
  next => exact h
  next =>
    refine ⟨h.kept, h.members, [⟨method, file, data.field "body"⟩], ?_, List.nodup_singleton _, ?_⟩
    · change d'.pendingBodies ++ _ = _
      rw [hbodies]
    · intro pending hpending
      obtain rfl := List.mem_singleton.mp hpending
      exact hmethod

theorem pendingBodies_putMember (d : Draft) (type : String) (s : Symbol) (span : Option Span) :
    (d.putMember type s span).pendingBodies = d.pendingBodies := by
  cases span <;> rfl

theorem get?_putMember_self (d : Draft) (type : String) (s : Symbol) (span : Option Span) :
    (d.putMember type s span).symbols.get? s.id = some s := by
  cases span <;> exact get?_insert_self d.symbols s

end Draft

namespace Declaration

open Building Draft Tables Index

variable {d : Draft} {owner : Owner}

theorem declareAccessor_putsOff (owner : Owner) (data : Value) (property : Symbol)
    (propertyType keyword : String) (kind : MethodKind) :
    Ensures (declareAccessor owner data property propertyType keyword kind) d fun _ d' =>
      PutsOffBodies d d' := by
  unfold declareAccessor
  split
  next => exact ensures_pure.mpr (putsOffBodies_of_same rfl rfl rfl)
  next accessorData _ =>
    simp only [ensures_bind, ensures_lift, ensures_modify, ensures_pure, ensures_addMember]
    intro located _ span _ hnew
    have hnone := Table.get?_of_contains hnew
    have hput := putsOffBodies_putMember hnone owner.type.id span
    exact (hput.putContaining _ property.id).deferBody (pendingBodies_putMember d _ _ span)
      ⟨hnone, _, get?_putMember_self d _ _ span⟩ owner.file accessorData

theorem declareProperty_putsOff (owner : Owner) (data : Value) (modifiers : List String)
    (location : Option Location) (span : Option Span) :
    Ensures (declareProperty owner data modifiers location span) d fun id d' =>
      PutsOffBodies d d' ∧ BringsPlain d d' id := by
  unfold declareProperty
  simp only [ensures_bind, ensures_lift, ensures_modify, ensures_pure, ensures_addMember]
  intro name _ _ _ _ _ hnew
  have hnone := Table.get?_of_contains hnew
  have hput := putsOffBodies_putMember hnone owner.type.id span
  refine (declareAccessor_putsOff owner data _ _ "get" .propertyGet).imp ?_
  intro getter d₁ hget
  refine (declareAccessor_putsOff owner data _ _ "set" .propertySet).imp ?_
  intro setter d₂ hset
  have hsince := (hget.trans hset).putAccessors (variableSymbol owner data modifiers location "P"
    name.plain .property).id getter setter
  exact ⟨hput.trans hsince, hnone, _, hsince.kept _ _ (get?_putMember_self d _ _ span), rfl⟩

theorem declareMethod_putsOff (owner : Owner) (data : Value) (modifiers : List String)
    (location : Option Location) (span : Option Span) {name shown : String}
    (returns : Value) (place : String) {kind : MethodKind}
    (hform : MethodForm owner.type name shown kind) :
    Ensures (declareMethod owner data modifiers location span name shown returns place kind) d
      fun id d' => PutsOffBodies d d' ∧ BringsPlain d d' id := by
  unfold declareMethod
  simp only [ensures_bind, ensures_lift, ensures_modify, ensures_pure, ensures_addMember]
  intro parameters _ _ _ hnew
  have hnone := Table.get?_of_contains hnew
  have hself := get?_putMember_self d owner.type.id
    (methodSymbol owner data modifiers location name shown returns.plain kind parameters) span
  refine ⟨(putsOffBodies_putMember hnone owner.type.id span).deferBody
    (pendingBodies_putMember d _ _ span) ⟨hnone, _, hself⟩ owner.file data, hnone, _, ?_,
    hform.isAccessor_eq_false data modifiers location returns.plain parameters⟩
  rw [(same_deferBody _ _ _ _).symbols]
  exact hself

theorem declareVariable_putsOff (owner : Owner) (data : Value) (modifiers : List String)
    (location : Option Location) (span : Option Span) (letter place : String) (kind : SymbolKind) :
    Ensures (declareVariable owner data modifiers location span letter place kind) d fun id d' =>
      PutsOffBodies d d' ∧ BringsPlain d d' id := by
  unfold declareVariable
  simp only [ensures_bind, ensures_lift, ensures_pure, ensures_addMember]
  intro name _ _ _ _ _ hnew
  have hnone := Table.get?_of_contains hnew
  exact ⟨putsOffBodies_putMember hnone owner.type.id span, hnone, _,
    get?_putMember_self d _ _ span, rfl⟩

theorem declareNamedKind_putsOff (owner : Owner) (data : Value) (modifiers : List String)
    (location : Option Location) (span : Option Span) (place kind : String) :
    Ensures (declareNamedKind owner data modifiers location span place kind) d fun id d' =>
      PutsOffBodies d d' ∧ BringsPlain d d' id := by
  unfold declareNamedKind
  split
  next => exact declareMethod_putsOff owner _ _ _ _ _ _ .constructor
  next => exact declareMethod_putsOff owner _ _ _ _ _ _ .constructor
  next => exact declareMethod_putsOff owner _ _ _ _ _ _ .staticConstructor
  next =>
    simp only [ensures_bind, ensures_lift]
    intro name _ _ _
    exact declareMethod_putsOff owner _ _ _ _ _ _ (.ordinary name.plain)
  next => exact declareProperty_putsOff owner _ _ _ _
  next => exact declareVariable_putsOff owner _ _ _ _ _ _ _
  next => exact declareVariable_putsOff owner _ _ _ _ _ _ _
  next => exact ensures_lift_refuse

theorem declareMember_putsOff (owner : Owner) (data : Value) :
    Ensures (declareMember owner data) d fun _ d' => PutsOffMembers d d' := by
  unfold declareMember
  simp only [ensures_bind, ensures_refuseIf, ensures_lift, ensures_modify]
  intro _ _ _ modifiers _ location _ span _ _ _
  refine (declareNamedKind_putsOff owner _ _ _ _ _ _).imp ?_
  rintro id d' ⟨hbodies, hnone, s, hs, hplain⟩
  refine ⟨hbodies.kept, ⟨[(id, data)], ?_, List.nodup_singleton _, ?_⟩, hbodies.bodies, ?_⟩
  · change d'.pendingMembers ++ _ = _
    rw [hbodies.members]
  · intro pending hpending
    obtain rfl := List.mem_singleton.mp hpending
    exact ⟨hnone, s, hs⟩
  · intro pending hpending
    obtain hold | hnew := List.mem_append.mp hpending
    · exact Or.inl (hbodies.members ▸ hold)
    · obtain rfl := List.mem_singleton.mp hnew
      exact Or.inr ⟨s, hs, hplain⟩

theorem addConstructor_putsOff (type : Symbol) (qualified : String) (isNeeded : Bool) :
    Ensures (addConstructor type qualified isNeeded) d fun _ d' => PutsOffMembers d d' := by
  unfold addConstructor
  simp only [ensures_bind, ensures_get]
  split
  next =>
    rw [ensures_addMember]
    intro hnew
    exact (putsOffBodies_putMember (Table.get?_of_contains hnew) type.id none).putsOffMembers
  next => exact ensures_pure.mpr (putsOffBodies_of_same rfl rfl rfl).putsOffMembers

theorem declareContents_putsOff (owner : Owner) (data : Value) (location : Option Location)
    (needsConstructor : Bool) :
    Ensures (declareContents owner data location needsConstructor) d fun _ d' =>
      PutsOffMembers d d' := by
  unfold declareContents nest
  simp only [ensures_bind, ensures_lift, ensures_modify]
  intro span _ members _
  obtain ⟨containing, hnested, -, -⟩ :=
    exists_nested_eq (d.putSpan owner.type.id span) owner.qualified owner.type.id
  have hopened : PutsOffMembers d (nested owner.qualified owner.type.id
      (d.putSpan owner.type.id span)) := by
    have hspan := putsOffBodies_putSpan d owner.type.id span
    rw [hnested]
    exact PutsOffBodies.putsOffMembers ⟨hspan.kept, hspan.members, hspan.bodies⟩
  refine (forEach_keeps hopened ?_).imp ?_
  · intro member _ d' hbefore
    exact (declareMember_putsOff owner member).imp fun _ _ hlast => hbefore.trans hlast
  · intro _ d' hbefore
    refine (addConstructor_putsOff owner.type owner.qualified needsConstructor).imp ?_
    intro _ d'' hadded
    have hall := hbefore.trans hadded
    exact ⟨hall.kept, hall.members, hall.bodies, hall.plain⟩

theorem declareType_putsOff (hd : d.Sound) (root : String) (entry : Value) :
    Ensures (declareType root entry) d fun _ d' => PutsOffMembers d d' := by
  rintro ⟨⟩ d' hrun
  obtain ⟨kind, location, modifiers, -, hnew, hbody⟩ := declareType_eq_ok.mp hrun
  have hput := putsOffBodies_putType
    (s := declaredType (typeName entry) kind location modifiers entry)
    (hd.typeId_new (Table.contains_of_get? hnew)) (typeName entry) (isMetadata entry)
  exact hput.putsOffMembers.trans (declareContents_putsOff _ entry location _ _ _ hbody)

end Declaration

namespace Index

open Building Draft Tables

variable {d : Draft}

/-- What a first pass over entries leaves for the later ones. -/
structure Prepared (types : List Value) (d d' : Draft) : Prop where
  putsOff : PutsOffMembers d d'
  links : d'.pendingLinks = d.pendingLinks ++ types.map fun entry => (typeId entry, entry)
  grows : d.Grows d'

theorem declareTypes_prepared (hd : d.Sound) (root : String) (types : List Value) :
    Ensures (forEach (Declaration.declareType root) types) d fun _ d' => Prepared types d d' := by
  induction types generalizing d with
  | nil =>
      have hnothing : PutsOffBodies d d := putsOffBodies_of_same rfl rfl rfl
      exact ensures_pure.mpr ⟨hnothing.putsOffMembers, (List.append_nil _).symm, Grows.refl d⟩
  | cons first rest ih =>
      refine (((Declaration.declareType_opens hd root first).and
        (Declaration.declareType_putsOff hd root first)).and
          (Declaration.declareType_grows hd root first)).bind ?_
      rintro _ d₁ ⟨⟨hopens, hfirst⟩, hgrows⟩
      refine (ih hopens.becomes.sound).imp ?_
      rintro _ d' ⟨hlast, hlinks, hgrown⟩
      refine ⟨hfirst.trans hlast, ?_, hgrows.trans hgrown⟩
      rw [hlinks, hopens.pendingLinks, List.append_assoc]
      rfl

/-- What is put off for the later passes belongs to different symbols. -/
theorem Prepared.apportioned {types : List Value} (h : Prepared types Draft.empty d)
    (hdeclared : Declared types Draft.empty d) : d.Apportioned := by
  constructor
  · rw [h.links]
    change (List.map Prod.fst (types.map _)).Nodup
    rw [List.map_map]
    exact List.pairwise_map.mpr hdeclared.distinct
  · exact h.putsOff.members.nodup
  · exact h.putsOff.bodies.nodup
  · intro pending hpending s hs
    obtain hold | ⟨x, hx, hplain⟩ := h.putsOff.plain pending hpending
    · cases hold
    · rw [hs, Option.some.injEq] at hx
      exact hx ▸ hplain
  · intro property getter setter hpair a ha
    obtain ⟨hget, hset⟩ := (Ordered.empty.grows h.grows).equipped.hasAccessor_iff hpair a
    have hside : ∃ kind, (kind = .propertyGet ∨ kind = .propertySet) ∧
        d.HasAccessor property kind a :=
      ha.elim (fun h => ⟨_, Or.inl rfl, hget.mp h⟩) fun h => ⟨_, Or.inr rfl, hset.mp h⟩
    obtain ⟨kind, hkind, hlies, s, hs, -, hmethod⟩ := hside
    refine ⟨hlies, s, hs, ?_⟩
    unfold Symbol.isAccessor
    rw [hmethod]
    obtain rfl | rfl := hkind <;> rfl

end Index
end SymbolAtlas
