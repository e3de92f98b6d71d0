import SymbolAtlas.Proofs.Reordering.Deferred
import Mathlib.Tactic

/-!
# Members that wait for their links

Which member another one overrides is found behind the first pass, and only for members that have
been put off.  Of all that comes in during the first pass the members with the modifier of overrides
are therefore put off, but for accessors, which are linked with their properties.  The pass itself
writes no link.
-/

namespace SymbolAtlas

open Building Draft Tables

namespace Index

/-- The entry of a member names none that it overrides, so that the overridden one is looked up. -/
def InfersOverride (item : Value) : Prop :=
  (item.field "overrides").isPresent = false

/-- No member that a document lists names one that it overrides. -/
def InfersOverrides (data : Value) : Prop :=
  ∀ types ∈ (typesOf data).toOption, ∀ entry ∈ types,
    ∀ items ∈ (allowing (entry.field "members").itemsIfPresent).toOption, ∀ item ∈ items,
      InfersOverride item

instance (item : Value) : Decidable (InfersOverride item) :=
  inferInstanceAs (Decidable (_ = _))

instance (data : Value) : Decidable (InfersOverrides data) :=
  inferInstanceAs (Decidable (∀ types ∈ (typesOf data).toOption, ∀ entry ∈ types,
    ∀ items ∈ (allowing (entry.field "members").itemsIfPresent).toOption, ∀ item ∈ items,
      InfersOverride item))

end Index

namespace Draft

/-- All that comes in satisfies a condition. -/
def BringsOnly (p : String → Symbol → Prop) (d d' : Draft) : Prop :=
  ∀ id s, d'.symbols.get? id = some s → d.symbols.get? id = some s ∨ p id s

/-- Members with the modifier of overrides have been put off, but for accessors, and nothing that
has been put off names what it overrides. -/
structure Awaiting (d : Draft) : Prop where
  overriding : ∀ id s, d.symbols.get? id = some s → s.isOverride = true → s.isAccessor = false →
    ∃ data, (id, data) ∈ d.pendingMembers
  inferring : ∀ pending ∈ d.pendingMembers, Index.InfersOverride pending.2

variable {p q : String → Symbol → Prop} {d d' d'' : Draft} {s : Symbol}

theorem BringsOnly.trans (hfirst : BringsOnly p d d') (hlast : BringsOnly p d' d'') :
    BringsOnly p d d'' := by
  intro id s hs
  obtain hold | hnew := hlast id s hs
  · exact hfirst id s hold
  · exact Or.inr hnew

theorem BringsOnly.mono (h : BringsOnly p d d') (hpq : ∀ id s, p id s → q id s) :
    BringsOnly q d d' :=
  fun id s hs => (h id s hs).imp_right (hpq id s)

theorem bringsOnly_of_eq (h : d'.symbols = d.symbols) : BringsOnly p d d' := by
  intro id s hs
  rw [h] at hs
  exact Or.inl hs

theorem bringsOnly_of_insert (h : d'.symbols = d.symbols.insert s.id s) (hs : p s.id s) :
    BringsOnly p d d' := by
  intro id t ht
  rw [h] at ht
  obtain ⟨rfl, rfl⟩ | hold := get?_insert_cases ht
  · exact Or.inr hs
  · exact Or.inl hold

theorem bringsOnly_putMember (d : Draft) (type : String) {s : Symbol} (span : Option Span)
    (hs : p s.id s) : BringsOnly p d (d.putMember type s span) :=
  bringsOnly_of_insert (gains_putMember d type s span).symbols hs

theorem bringsOnly_of_adds {type property : String} {kind : MethodKind} {id : Option String}
    (hkind : kind = .propertyGet ∨ kind = .propertySet)
    (hadds : AddsAccessor type property kind d id d') :
    BringsOnly (fun _ s => s.isAccessor = true) d d' := by
  cases hadds with
  | none => exact bringsOnly_of_eq rfl
  | @some a span _ hnew hmethod haccessor hsame =>
      refine bringsOnly_of_insert (gains_accessor hsame).symbols ?_
      obtain rfl | rfl := hkind <;> simp [Symbol.isAccessor, haccessor]

theorem awaiting_empty : Draft.empty.Awaiting := by
  constructor <;> simp [Draft.empty]

/-- What comes in without the modifier of overrides need not be put off. -/
theorem Awaiting.of_brings (h : d.Awaiting) (hmembers : d'.pendingMembers = d.pendingMembers)
    (hbrings : BringsOnly (fun _ s => s.isOverride = false) d d') : d'.Awaiting := by
  constructor
  · intro id s hs hmodifier haccessor
    rw [hmembers]
    obtain hold | hplain := hbrings id s hs
    · exact h.overriding id s hold hmodifier haccessor
    · simp [hplain] at hmodifier
  · rw [hmembers]
    exact h.inferring

/-- A member comes in, with its accessors if it has any, and is put off. -/
theorem Awaiting.deferMember (h : d.Awaiting) (hmembers : d'.pendingMembers = d.pendingMembers)
    {member : String} {data : Value} (hdata : Index.InfersOverride data)
    (hbrings : BringsOnly (fun id s => id = member ∨ s.isAccessor = true) d d') :
    (d'.deferMember member data).Awaiting := by
  constructor
  · intro id s hs hmodifier haccessor
    change ∃ data', (id, data') ∈ d'.pendingMembers ++ [(member, data)]
    rw [hmembers]
    obtain hold | rfl | hother := hbrings id s hs
    · obtain ⟨other, hother⟩ := h.overriding id s hold hmodifier haccessor
      exact ⟨other, List.mem_append_left _ hother⟩
    · exact ⟨data, by simp⟩
    · simp [haccessor] at hother
  · intro pending hpending
    change pending ∈ d'.pendingMembers ++ [(member, data)] at hpending
    rw [hmembers, List.mem_append, List.mem_singleton] at hpending
    obtain hold | rfl := hpending
    · exact h.inferring pending hold
    · exact hdata

end Draft

/-! ## The first pass -/

namespace Declaration

variable {d : Draft}

theorem declareProperty_brings (owner : Owner) (data : Value) (modifiers : List String)
    (location : Option Location) (span : Option Span) :
    Ensures (declareProperty owner data modifiers location span) d fun id d' =>
      BringsOnly (fun other s => other = id ∨ s.isAccessor = true) d d' := by
  unfold declareProperty
  simp only [ensures_bind, ensures_lift, ensures_modify, ensures_pure, ensures_addMember]
  intro name _ _ _ _ _ _
  refine (declareAccessor_adds owner data _ _ "get" .propertyGet).imp ?_
  intro getter d₁ hget
  refine (declareAccessor_adds owner data _ _ "set" .propertySet).imp ?_
  intro setter d₂ hset
  have haccessors := (bringsOnly_of_adds (by simp) hget).trans (bringsOnly_of_adds (by simp) hset)
  exact (bringsOnly_putMember d owner.type.id span (Or.inl rfl)).trans
    (haccessors.mono fun _ _ => Or.inr)

theorem declareMethod_brings (owner : Owner) (data : Value) (modifiers : List String)
    (location : Option Location) (span : Option Span) (name shown : String) (returns : Value)
    (place : String) (kind : MethodKind) :
    Ensures (declareMethod owner data modifiers location span name shown returns place kind) d
      fun id d' => BringsOnly (fun other s => other = id ∨ s.isAccessor = true) d d' := by
  unfold declareMethod
  simp only [ensures_bind, ensures_lift, ensures_modify, ensures_pure, ensures_addMember]
  intro parameters _ _ _ _
  exact (bringsOnly_putMember d owner.type.id span (Or.inl rfl)).trans
    (bringsOnly_of_eq (same_deferBody _ _ _ _).symbols)

theorem declareVariable_brings (owner : Owner) (data : Value) (modifiers : List String)
    (location : Option Location) (span : Option Span) (letter place : String) (kind : SymbolKind) :
    Ensures (declareVariable owner data modifiers location span letter place kind) d fun id d' =>
      BringsOnly (fun other s => other = id ∨ s.isAccessor = true) d d' := by
  unfold declareVariable
  simp only [ensures_bind, ensures_lift, ensures_pure, ensures_addMember]
  intro name _ _ _ _ _ _
  exact bringsOnly_putMember d owner.type.id span (Or.inl rfl)

theorem declareNamedKind_brings (owner : Owner) (data : Value) (modifiers : List String)
    (location : Option Location) (span : Option Span) (place kind : String) :
    Ensures (declareNamedKind owner data modifiers location span place kind) d fun id d' =>
      BringsOnly (fun other s => other = id ∨ s.isAccessor = true) d d' := by
  unfold declareNamedKind
  split
  next => exact declareMethod_brings owner _ _ _ _ _ _ _ _ _
  next => exact declareMethod_brings owner _ _ _ _ _ _ _ _ _
  next => exact declareMethod_brings owner _ _ _ _ _ _ _ _ _
  next =>
    simp only [ensures_bind, ensures_lift]
    intro name _ _ _
    exact declareMethod_brings owner _ _ _ _ _ _ _ _ _
  next => exact declareProperty_brings owner _ _ _ _
  next => exact declareVariable_brings owner _ _ _ _ _ _ _
  next => exact declareVariable_brings owner _ _ _ _ _ _ _
  next => exact ensures_lift_refuse

theorem declareMember_awaiting (hd : d.Awaiting) (owner : Owner) {item : Value}
    (hitem : Index.InfersOverride item) :
    Ensures (declareMember owner item) d fun _ d' => d'.Awaiting := by
  unfold declareMember
  simp only [ensures_bind, ensures_refuseIf, ensures_lift, ensures_modify]
  intro _ _ _ modifiers _ location _ span _ _ _
  refine ((declareNamedKind_putsOff owner _ _ _ _ _ _).and
    (declareNamedKind_brings owner _ _ _ _ _ _)).imp ?_
  rintro id d' ⟨⟨hputs, -⟩, hbrings⟩
  exact hd.deferMember hputs.members hitem hbrings

theorem addConstructor_awaiting (hd : d.Awaiting) (type : Symbol) (qualified : String)
    (isNeeded : Bool) :
    Ensures (addConstructor type qualified isNeeded) d fun _ d' => d'.Awaiting := by
  unfold addConstructor
  simp only [ensures_bind, ensures_get]
  split
  next =>
    rw [ensures_addMember]
    intro _
    exact hd.of_brings rfl (bringsOnly_putMember d type.id none rfl)
  next => exact ensures_pure.mpr hd

theorem declareContents_awaiting (hd : d.Awaiting) (owner : Owner) {entry : Value}
    (hentry : ∀ items ∈ (allowing (entry.field "members").itemsIfPresent).toOption,
      ∀ item ∈ items, Index.InfersOverride item) (location : Option Location)
    (needsConstructor : Bool) :
    Ensures (declareContents owner entry location needsConstructor) d fun _ d' => d'.Awaiting := by
  unfold declareContents nest
  simp only [ensures_bind, ensures_lift, ensures_modify]
  intro span _ items hitems
  obtain ⟨containing, hnested, -, -⟩ :=
    exists_nested_eq (d.putSpan owner.type.id span) owner.qualified owner.type.id
  have hopened : (nested owner.qualified owner.type.id
      (d.putSpan owner.type.id span)).Awaiting := by
    rw [hnested]
    cases span <;> exact ⟨hd.overriding, hd.inferring⟩
  refine (forEach_keeps hopened ?_).imp ?_
  · intro item hitem d' hd'
    have hlisted := hentry items (Attempt.mem_toOption_iff.mpr hitems)
    exact declareMember_awaiting hd' owner (hlisted item hitem)
  · intro _ d' hd'
    refine (addConstructor_awaiting hd' owner.type owner.qualified needsConstructor).imp ?_
    intro _ d'' hd''
    exact ⟨hd''.overriding, hd''.inferring⟩

theorem declareType_awaiting (hd : d.Awaiting) (root : String) {entry : Value}
    (hentry : ∀ items ∈ (allowing (entry.field "members").itemsIfPresent).toOption,
      ∀ item ∈ items, Index.InfersOverride item) :
    Ensures (declareType root entry) d fun _ d' => d'.Awaiting := by
  rintro ⟨⟩ d' hrun
  obtain ⟨kind, location, modifiers, -, -, hbody⟩ := declareType_eq_ok.mp hrun
  have hput : (headed entry kind location modifiers d).Awaiting :=
    hd.of_brings rfl (bringsOnly_of_insert rfl rfl)
  exact declareContents_awaiting hput _ hentry _ _ _ _ hbody

/-! ## No links -/

theorem sameLinks_deferBody (d : Draft) (method : String) (file : Option String) (data : Value) :
    SameLinks ∅ d (d.deferBody method file data) := by
  unfold Draft.deferBody
  simp only []
  split <;> exact { SameLinks.refl ∅ d with }

theorem declares_writes (owner : Owner) : DeclaresContents owner (fun _ => True) (Writes ∅) where
  chains := chains_writes ∅
  addMember s span _ := addMember_writes _ s span
  putContaining id container data _ := writes_modify fun d =>
    { sameLinks_deferBody (d.putContaining id container) id owner.file data with }
  putAccessors _ _ _ := writes_modify fun d => { SameLinks.refl ∅ d with }
  deferBody method data := writes_modify fun d => sameLinks_deferBody d method owner.file data
  deferMember _ _ := writes_modify fun d => { SameLinks.refl ∅ d with }
  membersOf d := by
    rw [ensures_bind, ensures_get]
    exact ensures_pure.mpr (.refl ∅ d)
  putSpan span := writes_modify fun d => by
    cases span <;> exact { SameLinks.refl ∅ d with }
  nest := writes_modify fun d => by
    split
    next => split <;> exact { SameLinks.refl ∅ d with }
    next => exact .refl ∅ d
  deferLink _ := writes_modify fun d => { SameLinks.refl ∅ d with }

theorem declareType_writes (root : String) (entry : Value) :
    Writes ∅ (declareType root entry) := by
  rintro d ⟨⟩ e hrun
  obtain ⟨kind, location, modifiers, -, -, hbody⟩ := declareType_eq_ok.mp hrun
  have hcontents := (declares_writes _).declareContents (namesMembers_of_any fun _ => trivial)
    location _ _ _ _ hbody
  exact { hcontents with }

end Declaration

namespace Index

/-- What the first pass leaves for the links of members: they wait, and nothing is linked. -/
theorem declareTypes_awaiting (root : String) {types : List Value}
    (htypes : ∀ entry ∈ types, ∀ items ∈ (allowing (entry.field "members").itemsIfPresent).toOption,
      ∀ item ∈ items, InfersOverride item) :
    Ensures (forEach (Declaration.declareType root) types) Draft.empty fun _ d =>
      d.Awaiting ∧ ∀ id, d.overridden.get? id = none := by
  have hlinks : Writes ∅ (forEach (Declaration.declareType root) types) :=
    (chains_writes ∅).forEach (Declaration.declareType_writes root) types
  have hwaiting := forEach_keeps (P := Awaiting) awaiting_empty fun entry hentry d hd =>
    Declaration.declareType_awaiting hd root (htypes entry hentry)
  refine (hwaiting.and (hlinks Draft.empty)).imp ?_
  rintro _ d ⟨hd, hsame⟩
  exact ⟨hd, fun id => hsame.overridden id (by simp)⟩

end Index
end SymbolAtlas
