import SymbolAtlas.Proofs.Index.Field
import SymbolAtlas.Proofs.Index.Oblivious
import Mathlib.Tactic

/-!
# Documents with other bodies

Two documents may differ in nothing but the bodies of methods and accessors.  Declaring them goes
the same way: the symbols are the same, and what is put off for the later passes does the same
there if the bodies are read alike.
-/

namespace SymbolAtlas

namespace Body

/-- Both are bodies or neither is, and they are read alike. -/
structure ReadAlike (v w : Value) : Prop where
  isNull : w.isNull = v.isNull
  read : ∀ place, Body.read place w = Body.read place v

end Body

namespace Index

open Value

/-- What may differ in a member: its body and those of its accessors. -/
inductive RebodiedPart (B : Value → Value → Prop) : String → Value → Value → Prop where
  | body {v w : Value} (hbody : B v w) : RebodiedPart B "body" v w
  | accessor {key : String} {v w : Value} (hkey : key = "get" ∨ key = "set")
      (haccessor : AgreeBut "body" B v w) : RebodiedPart B key v w

def RebodiedMember (B : Value → Value → Prop) : Value → Value → Prop :=
  AgreeUnder (RebodiedPart B)

def RebodiedType (B : Value → Value → Prop) : Value → Value → Prop :=
  AgreeBut "members" (AgreeEach (RebodiedMember B))

/-- Two documents differ only in the bodies of declared members, which are related. -/
def RebodiedDocument (B : Value → Value → Prop) : Value → Value → Prop :=
  AgreeBut "types" (AgreeEach (RebodiedType B))

variable {B : Value → Value → Prop} {data other : Value} {keys : List String} {keyword : String}

theorem RebodiedMember.sameAt (h : RebodiedMember B data other)
    (hkeys : ∀ key ∈ keys, key ∉ ["body", "get", "set"]) : SameAt keys data other := by
  intro key hkey
  apply h.get?_eq
  rintro v w hpart
  apply hkeys key hkey
  cases hpart with
  | body => decide
  | accessor hkey => rcases hkey with rfl | rfl <;> decide

theorem RebodiedMember.body_rel (h : RebodiedMember B data other) :
    data.field "body" = other.field "body" ∨ B (data.field "body") (other.field "body") := by
  refine (h.field_rel "body").imp_right ?_
  intro hpart
  cases hpart with
  | body hbody => exact hbody
  | accessor hkey => exact absurd hkey (by decide)

/-- Accessors are both given or neither, and agree but for their bodies. -/
theorem RebodiedMember.accessor_cases (h : RebodiedMember B data other)
    (hkeyword : keyword = "get" ∨ keyword = "set") :
    other.get? keyword = data.get? keyword ∨
      ∃ v w, data.get? keyword = some v ∧ other.get? keyword = some w ∧ AgreeBut "body" B v w := by
  rcases h.get?_cases keyword with hsame | ⟨v, w, hv, hw, hpart⟩
  · exact Or.inl hsame
  · refine Or.inr ⟨v, w, hv, hw, ?_⟩
    cases hpart with
    | body => exact absurd hkeyword (by decide)
    | accessor _ haccessor => exact haccessor

end Index

namespace Draft

/-- What waits in one draft does the same, one by one, as what waits in another. -/
structure Deferred.Matches (w w' : Deferred) : Prop where
  links : List.Forall₂ (fun p q => Link.linkType q.1 q.2 = Link.linkType p.1 p.2) w.links w'.links
  members : List.Forall₂ (fun p q => Link.linkMember q.1 q.2 = Link.linkMember p.1 p.2)
    w.members w'.members
  bodies : List.Forall₂ (fun p q => ∀ root, Index.readBody root q = Index.readBody root p)
    w.bodies w'.bodies

variable {d d' : Draft} {data other : Value}

theorem HoldsRelated.putContaining (h : HoldsRelated Deferred.Matches d d')
    (id container : String) : HoldsRelated Deferred.Matches (d.putContaining id container)
      (d'.putContaining id container) := by
  obtain ⟨w, rfl, hw⟩ := h
  exact ⟨w, rfl, hw⟩

theorem HoldsRelated.deferLink (h : HoldsRelated Deferred.Matches d d') (type : String)
    (hlink : Link.linkType type other = Link.linkType type data) :
    HoldsRelated Deferred.Matches (d.deferLink type data) (d'.deferLink type other) := by
  obtain ⟨w, rfl, hw⟩ := h
  exact ⟨{ w with links := w.links ++ [(type, other)] }, rfl,
    { hw with links := List.rel_append hw.links (.cons hlink .nil) }⟩

theorem HoldsRelated.deferMember (h : HoldsRelated Deferred.Matches d d') (id : String)
    (hlink : Link.linkMember id other = Link.linkMember id data) :
    HoldsRelated Deferred.Matches (d.deferMember id data) (d'.deferMember id other) := by
  obtain ⟨w, rfl, hw⟩ := h
  exact ⟨{ w with members := w.members ++ [(id, other)] }, rfl,
    { hw with members := List.rel_append hw.members (.cons hlink .nil) }⟩

theorem HoldsRelated.deferBody (h : HoldsRelated Deferred.Matches d d') (method : String)
    (file : Option String) (hbody : Body.ReadAlike (data.field "body") (other.field "body")) :
    HoldsRelated Deferred.Matches (d.deferBody method file data)
      (d'.deferBody method file other) := by
  obtain ⟨w, rfl, hw⟩ := h
  have hread : ∀ root, Index.readBody root ⟨method, file, other.field "body"⟩ =
      Index.readBody root ⟨method, file, data.field "body"⟩ := by
    intro root
    unfold Index.readBody
    simp only [hbody.read]
  unfold Draft.deferBody
  simp only [hbody.isNull]
  split
  next => exact ⟨w, rfl, hw⟩
  next =>
    exact ⟨{ w with bodies := w.bodies ++ [⟨method, file, other.field "body"⟩] }, rfl,
      { hw with bodies := List.rel_append hw.bodies (.cons hread .nil) }⟩

end Draft

namespace Declaration

open Building Draft Index Value

variable {B : Value → Value → Prop} {data other : Value} {keyword : String}

/-- Steps that agree on drafts in which what waits does the same. -/
abbrev Agree {α : Type} (step other : Building α) : Prop :=
  AgreeOn (HoldsRelated Deferred.Matches) Eq step other

/-! ## Accessors -/

theorem accessorData?_rel (h : RebodiedMember B data other)
    (hkeyword : keyword = "get" ∨ keyword = "set") :
    Option.Rel (AgreeBut "body" B) (accessorData? data keyword) (accessorData? other keyword) := by
  have hgiven : ∀ key, key = "get" ∨ key = "set" →
      (other.get? key).isSome = (data.get? key).isSome := by
    intro key hkey
    rcases h.accessor_cases hkey with hsame | ⟨v, w, hv, hw, -⟩
    · rw [hsame]
    · rw [hv, hw]
      rfl
  have hraw : ∀ missing, AgreeBut "body" B (data.fieldOr keyword missing)
      (other.fieldOr keyword missing) := by
    intro missing
    unfold fieldOr
    rcases h.accessor_cases hkeyword with hsame | ⟨v, w, hv, hw, haccessor⟩
    · rw [hsame]
      exact .same _
    · rw [hv, hw]
      exact haccessor
  unfold accessorData?
  rw [hgiven "get" (Or.inl rfl), hgiven "set" (Or.inr rfl)]
  have hvalue := hraw (.bool (keyword == "get" &&
    !((data.get? "get").isSome || (data.get? "set").isSome)))
  simp only []
  generalize data.fieldOr keyword _ = v at hvalue
  generalize other.fieldOr keyword _ = w at hvalue
  rw [hvalue.agreeUnder.isPresent_eq, hvalue.isMapping]
  split
  next =>
    split
    next => exact .some hvalue
    next => exact .some (.same _)
  next => exact .none

section

variable (hB : ∀ v w, B v w → Body.ReadAlike v w)

include hB

theorem readAlike_body {v w : Value}
    (h : v.field "body" = w.field "body" ∨ B (v.field "body") (w.field "body")) :
    Body.ReadAlike (v.field "body") (w.field "body") := by
  rcases h with hsame | hrelated
  · rw [hsame]
    exact ⟨rfl, fun _ => rfl⟩
  · exact hB _ _ hrelated

theorem declareAccessor_agree (h : RebodiedMember B data other) (owner : Owner)
    (property : Symbol) (propertyType : String) (hkeyword : keyword = "get" ∨ keyword = "set")
    (kind : MethodKind) :
    Agree (declareAccessor owner data property propertyType keyword kind)
      (declareAccessor owner other property propertyType keyword kind) := by
  have hgiven := accessorData?_rel h hkeyword
  unfold declareAccessor
  generalize accessorData? data keyword = given at hgiven
  generalize accessorData? other keyword = given' at hgiven
  cases hgiven with
  | none => exact agree_pure rfl
  | @some v w haccessor =>
      simp only []
      rw [locate_eq (haccessor.sameAt (by decide))]
      apply (agree_lift_same _).bind_same
      intro located
      unfold accessorSpan
      simp only [haccessor.agreeUnder.isPresent_eq,
        Entry.location_eq (haccessor.sameAt (by decide)),
        Entry.span_eq (haccessor.sameAt (by decide))]
      apply (agree_lift_same _).bind_same
      intro span
      apply (addMember_oblivious _ _ _).agree.bind_same
      intro _
      refine AgreeOn.bind_same (agree_modify ?_) fun _ => agree_pure rfl
      intro d d' hd
      exact (hd.putContaining _ _).deferBody _ _ (readAlike_body hB haccessor.field_rel)

/-! ## Members -/

theorem declareProperty_agree (h : RebodiedMember B data other) (owner : Owner)
    (modifiers : List String) (location : Option Location) (span : Option Span) :
    Agree (declareProperty owner data modifiers location span)
      (declareProperty owner other modifiers location span) := by
  have hsame : SameAt ["name", "type", "access"] data other := h.sameAt (by decide)
  unfold declareProperty
  rw [Entry.required_eq hsame (by decide), typeOfVariable_eq (hsame.mono (by decide))]
  simp only [variableSymbol_eq (hsame.mono (by decide))]
  apply (agree_lift_same _).bind_same
  intro name
  refine AgreeOn.after ?_ _
  refine AgreeOn.after ?_ _
  apply (addMember_oblivious _ _ _).agree.bind_same
  intro _
  apply (declareAccessor_agree hB h owner _ _ (Or.inl rfl) _).bind_same
  intro getter
  apply (declareAccessor_agree hB h owner _ _ (Or.inr rfl) _).bind_same
  intro setter
  exact ((oblivious_modify fun _ _ => rfl).agree).bind_same fun _ => agree_pure rfl

theorem declareMethod_agree (h : RebodiedMember B data other) (owner : Owner)
    (modifiers : List String) (location : Option Location) (span : Option Span)
    (name shown : String) (returns : Value) (place : String) (kind : MethodKind) :
    Agree (declareMethod owner data modifiers location span name shown returns place kind)
      (declareMethod owner other modifiers location span name shown returns place kind) := by
  have hsame : SameAt ["parameters", "access", "implicit"] data other := h.sameAt (by decide)
  unfold declareMethod
  rw [hsame.field_eq (by decide)]
  simp only [methodSymbol_eq (hsame.mono (by decide))]
  apply (agree_lift_same _).bind_same
  intro parameters
  refine AgreeOn.after ?_ _
  apply (addMember_oblivious _ _ _).agree.bind_same
  intro _
  refine AgreeOn.bind_same (agree_modify ?_) fun _ => agree_pure rfl
  intro d d' hd
  exact hd.deferBody _ _ (readAlike_body hB h.body_rel)

omit hB in
theorem declareVariable_agree (h : RebodiedMember B data other) (owner : Owner)
    (modifiers : List String) (location : Option Location) (span : Option Span)
    (letter place : String) (kind : SymbolKind) :
    Agree (declareVariable owner data modifiers location span letter place kind)
      (declareVariable owner other modifiers location span letter place kind) := by
  have hsame : SameAt ["name", "type", "access"] data other := h.sameAt (by decide)
  unfold declareVariable
  rw [Entry.required_eq hsame (by decide), typeOfVariable_eq (hsame.mono (by decide))]
  simp only [variableSymbol_eq (hsame.mono (by decide))]
  apply (agree_lift_same _).bind_same
  intro name
  refine AgreeOn.after ?_ _
  refine AgreeOn.after ?_ _
  exact (addMember_oblivious _ _ _).agree.bind_same fun _ => agree_pure rfl

theorem declareNamedKind_agree (h : RebodiedMember B data other) (owner : Owner)
    (modifiers : List String) (location : Option Location) (span : Option Span)
    (place kind : String) :
    Agree (declareNamedKind owner data modifiers location span place kind)
      (declareNamedKind owner other modifiers location span place kind) := by
  have hsame : SameAt ["name", "returns"] data other := h.sameAt (by decide)
  unfold declareNamedKind
  split
  next => exact declareMethod_agree hB h owner _ _ _ _ _ _ _ _
  next => exact declareMethod_agree hB h owner _ _ _ _ _ _ _ _
  next => exact declareMethod_agree hB h owner _ _ _ _ _ _ _ _
  next =>
    rw [Entry.required_eq hsame (by decide), hsame.fieldOr_eq (by decide)]
    apply (agree_lift_same _).bind_same
    intro name
    refine AgreeOn.after ?_ _
    exact declareMethod_agree hB h owner _ _ _ _ _ _ _ _
  next => exact declareProperty_agree hB h owner _ _ _
  next => exact declareVariable_agree h owner _ _ _ _ _ _
  next => exact declareVariable_agree h owner _ _ _ _ _ _
  next => exact agree_refuse _

theorem declareMember_agree (h : RebodiedMember B data other) (owner : Owner) :
    Agree (declareMember owner data) (declareMember owner other) := by
  have hkind : SameAt ["kind"] data other := h.sameAt (by decide)
  unfold declareMember memberModifiers
  simp only []
  rw [h.isMapping_eq, hkind.fieldOr_eq (by decide), Entry.modifiers_eq (h.sameAt (by decide)),
    locate_eq (h.sameAt (by decide)), Entry.access_eq (h.sameAt (by decide))]
  simp only [Entry.span_eq (h.sameAt (by decide))]
  apply (agree_refuseIf _ _).bind_same
  intro _
  refine AgreeOn.after ?_ _
  apply (agree_lift_same _).bind_same
  intro modifiers
  apply (agree_lift_same _).bind_same
  intro location
  apply (agree_lift_same _).bind_same
  intro span
  refine AgreeOn.after ?_ _
  apply (declareNamedKind_agree hB h owner _ _ _ _ _).bind_same
  intro id
  apply agree_modify
  intro d d' hd
  exact hd.deferMember id (Link.linkMember_eq (h.sameAt (by decide)) id)

/-! ## Types -/

omit hB in
theorem nest_oblivious (qualified id : String) : Oblivious (nest qualified id) := by
  refine oblivious_modify fun d w => ?_
  split
  next =>
    rw [toTables_holding]
    cases d.typeNames.get? (outerName qualified) <;> rfl
  next => rfl

omit hB in
theorem addConstructor_oblivious (type : Symbol) (qualified : String) (isNeeded : Bool) :
    Oblivious (addConstructor type qualified isNeeded) := by
  refine oblivious_get_bind (fun _ _ => rfl) fun d => ?_
  simp only []
  split
  next => exact addMember_oblivious _ _ _
  next => exact chains_oblivious.pure _

theorem declareContents_agree (h : RebodiedType B data other) (owner : Owner)
    (location : Option Location) (needsConstructor : Bool) :
    Agree (declareContents owner data location needsConstructor)
      (declareContents owner other location needsConstructor) := by
  unfold declareContents
  rw [Entry.span_eq (h.sameAt (by decide))]
  apply (agree_lift_same _).bind_same
  intro span
  apply (oblivious_modify fun d w => putSpan_holding _ _).agree.bind_same
  intro _
  apply (nest_oblivious _ _).agree.bind_same
  intro _
  apply (agree_lift (h.agreeEach_field.items_agree fun member => .same member)).bind
  intro members others hmembers
  refine AgreeOn.bind_same (forEach_agree ?_ hmembers) ?_
  · intro member member' hmember
    exact declareMember_agree hB hmember owner
  intro _
  apply (addConstructor_oblivious _ _ _).agree.bind_same
  intro _
  apply agree_modify
  intro d d' hd
  exact hd.deferLink _ (Link.linkType_eq (h.sameAt (by decide)) _)

theorem declareNewType_agree (h : RebodiedType B data other) (root qualified : String)
    (kind : TypeKind) :
    Agree (declareNewType root data qualified kind) (declareNewType root other qualified kind) := by
  unfold declareNewType
  rw [h.field_eq (by decide), h.field_eq (by decide), Entry.modifiers_eq (h.sameAt (by decide)),
    Entry.access_eq (h.sameAt (by decide))]
  simp only [locate_eq (h.sameAt (by decide)), declaredType_eq (h.sameAt (by decide))]
  refine AgreeOn.after ?_ _
  apply (agree_lift_same _).bind_same
  intro location
  apply (agree_lift_same _).bind_same
  intro modifiers
  refine AgreeOn.after ?_ _
  apply (oblivious_modify fun _ _ => rfl).agree.bind_same
  intro _
  exact declareContents_agree hB h _ _ _

/-- A type is declared alike whatever bodies its members have. -/
theorem declareType_agree (root : String) (h : RebodiedType B data other) :
    Agree (declareType root data) (declareType root other) := by
  have hsame : SameAt ["name", "kind"] data other := h.sameAt (by decide)
  unfold declareType
  rw [h.isMapping, Entry.required_eq hsame (by decide), hsame.fieldOr_eq (by decide),
    hsame.field_eq (by decide)]
  apply (agree_refuseIf _ _).bind_same
  intro _
  apply (agree_lift_same _).bind_same
  intro name
  refine AgreeOn.after ?_ _
  apply agree_get.bind
  rintro d _ ⟨w, rfl, -⟩
  apply (agree_refuseIf _ _).bind_same
  intro _
  refine AgreeOn.after ?_ _
  split
  next => exact agree_refuse _
  next kind _ => exact declareNewType_agree hB h root name.plain kind

end

end Declaration
end SymbolAtlas
