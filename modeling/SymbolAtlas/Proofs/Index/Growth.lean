import SymbolAtlas.Index.Build
import SymbolAtlas.Proofs.Index.Build
import SymbolAtlas.Proofs.Index.Enrichment
import SymbolAtlas.Proofs.Index.MethodForm
import SymbolAtlas.Proofs.Value.Text
import Mathlib.Tactic

/-!
# How drafts grow

Until the references of a document are read, a draft changes in four ways only: a type comes in, a
type is put into its outer type, a member comes in, a method as its type calls it, or a property
comes in together with its accessors.  Everything else leaves the declarations as they are.  What
holds of a draft however it has grown is therefore shown by going through these changes.
-/

namespace SymbolAtlas
namespace Draft

open Tables

/-- Two drafts declare the same and list the same references. -/
structure SameDeclarations (d d' : Draft) : Prop where
  symbols : d'.symbols = d.symbols
  typeNames : d'.typeNames = d.typeNames
  members : d'.members = d.members
  containing : d'.containing = d.containing
  accessors : d'.accessors = d.accessors
  explicitReferences : d'.explicitReferences = d.explicitReferences

/-- A property gets an accessor of a kind, or none. -/
inductive AddsAccessor (type property : String) (kind : MethodKind) (d : Draft) :
    Option String → Draft → Prop where
  | none : AddsAccessor type property kind d none d
  | some {a : Symbol} {span : Option Span} {d' : Draft} (hnew : d.symbols.get? a.id = none)
      (hkind : a.kind = .method) (hmethod : a.methodKind = some kind)
      (hsame : SameDeclarations ((d.putMember type a span).putContaining a.id property) d') :
      AddsAccessor type property kind d (some a.id) d'

/-- One change of a draft. -/
inductive Change (d : Draft) : Draft → Prop where
  | type {name : String} {s : Symbol} (isMetadata : Bool) (hnew : d.symbols.get? s.id = none)
      (hname : d.typeNames.contains name = false) (hid : s.id = "T:" ++ name)
      (hkind : s.kind = .namedType) (hmethod : s.methodKind = none) :
      Change d (d.putType name s isMetadata)
  | nested {qualified outer : String} (hnested : '+' ∈ qualified.toList)
      (htype : KnownAs d.symbols .namedType ("T:" ++ qualified))
      (houter : d.typeNames.get? (Declaration.outerName qualified) = some outer) :
      Change d (d.putContaining ("T:" ++ qualified) outer)
  | member {type : String} {s : Symbol} (span : Option Span) (hnew : d.symbols.get? s.id = none)
      (htype : KnownAs d.symbols .namedType type) (hkind : s.kind ≠ .namedType)
      (hproperty : s.kind ≠ .property) (haccessor : s.isAccessor = false)
      (htitled : s.IsPlainMethod → d.Titled type s) : Change d (d.putMember type s span)
  | property {type : String} {p : Symbol} {span : Option Span} {getter setter : Option String}
      {d₁ d₂ : Draft} (hnew : d.symbols.get? p.id = none)
      (htype : KnownAs d.symbols .namedType type) (hkind : p.kind = .property)
      (hmethod : p.methodKind = none)
      (hget : AddsAccessor type p.id .propertyGet (d.putMember type p span) getter d₁)
      (hset : AddsAccessor type p.id .propertySet d₁ setter d₂) :
      Change d (d₂.putAccessors p.id getter setter)
  | other {d' : Draft} (hsame : SameDeclarations d d') : Change d d'

/-- A draft becomes another one by any number of changes. -/
def Grows : Draft → Draft → Prop :=
  Relation.ReflTransGen Change

/-- A draft grows by metadata alone, and nothing is put off on the way. -/
structure Evolves (d d' : Draft) : Prop where
  grows : d.Grows d'
  enriches : d.Enriches d'
  links : d'.pendingLinks = d.pendingLinks
  members : d'.pendingMembers = d.pendingMembers

variable {d d' d'' : Draft}

theorem Grows.refl (d : Draft) : d.Grows d :=
  Relation.ReflTransGen.refl

theorem Grows.trans (hfirst : d.Grows d') (hsecond : d'.Grows d'') : d.Grows d'' :=
  Relation.ReflTransGen.trans hfirst hsecond

theorem Change.grows (h : Change d d') : d.Grows d' :=
  Relation.ReflTransGen.single h

theorem SameDeclarations.refl (d : Draft) : SameDeclarations d d :=
  ⟨rfl, rfl, rfl, rfl, rfl, rfl⟩

theorem SameDeclarations.trans (hfirst : SameDeclarations d d')
    (hsecond : SameDeclarations d' d'') : SameDeclarations d d'' where
  symbols := hsecond.symbols.trans hfirst.symbols
  typeNames := hsecond.typeNames.trans hfirst.typeNames
  members := hsecond.members.trans hfirst.members
  containing := hsecond.containing.trans hfirst.containing
  accessors := hsecond.accessors.trans hfirst.accessors
  explicitReferences := hsecond.explicitReferences.trans hfirst.explicitReferences

theorem SameDeclarations.grows (h : SameDeclarations d d') : d.Grows d' :=
  (Change.other h).grows

theorem Evolves.bodies (h : d.Evolves d') : d'.pendingBodies = d.pendingBodies :=
  h.enriches.waiting

theorem Evolves.refl (d : Draft) : d.Evolves d :=
  ⟨Grows.refl d, Enriches.refl d, rfl, rfl⟩

theorem Evolves.trans (hfirst : d.Evolves d') (hsecond : d'.Evolves d'') : d.Evolves d'' where
  grows := hfirst.grows.trans hsecond.grows
  enriches := hfirst.enriches.trans hsecond.enriches
  links := hsecond.links.trans hfirst.links
  members := hsecond.members.trans hfirst.members

/-- What every change keeps is kept however a draft grows. -/
theorem Grows.keeps {P : Draft → Prop} (hkeeps : ∀ {d d'}, P d → Change d d' → P d')
    (h : d.Grows d') (hd : P d) : P d' := by
  induction h with
  | refl => exact hd
  | tail _ hlast ih => exact hkeeps ih hlast

/-! ## What growth leaves alone -/

theorem typeNames_putMember (d : Draft) (type : String) (s : Symbol) (span : Option Span) :
    (d.putMember type s span).typeNames = d.typeNames := by
  cases span <;> rfl

theorem explicitReferences_putMember (d : Draft) (type : String) (s : Symbol)
    (span : Option Span) : (d.putMember type s span).explicitReferences = d.explicitReferences := by
  cases span <;> rfl

theorem AddsAccessor.explicitReferences {type property : String} {kind : MethodKind}
    {id : Option String} (h : AddsAccessor type property kind d id d') :
    d'.explicitReferences = d.explicitReferences := by
  cases h with
  | none => rfl
  | some _ _ _ hsame =>
      exact hsame.explicitReferences.trans (explicitReferences_putMember d _ _ _)

theorem AddsAccessor.typeNames {type property : String} {kind : MethodKind} {id : Option String}
    (h : AddsAccessor type property kind d id d') : d'.typeNames = d.typeNames := by
  cases h with
  | none => rfl
  | some _ _ _ hsame => exact hsame.typeNames.trans (typeNames_putMember d _ _ _)

theorem Change.explicitReferences (h : Change d d') :
    d'.explicitReferences = d.explicitReferences := by
  cases h with
  | type => rfl
  | nested => rfl
  | member => exact explicitReferences_putMember d _ _ _
  | property _ _ _ _ hget hset =>
      have hgetter := hget.explicitReferences.trans (explicitReferences_putMember d _ _ _)
      exact hset.explicitReferences.trans hgetter
  | other hsame => exact hsame.explicitReferences

theorem Change.finds (h : Change d d') {name id : String} (hid : d.typeNames.get? name = some id) :
    d'.typeNames.get? name = some id := by
  cases h with
  | type _ _ hname => exact get?_registerTypeName d hname hid
  | nested => exact hid
  | member => rwa [typeNames_putMember]
  | property _ _ _ _ hget hset =>
      have hnames := hset.typeNames.trans (hget.typeNames.trans (typeNames_putMember d _ _ _))
      exact (congrArg (Table.get? · name) hnames).trans hid
  | other hsame => exact (congrArg (Table.get? · name) hsame.typeNames).trans hid

/-- What a name stands for it stands for however a draft grows. -/
theorem Grows.finds (h : d.Grows d') {name id : String} (hid : d.typeNames.get? name = some id) :
    d'.typeNames.get? name = some id :=
  h.keeps (P := fun d => d.typeNames.get? name = some id) (fun hbefore hchange =>
    hchange.finds hbefore) hid

/-- No reference is listed while a draft grows. -/
theorem Grows.explicitReferences (h : d.Grows d') :
    d'.explicitReferences = d.explicitReferences := by
  refine h.keeps (P := fun d' => d'.explicitReferences = d.explicitReferences) ?_ rfl
  intro d₁ d₂ hbefore hchange
  exact hchange.explicitReferences.trans hbefore

/-! ## Changes that declare nothing -/

theorem same_putSpan (d : Draft) (id : String) (span : Option Span) :
    SameDeclarations d (d.putSpan id span) := by
  cases span <;> exact ⟨rfl, rfl, rfl, rfl, rfl, rfl⟩

theorem same_deferBody (d : Draft) (method : String) (file : Option String) (data : Value) :
    SameDeclarations d (d.deferBody method file data) := by
  unfold deferBody
  simp only []
  split <;> exact ⟨rfl, rfl, rfl, rfl, rfl, rfl⟩

/-- A change that declares nothing, puts nothing off and reads no body but one that waits. -/
theorem SameDeclarations.evolves (h : SameDeclarations d d')
    (hmetadata : d'.metadataTypes = d.metadataTypes) (hspans : d'.spans = d.spans)
    (hlinks : d'.pendingLinks = d.pendingLinks) (hmembers : d'.pendingMembers = d.pendingMembers)
    (hwaiting : d'.pendingBodies = d.pendingBodies)
    (hbodies : ∀ id, d'.bodies.get? id = d.bodies.get? id ∨
      id ∈ d.pendingBodies.map PendingBody.method) : d.Evolves d' :=
  ⟨h.grows, Enriches.of_same h.symbols h.typeNames h.members h.containing h.accessors hmetadata
    hspans hwaiting hbodies, hlinks, hmembers⟩

end Draft

namespace Building

open Draft Tables

variable {α β : Type} {d : Draft}

@[simp] theorem ensures_addMember {type : String} {s : Symbol} {span : Option Span}
    {post : Unit → Draft → Prop} :
    Ensures (addMember type s span) d post ↔
      (d.symbols.contains s.id = false → post () (d.putMember type s span)) := by
  unfold addMember
  simp only [ensures_bind, ensures_get, ensures_refuseIf, ensures_set]

end Building

namespace Declaration

open Building Draft Tables Index

variable {d : Draft} {owner : Owner}

/-- The type of an owner is there, under an id that its own name gives it. -/
structure Owner.Declared (owner : Owner) (symbols : Table Symbol) : Prop where
  holds : Holds symbols owner.type
  kind : owner.type.kind = .namedType
  id : owner.type.id = "T:" ++ owner.qualified
  nonempty : owner.qualified ≠ ""

theorem Owner.Declared.known {symbols : Table Symbol} (h : owner.Declared symbols) :
    KnownAs symbols .namedType owner.type.id :=
  ⟨owner.type, h.holds, h.kind⟩

theorem Owner.Declared.mono {before after : Table Symbol} (hkept : Kept before after)
    (h : owner.Declared before) : owner.Declared after :=
  ⟨h.holds.mono hkept, h.kind, h.id, h.nonempty⟩

theorem Owner.Declared.titled (hd : d.Sound) (h : owner.Declared d.symbols) {m : Symbol}
    (hm : m.IsMethodOf owner.type) : d.Titled owner.type.id m := by
  obtain ⟨name, hid, hname⟩ := hd.types owner.type.id owner.type h.holds h.kind
  rw [h.id, String.append_right_inj] at hid
  subst hid
  exact ⟨owner.type, owner.qualified, h.holds, hm, h.nonempty, hname⟩

theorem declareAccessor_adds (owner : Owner) (data : Value) (property : Symbol)
    (propertyType keyword : String) (kind : MethodKind) :
    Ensures (declareAccessor owner data property propertyType keyword kind) d fun id d' =>
      AddsAccessor owner.type.id property.id kind d id d' := by
  unfold declareAccessor
  split
  next => exact ensures_pure.mpr .none
  next accessorData _ =>
    simp only [ensures_bind, ensures_lift, ensures_modify, ensures_pure, ensures_addMember]
    intro located _ span _ hnew
    exact .some (Table.get?_of_contains hnew) rfl rfl (same_deferBody _ _ _ _)

theorem declareProperty_grows (howner : KnownAs d.symbols .namedType owner.type.id) (data : Value)
    (modifiers : List String) (location : Option Location) (span : Option Span) :
    Ensures (declareProperty owner data modifiers location span) d fun _ d' => d.Grows d' := by
  unfold declareProperty
  simp only [ensures_bind, ensures_lift, ensures_modify, ensures_pure, ensures_addMember]
  intro name _ _ _ _ _ hnew
  refine (declareAccessor_adds owner data _ _ "get" .propertyGet).imp ?_
  intro getter d₁ hget
  refine (declareAccessor_adds owner data _ _ "set" .propertySet).imp ?_
  intro setter d₂ hset
  exact (Change.property (Table.get?_of_contains hnew) howner rfl rfl hget hset).grows

theorem declareMethod_grows (hd : d.Sound) (howner : owner.Declared d.symbols) (data : Value)
    (modifiers : List String) (location : Option Location) (span : Option Span)
    {name shown : String} (returns : Value) (place : String) {kind : MethodKind}
    (hform : MethodForm owner.type name shown kind) :
    Ensures (declareMethod owner data modifiers location span name shown returns place kind) d
      fun _ d' => d.Grows d' := by
  unfold declareMethod
  simp only [ensures_bind, ensures_lift, ensures_modify, ensures_pure, ensures_addMember]
  intro parameters _ _ _ hnew
  have haccessor := hform.isAccessor_eq_false data modifiers location returns.plain parameters
  have htitled := howner.titled hd
    (hform.isMethodOf howner.id data modifiers location returns.plain parameters)
  have hmember := Change.member span (Table.get?_of_contains hnew) howner.known
    (by simp [methodSymbol, memberSymbol]) (by simp [methodSymbol, memberSymbol]) haccessor
    fun _ => htitled
  exact hmember.grows.trans (same_deferBody _ _ _ _).grows

theorem declareVariable_grows (howner : KnownAs d.symbols .namedType owner.type.id) (data : Value)
    (modifiers : List String) (location : Option Location) (span : Option Span)
    (letter place : String) {kind : SymbolKind} (htype : kind ≠ .namedType)
    (hproperty : kind ≠ .property) (hmethod : kind ≠ .method) :
    Ensures (declareVariable owner data modifiers location span letter place kind) d
      fun _ d' => d.Grows d' := by
  unfold declareVariable
  simp only [ensures_bind, ensures_lift, ensures_pure, ensures_addMember]
  intro name _ _ _ _ _ hnew
  exact (Change.member span (Table.get?_of_contains hnew) howner htype hproperty rfl
    (by simp [Symbol.IsPlainMethod, variableSymbol, memberSymbol, hmethod])).grows

theorem declareNamedKind_grows (hd : d.Sound) (howner : owner.Declared d.symbols) (data : Value)
    (modifiers : List String) (location : Option Location) (span : Option Span)
    (place kind : String) :
    Ensures (declareNamedKind owner data modifiers location span place kind) d fun _ d' =>
      d.Grows d' := by
  unfold declareNamedKind
  split
  next => exact declareMethod_grows hd howner _ _ _ _ _ _ .constructor
  next => exact declareMethod_grows hd howner _ _ _ _ _ _ .constructor
  next => exact declareMethod_grows hd howner _ _ _ _ _ _ .staticConstructor
  next =>
    simp only [ensures_bind, ensures_lift]
    intro name _ _ _
    exact declareMethod_grows hd howner _ _ _ _ _ _ (.ordinary name.plain)
  next => exact declareProperty_grows howner.known _ _ _ _
  next =>
    exact declareVariable_grows howner.known _ _ _ _ _ _ (by decide) (by decide) (by decide)
  next =>
    exact declareVariable_grows howner.known _ _ _ _ _ _ (by decide) (by decide) (by decide)
  next => exact ensures_lift_refuse

theorem declareMember_grows (hd : d.Sound) (howner : owner.Declared d.symbols) (data : Value) :
    Ensures (declareMember owner data) d fun _ d' => d.Grows d' := by
  unfold declareMember
  simp only [ensures_bind, ensures_refuseIf, ensures_lift, ensures_modify]
  intro _ _ _ modifiers _ location _ span _ _ _
  refine (declareNamedKind_grows hd howner _ _ _ _ _ _).imp ?_
  intro id d' hdeclared
  exact hdeclared.trans (SameDeclarations.grows ⟨rfl, rfl, rfl, rfl, rfl, rfl⟩)

theorem nest_grows {qualified id : String} (hid : id = "T:" ++ qualified)
    (htype : KnownAs d.symbols .namedType id) :
    Ensures (nest qualified id) d fun _ d' => d.Grows d' := by
  subst hid
  unfold nest
  rw [ensures_modify]
  split
  next hnested =>
    split
    next outer houter => exact (Change.nested (by simpa using hnested) htype houter).grows
    next => exact Grows.refl d
  next => exact Grows.refl d

theorem addConstructor_grows (hd : d.Sound) (howner : owner.Declared d.symbols)
    (isNeeded : Bool) :
    Ensures (addConstructor owner.type owner.qualified isNeeded) d fun _ d' => d.Grows d' := by
  unfold addConstructor
  simp only [ensures_bind, ensures_get]
  split
  next =>
    rw [ensures_addMember]
    intro hnew
    have htitled := howner.titled hd (isMethodOf_implicitConstructor howner.id)
    exact (Change.member none (Table.get?_of_contains hnew) howner.known
      (by simp [implicitConstructor]) (by simp [implicitConstructor]) rfl
      fun _ => htitled).grows
  next => exact ensures_pure.mpr (Grows.refl d)

theorem declareContents_grows (hd : d.Sound) (howner : owner.Declared d.symbols) (data : Value)
    (location : Option Location) (needsConstructor : Bool) :
    Ensures (declareContents owner data location needsConstructor) d fun _ d' => d.Grows d' := by
  unfold declareContents
  simp only [ensures_bind, ensures_lift, ensures_modify]
  intro span _
  have hspan := hd.putSpan howner.known.known span
  have hknown := howner.known.mono hspan.kept
  refine ((nest_ensures hspan.sound owner.qualified hknown.known).and
    (nest_grows howner.id hknown)).imp ?_
  rintro _ d₁ ⟨hnest, hnested⟩ members _
  have hopened : d.Becomes d₁ ∧ d.Grows d₁ :=
    ⟨hspan.trans hnest, (same_putSpan d _ span).grows.trans hnested⟩
  have hdeclares : ∀ member ∈ members, ∀ d', d.Becomes d' ∧ d.Grows d' →
      Ensures (declareMember owner member) d' fun _ d'' => d.Becomes d'' ∧ d.Grows d'' := by
    rintro member _ d' ⟨hbecomes, hgrown⟩
    have howner' := howner.mono hbecomes.kept
    refine ((declareMember_ensures hbecomes.sound howner'.known.known member).and
      (declareMember_grows hbecomes.sound howner' member)).imp ?_
    rintro _ d'' ⟨hdeclared, hmore⟩
    exact ⟨hbecomes.trans hdeclared, hgrown.trans hmore⟩
  refine (forEach_keeps hopened hdeclares).imp ?_
  rintro _ d₂ ⟨hbecomes, hgrown⟩
  refine (addConstructor_grows hbecomes.sound (howner.mono hbecomes.kept) _).imp ?_
  intro _ d₃ hadded
  exact (hgrown.trans hadded).trans (SameDeclarations.grows ⟨rfl, rfl, rfl, rfl, rfl, rfl⟩)

theorem declareType_grows (hd : d.Sound) (root : String) (entry : Value) :
    Ensures (declareType root entry) d fun _ d' => d.Grows d' := by
  rintro ⟨⟩ d' hrun
  obtain ⟨kind, location, modifiers, hheads, hnew, hbody⟩ := declareType_eq_ok.mp hrun
  have hname := Table.contains_of_get? hnew
  have hput := hd.putType (s := declaredType (typeName entry) kind location modifiers entry) hname
    rfl rfl (isMetadata entry)
  have htype := Change.type (s := declaredType (typeName entry) kind location modifiers entry)
    (isMetadata entry) (hd.typeId_new hname) hname rfl rfl rfl
  have howner := Entry.plain_ne_empty_of_required hheads.name
  refine htype.grows.trans (declareContents_grows hput.1.sound ?_ entry location _ () d' hbody)
  exact ⟨get?_insert_self d.symbols _, rfl, rfl, howner⟩

end Declaration
end SymbolAtlas
