import SymbolAtlas.Proofs.Index.Entry
import Mathlib.Tactic

/-!
# Declarations keep drafts sound

Types and members come in together with all that refers to them.  An accessor lies in its property
and a member in its type, both of which are there by then, and what is put off for the second pass
names a symbol that has just been declared.
-/

namespace SymbolAtlas
namespace Declaration

open Building Draft Tables Index

variable {d : Draft} {owner : Owner}

theorem ensureType_ensures (hd : d.Sound) (qualified : String) (kind : TypeKind) :
    Ensures (ensureType qualified kind) d fun id d' =>
      d.Becomes d' ∧ KnownAs d'.symbols .namedType id := by
  unfold ensureType
  simp only [ensures_bind, ensures_get]
  split
  next id hid =>
    rw [ensures_pure]
    exact ⟨hd.becomes, hd.named.get? hid⟩
  next hnone =>
    simp only [ensures_bind, ensures_set, ensures_pure]
    exact hd.putType (Table.contains_of_get? hnone) rfl rfl true

theorem apart_methodId (type name : String) (parameters : List Parameter) :
    Apart (Entry.methodId type name parameters) := by
  have hletter : Apart "M:" := ⟨'M', [':'], rfl, by decide⟩
  unfold Entry.methodId
  exact (((((hletter.append type).append ".").append _).append "(").append _).append ")"

theorem apart_accessorSymbol (owner : Owner) (property : Symbol) (propertyType keyword : String)
    (kind : MethodKind) (located : Option Location) :
    Apart (accessorSymbol owner property propertyType keyword kind located).id := by
  have hletter : Apart "M:" := ⟨'M', [':'], rfl, by decide⟩
  unfold accessorSymbol
  exact ((((hletter.append owner.qualified).append ".").append keyword).append "_").append _

theorem apart_variableSymbol (owner : Owner) (data : Value) (modifiers : List String)
    (location : Option Location) {letter : String} (hletter : Apart letter) (name : String)
    (kind : SymbolKind) :
    Apart (variableSymbol owner data modifiers location letter name kind).id := by
  unfold variableSymbol memberSymbol
  exact (((hletter.append ":").append owner.qualified).append ".").append name

theorem declareAccessor_ensures (hd : d.Sound) (howner : Known d.symbols owner.type.id)
    {property : Symbol} (hproperty : Known d.symbols property.id) (data : Value)
    (propertyType keyword : String) (kind : MethodKind) :
    Ensures (declareAccessor owner data property propertyType keyword kind) d fun accessor d' =>
      d.Becomes d' ∧ ∀ id ∈ accessor, Known d'.symbols id := by
  unfold declareAccessor
  split
  next =>
    rw [ensures_pure]
    refine ⟨hd.becomes, ?_⟩
    intro id hid
    cases hid
  next accessorData _ =>
    simp only [ensures_bind, ensures_lift, ensures_modify, ensures_pure]
    intro located _ span _
    have hapart := apart_accessorSymbol owner property propertyType keyword kind located
    have hmember : (accessorSymbol owner property propertyType keyword kind located).kind ≠
        .namedType := by
      intro hkind
      cases hkind
    refine (addMember_ensures hd howner hmember hapart span).imp ?_
    intro _ d' hadded
    rcases hadded with ⟨hadded, haccessor⟩
    have hcontaining :=
      hadded.sound.putContaining haccessor.known (hproperty.mono hadded.kept)
    have hbody := hcontaining.sound.deferBody
      ⟨_, hcontaining.kept _ _ haccessor, rfl⟩ owner.file accessorData
    have hsince := hcontaining.trans hbody
    refine ⟨hadded.trans hsince, ?_⟩
    intro id hid
    cases hid
    exact haccessor.known.mono hsince.kept

theorem declareProperty_ensures (hd : d.Sound) (howner : Known d.symbols owner.type.id)
    (data : Value) (modifiers : List String) (location : Option Location) (span : Option Span) :
    Ensures (declareProperty owner data modifiers location span) d fun id d' =>
      d.Becomes d' ∧ KnownMember d'.symbols id := by
  unfold declareProperty
  simp only [ensures_bind, ensures_lift, ensures_modify, ensures_pure]
  intro name _ _ _ _ _
  have hletter : Apart "P" := ⟨'P', [], rfl, by decide⟩
  have hapart := apart_variableSymbol owner data modifiers location hletter name.plain .property
  have hmember : (variableSymbol owner data modifiers location "P" name.plain .property).kind ≠
      .namedType := by
    intro hkind
    cases hkind
  refine (addMember_ensures hd howner hmember hapart span).imp ?_
  intro _ d₁ hadded
  rcases hadded with ⟨hadded, hproperty⟩
  refine (declareAccessor_ensures hadded.sound (howner.mono hadded.kept) hproperty.known data _
    "get" .propertyGet).imp ?_
  intro getter d₂ hgetter
  rcases hgetter with ⟨hgot, hgetter⟩
  have hbefore := hadded.trans hgot
  refine (declareAccessor_ensures hgot.sound (howner.mono hbefore.kept)
    (hproperty.known.mono hgot.kept) data _ "set" .propertySet).imp ?_
  intro setter d₃ hsetter
  rcases hsetter with ⟨hset, hsetter⟩
  have hsince := hgot.trans hset
  have haccessors := hset.sound.putAccessors (hproperty.known.mono hsince.kept)
    (fun id hid => (hgetter id hid).mono hset.kept) hsetter
  refine ⟨hbefore.trans (hset.trans haccessors), ?_⟩
  exact ⟨_, haccessors.kept _ _ (hsince.kept _ _ hproperty), hmember⟩

theorem declareMethod_ensures (hd : d.Sound) (howner : Known d.symbols owner.type.id)
    (data : Value) (modifiers : List String) (location : Option Location) (span : Option Span)
    (name shown : String) (returns : Value) (place : String) (kind : MethodKind) :
    Ensures (declareMethod owner data modifiers location span name shown returns place kind) d
      fun id d' => d.Becomes d' ∧ KnownMember d'.symbols id := by
  unfold declareMethod
  simp only [ensures_bind, ensures_lift, ensures_modify, ensures_pure]
  intro parameters _ _ _
  have hmember : (methodSymbol owner data modifiers location name shown returns.plain kind
      parameters).kind ≠ .namedType := by
    intro hkind
    cases hkind
  have hapart : Apart (methodSymbol owner data modifiers location name shown returns.plain kind
      parameters).id := apart_methodId owner.qualified name parameters
  refine (addMember_ensures hd howner hmember hapart span).imp ?_
  intro _ d' hadded
  rcases hadded with ⟨hadded, hmethod⟩
  have hbody := hadded.sound.deferBody ⟨_, hmethod, rfl⟩ owner.file data
  exact ⟨hadded.trans hbody, ⟨_, hbody.kept _ _ hmethod, hmember⟩⟩

theorem declareVariable_ensures (hd : d.Sound) (howner : Known d.symbols owner.type.id)
    (data : Value) (modifiers : List String) (location : Option Location) (span : Option Span)
    {letter : String} (hletter : Apart letter) (place : String) {kind : SymbolKind}
    (hkind : kind ≠ .namedType) :
    Ensures (declareVariable owner data modifiers location span letter place kind) d
      fun id d' => d.Becomes d' ∧ KnownMember d'.symbols id := by
  unfold declareVariable
  simp only [ensures_bind, ensures_lift, ensures_pure]
  intro name _ _ _ _ _
  have hapart := apart_variableSymbol owner data modifiers location hletter name.plain kind
  have hmember : (variableSymbol owner data modifiers location letter name.plain kind).kind ≠
      .namedType := hkind
  refine (addMember_ensures hd howner hmember hapart span).imp ?_
  intro _ d' hadded
  rcases hadded with ⟨hadded, hvariable⟩
  exact ⟨hadded, ⟨_, hvariable, hmember⟩⟩

theorem declareNamedKind_ensures (hd : d.Sound) (howner : Known d.symbols owner.type.id)
    (data : Value) (modifiers : List String) (location : Option Location) (span : Option Span)
    (place kind : String) :
    Ensures (declareNamedKind owner data modifiers location span place kind) d fun id d' =>
      d.Becomes d' ∧ KnownMember d'.symbols id := by
  unfold declareNamedKind
  split
  next => exact declareMethod_ensures hd howner data modifiers location span _ _ _ place _
  next => exact declareMethod_ensures hd howner data modifiers location span _ _ _ place _
  next => exact declareMethod_ensures hd howner data modifiers location span _ _ _ place _
  next =>
    simp only [ensures_bind, ensures_lift]
    intro name _ _ _
    exact declareMethod_ensures hd howner data modifiers location span _ _ _ place _
  next => exact declareProperty_ensures hd howner data modifiers location span
  next =>
    have hletter : Apart "F" := ⟨'F', [], rfl, by decide⟩
    exact declareVariable_ensures hd howner data modifiers location span hletter place (by decide)
  next =>
    have hletter : Apart "E" := ⟨'E', [], rfl, by decide⟩
    exact declareVariable_ensures hd howner data modifiers location span hletter place (by decide)
  next => exact ensures_lift_refuse

theorem declareMember_ensures (hd : d.Sound) (howner : Known d.symbols owner.type.id)
    (data : Value) :
    Ensures (declareMember owner data) d fun _ d' => d.Becomes d' := by
  unfold declareMember
  simp only [ensures_bind, ensures_refuseIf, ensures_lift, ensures_modify]
  intro _ _ _ modifiers _ location _ span _ _ _
  refine (declareNamedKind_ensures hd howner data modifiers location span _ _).imp ?_
  intro id d' hdeclared
  rcases hdeclared with ⟨hdeclared, hid⟩
  exact hdeclared.trans (hdeclared.sound.deferMember hid data)

theorem nest_ensures (hd : d.Sound) (qualified : String) {id : String}
    (hid : Known d.symbols id) :
    Ensures (nest qualified id) d fun _ d' => d.Becomes d' := by
  unfold nest
  rw [ensures_modify]
  split
  next =>
    split
    next outer houter => exact hd.putContaining hid (hd.named.get? houter).known
    next => exact hd.becomes
  next => exact hd.becomes

theorem addConstructor_ensures (hd : d.Sound) {type : Symbol} (htype : Known d.symbols type.id)
    (qualified : String) (isNeeded : Bool) :
    Ensures (addConstructor type qualified isNeeded) d fun _ d' => d.Becomes d' := by
  unfold addConstructor
  simp only [ensures_bind, ensures_get]
  split
  next =>
    have hapart : Apart (implicitConstructor type qualified).id :=
      apart_methodId qualified Signature.constructorName []
    have hmember : (implicitConstructor type qualified).kind ≠ .namedType := by
      intro hkind
      cases hkind
    refine (addMember_ensures hd htype hmember hapart none).imp ?_
    intro _ d' hadded
    exact hadded.1
  next =>
    rw [ensures_pure]
    exact hd.becomes

theorem declareContents_ensures (hd : d.Sound)
    (howner : KnownAs d.symbols .namedType owner.type.id) (data : Value)
    (location : Option Location) (needsConstructor : Bool) :
    Ensures (declareContents owner data location needsConstructor) d fun _ d' =>
      d.Becomes d' := by
  unfold declareContents
  simp only [ensures_bind, ensures_lift, ensures_modify]
  intro span _
  have hspan := hd.putSpan howner.known span
  refine (nest_ensures hspan.sound owner.qualified (howner.known.mono hspan.kept)).imp ?_
  intro _ d₁ hnest members _
  have hnested := hspan.trans hnest
  refine (forEach_ensures hnested.sound ?_).imp ?_
  · intro member _ d₂ hbefore
    exact declareMember_ensures hbefore.sound
      (howner.known.mono (hnested.trans hbefore).kept) member
  · intro _ d₂ hmembers
    have hdeclared := hnested.trans hmembers
    refine (addConstructor_ensures hmembers.sound (howner.known.mono hdeclared.kept) _ _).imp ?_
    intro _ d₃ hadded
    have hall := hdeclared.trans hadded
    exact hall.trans (hadded.sound.deferLink (howner.mono hall.kept) data)

theorem declareType_ensures (hd : d.Sound) (root : String) (entry : Value) :
    Ensures (declareType root entry) d fun _ d' => d.Becomes d' := by
  rintro ⟨⟩ d' hrun
  obtain ⟨kind, location, modifiers, -, hnew, hbody⟩ := declareType_eq_ok.mp hrun
  obtain ⟨hput, hknown⟩ := hd.putType (s := declaredType (typeName entry) kind location modifiers
    entry) (Table.contains_of_get? hnew) rfl rfl (isMetadata entry)
  exact hput.trans (declareContents_ensures hput.sound hknown entry location _ () d' hbody)

end Declaration
end SymbolAtlas
