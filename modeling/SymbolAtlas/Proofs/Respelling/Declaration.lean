import SymbolAtlas.Proofs.Respelling.Following
import Mathlib.Tactic

/-!
# Respelled declarations

Declaring a respelled type goes the way of the original one: its symbol is the same, its methods
have the same ids and parameters that resemble the original ones, and what is put off agrees as
well.  The spelling of a parameter type shows in displays alone.
-/

namespace SymbolAtlas
namespace Declaration

open Building Draft

variable {owner : Owner} {data other : Value}

/-! ## Members without parameters -/

theorem accessorData?_eq (h : Entry.Similar data other) {keyword : String}
    (hmembers : keyword ≠ "members") (hparameters : keyword ≠ "parameters") :
    accessorData? other keyword = accessorData? data keyword := by
  unfold accessorData?
  simp only []
  rw [h.get?_eq "get" (by decide) (by decide), h.get?_eq "set" (by decide) (by decide),
    h.fieldOr_eq hmembers hparameters]

theorem declareAccessor_follows (h : Entry.Similar data other) (owner : Owner)
    (property : Symbol) (propertyType : String) {keyword : String}
    (hmembers : keyword ≠ "members") (hparameters : keyword ≠ "parameters") (kind : MethodKind) :
    Follows Eq (declareAccessor owner data property propertyType keyword kind)
      (declareAccessor owner other property propertyType keyword kind) := by
  unfold declareAccessor
  rw [accessorData?_eq h hmembers hparameters]
  cases accessorData? data keyword with
  | none => exact follows_pure rfl
  | some accessorData =>
      simp only []
      apply (follows_lift_same _).bind_same
      intro located
      apply (follows_lift_same _).bind_same
      intro span
      apply (addMember_follows _ (.refl _) _ _).bind_same
      intro _
      refine FollowsOn.bind_same (follows_modify ?_) ?_
      · intro d d' hd
        exact (hd.putContaining _ _).deferBody _ _ (.refl _)
      · intro _
        exact follows_pure rfl

theorem declareProperty_follows (h : Entry.Similar data other) (owner : Owner)
    (modifiers : List String) (location : Option Location) (span : Option Span) :
    Follows Eq (declareProperty owner data modifiers location span)
      (declareProperty owner other modifiers location span) := by
  unfold declareProperty
  have hsame : Value.SameAt ["name", "type", "access"] data other := h.sameAt (by decide)
  rw [Entry.required_eq hsame (by decide), typeOfVariable_eq (hsame.mono (by decide))]
  apply (follows_lift_same _).bind_same
  intro name
  refine FollowsOn.after (FollowsOn.after ?_ _) _
  simp only [variableSymbol_eq (hsame.mono (by decide))]
  apply (addMember_follows _ (.refl _) _ _).bind_same
  intro _
  apply (declareAccessor_follows h owner _ _ (by decide) (by decide) _).bind_same
  intro getter
  apply (declareAccessor_follows h owner _ _ (by decide) (by decide) _).bind_same
  intro setter
  refine FollowsOn.bind_same (follows_modify ?_) ?_
  · intro d d' hd
    exact hd.putAccessors _ _ _
  · intro _
    exact follows_pure rfl

theorem declareVariable_follows (h : Entry.Similar data other) (owner : Owner)
    (modifiers : List String) (location : Option Location) (span : Option Span)
    (letter place : String) (kind : SymbolKind) :
    Follows Eq (declareVariable owner data modifiers location span letter place kind)
      (declareVariable owner other modifiers location span letter place kind) := by
  unfold declareVariable
  have hsame : Value.SameAt ["name", "type", "access"] data other := h.sameAt (by decide)
  rw [Entry.required_eq hsame (by decide), typeOfVariable_eq (hsame.mono (by decide))]
  apply (follows_lift_same _).bind_same
  intro name
  refine FollowsOn.after (FollowsOn.after ?_ _) _
  simp only [variableSymbol_eq (hsame.mono (by decide))]
  apply (addMember_follows _ (.refl _) _ _).bind_same
  intro _
  exact follows_pure rfl

/-! ## Methods -/

theorem methodId_eq {ps qs : List Parameter} (h : List.Forall₂ Parameter.Resembles ps qs)
    (type name : String) : Entry.methodId type name qs = Entry.methodId type name ps := by
  unfold Entry.methodId
  rw [map_eq_of_rel h fun _ _ hparameter => hparameter.canonical]

theorem methodSymbol_resembles (owner : Owner) (data other : Value) (modifiers : List String)
    (location : Option Location) (name shown returns : String) (kind : MethodKind)
    {ps qs : List Parameter} (hparameters : List.Forall₂ Parameter.Resembles ps qs) :
    (methodSymbol owner data modifiers location name shown returns kind ps).Resembles
      (methodSymbol owner other modifiers location name shown returns kind qs) where
  id := methodId_eq hparameters owner.qualified name
  name := rfl
  kind := rfl
  typeKind := rfl
  methodKind := rfl
  isOverride := rfl
  parameters := hparameters

theorem declareMethod_follows (h : Index.RespelledMember data other) (owner : Owner)
    (modifiers : List String) (location : Option Location) (span : Option Span)
    (name shown : String) (returns : Value) (place : String) (kind : MethodKind) :
    Follows Eq (declareMethod owner data modifiers location span name shown returns place kind)
      (declareMethod owner other modifiers location span name shown returns place kind) := by
  have hsimilar := Entry.similar_of_respelledMember h
  unfold declareMethod
  apply (follows_lift (Entry.parameters_follows h place)).bind
  intro ps qs hparameters
  have hmethod := methodSymbol_resembles owner data other modifiers location name shown
    returns.plain kind hparameters
  refine FollowsOn.after ?_ _
  apply (addMember_follows _ hmethod _ _).bind_same
  intro _
  rw [hmethod.id]
  refine FollowsOn.bind_same (follows_modify ?_) ?_
  · intro d d' hd
    exact hd.deferBody _ _ hsimilar
  · intro _
    exact follows_pure rfl

theorem declareNamedKind_follows (h : Index.RespelledMember data other) (owner : Owner)
    (modifiers : List String) (location : Option Location) (span : Option Span)
    (place kind : String) :
    Follows Eq (declareNamedKind owner data modifiers location span place kind)
      (declareNamedKind owner other modifiers location span place kind) := by
  have hsimilar := Entry.similar_of_respelledMember h
  unfold declareNamedKind
  split
  next => exact declareMethod_follows h owner _ _ _ _ _ _ _ _
  next => exact declareMethod_follows h owner _ _ _ _ _ _ _ _
  next => exact declareMethod_follows h owner _ _ _ _ _ _ _ _
  next =>
    have hsame : Value.SameAt ["name", "returns"] data other := hsimilar.sameAt (by decide)
    rw [Entry.required_eq hsame (by decide), hsame.fieldOr_eq (by decide)]
    apply (follows_lift_same _).bind_same
    intro name
    refine FollowsOn.after ?_ _
    exact declareMethod_follows h owner _ _ _ _ _ _ _ _
  next => exact declareProperty_follows hsimilar owner _ _ _
  next => exact declareVariable_follows hsimilar owner _ _ _ _ _ _
  next => exact declareVariable_follows hsimilar owner _ _ _ _ _ _
  next => exact follows_lift (Attempt.follows_refuse _ _)

theorem declareMember_follows (h : Index.RespelledMember data other) (owner : Owner) :
    Follows Eq (declareMember owner data) (declareMember owner other) := by
  have hsimilar := Entry.similar_of_respelledMember h
  unfold declareMember memberModifiers
  simp only []
  rw [hsimilar.isMapping, hsimilar.fieldOr_eq (by decide) (by decide),
    Entry.modifiers_eq (hsimilar.sameAt (by decide)), locate_eq (hsimilar.sameAt (by decide)),
    Entry.access_eq (hsimilar.sameAt (by decide))]
  apply (follows_refuseIf _ _ _).bind_same
  intro _
  refine FollowsOn.after ?_ _
  apply (follows_lift_same _).bind_same
  intro modifiers
  apply (follows_lift_same _).bind_same
  intro location
  rw [Entry.span_eq (hsimilar.sameAt (by decide))]
  apply (follows_lift_same _).bind_same
  intro span
  refine FollowsOn.after ?_ _
  apply (declareNamedKind_follows h owner _ _ _ _ _).bind_same
  intro id
  apply follows_modify
  intro d d' hd
  exact hd.deferMember id hsimilar

/-! ## Types -/

theorem nest_follows (qualified id : String) :
    Follows Eq (nest qualified id) (nest qualified id) := by
  apply follows_modify
  intro d d' hd
  rw [hd.typeNames]
  split
  next =>
    split
    next outer _ => exact hd.putContaining id outer
    next => exact hd
  next => exact hd

theorem any_methodKind_eq {members others : List Symbol}
    (h : List.Forall₂ Symbol.Resembles members others) (kind : MethodKind) :
    (others.any fun m => m.methodKind == some kind) =
      members.any fun m => m.methodKind == some kind := by
  induction h with
  | nil => rfl
  | cons hfirst _ ih => rw [List.any_cons, List.any_cons, ih, hfirst.methodKind]

theorem addConstructor_follows (type : Symbol) (qualified : String) (isNeeded : Bool) :
    Follows Eq (addConstructor type qualified isNeeded) (addConstructor type qualified isNeeded) := by
  unfold addConstructor
  apply follows_get.bind
  intro d d' hd
  simp only []
  rw [any_methodKind_eq (hd.membersOf type.id)]
  split
  next => exact addMember_follows _ (.refl _) _ _
  next => exact follows_pure rfl

theorem declareContents_follows (h : Index.RespelledType data other) (owner : Owner)
    (location : Option Location) (needsConstructor : Bool) :
    Follows Eq (declareContents owner data location needsConstructor)
      (declareContents owner other location needsConstructor) := by
  have hsimilar := Entry.similar_of_respelledType h
  unfold declareContents
  rw [Entry.span_eq (hsimilar.sameAt (by decide))]
  apply (follows_lift_same _).bind_same
  intro span
  refine FollowsOn.bind_same (follows_modify fun d d' hd => hd.putSpan _ _ _) ?_
  intro _
  apply (nest_follows _ _).bind_same
  intro _
  apply (follows_lift (h.agreeEach_field.items_agree fun member => .same member).follows).bind
  intro members others hmembers
  refine FollowsOn.bind_same (forEach_follows ?_ hmembers) ?_
  · intro member member' hmember
    exact declareMember_follows hmember owner
  · intro _
    apply (addConstructor_follows _ _ _).bind_same
    intro _
    apply follows_modify
    intro d d' hd
    exact hd.deferLink _ hsimilar

theorem declareNewType_follows (h : Index.RespelledType data other) (root qualified : String)
    (kind : TypeKind) :
    Follows Eq (declareNewType root data qualified kind)
      (declareNewType root other qualified kind) := by
  have hsimilar := Entry.similar_of_respelledType h
  unfold declareNewType
  rw [hsimilar.field_eq (by decide) (by decide),
    hsimilar.field_eq (by decide) (by decide), Entry.modifiers_eq (hsimilar.sameAt (by decide)),
    Entry.access_eq (hsimilar.sameAt (by decide))]
  simp only [locate_eq (hsimilar.sameAt (by decide)), declaredType_eq (hsimilar.sameAt (by decide))]
  refine FollowsOn.after ?_ _
  apply (follows_lift_same _).bind_same
  intro location
  apply (follows_lift_same _).bind_same
  intro modifiers
  refine FollowsOn.after ?_ _
  refine FollowsOn.bind_same (follows_modify fun d d' hd => hd.putType _ _ _) ?_
  intro _
  exact declareContents_follows h _ _ _

theorem declareType_follows (root : String) (h : Index.RespelledType data other) :
    Follows Eq (declareType root data) (declareType root other) := by
  have hsimilar := Entry.similar_of_respelledType h
  unfold declareType
  have hsame : Value.SameAt ["name", "kind"] data other := hsimilar.sameAt (by decide)
  rw [hsimilar.isMapping, Entry.required_eq hsame (by decide), hsame.fieldOr_eq (by decide)]
  apply (follows_refuseIf _ _ _).bind_same
  intro _
  apply (follows_lift_same _).bind_same
  intro name
  refine FollowsOn.after ?_ _
  apply follows_get.bind
  intro d d' hd
  rw [hd.typeNames]
  apply (follows_refuseIf _ _ _).bind_same
  intro _
  refine FollowsOn.after ?_ _
  split
  next => exact follows_lift (Attempt.follows_refuse _ _)
  next kind _ => exact declareNewType_follows h root name.plain kind

end Declaration
end SymbolAtlas
