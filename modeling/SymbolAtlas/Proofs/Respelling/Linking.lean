import SymbolAtlas.Proofs.Index.Link
import SymbolAtlas.Proofs.Respelling.Following
import Mathlib.Tactic

/-!
# Links of respelled documents

A name stands for the same member in drafts that resemble each other, since parameter lists are
compared in their canonical form, and what a member overrides is found by that form too.  The links
between types and members are therefore the same, whatever the spelling.
-/

namespace SymbolAtlas

namespace MemberName

open Building Draft

variable {type type' : Symbol}

theorem metadataMethod_resembles (type type' : Symbol) (qualified name : String)
    (list : Option String) (arguments : Option Nat) :
    (metadataMethod type qualified name list arguments).Resembles
      (metadataMethod type' qualified name list arguments) :=
  ⟨rfl, rfl, rfl, rfl, rfl, rfl, List.forall₂_same.mpr fun _ _ => ⟨rfl, rfl⟩⟩

theorem metadataVariable_resembles (type type' : Symbol) (qualified name : String)
    (kind : SymbolKind) :
    (metadataVariable type qualified name kind).Resembles
      (metadataVariable type' qualified name kind) :=
  ⟨rfl, rfl, rfl, rfl, rfl, rfl, .nil⟩

theorem metadataAccessor_resembles (type type' : Symbol) (qualified name keyword : String)
    (kind : MethodKind) :
    (metadataAccessor type qualified name keyword kind).Resembles
      (metadataAccessor type' qualified name keyword kind) :=
  ⟨rfl, rfl, rfl, rfl, rfl, rfl, List.forall₂_same.mpr fun _ _ => ⟨rfl, rfl⟩⟩

theorem ensureType_follows (qualified : String) (kind : TypeKind) :
    Follows Eq (Declaration.ensureType qualified kind) (Declaration.ensureType qualified kind) := by
  unfold Declaration.ensureType
  apply follows_get.bind
  intro d d' hd
  rw [hd.typeNames]
  split
  next => exact follows_pure rfl
  next =>
    apply (follows_set (hd.putType _ _ _)).bind_same
    intro _
    exact follows_pure rfl

theorem addMetadataAccessor_follows (htype : type.Resembles type') {property property' : Symbol}
    (hproperty : property.Resembles property') {accessor accessor' : Symbol}
    (haccessor : accessor.Resembles accessor') :
    Follows Eq (addMetadataAccessor type property accessor)
      (addMetadataAccessor type' property' accessor') := by
  unfold addMetadataAccessor
  rw [htype.id, hproperty.id, haccessor.id]
  apply (addMember_follows _ haccessor _ _).bind_same
  intro _
  apply follows_modify
  intro d d' hd
  exact hd.putContaining _ _

theorem addMetadataAccessors_follows (htype : type.Resembles type') {property property' : Symbol}
    (hproperty : property.Resembles property') (qualified : String) :
    Follows Eq (addMetadataAccessors type property qualified)
      (addMetadataAccessors type' property' qualified) := by
  have haccessor := metadataAccessor_resembles type type' qualified property.name
  unfold addMetadataAccessors
  rw [hproperty.name, hproperty.id]
  apply (addMetadataAccessor_follows htype hproperty (haccessor _ _)).bind_same
  intro _
  apply (addMetadataAccessor_follows htype hproperty (haccessor _ _)).bind_same
  intro _
  apply follows_modify
  intro d d' hd
  exact hd.putAccessors _ _ _

theorem declareMetadata_follows (htype : type.Resembles type') (qualified name : String)
    (list : Option String) (kind : SymbolKind) (arguments : Option Nat) :
    Follows Symbol.Resembles (declareMetadata type qualified name list kind arguments)
      (declareMetadata type' qualified name list kind arguments) := by
  have hvariable := metadataVariable_resembles type type' qualified name
  unfold declareMetadata
  rw [htype.id]
  split
  next =>
    have hmethod := metadataMethod_resembles type type' qualified name list arguments
    apply (addMember_follows _ hmethod _ _).bind_same
    intro _
    exact follows_pure hmethod
  next =>
    apply (addMember_follows _ (hvariable kind) _ _).bind_same
    intro _
    split
    next =>
      apply (addMetadataAccessors_follows htype (hvariable kind) qualified).bind_same
      intro _
      exact follows_pure (hvariable kind)
    next => exact follows_pure (hvariable kind)

/-! ## Names of members -/

theorem filter_resembles {members others : List Symbol}
    (h : List.Forall₂ Symbol.Resembles members others) {p q : Symbol → Bool}
    (hpq : ∀ m m', m.Resembles m' → q m' = p m) :
    List.Forall₂ Symbol.Resembles (members.filter p) (others.filter q) := by
  refine List.rel_filter ?_ h
  intro m m' hm
  exact Bool.eq_iff_iff.mp (hpq m m' hm).symm

theorem candidates_resemble {members others : List Symbol}
    (h : List.Forall₂ Symbol.Resembles members others) (name : String) (kind : Option SymbolKind)
    (list : Option String) (arguments : Option Nat) :
    List.Forall₂ Symbol.Resembles (candidates members name kind list arguments)
      (candidates others name kind list arguments) := by
  have hnamed : List.Forall₂ Symbol.Resembles
      (members.filter fun m => m.name == name && (kind.isNone || kind == some m.kind))
      (others.filter fun m => m.name == name && (kind.isNone || kind == some m.kind)) := by
    apply filter_resembles h
    intro m m' hm
    rw [hm.name, hm.kind]
  unfold candidates
  simp only []
  split
  next list _ =>
    apply filter_resembles hnamed
    intro m m' hm
    exact Signature.typesMatch_congr rfl hm.canonicals
  next n =>
    rw [← hnamed.length_eq]
    split
    next =>
      apply filter_resembles hnamed
      intro m m' hm
      rw [hm.parameters.length_eq]
    next => exact hnamed
  next => exact hnamed

/-- What a name stands for does not depend on the spelling of the types of parameters, nor on what
messages call the place of the name. -/
theorem resolve_follows (reference place place' : String) (kind : Option SymbolKind)
    (arguments : Option Nat) :
    Follows Symbol.Resembles (resolve reference place kind arguments)
      (resolve reference place' kind arguments) := by
  unfold resolve
  simp only []
  split
  next => exact follows_lift (Attempt.follows_refuse _ _)
  next typeName name _ =>
    apply (ensureType_follows typeName .classType).bind_same
    intro type
    apply follows_get.bind
    intro d d' hd
    have hcandidates := candidates_resemble (hd.membersOf type) name kind
      (Signature.split reference).2 arguments
    generalize candidates (d.membersOf type) name kind _ arguments = found at hcandidates
    generalize candidates (d'.membersOf type) name kind _ arguments = found' at hcandidates
    rw [hd.metadataTypes]
    cases hcandidates with
    | nil =>
        simp only []
        split
        next =>
          rcases hd.symbols.get?_cases type with ⟨hnone, -⟩ | ⟨symbol, symbol', hsymbol, hother, hsame⟩
          · rw [hnone]
            exact follows_throw _ _
          · rw [hsymbol, hother]
            exact declareMetadata_follows hsame _ _ _ _ _
        next => exact follows_lift (Attempt.follows_refuse _ _)
    | cons hfirst hrest =>
        cases hrest with
        | nil => exact follows_pure hfirst
        | cons => exact follows_lift (Attempt.follows_refuse _ _)

end MemberName

namespace Link

open Building Draft

variable {data other : Value}

/-! ## Types -/

theorem linkBase_follows (h : Entry.Similar data other) (type : String) :
    Follows Eq (linkBase type data) (linkBase type other) := by
  unfold linkBase
  rw [h.field_eq (by decide) (by decide)]
  simp only []
  split
  next =>
    refine FollowsOn.after ?_ _
    apply (MemberName.ensureType_follows _ _).bind_same
    intro id
    apply follows_modify
    intro d d' hd
    exact hd.putBase type id
  next => exact follows_pure rfl

theorem linkInterfaces_follows (h : Entry.Similar data other) (type : String) :
    Follows Eq (linkInterfaces type data) (linkInterfaces type other) := by
  unfold linkInterfaces
  rw [h.field_eq (by decide) (by decide)]
  apply (follows_lift_same _).bind_same
  intro items
  refine FollowsOn.bind_same
    (forAll_follows_eq (fun _ => (MemberName.ensureType_follows _ _).after _) items) ?_
  intro interfaces
  apply follows_modify
  intro d d' hd
  split
  next => exact hd
  next => exact hd.putInterfaces type _

theorem linkSource_follows (h : Entry.Similar data other) (type : String) :
    Follows Eq (linkSource type data) (linkSource type other) := by
  unfold linkSource
  rw [h.field_eq (by decide) (by decide)]
  simp only []
  split
  next =>
    refine FollowsOn.after ?_ _
    apply follows_get.bind
    intro d d' hd
    rw [hd.typeNames]
    split
    next => exact follows_set (hd.putSourceDefinition _ _)
    next => exact follows_lift (Attempt.follows_refuse _ _)
  next => exact follows_pure rfl

theorem linkType_follows (h : Entry.Similar data other) (type : String) :
    Follows Eq (linkType type data) (linkType type other) := by
  unfold linkType
  apply (linkBase_follows h type).bind_same
  intro _
  apply (linkInterfaces_follows h type).bind_same
  intro _
  exact linkSource_follows h type

/-! ## Overridden members -/

section Overridden

variable {t t' : Tables} {member member' : Symbol}

theorem overridable?_eq (ht : t.Resembles t') (hmember : member.Resembles member')
    (type : String) : overridable? t' member' type = overridable? t member type := by
  unfold overridable?
  refine map_find?_eq_of_rel (ht.membersOf type) ?_ fun _ _ hcandidate => hcandidate.id
  intro candidate candidate' hcandidate
  rw [hcandidate.name, hcandidate.kind, hmember.name, hmember.kind,
    Signature.typesMatch_congr hmember.canonicals hcandidate.canonicals]

theorem inheritedFrom_eq (ht : t.Resembles t') (hmember : member.Resembles member')
    (bases : List (String × String)) (type : String) :
    inheritedFrom t' member' bases type = inheritedFrom t member bases type := by
  induction bases, type using inheritedFrom.induct t member with
  | case1 bases type hnone => rw [inheritedFrom_of_none hnone, inheritedFrom_of_none hnone]
  | case2 bases type base hbase found hfound =>
      rw [inheritedFrom_of_some hbase, inheritedFrom_of_some hbase, overridable?_eq ht hmember,
        hfound]
  | case3 bases type base hbase hnone ih =>
      rw [inheritedFrom_of_some hbase, inheritedFrom_of_some hbase, overridable?_eq ht hmember,
        hnone]
      exact ih

/-- What a member overrides is looked up by canonical types. -/
theorem inherited?_eq (ht : t.Resembles t') (hmember : member.Resembles member') :
    inherited? t' member' = inherited? t member := by
  unfold inherited?
  rw [hmember.id, ht.containing, ht.baseTypes]
  simp only [inheritedFrom_eq ht hmember]

end Overridden

variable {d d' : Draft} {member member' : Symbol}

theorem linkAccessor_resembles (hd : d.Resembles d') (own base : Option String) :
    (linkAccessor d own base).Resembles (linkAccessor d' own base) := by
  unfold linkAccessor
  split
  next => exact hd.putOverridden _ _
  next => exact hd

theorem linkProperty_resembles (hd : d.Resembles d') (property : String) :
    (linkProperty d property).Resembles (linkProperty d' property) := by
  unfold linkProperty
  rw [hd.overridden]
  split
  next target _ =>
    unfold linkAccessors
    rw [hd.accessors]
    exact linkAccessor_resembles (linkAccessor_resembles hd _ _) _ _
  next => exact hd

theorem linkOverridden_follows (h : Entry.Similar data other) (hmember : member.Resembles member') :
    Follows Eq (linkOverridden member data) (linkOverridden member' other) := by
  unfold linkOverridden
  rw [h.field_eq (by decide) (by decide), hmember.kind, hmember.id, hmember.isOverride]
  simp only []
  split
  next =>
    refine FollowsOn.after ?_ _
    apply (MemberName.resolve_follows _ _ _ _ _).bind
    intro target target' htarget
    rw [htarget.id]
    exact follows_modify fun d d' hd => hd.putOverridden _ _
  next =>
    split
    next =>
      apply follows_modify
      intro d d' hd
      rw [inherited?_eq hd.toResembles hmember]
      split
      next => exact hd.putOverridden _ _
      next => exact hd
    next => exact follows_pure rfl

theorem linkOverride_follows (h : Entry.Similar data other) (hmember : member.Resembles member') :
    Follows Eq (linkOverride member data) (linkOverride member' other) := by
  unfold linkOverride
  apply (linkOverridden_follows h hmember).bind_same
  intro _
  rw [hmember.kind, hmember.id]
  split
  next => exact follows_modify fun d d' hd => linkProperty_resembles hd _
  next => exact follows_pure rfl

theorem implemented_follows (hmember : member.Resembles member') (name : Value) :
    Follows Symbol.Resembles (implemented member name) (implemented member' name) := by
  unfold implemented
  rw [hmember.kind]
  refine FollowsOn.after ?_ _
  exact MemberName.resolve_follows _ _ _ _ _

theorem linkImplementations_follows (h : Entry.Similar data other)
    (hmember : member.Resembles member') :
    Follows Eq (linkImplementations member data) (linkImplementations member' other) := by
  unfold linkImplementations
  rw [h.field_eq (by decide) (by decide), hmember.id]
  simp only []
  split
  next =>
    refine (forAll_follows_same (implemented_follows hmember) _).bind ?_
    intro targets targets' htargets
    rw [map_eq_of_rel htargets fun _ _ htarget => htarget.id]
    exact follows_modify fun d d' hd => hd.putImplementations _ _
  next => exact follows_pure rfl

theorem linkMember_follows (h : Entry.Similar data other) (id : String) :
    Follows Eq (linkMember id data) (linkMember id other) := by
  unfold linkMember
  apply follows_get.bind
  intro d d' hd
  rcases hd.symbols.get?_cases id with ⟨hnone, -⟩ | ⟨member, member', hfound, hother, hmember⟩
  · rw [hnone]
    exact follows_throw _ _
  · rw [hfound, hother]
    apply (linkOverride_follows h hmember).bind_same
    intro _
    exact linkImplementations_follows h hmember

end Link
end SymbolAtlas
