import SymbolAtlas.Proofs.Index.Following
import SymbolAtlas.Proofs.Index.Link
import SymbolAtlas.Proofs.Index.Pass
import SymbolAtlas.Proofs.Reordering.Alike
import Mathlib.Tactic

/-!
# Steps that see no order

A step respects a relation between drafts if on related drafts it ends alike, with the same result.
Looking up names, linking and reading bodies respect drafts that are alike: what these steps do
depends on what they find in a draft and not on how it got there.
-/

namespace SymbolAtlas
namespace Building

open Draft

variable {α β : Type} {D : Draft → Draft → Prop} {K : Set Slot}

/-- Wherever a step ends without a fault, it does so on related drafts, with the same result. -/
abbrev Respects (D : Draft → Draft → Prop) (step : Building α) : Prop :=
  FollowsOn D Eq step step

theorem chains_respects (D : Draft → Draft → Prop) : Chains (Respects D) where
  pure _ := follows_pure rfl
  lift x := follows_lift_same x
  bind hstep hnext := hstep.bind_same hnext

theorem respects_modify {f : Draft → Draft} (h : ∀ d d', D d d' → D (f d) (f d')) :
    Respects D (modify f : Building PUnit) :=
  follows_modify h

theorem addMember_respects (type : String) (s : Symbol) :
    Respects (Alike K) (addMember type s none) := by
  unfold addMember
  refine follows_get.bind ?_
  intro d d' hd
  rw [hd.contains]
  exact (follows_refuseIf _ _ _).bind_same fun _ => follows_set (hd.putMember type s)

end Building

open Building Draft

variable {K : Set Slot} {d d' : Draft}

theorem Declaration.ensureType_respects (qualified : String) (kind : TypeKind) :
    Respects (Alike K) (ensureType qualified kind) := by
  unfold ensureType
  refine follows_get.bind ?_
  intro d d' hd
  rw [hd.typeNames]
  split
  next => exact follows_pure rfl
  next => exact (follows_set (hd.putType qualified _ true)).bind_same fun _ => follows_pure rfl

theorem Draft.Alike.sameNames (h : Alike K d d') : d.SameNames d' :=
  ⟨h.typeNames, h.symbols, h.membersOf, h.contains_metadataTypes⟩

theorem Building.resolves_respects (K : Set Slot) : Resolves (Respects (Alike K)) where
  chains := chains_respects (Alike K)
  look {_ next} hsame hnext := by
    refine follows_get.bind ?_
    intro d d' hd
    rw [hsame d d' hd.sameNames]
    exact hnext d
  ensureType := Declaration.ensureType_respects
  addMember := addMember_respects
  putContaining id container := respects_modify fun _ _ hd => hd.putContaining id container
  putAccessors property getter setter :=
    respects_modify fun _ _ hd => hd.putAccessors property getter setter

/-! ## Links -/

namespace Link

theorem linkSource_respects (type : String) (data : Value) :
    Respects (Alike K) (linkSource type data) := by
  unfold linkSource
  simp only []
  split
  next =>
    refine (chains_respects (Alike K)).after _ (follows_get.bind ?_)
    intro d d' hd
    rw [hd.typeNames]
    split
    next => exact follows_set (hd.putSourceDefinition type _)
    next => exact follows_throw _ _
  next => exact follows_pure rfl

theorem linkType_respects (type : String) (data : Value) :
    Respects (Alike K) (linkType type data) :=
  (resolves_respects K).linkType (fun base => respects_modify fun _ _ hd => hd.putBase type base)
    (fun interfaces => respects_modify fun _ _ hd => hd.putInterfaces type interfaces)
    (linkSource_respects type) data

/-! ## Overridden members -/

theorem overridable?_congr (hd : Alike K d d') (member : Symbol) (type : String) :
    overridable? d'.toTables member type = overridable? d.toTables member type := by
  unfold overridable?
  rw [hd.membersOf]

/-- What is found along the bases depends on the base of each type alone. -/
theorem inheritedFrom_congr (hd : Alike K d d') (member : Symbol)
    {bases bases' : List (String × String)} (type : String)
    (hbases : ∀ key, Table.find? key bases' = Table.find? key bases) :
    inheritedFrom d'.toTables member bases' type = inheritedFrom d.toTables member bases type := by
  induction bases, type using inheritedFrom.induct d.toTables member generalizing bases' with
  | case1 bases type hnone =>
      rw [inheritedFrom_of_none hnone, inheritedFrom_of_none ((hbases type).trans hnone)]
  | case2 bases type base hbase found hfound =>
      rw [inheritedFrom_of_some hbase, inheritedFrom_of_some ((hbases type).trans hbase),
        overridable?_congr hd, hfound]
  | case3 bases type base hbase hnone ih =>
      rw [inheritedFrom_of_some hbase, inheritedFrom_of_some ((hbases type).trans hbase),
        overridable?_congr hd, hnone]
      refine ih ?_
      intro key
      rw [Table.find?_without, Table.find?_without, hbases]

/-- Links of a member neither look at other members' links nor can do without those of types. -/
theorem inherited?_congr (hd : Alike K d d') (hK : ∀ type, .type type ∉ K) {member : Symbol}
    (hmember : Apart member.id) : inherited? d'.toTables member = inherited? d.toTables member := by
  unfold inherited?
  rw [hd.containing member.id (Or.inl hmember)]
  split
  next type _ => exact inheritedFrom_congr hd member type fun key => hd.baseTypes key (hK key)
  next => rfl

theorem linkInherited_alike (hd : Alike K d d') (hK : ∀ type, .type type ∉ K) {member : Symbol}
    (hmember : Apart member.id) :
    Alike K (linkInherited member d) (linkInherited member d') := by
  unfold linkInherited
  rw [inherited?_congr hd hK hmember]
  split
  next => exact hd.putOverridden _ _
  next => exact hd

theorem linkAccessor_alike (hd : Alike K d d') (own base : Option String) :
    Alike K (linkAccessor d own base) (linkAccessor d' own base) := by
  unfold linkAccessor
  split
  next => exact hd.putOverridden _ _
  next => exact hd

theorem linkProperty_alike (hd : Alike K d d') {property : String}
    (hproperty : .member property ∉ K) :
    Alike K (linkProperty d property) (linkProperty d' property) := by
  unfold linkProperty
  rw [hd.overridden property hproperty]
  split
  next target _ =>
    unfold linkAccessors
    rw [hd.accessors, hd.accessors]
    exact linkAccessor_alike (linkAccessor_alike hd _ _) _ _
  next => exact hd

/-- The links of a member respect drafts that are alike if the look at its bases and at its
accessors does. -/
theorem linksMember_respects {member : Symbol}
    (hinherited : Respects (Alike K) (modify (linkInherited member)))
    (hproperty : Respects (Alike K) (modify fun d => linkProperty d member.id)) :
    LinksMember member (Respects (Alike K)) where
  putOverridden target := respects_modify fun _ _ hd => hd.putOverridden member.id target
  linkInherited := hinherited
  linkProperty := hproperty
  putImplementations targets :=
    respects_modify fun _ _ hd => hd.putImplementations member.id targets

theorem linkMember_run {id : String} {member : Symbol} (hmember : d.symbols.get? id = some member)
    (data : Value) :
    linkMember id data d = (do
      linkOverride member data
      linkImplementations member data : Building Unit) d := by
  unfold linkMember
  rw [get_bind_run, hmember]

/-- Links of a member depend on those of types, but on no links of other members. -/
theorem linkMember_respects (hK : ∀ type, .type type ∉ K) {id : String} (hid : .member id ∉ K)
    (hd : d.Sound) (hknown : Tables.KnownMember d.symbols id) (halike : Alike K d d')
    (data : Value) :
    Ensures (linkMember id data) d fun _ e =>
      ∃ e', linkMember id data d' = .ok ((), e') ∧ Alike K e e' := by
  obtain ⟨member, hmember, hkind⟩ := hknown
  obtain rfl : member.id = id := hd.ids.get? hmember
  have hapart := hd.apart member.id member hmember hkind
  have hlinks : LinksMember member (Respects (Alike K)) :=
    linksMember_respects (respects_modify fun _ _ hd => linkInherited_alike hd hK hapart)
      (respects_modify fun _ _ hd => linkProperty_alike hd hid)
  have hfound := (resolves_respects K).linkFound hlinks data d d' halike
  intro _ e hrun
  rw [linkMember_run hmember] at hrun
  obtain ⟨_, e', hrun', rfl, he⟩ := hfound _ e hrun
  rw [linkMember_run ((halike.symbols member.id).trans hmember)]
  exact ⟨e', hrun', he⟩

/-! ## Links of members beside all links -/

theorem alike_linkInherited (member : Symbol) (d : Draft) :
    Alike Set.univ d (linkInherited member d) := by
  unfold linkInherited
  split
  next => exact (alike_putOverridden _ _ _).mono (Set.subset_univ _)
  next => exact .refl _ d

theorem alike_linkAccessor (d : Draft) (own base : Option String) :
    Alike Set.univ d (linkAccessor d own base) := by
  unfold linkAccessor
  split
  next => exact (alike_putOverridden _ _ _).mono (Set.subset_univ _)
  next => exact .refl _ d

theorem alike_linkProperty (d : Draft) (property : String) :
    Alike Set.univ d (linkProperty d property) := by
  unfold linkProperty linkAccessors
  split
  next => exact (alike_linkAccessor d _ _).trans (alike_linkAccessor _ _ _)
  next => exact .refl _ d

theorem respects_univ {f : Draft → Draft} (hf : ∀ d, Alike Set.univ d (f d)) :
    Respects (Alike Set.univ) (modify f : Building PUnit) :=
  respects_modify fun d d' hd => ((hf d).symm.trans hd).trans (hf d')

/-- What linking a member declares does not depend on any links. -/
theorem linkMember_respects_univ (id : String) (data : Value) :
    Respects (Alike Set.univ) (linkMember id data) :=
  (resolves_respects Set.univ).linkMember (fun member =>
    linksMember_respects (respects_univ (alike_linkInherited member))
      (respects_univ fun d => alike_linkProperty d member.id)) id data

end Link

/-! ## Bodies, references and files -/

namespace Index

theorem readBody_respects (root : String) (pending : PendingBody) :
    Respects (Alike K) (readBody root pending) :=
  (resolves_respects K).readBody
    (fun tree => respects_modify fun _ _ hd => hd.putBody pending.method tree) root

theorem readEnd_respects (disk : Disk) (root : String) (data : Value) :
    Respects (Alike K) (readEnd disk root data) := by
  refine (resolves_respects K).readEnd
    (fun id locations => respects_modify fun _ _ hd => hd.putReferences id locations)
    (fun _ _ => respects_modify fun _ _ hd => hd.withSourceLines _ _)
    (respects_modify ?_) root data
  intro d d' halike
  obtain ⟨lines, hlines⟩ := foldl_addSourceFile_eq disk (mentionedFiles d.toTables) d
  obtain ⟨lines', hlines'⟩ := foldl_addSourceFile_eq disk (mentionedFiles d'.toTables) d'
  rw [hlines, hlines']
  exact halike.withSourceLines lines lines'

end Index
end SymbolAtlas
