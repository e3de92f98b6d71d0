import SymbolAtlas.Proofs.Overriding.Frame
import SymbolAtlas.Proofs.Overriding.Linked
import SymbolAtlas.Proofs.Overriding.Waiting
import Mathlib.Tactic

/-!
# The pass over members that wait

Linking a member writes under the member and its accessors alone, and no two members that wait share
a place there.  So the pass links each of them as the hierarchy has it, whatever comes before and
behind it, and all that it does not link stays unlinked.
-/

namespace SymbolAtlas

open Building Draft Tables

namespace Link

variable {d e : Draft} {m : Symbol} {property target : String}

/-! ## One member -/

/-- The draft with the link of a member that has the modifier of overrides. -/
def inferOverride (d : Draft) (m : Symbol) : Draft :=
  if m.isOverride then
    match inherited? d.toTables m with
    | some target => d.putOverridden m.id target
    | none => d
  else d

/-- The draft with the links of a member and of its accessors. -/
def inferLinks (d : Draft) (m : Symbol) : Draft :=
  if m.kind == .property then linkProperty (inferOverride d m) m.id else inferOverride d m

theorem ensures_linkOverride {data : Value} (hdata : Index.InfersOverride data)
    {post : Unit → Draft → Prop} :
    Ensures (linkOverride m data) d post ↔ post () (inferLinks d m) := by
  have hgiven : (data.field "overrides").isPresent = false := hdata
  unfold linkOverride linkOverridden inferLinks inferOverride
  cases hinherited : inherited? d.toTables m <;> by_cases hmodifier : m.isOverride = true <;>
    by_cases hkind : m.kind = .property <;> simp [hgiven, hinherited, hmodifier, hkind]

theorem overridden_linkAccessor (d : Draft) (own base : Option String) (id : String) :
    (linkAccessor d own base).overridden.get? id =
      if own = some id then base.or (d.overridden.get? id) else d.overridden.get? id := by
  cases own <;> cases base <;> simp [linkAccessor, putOverridden, Table.get?_insert]

/-- Getter and setter of a property, none for anything else. -/
def accessorsOf (d : Draft) (property : String) : Option String × Option String :=
  (d.accessors.get? property).getD (none, none)

theorem accessorsOf_iff (hd : d.Ordered) (hproperty : KnownAs d.symbols .property property)
    (a : String) :
    ((accessorsOf d property).1 = some a ↔ d.HasAccessor property .propertyGet a) ∧
      ((accessorsOf d property).2 = some a ↔ d.HasAccessor property .propertySet a) := by
  obtain ⟨getter, setter, hpair, hget, hset⟩ := hd.equipped.sides property hproperty
  simp only [accessorsOf, hpair, Option.getD_some]
  exact ⟨hget a, hset a⟩

theorem linkAccessors_eq (d : Draft) (property target : String) :
    linkAccessors d property target =
      linkAccessor (linkAccessor d (accessorsOf d property).1 (accessorsOf d target).1)
        (accessorsOf d property).2 (accessorsOf d target).2 :=
  rfl

/-- What is no accessor of a property stays linked as it is when the property is linked. -/
theorem overridden_linkProperty_other (hd : d.Ordered)
    (hproperty : KnownAs d.symbols .property property) {id : String}
    (hget : ¬ d.HasAccessor property .propertyGet id)
    (hset : ¬ d.HasAccessor property .propertySet id) :
    (linkProperty d property).overridden.get? id = d.overridden.get? id := by
  obtain ⟨hgetter, hsetter⟩ := accessorsOf_iff hd hproperty id
  unfold linkProperty
  split
  next target _ =>
    rw [linkAccessors_eq, overridden_linkAccessor, overridden_linkAccessor,
      if_neg (mt hsetter.mp hset), if_neg (mt hgetter.mp hget)]
  next => rfl

/-- The accessors of a property are linked with those of the property that it overrides. -/
theorem overridden_linkProperty_accessor (hd : d.Ordered)
    (hproperty : KnownAs d.symbols .property property) {kind : MethodKind}
    (hkind : kind = .propertyGet ∨ kind = .propertySet) {a : String}
    (ha : d.HasAccessor property kind a) (hnone : d.overridden.get? a = none)
    (htarget : ∀ target ∈ d.overridden.get? property, KnownAs d.symbols .property target)
    (b : String) :
    (linkProperty d property).overridden.get? a = some b ↔
      ∃ target, d.overridden.get? property = some target ∧ d.HasAccessor target kind b := by
  obtain ⟨hgetter, hsetter⟩ := accessorsOf_iff hd hproperty a
  unfold linkProperty
  cases hover : d.overridden.get? property with
  | none => simp [hnone]
  | some target =>
      obtain ⟨hgetter', hsetter'⟩ := accessorsOf_iff hd (htarget target hover) b
      simp only [linkAccessors_eq, overridden_linkAccessor, hnone, Option.or_none,
        Option.some.injEq, exists_eq_left']
      obtain rfl | rfl := hkind
      · have hother : ¬ d.HasAccessor property .propertySet a := fun h => by cases ha.kind_eq h
        rw [if_neg (mt hsetter.mp hother), if_pos (hgetter.mpr ha), hgetter']
      · have hother : ¬ d.HasAccessor property .propertyGet a := fun h => by cases ha.kind_eq h
        rw [if_pos (hsetter.mpr ha), if_neg (mt hgetter.mp hother), Option.or_none, hsetter']

/-! ## Only what members override is written -/

theorem relinks_inferOverride (d : Draft) (m : Symbol) : d.Relinks (inferOverride d m) := by
  unfold inferOverride
  split
  next => split <;> exact ⟨_, rfl⟩
  next => exact .refl d

theorem relinks_linkAccessor (d : Draft) (own base : Option String) :
    d.Relinks (linkAccessor d own base) := by
  unfold linkAccessor
  split <;> exact ⟨_, rfl⟩

theorem relinks_inferLinks (d : Draft) (m : Symbol) : d.Relinks (inferLinks d m) := by
  refine (relinks_inferOverride d m).trans ?_
  unfold inferLinks linkProperty
  split
  next =>
    split
    next => exact (relinks_linkAccessor _ _ _).trans (relinks_linkAccessor _ _ _)
    next => exact .refl _
  next => exact .refl _

theorem overridden_inferOverride_self (hnone : d.overridden.get? m.id = none) :
    (inferOverride d m).overridden.get? m.id =
      if m.isOverride then inherited? d.toTables m else none := by
  unfold inferOverride
  cases inherited? d.toTables m <;> cases m.isOverride <;>
    simp [putOverridden, Table.get?_insert, hnone]

theorem overridden_inferOverride_other (d : Draft) {id : String} (hid : m.id ≠ id) :
    (inferOverride d m).overridden.get? id = d.overridden.get? id := by
  unfold inferOverride
  cases inherited? d.toTables m <;> cases m.isOverride <;>
    simp [putOverridden, Table.get?_insert, hid]

section

variable (he : e.Ordered) (hm : e.symbols.get? m.id = some m)
  (hself : e.overridden.get? m.id = none)

include he hm

/-- What has accessors is a property, and no accessor of itself. -/
theorem ne_of_hasAccessor {kind : MethodKind} (hkind : kind = .propertyGet ∨ kind = .propertySet)
    {a : String} (ha : e.HasAccessor m.id kind a) : m.kind = .property ∧ m.id ≠ a := by
  obtain ⟨found, hfound, hproperty⟩ := he.owned.property_of_hasAccessor hkind ha
  obtain rfl : m = found := Option.some.inj (hm.symm.trans hfound)
  refine ⟨hproperty, ?_⟩
  rintro rfl
  obtain ⟨-, s, hs, hmethod, -⟩ := ha
  obtain rfl : m = s := Option.some.inj (hm.symm.trans hs)
  simp [hproperty] at hmethod

include hself

theorem overridden_inferLinks_self : (inferLinks e m).overridden.get? m.id =
    if m.isOverride then inherited? e.toTables m else none := by
  rw [← overridden_inferOverride_self hself]
  have hrelinks := relinks_inferOverride e m
  unfold inferLinks
  split
  next hkind =>
    have hproperty : KnownAs (inferOverride e m).symbols .property m.id :=
      ⟨m, hrelinks.symbols ▸ hm, by simpa using hkind⟩
    apply overridden_linkProperty_other (hrelinks.ordered he) hproperty
    · exact fun ha => (ne_of_hasAccessor he hm (Or.inl rfl) (hrelinks.hasAccessor_iff.mp ha)).2 rfl
    · exact fun ha => (ne_of_hasAccessor he hm (Or.inr rfl) (hrelinks.hasAccessor_iff.mp ha)).2 rfl
  next => rfl

theorem overridden_inferLinks_accessor (hids : e.symbols.Each fun id s => s.id = id)
    (hacyclic : e.IsAcyclic) {kind : MethodKind}
    (hkind : kind = .propertyGet ∨ kind = .propertySet) {a : String}
    (ha : e.HasAccessor m.id kind a) (hnone : e.overridden.get? a = none) (b : String) :
    (inferLinks e m).overridden.get? a = some b ↔
      ∃ target, (inferLinks e m).overridden.get? m.id = some target ∧
        (inferLinks e m).HasAccessor target kind b := by
  obtain ⟨hproperty, hne⟩ := ne_of_hasAccessor he hm hkind ha
  have hrelinks := relinks_inferOverride e m
  have hinfer := overridden_inferOverride_self hself
  have hlinks : inferLinks e m = linkProperty (inferOverride e m) m.id := by
    simp [inferLinks, hproperty]
  -- a member found for a property is a property itself
  have htarget : ∀ target ∈ (inferOverride e m).overridden.get? m.id,
      KnownAs (inferOverride e m).symbols .property target := by
    intro target hfound
    rw [Option.mem_def, hinfer] at hfound
    split at hfound
    next =>
      obtain ⟨-, base, x, -, -, hx, rfl, hmay, -⟩ := inherits_of_inherited? hacyclic hfound
      rw [hrelinks.symbols]
      exact ⟨x, holds_of_mem_symbolsOf hids hx, hmay.2.1.trans hproperty⟩
    next => cases hfound
  have hpropertyKnown : KnownAs (inferOverride e m).symbols .property m.id :=
    ⟨m, hrelinks.symbols ▸ hm, hproperty⟩
  have hunlinked : (inferOverride e m).overridden.get? a = none :=
    (overridden_inferOverride_other e hne).trans hnone
  have hiff := overridden_linkProperty_accessor (hrelinks.ordered he) hpropertyKnown hkind
    (hrelinks.hasAccessor_iff.mpr ha) hunlinked htarget b
  rw [← hlinks, hinfer, ← overridden_inferLinks_self he hm hself] at hiff
  simpa only [hrelinks.hasAccessor_iff, (relinks_inferLinks e m).hasAccessor_iff] using hiff

/-- A member whose links are inferred is linked as the hierarchy has it. -/
theorem linked_inferLinks (hd : d.Enriches e) (hids : e.symbols.Each fun id s => s.id = id)
    (hacyclic : e.IsAcyclic) (haccessors : ∀ kind, kind = .propertyGet ∨ kind = .propertySet →
      ∀ a, e.HasAccessor m.id kind a → e.overridden.get? a = none) :
    d.Linked (inferLinks e m).toTables m.id := by
  have hown := overridden_inferLinks_self he hm hself
  have hall := relinks_inferLinks e m
  have heq : ∀ m', d.symbols.get? m.id = some m' → m' = m := by
    intro m' hm'
    exact Option.some.inj ((hd.kept m.id m' hm').symm.trans hm)
  constructor
  · intro m' hm' b hb
    obtain rfl := heq m' hm'
    rw [hown] at hb
    split at hb
    next => exact hall.inherits_iff.mpr (hd.inherits (inherits_of_inherited? hacyclic hb))
    next => cases hb
  · intro m' hm' hmodifier hnone
    obtain rfl := heq m' hm'
    rw [hown, if_pos hmodifier] at hnone
    exact hall.inheritsNothing_iff.mpr
      (hd.inheritsNothing (inheritsNothing_of_inherited? hacyclic hnone))
  · intro kind hkind a ha b
    rw [hall.hasAccessor_iff] at ha
    exact overridden_inferLinks_accessor he hm hself hids hacyclic hkind ha
      (haccessors kind hkind a ha) b

end

/-- A draft between two links of members, after a first pass that has left another draft. -/
structure Underway (d e : Draft) : Prop where
  enriches : d.Enriches e
  sound : e.Sound
  ordered : e.Ordered

theorem linkMember_linked (h : Underway d e) (hacyclic : e.IsAcyclic) {id : String}
    (hid : KnownMember d.symbols id) {data : Value} (hdata : Index.InfersOverride data)
    (hself : e.overridden.get? id = none)
    (haccessors : ∀ kind, kind = .propertyGet ∨ kind = .propertySet → ∀ a,
      e.HasAccessor id kind a → e.overridden.get? a = none) :
    Ensures (linkMember id data) e fun _ e' => d.Linked e'.toTables id := by
  obtain ⟨m, hm, hkind⟩ := hid
  have hlater := h.enriches.kept id m hm
  obtain rfl : m.id = id := h.sound.ids.get? hlater
  have hbecomes := (ensures_linkOverride hdata).mp
    (linkOverride_ensures h.sound ⟨m, hlater⟩ hkind data)
  have hevolves := (ensures_linkOverride hdata).mp (linkOverride_evolves h.sound hkind data)
  have hordered := h.ordered.grows hevolves.grows
  have hlinked := linked_inferLinks h.ordered hlater hself h.enriches h.sound.ids hacyclic
    haccessors
  unfold linkMember
  simp only [ensures_bind, ensures_get]
  rw [hlater]
  simp only [ensures_bind, ensures_linkOverride hdata]
  refine ((linkImplementations_evolves hbecomes.sound hkind data).and
    (linkImplementations_keepsHierarchy m data _)).imp ?_
  rintro _ e' ⟨hlast, hsame⟩
  exact hlinked.later (h.enriches.trans hevolves.enriches) hlast.enriches
    (hasBase_eq hsame.baseTypes) hbecomes.sound.ids hordered (hordered.grows hlast.grows) ⟨m, hm⟩
    (hsame.overridden _) fun _ _ _ _ => hsame.overridden _

end Link

/-! ## All members -/

namespace Index

open Link

variable {d e e' e'' : Draft} {pending : String × Value} {items : List (String × Value)}

/-- The accessors of a member have slots among its own. -/
theorem mem_memberSlots_of_hasAccessor (hd : d.Enriches e) (he : e.Ordered) {id : String}
    (hid : Known d.symbols id) {kind : MethodKind}
    (hkind : kind = .propertyGet ∨ kind = .propertySet) {a : String}
    (ha : e.HasAccessor id kind a) : .member a ∈ memberSlots d id := by
  have hproperty := he.owned.property_of_hasAccessor hkind ha
  obtain ⟨getter, setter, hpair, hget, hset⟩ := he.equipped.sides id hproperty
  rw [hd.accessors_eq hid] at hpair
  obtain rfl | rfl := hkind
  · exact Or.inr ⟨getter, setter, a, hpair, Or.inl ((hget a).mpr ha), rfl⟩
  · exact Or.inr ⟨getter, setter, a, hpair, Or.inr ((hset a).mpr ha), rfl⟩

/-- What a run over members that wait has done. -/
structure LinksMembers (d e : Draft) (items : List (String × Value)) (e' : Draft) : Prop where
  becomes : e.Becomes e'
  evolves : e.Evolves e'
  bases : e'.HasBase = e.HasBase
  others : ∀ id, (∀ pending ∈ items, .member id ∉ memberSlots d pending.1) →
    e'.overridden.get? id = e.overridden.get? id
  linked : e'.IsAcyclic → ∀ pending ∈ items, d.Linked e'.toTables pending.1

theorem LinksMembers.underway (hlinks : LinksMembers d e items e') (h : Underway d e) :
    Underway d e' where
  enriches := h.enriches.trans hlinks.evolves.enriches
  sound := hlinks.becomes.sound
  ordered := h.ordered.grows hlinks.evolves.grows

/-- A run leaves what another member has linked. -/
theorem LinksMembers.keeps (hlinks : LinksMembers d e items e') (h : Underway d e) {id : String}
    (hid : Known d.symbols id)
    (hdisjoint : ∀ pending ∈ items, memberSlots d id ∩ memberSlots d pending.1 = ∅)
    (hlinked : d.Linked e.toTables id) : d.Linked e'.toTables id := by
  have hsame : ∀ a, .member a ∈ memberSlots d id →
      e'.overridden.get? a = e.overridden.get? a := by
    intro a ha
    apply hlinks.others
    intro pending hpending hslot
    have hboth : .member a ∈ memberSlots d id ∩ memberSlots d pending.1 := ⟨ha, hslot⟩
    simp [hdisjoint pending hpending] at hboth
  refine hlinked.later h.enriches hlinks.evolves.enriches hlinks.bases h.sound.ids h.ordered
    (hlinks.underway h).ordered hid (hsame id (Or.inl rfl)) ?_
  intro kind hkind a ha
  exact hsame a (mem_memberSlots_of_hasAccessor h.enriches h.ordered hid hkind ha)

theorem LinksMembers.cons (hfirst : LinksMembers d e [pending] e')
    (hrest : LinksMembers d e' items e'') (h : Underway d e) (hid : Known d.symbols pending.1)
    (hdisjoint : ∀ other ∈ items, memberSlots d pending.1 ∩ memberSlots d other.1 = ∅) :
    LinksMembers d e (pending :: items) e'' where
  becomes := hfirst.becomes.trans hrest.becomes
  evolves := hfirst.evolves.trans hrest.evolves
  bases := hrest.bases.trans hfirst.bases
  others := by
    intro id hnot
    rw [List.forall_mem_cons] at hnot
    exact (hrest.others id hnot.2).trans (hfirst.others id (by simpa using hnot.1))
  linked := by
    intro hacyclic
    rw [List.forall_mem_cons]
    have hlinked := hfirst.linked (hacyclic.of_hasBase hrest.bases) pending
      (List.mem_singleton_self pending)
    exact ⟨hrest.keeps (hfirst.underway h) hid hdisjoint hlinked, hrest.linked hacyclic⟩

/-- A member that waits is linked, if nothing has been linked in its place before. -/
theorem linkMember_links (hsound : d.Sound) (h : Underway d e)
    (hpending : pending ∈ d.pendingMembers) (hinfers : InfersOverride pending.2)
    (hnone : ∀ id, .member id ∈ memberSlots d pending.1 → e.overridden.get? id = none) :
    Ensures (Link.linkMember pending.1 pending.2) e fun _ e' => LinksMembers d e [pending] e' := by
  have hmember := hsound.members pending hpending
  have hlater := hmember.mono h.enriches.kept
  have hcovers : Link.Covers (memberSlots d pending.1) e pending.1 :=
    covers_memberSlots (h.enriches.accessors_eq hmember.known)
  have hlinked : e.IsAcyclic → Ensures (Link.linkMember pending.1 pending.2) e fun _ e' =>
      d.Linked e'.toTables pending.1 := by
    intro hacyclic
    apply Link.linkMember_linked h hacyclic hmember hinfers (hnone pending.1 (Or.inl rfl))
    intro kind hkind a ha
    exact hnone a (mem_memberSlots_of_hasAccessor h.enriches h.ordered hmember.known hkind ha)
  intro _ e' hrun
  have hwrites := Link.linkMember_writes h.sound hlater hcovers pending.2 _ e' hrun
  have hbases : e'.HasBase = e.HasBase :=
    hasBase_eq fun id => hwrites.baseTypes id (type_not_mem_memberSlots d pending.1 id)
  constructor
  · exact Link.linkMember_ensures h.sound hlater pending.2 _ e' hrun
  · exact Link.linkMember_evolves h.sound hlater pending.2 _ e' hrun
  · exact hbases
  · intro id hid
    exact hwrites.overridden id (hid pending (List.mem_singleton_self pending))
  · intro hacyclic
    rw [List.forall_mem_singleton]
    exact hlinked (hacyclic.of_hasBase hbases) _ e' hrun

theorem linkMembers_links (happortioned : d.Apportioned) (hsound : d.Sound)
    (hitems : ∀ pending ∈ items, pending ∈ d.pendingMembers)
    (hdistinct : (items.map Prod.fst).Nodup)
    (hinfers : ∀ pending ∈ items, InfersOverride pending.2) (h : Underway d e)
    (hnone : ∀ pending ∈ items, ∀ id, .member id ∈ memberSlots d pending.1 →
      e.overridden.get? id = none) :
    Ensures (forEach (fun (id, data) => Link.linkMember id data) items) e fun _ e' =>
      LinksMembers d e items e' := by
  induction items generalizing e with
  | nil =>
      exact ensures_pure.mpr ⟨h.sound.becomes, Evolves.refl e, rfl, fun _ _ => rfl, by simp⟩
  | cons first rest ih =>
      rw [List.forall_mem_cons] at hitems hinfers hnone
      rw [List.map_cons, List.nodup_cons] at hdistinct
      have hdisjoint : ∀ pending ∈ rest, memberSlots d first.1 ∩ memberSlots d pending.1 = ∅ := by
        intro pending hpending
        refine disjoint_memberSlots happortioned hitems.1 (hitems.2 pending hpending) ?_
        intro heq
        exact hdistinct.1 (heq ▸ List.mem_map_of_mem hpending)
      refine (linkMember_links hsound h hitems.1 hinfers.1 hnone.1).bind ?_
      intro _ e₁ hlinks
      refine (ih hitems.2 hdistinct.2 hinfers.2 (hlinks.underway h) ?_).imp ?_
      · intro pending hpending id hid
        rw [hlinks.others id]
        · exact hnone.2 pending hpending id hid
        · rw [List.forall_mem_singleton]
          intro hslot
          have hboth : .member id ∈ memberSlots d first.1 ∩ memberSlots d pending.1 := ⟨hslot, hid⟩
          simp [hdisjoint pending hpending] at hboth
      · intro _ e' hrest
        exact hlinks.cons hrest h (hsound.members first hitems.1).known hdisjoint

end Index
end SymbolAtlas
