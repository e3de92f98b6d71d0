import SymbolAtlas.Proofs.Overriding.Pass
import Mathlib.Tactic

/-!
# Overridden members of a document

The first pass leaves the members of a document waiting and links none.  All that is linked behind
it is linked as the hierarchy has it, if no entry names what it overrides, and what has the modifier
of overrides and is not linked has nothing to override.
-/

namespace SymbolAtlas

open Building Draft Tables

namespace Draft

/-- What a first pass leaves, if the links of all members are inferred. -/
structure Unlinked (d : Draft) : Prop where
  sound : d.Sound
  ordered : d.Ordered
  apportioned : d.Apportioned
  awaiting : d.Awaiting
  overridden : ∀ id, d.overridden.get? id = none

/-- The members that wait in a draft are linked as the hierarchy has it, and nothing else is. -/
structure LinksAll (d : Draft) (t : Tables) : Prop where
  linked : ∀ pending ∈ d.pendingMembers, d.Linked t pending.1
  others : ∀ id, (∀ pending ∈ d.pendingMembers, .member id ∉ Index.memberSlots d pending.1) →
    t.overridden.get? id = none

end Draft

namespace Index

variable {d e : Draft}

theorem declareTypes_unlinked (root : String) {types : List Value}
    (htypes : ∀ entry ∈ types, ∀ items ∈ (allowing (entry.field "members").itemsIfPresent).toOption,
      ∀ item ∈ items, InfersOverride item) :
    Ensures (forEach (Declaration.declareType root) types) Draft.empty fun _ d => d.Unlinked := by
  refine ((declareTypes_declared Sound.empty root types).and
    ((declareTypes_prepared Sound.empty root types).and (declareTypes_awaiting root htypes))).imp ?_
  rintro _ d ⟨hdeclared, hprepared, hawaiting, hnone⟩
  exact ⟨hdeclared.becomes.sound, Ordered.empty.grows hprepared.grows, hprepared.apportioned hdeclared,
    hawaiting, hnone⟩

theorem linkTypes_unlinked (hnone : ∀ id, d.overridden.get? id = none) :
    Ensures (forEach (fun (id, data) => Link.linkType id data) d.pendingLinks) d fun _ e =>
      ∀ id, e.overridden.get? id = none := by
  refine forEach_keeps (P := fun e => ∀ id, e.overridden.get? id = none) hnone ?_
  intro pending _ e hbefore
  refine (Link.linkType_writes pending.1 pending.2 e).imp ?_
  intro _ e' hlinks id
  exact (hlinks.overridden id (by simp)).trans (hbefore id)

/-- Everything behind a first pass links what it has put off. -/
theorem readRest_linksAll (hd : d.Unlinked) (disk : Disk) (root : String) (data : Value) :
    Ensures (readRest disk root data) d fun _ e =>
      e.Ordered → e.IsAcyclic → d.LinksAll e.toTables := by
  unfold readRest
  simp only [ensures_bind, ensures_get]
  refine ((linkTypes_evolves hd.sound).and (linkTypes_unlinked hd.overridden)).imp ?_
  rintro _ d₁ ⟨⟨hbecomes₁, hevolves₁⟩, hnone₁⟩
  rw [hevolves₁.members]
  have hunderway₁ : Link.Underway d d₁ :=
    ⟨hevolves₁.enriches, hbecomes₁.sound, hd.ordered.grows hevolves₁.grows⟩
  refine (linkMembers_links hd.apportioned hd.sound (fun _ hpending => hpending)
    hd.apportioned.members hd.awaiting.inferring hunderway₁ fun _ _ id _ => hnone₁ id).imp ?_
  intro _ d₂ hlinks
  have hunderway₂ := hlinks.underway hunderway₁
  have hbodies := chains_keepsHierarchy.forEach (readBody_keepsHierarchy root) d₂.pendingBodies
  refine ((readBodies_evolves hunderway₂.sound root).and (hbodies d₂)).imp ?_
  rintro _ d₃ ⟨⟨hbecomes₃, hevolves₃⟩, hsame₃⟩
  refine ((readEnd_enriches hbecomes₃.sound disk root data).and
    (readEnd_keepsHierarchy disk root data d₃)).imp ?_
  rintro _ e ⟨henriches, hsame₄⟩ hordered hacyclic
  have hsame := hsame₃.trans hsame₄
  have hbases : e.HasBase = d₂.HasBase := hasBase_eq hsame.baseTypes
  constructor
  · intro pending hpending
    have hlinked := hlinks.linked (hacyclic.of_hasBase hbases) pending hpending
    exact hlinked.later hunderway₂.enriches (hevolves₃.enriches.trans henriches) hbases
      hunderway₂.sound.ids hunderway₂.ordered hordered (hd.sound.members pending hpending).known
      (hsame.overridden _) fun _ _ _ _ => hsame.overridden _
  · intro id hnot
    rw [hsame.overridden, hlinks.others id hnot, hnone₁]

end Index

/-! ## Every symbol -/

namespace Tables

/-- What members override is what the hierarchy gives them. -/
structure FollowsHierarchy (t declared : Tables) : Prop where
  inherits : ∀ m, Holds t.symbols m → m.isAccessor = false → ∀ b,
    t.overridden.get? m.id = some b → m.kind ≠ .namedType ∧ t.Inherits declared m b
  nothing : ∀ m, Holds t.symbols m → m.isAccessor = false → m.isOverride = true →
    t.overridden.get? m.id = none → m.kind ≠ .namedType ∧ t.InheritsNothing declared m
  accessors : ∀ property kind, kind = .propertyGet ∨ kind = .propertySet → ∀ a,
    t.HasAccessor property kind a → ∀ b, t.overridden.get? a = some b ↔
      ∃ target, t.overridden.get? property = some target ∧ t.HasAccessor target kind b

end Tables

namespace Draft

open Index

variable {d e : Draft}

/-- A slot of a member that waits belongs to that member or to an accessor in it. -/
theorem Unlinked.eq_or_accessor (hd : d.Unlinked) (h : d.Enriches e) {pending : String × Value}
    (hpending : pending ∈ d.pendingMembers) {id : String}
    (hslot : .member id ∈ memberSlots d pending.1) :
    (id = pending.1 ∧
      ∀ s, e.symbols.get? id = some s → s.kind ≠ .namedType ∧ s.isAccessor = false) ∨
      (e.containing.get? id = some pending.1 ∧
        ∀ s, e.symbols.get? id = some s → s.isAccessor = true) := by
  obtain hself | ⟨getter, setter, a, hpair, ha, hslot⟩ := hslot
  · obtain rfl := Slot.member.inj hself
    refine Or.inl ⟨rfl, ?_⟩
    intro s hs
    obtain ⟨s', hs', hkind⟩ := hd.sound.members pending hpending
    obtain rfl : s' = s := Option.some.inj ((h.kept _ s' hs').symm.trans hs)
    exact ⟨hkind, hd.apportioned.plain pending hpending s' hs'⟩
  · obtain rfl := Slot.member.inj hslot
    obtain ⟨hlies, s', hs', haccessor⟩ :=
      hd.apportioned.accessors pending.1 getter setter hpair id ha
    refine Or.inr ⟨(h.containing_eq ⟨s', hs'⟩).trans hlies, ?_⟩
    intro s hs
    obtain rfl : s' = s := Option.some.inj ((h.kept _ s' hs').symm.trans hs)
    exact haccessor

section

variable (hall : d.LinksAll e.toTables) (hd : d.Unlinked) (h : d.Enriches e)

include hall hd h

/-- Of symbols other than accessors only members that wait override something. -/
theorem LinksAll.waits {m : Symbol} (hm : Holds e.symbols m) (hplain : m.isAccessor = false)
    {b : String} (hb : e.overridden.get? m.id = some b) :
    ∃ pending ∈ d.pendingMembers, pending.1 = m.id := by
  by_contra hnot
  have hnone : e.overridden.get? m.id = none := by
    apply hall.others
    intro pending hpending hslot
    obtain ⟨hid, -⟩ | ⟨-, haccessor⟩ := hd.eq_or_accessor h hpending hslot
    · exact hnot ⟨pending, hpending, hid.symm⟩
    · simp [haccessor m hm] at hplain
  simp [hb] at hnone

theorem LinksAll.unlinked_of_not_waiting (he : e.Ordered) {property a : String}
    (hnot : ∀ pending ∈ d.pendingMembers, pending.1 ≠ property) {kind : MethodKind}
    (hkind : kind = .propertyGet ∨ kind = .propertySet) (ha : e.HasAccessor property kind a) :
    e.overridden.get? a = none ∧ e.overridden.get? property = none := by
  obtain ⟨p, hp, hproperty⟩ := he.owned.property_of_hasAccessor hkind ha
  obtain ⟨hlies, s, hs, -, hside⟩ := ha
  have haccessor : s.isAccessor = true := by
    obtain rfl | rfl := hkind <;> simp [Symbol.isAccessor, hside]
  constructor
  · apply hall.others
    intro pending hpending hslot
    obtain ⟨-, hplain⟩ | ⟨hother, -⟩ := hd.eq_or_accessor h hpending hslot
    · simp [(hplain s hs).2] at haccessor
    · exact hnot pending hpending (Option.some.inj (hother.symm.trans hlies))
  · apply hall.others
    intro pending hpending hslot
    obtain ⟨hid, -⟩ | ⟨-, haccessor⟩ := hd.eq_or_accessor h hpending hslot
    · exact hnot pending hpending hid.symm
    · simpa [haccessor p hp] using he.owned.isAccessor_eq_false hp hproperty

/-- Once everything that waits is linked, all that is overridden follows the hierarchy. -/
theorem LinksAll.followsHierarchy (he : e.Ordered) : e.FollowsHierarchy d.toTables where
  inherits := by
    intro m hm hplain b hb
    obtain ⟨pending, hpending, hid⟩ := hall.waits hd h hm hplain hb
    obtain ⟨m', hm', hkind⟩ := hd.sound.members pending hpending
    have hlinked := hall.linked pending hpending
    rw [hid] at hm' hlinked
    obtain rfl : m' = m := Option.some.inj ((h.kept _ m' hm').symm.trans hm)
    exact ⟨hkind, hlinked.inherits m' hm' b hb⟩
  nothing := by
    intro m hm hplain hmodifier hnone
    cases hold : d.symbols.get? m.id with
    | none =>
        have hbare := (h.added m.id m hold hm).1
        simp [hbare.modifier] at hmodifier
    | some m' =>
        obtain rfl : m' = m := Option.some.inj ((h.kept _ m' hold).symm.trans hm)
        obtain ⟨data, hpending⟩ := hd.awaiting.overriding m'.id m' hold hmodifier hplain
        obtain ⟨found, hfound, hkind⟩ := hd.sound.members _ hpending
        obtain rfl : m' = found := Option.some.inj (hold.symm.trans hfound)
        exact ⟨hkind, (hall.linked _ hpending).nothing m' hold hmodifier hnone⟩
  accessors := by
    intro property kind hkind a ha b
    by_cases hwaits : ∃ pending ∈ d.pendingMembers, pending.1 = property
    · obtain ⟨pending, hpending, rfl⟩ := hwaits
      exact (hall.linked pending hpending).accessors kind hkind a ha b
    · push Not at hwaits
      obtain ⟨hself, hproperty⟩ := hall.unlinked_of_not_waiting hd h he hwaits hkind ha
      simp [hself, hproperty]

end

end Draft

theorem Index.readDocument_followsHierarchy (disk : Disk) (root : String) {data : Value}
    (hinfers : InfersOverrides data) :
    Ensures (readDocument disk root data) Draft.empty fun _ e =>
      ∃ types d, typesOf data = .ok types ∧
        forEach (Declaration.declareType root) types Draft.empty = .ok ((), d) ∧
          (e.Ordered → e.IsAcyclic → e.FollowsHierarchy d.toTables) := by
  rw [readDocument_eq_rest]
  simp only [ensures_bind, ensures_lift]
  intro types htypes
  have hentries := hinfers types (Attempt.mem_toOption_iff.mpr htypes)
  refine ((declareTypes_unlinked root hentries).and (fun _ _ hrun => hrun)).imp ?_
  rintro _ d ⟨hd, hrun⟩
  refine ((readRest_enriches hd.sound disk root data).and
    (readRest_linksAll hd disk root data)).imp ?_
  rintro _ e ⟨henriches, hall⟩
  refine ⟨types, d, htypes, hrun, ?_⟩
  intro hordered hacyclic
  exact (hall hordered hacyclic).followsHierarchy hd henriches hordered

end SymbolAtlas
