import SymbolAtlas.Proofs.Reordering.Commute
import Mathlib.Tactic

/-!
# Later passes in another order

Once everything is declared, the later passes can go through links, members and bodies in any order,
if no name that they look up brings in a symbol.  Every one of them then finds the declarations as
they are, and writes where no other does: under its own type, under its own member and the accessors
of that, or under its own method.
-/

namespace SymbolAtlas

open Building Draft Tables

namespace Building

variable {α : Type}

/-- The step brings no symbol into the draft. -/
def Quiet (step : Building α) (d : Draft) : Prop :=
  Ensures step d fun _ e => ∀ id, Known e.symbols id → Known d.symbols id

instance decidableBringsNothing (d e : Draft) :
    Decidable (∀ id, Known e.symbols id → Known d.symbols id) :=
  decidable_of_iff (∀ id ∈ e.symbols.keys, d.symbols.contains id = true) <|
    forall_congr' fun _ => imp_congr Table.mem_keys_iff Table.contains_iff

instance (step : Building α) (d : Draft) : Decidable (Quiet step d) :=
  inferInstanceAs (Decidable (Ensures _ _ _))

end Building

namespace Draft

/-- A sound draft that declares what another one does. -/
structure Standing (d₀ d : Draft) : Prop where
  sound : d.Sound
  alike : Alike Set.univ d₀ d

/-- What has been put off in a draft belongs to different symbols, and accessors lie in their
properties. -/
structure Apportioned (d : Draft) : Prop where
  links : (d.pendingLinks.map Prod.fst).Nodup
  members : (d.pendingMembers.map Prod.fst).Nodup
  bodies : (d.pendingBodies.map PendingBody.method).Nodup
  plain : ∀ pending ∈ d.pendingMembers, ∀ s, d.symbols.get? pending.1 = some s →
    s.isAccessor = false
  accessors : ∀ property getter setter, d.accessors.get? property = some (getter, setter) →
    ∀ a, a ∈ getter ∨ a ∈ setter → d.containing.get? a = some property ∧
      ∃ s, d.symbols.get? a = some s ∧ s.isAccessor = true

variable {K : Set Slot} {d d' : Draft}

theorem Alike.known_iff (h : Alike K d d') (id : String) :
    Known d'.symbols id ↔ Known d.symbols id := by
  unfold Known
  rw [h.symbols]

end Draft

namespace Building

variable {α : Type} {N K : Set Slot} {d₀ d d' : Draft}

/-- A step that brings no symbol into a draft brings none into one that is alike. -/
theorem Quiet.alike {step : Building α} (h : Quiet step d)
    (hrespects : Respects (Alike Set.univ) step) (halike : Alike Set.univ d d') :
    Quiet step d' := by
  intro _ e' hrun id hid
  obtain ⟨_, e, hother, -, he⟩ := hrespects d' d halike.symm _ e' hrun
  have hknown := h _ e hother id ((he.known_iff id).mpr hid)
  exact (halike.known_iff id).mpr hknown

/-- What brings nothing in where everything has just been declared brings nothing in later. -/
theorem Quiet.standing {step : Building Unit} (hquiet : Quiet step d₀)
    (hrespects : Respects (Alike Set.univ) step) (hd : Standing d₀ d)
    (hgrows : Ensures step d fun _ e => d.Becomes e ∧ d.Evolves e ∧ SameLinks K d e) :
    Ensures step d fun _ e => Standing d₀ e ∧ Alike K d e := by
  intro _ e hrun
  obtain ⟨hbecomes, hevolves, hlinks⟩ := hgrows _ e hrun
  have halike := hevolves.alike (hquiet.alike hrespects hd.alike _ e hrun) hlinks
  exact ⟨⟨hbecomes.sound, hd.alike.trans (halike.mono (Set.subset_univ K))⟩, halike⟩

/-- A run over items that write at different slots ends alike in every order of the items. -/
theorem forEach_alike (writes : α → Set Slot) {step : α → Building Unit} {items others : List α}
    (hperm : items.Perm others)
    (hsteps : ∀ a ∈ items, ∀ d, Standing d₀ d →
      Ensures (step a) d fun _ e => Standing d₀ e ∧ Alike (writes a) d e)
    (hN : ∀ a ∈ items, RespectsOn (Standing d₀) (Alike N) (step a))
    (hpairs : items.Pairwise fun a b => writes a ∩ writes b = ∅ ∧
      RespectsOn (Standing d₀) (Alike (writes b)) (step a) ∧
        RespectsOn (Standing d₀) (Alike (writes a)) (step b))
    (hd : Standing d₀ d) (hd' : Standing d₀ d') (halike : Alike N d d') :
    Ensures (forEach step items) d fun _ e => ∃ e', forEach step others d' = .ok ((), e') ∧
      Standing d₀ e ∧ Standing d₀ e' ∧ Alike N e e' := by
  have hkeeps : ∀ a ∈ items, Keeps (Standing d₀) (step a) := fun a ha d hd =>
    (hsteps a ha d hd).imp fun _ _ h => h.1
  have hothers : ∀ a ∈ others, Keeps (Standing d₀) (step a) := fun a ha =>
    hkeeps a (hperm.mem_iff.mpr ha)
  have hswaps : items.Pairwise fun a b => Swaps (Standing d₀) (Alike N) (step a) (step b) ∧
      Swaps (Standing d₀) (Alike N) (step b) (step a) := by
    refine hpairs.imp_of_mem ?_
    rintro a b ha hb ⟨hdisjoint, hfirst, hsecond⟩
    exact ⟨swaps_of_disjoint (hsteps a ha) (hsteps b hb) hdisjoint hfirst hsecond,
      swaps_of_disjoint (hsteps b hb) (hsteps a ha) ((Set.inter_comm _ _).trans hdisjoint)
        hsecond hfirst⟩
  have hrun := forEach_perm (fun d => Alike.refl N d) (fun _ _ _ => Alike.trans) hperm hkeeps hN
    hswaps hd hd' halike
  refine (hrun.and (Keeps.forEach hkeeps d hd)).imp ?_
  rintro _ e ⟨⟨e', hrun', he⟩, hstanding⟩
  exact ⟨e', hrun', hstanding, Keeps.forEach hothers d' hd' _ e' hrun', he⟩

end Building

namespace Index

variable {N : Set Slot} {d₀ d d' : Draft}

theorem respectsOn_standing {K : Set Slot} {step : Building Unit} (h : Respects (Alike K) step) :
    RespectsOn (Standing d₀) (Alike K) step := by
  intro d d' _ _ halike
  refine (h d d' halike).imp ?_
  rintro _ e ⟨_, e', hrun, -, he⟩
  exact ⟨e', hrun, he⟩

theorem linkTypes_alike (happortioned : d₀.Apportioned)
    (hquiet : ∀ pending ∈ d₀.pendingLinks, Quiet (Link.linkType pending.1 pending.2) d₀)
    (hd : Standing d₀ d) (hd' : Standing d₀ d') (halike : Alike N d d') :
    Ensures (forEach (fun (id, data) => Link.linkType id data) d.pendingLinks) d fun _ e =>
      ∃ e', forEach (fun (id, data) => Link.linkType id data) d'.pendingLinks d' = .ok ((), e') ∧
        Standing d₀ e ∧ Standing d₀ e' ∧ Alike N e e' := by
  have hrespects : ∀ (pending : String × Value) {K : Set Slot},
      RespectsOn (Standing d₀) (Alike K) (Link.linkType pending.1 pending.2) :=
    fun _ _ => respectsOn_standing (Link.linkType_respects _ _)
  have hperm := hd.alike.pendingLinks
  have hnodup : (d.pendingLinks.map Prod.fst).Nodup :=
    (hperm.map Prod.fst).nodup_iff.mpr happortioned.links
  refine forEach_alike (fun pending => {.type pending.1}) halike.pendingLinks.symm
    ?_ (fun _ _ => hrespects _) ?_ hd hd' halike
  · intro pending hpending d₁ hd₁
    have hpending₀ := hperm.mem_iff.mp hpending
    have htype := hd₁.sound.links pending (hd₁.alike.pendingLinks.mem_iff.mpr hpending₀)
    refine (hquiet pending hpending₀).standing (Link.linkType_respects _ _) hd₁ ?_
    exact (Link.linkType_ensures hd₁.sound htype _).and
      ((Link.linkType_evolves hd₁.sound htype _).and (Link.linkType_writes _ _ d₁))
  · refine (List.pairwise_map.mp hnodup).imp ?_
    intro a b hne
    exact ⟨by simpa using hne.symm, hrespects a, hrespects b⟩

theorem readBodies_alike (happortioned : d₀.Apportioned) (root : String)
    (hquiet : ∀ pending ∈ d₀.pendingBodies, Quiet (readBody root pending) d₀)
    (hd : Standing d₀ d) (hd' : Standing d₀ d') (halike : Alike N d d') :
    Ensures (forEach (readBody root) d.pendingBodies) d fun _ e =>
      ∃ e', forEach (readBody root) d'.pendingBodies d' = .ok ((), e') ∧
        Standing d₀ e ∧ Standing d₀ e' ∧ Alike N e e' := by
  have hrespects : ∀ (pending : PendingBody) {K : Set Slot},
      RespectsOn (Standing d₀) (Alike K) (readBody root pending) :=
    fun pending _ => respectsOn_standing (readBody_respects root pending)
  have hperm := hd.alike.pendingBodies
  have hnodup : (d.pendingBodies.map PendingBody.method).Nodup :=
    (hperm.map PendingBody.method).nodup_iff.mpr happortioned.bodies
  refine forEach_alike (fun pending => {.member pending.method}) halike.pendingBodies.symm ?_
    (fun _ _ => hrespects _) ?_ hd hd' halike
  · intro pending hpending d₁ hd₁
    have hpending₀ := hperm.mem_iff.mp hpending
    have hpending₁ := hd₁.alike.pendingBodies.mem_iff.mpr hpending₀
    have hmethod := hd₁.sound.bodies pending hpending₁
    refine (hquiet pending hpending₀).standing (readBody_respects root pending) hd₁ ?_
    exact (readBody_ensures hd₁.sound root hmethod).and
      ((readBody_evolves hd₁.sound root hpending₁).and (readBody_writes root pending d₁))
  · refine (List.pairwise_map.mp hnodup).imp ?_
    intro a b hne
    exact ⟨by simpa using hne.symm, hrespects a, hrespects b⟩

/-! ## Members -/

/-- The slots of a member: its own and those of its accessors. -/
def memberSlots (d : Draft) (id : String) : Set Slot :=
  {slot | slot = .member id ∨ ∃ getter setter a, d.accessors.get? id = some (getter, setter) ∧
    (a ∈ getter ∨ a ∈ setter) ∧ slot = .member a}

theorem covers_memberSlots {id : String}
    (haccessors : d.accessors.get? id = d₀.accessors.get? id) :
    Link.Covers (memberSlots d₀ id) d id := by
  refine ⟨Or.inl rfl, ?_⟩
  intro getter setter hget
  rw [haccessors] at hget
  exact ⟨fun a ha => Or.inr ⟨getter, setter, a, hget, Or.inl ha, rfl⟩,
    fun a ha => Or.inr ⟨getter, setter, a, hget, Or.inr ha, rfl⟩⟩

theorem type_not_mem_memberSlots (d : Draft) (id type : String) :
    .type type ∉ memberSlots d id := by
  rintro (h | ⟨-, -, a, -, -, h⟩) <;> cases h

/-- No slot of a member is the slot of another one. -/
theorem member_not_mem_memberSlots (happortioned : d.Apportioned) {p q : String × Value}
    (hq : q ∈ d.pendingMembers) (hne : p.1 ≠ q.1) : .member q.1 ∉ memberSlots d p.1 := by
  rintro (h | ⟨getter, setter, a, hget, ha, h⟩)
  · exact hne (Slot.member.inj h).symm
  · obtain rfl := Slot.member.inj h
    obtain ⟨-, s, hs, haccessor⟩ := happortioned.accessors p.1 getter setter hget q.1 ha
    rw [happortioned.plain q hq s hs] at haccessor
    cases haccessor

theorem disjoint_memberSlots (happortioned : d.Apportioned) {p q : String × Value}
    (hp : p ∈ d.pendingMembers) (hq : q ∈ d.pendingMembers) (hne : p.1 ≠ q.1) :
    memberSlots d p.1 ∩ memberSlots d q.1 = ∅ := by
  rw [Set.eq_empty_iff_forall_notMem]
  rintro slot ⟨rfl | ⟨getter, setter, a, hget, ha, rfl⟩, hslot⟩
  · exact member_not_mem_memberSlots happortioned hp hne.symm hslot
  · obtain h | ⟨getter', setter', b, hget', hb, h⟩ := hslot
    · have hmem : .member q.1 ∈ memberSlots d p.1 :=
        Or.inr ⟨getter, setter, a, hget, ha, h.symm⟩
      exact member_not_mem_memberSlots happortioned hq hne hmem
    · obtain rfl := Slot.member.inj h
      have hfirst := (happortioned.accessors p.1 getter setter hget a ha).1
      have hlast := (happortioned.accessors q.1 getter' setter' hget' a hb).1
      rw [hfirst, Option.some.injEq] at hlast
      exact hne hlast

theorem linkMember_respectsOn {K : Set Slot} (hK : ∀ type, .type type ∉ K)
    {pending : String × Value} (hpending : pending ∈ d₀.pendingMembers)
    (hid : .member pending.1 ∉ K) :
    RespectsOn (Standing d₀) (Alike K) (Link.linkMember pending.1 pending.2) := by
  intro d d' hd _ halike
  have hknown := hd.sound.members pending (hd.alike.pendingMembers.mem_iff.mpr hpending)
  exact Link.linkMember_respects hK hid hd.sound hknown halike pending.2

theorem linkMembers_alike (happortioned : d₀.Apportioned)
    (hquiet : ∀ pending ∈ d₀.pendingMembers, Quiet (Link.linkMember pending.1 pending.2) d₀)
    (htypes : ∀ type, .type type ∉ N) (hmembers : ∀ member, .member member ∉ N)
    (hd : Standing d₀ d) (hd' : Standing d₀ d') (halike : Alike N d d') :
    Ensures (forEach (fun (id, data) => Link.linkMember id data) d.pendingMembers) d fun _ e =>
      ∃ e', forEach (fun (id, data) => Link.linkMember id data) d'.pendingMembers d' =
          .ok ((), e') ∧ Standing d₀ e ∧ Standing d₀ e' ∧ Alike N e e' := by
  have hperm := hd.alike.pendingMembers
  have hnodup : (d.pendingMembers.map Prod.fst).Nodup :=
    (hperm.map Prod.fst).nodup_iff.mpr happortioned.members
  refine forEach_alike (fun pending => memberSlots d₀ pending.1)
    halike.pendingMembers.symm ?_ ?_ ?_ hd hd' halike
  · intro pending hpending d₁ hd₁
    have hpending₀ := hperm.mem_iff.mp hpending
    have hknown := hd₁.sound.members pending (hd₁.alike.pendingMembers.mem_iff.mpr hpending₀)
    refine (hquiet pending hpending₀).standing (Link.linkMember_respects_univ _ _) hd₁ ?_
    exact (Link.linkMember_ensures hd₁.sound hknown _).and
      ((Link.linkMember_evolves hd₁.sound hknown _).and
        (Link.linkMember_writes hd₁.sound hknown
          (covers_memberSlots (hd₁.alike.accessors _)) _))
  · intro pending hpending
    exact linkMember_respectsOn htypes (hperm.mem_iff.mp hpending) (hmembers _)
  · refine (List.pairwise_map.mp hnodup).imp_of_mem ?_
    intro p q hp hq hne
    have hp := hperm.mem_iff.mp hp
    have hq := hperm.mem_iff.mp hq
    refine ⟨disjoint_memberSlots happortioned hp hq hne, ?_, ?_⟩
    · exact linkMember_respectsOn (type_not_mem_memberSlots d₀ q.1) hp
        (member_not_mem_memberSlots happortioned hp hne.symm)
    · exact linkMember_respectsOn (type_not_mem_memberSlots d₀ p.1) hq
        (member_not_mem_memberSlots happortioned hq hne)

end Index
end SymbolAtlas
