import SymbolAtlas.Proofs.Reordering.Declaring
import Mathlib.Tactic

/-!
# Types declared in another order

Two entries may change places, since each declares over the other what it declares by itself.  So
the first pass ends alike in every order of the entries, apart from where nested types lie: that is
looked up when their turn comes.
-/

namespace SymbolAtlas

open Building Declaration Draft Tables Index

/-- The slots that say where types lie. -/
def Slot.places : Set Slot :=
  Set.range Slot.place

namespace Draft

variable {types : List Value} {base base' own own' d d' e e' : Draft} {entry : Value}

theorem or_left_comm {α : Type} {a b c : Option α} (h : ∀ x y, a = some x → b ≠ some y) :
    a.or (b.or c) = b.or (a.or c) := by
  cases a with
  | none => rw [Option.none_or, Option.none_or]
  | some x =>
      cases b with
      | none => rw [Option.none_or, Option.none_or]
      | some y => exact absurd rfl (h x y rfl)

theorem listAt_or {β : Type} {t u v : Table (List β)} {key : String}
    (h : t.get? key = (u.get? key).or (v.get? key)) :
    t.listAt key = if (u.get? key).isSome then u.listAt key else v.listAt key := by
  unfold Table.listAt
  rw [h]
  cases u.get? key <;> rfl

/-- The same own part beside bases that are alike. -/
theorem Joined.alike (h : Joined base own e) (h' : Joined base' own e')
    (hbase : Alike Slot.places base base') : Alike Slot.places e e' := by
  have hempty : (∅ : Set Slot) ⊆ Slot.places := Set.empty_subset _
  constructor
  · exact ((h.links.symm.mono hempty).trans hbase.toSameLinks).trans (h'.links.mono hempty)
  · intro id
    rw [h.symbols, h'.symbols, hbase.symbols]
  · intro name
    rw [h.typeNames, h'.typeNames, hbase.typeNames]
  · intro type
    rw [listAt_or (h.members type), listAt_or (h'.members type), hbase.members]
  · rintro id (hapart | hplace)
    · rw [h.containing id hapart, h'.containing id hapart, hbase.containing id (Or.inl hapart)]
    · exact absurd ⟨id, rfl⟩ hplace
  · intro id
    rw [h.accessors, h'.accessors, hbase.accessors]
  · intro id
    rw [h.spans, h'.spans, hbase.spans]
  · intro type
    rw [h.metadataTypes, h'.metadataTypes, List.mem_append, List.mem_append, hbase.metadataTypes]
  · rw [h.pendingLinks, h'.pendingLinks]
    exact hbase.pendingLinks.append_right _
  · rw [h.pendingMembers, h'.pendingMembers]
    exact hbase.pendingMembers.append_right _
  · rw [h.pendingBodies, h'.pendingBodies]
    exact hbase.pendingBodies.append_right _

theorem Joined.known_of_own (h : Joined base own e) {id : String} (hid : Known own.symbols id) :
    Known e.symbols id := by
  obtain ⟨s, hs⟩ := hid
  exact ⟨s, by rw [h.symbols, hs, Option.some_or]⟩

theorem perm_append_swap {α : Type} {all all' before first second : List α}
    (h : all = before ++ first ++ second) (h' : all' = before ++ second ++ first) :
    all'.Perm all := by
  rw [h, h', List.append_assoc, List.append_assoc]
  exact List.perm_append_comm.append_left before

/-- Two parts beside a base, in either order. -/
theorem Joined.alike_swap {a b d₁ d₂ d₁₂ d₂₁ : Draft} (ha : a.Sound) (hb : b.Sound)
    (h₁ : Joined d a d₁) (h₁₂ : Joined d₁ b d₁₂) (h₂ : Joined d b d₂) (h₂₁ : Joined d₂ a d₂₁) :
    Alike Slot.places d₁₂ d₂₁ := by
  have hapart : ∀ id, Known a.symbols id → ¬ Known b.symbols id := by
    intro id hid hother
    obtain ⟨s, hs⟩ := h₁.known_of_own hid
    rw [h₁₂.fresh id hother] at hs
    cases hs
  have hempty : (∅ : Set Slot) ⊆ Slot.places := Set.empty_subset _
  have hmembers : ∀ type, d₂₁.members.get? type = d₁₂.members.get? type := by
    intro type
    rw [h₂₁.members, h₂.members, h₁₂.members, h₁.members]
    exact or_left_comm fun _ _ hx hy =>
      hapart type (ha.refers.members.get? hx).1 (hb.refers.members.get? hy).1
  constructor
  · have hfirst := h₁.links.trans h₁₂.links
    have hlast := h₂.links.trans h₂₁.links
    exact (hfirst.symm.trans hlast).mono hempty
  · intro id
    rw [h₂₁.symbols, h₂.symbols, h₁₂.symbols, h₁.symbols]
    exact or_left_comm fun x y hx hy => hapart id ⟨x, hx⟩ ⟨y, hy⟩
  · intro name
    rw [h₂₁.typeNames, h₂.typeNames, h₁₂.typeNames, h₁.typeNames]
    refine or_left_comm fun x y hx hy => ?_
    have hnone := h₁₂.freshNames name y hy
    rw [h₁.typeNames, hx, Option.some_or] at hnone
    cases hnone
  · exact fun type => Table.listAt_congr (hmembers type)
  · rintro id (hid | hplace)
    · rw [h₂₁.containing id hid, h₂.containing id hid, h₁₂.containing id hid,
        h₁.containing id hid]
      exact or_left_comm fun _ _ hx hy =>
        hapart id (ha.refers.containing.get? hx).1 (hb.refers.containing.get? hy).1
    · exact absurd ⟨id, rfl⟩ hplace
  · intro id
    rw [h₂₁.accessors, h₂.accessors, h₁₂.accessors, h₁.accessors]
    exact or_left_comm fun _ _ hx hy =>
      hapart id (ha.refers.accessors.get? hx).1 (hb.refers.accessors.get? hy).1
  · intro id
    rw [h₂₁.spans, h₂.spans, h₁₂.spans, h₁.spans]
    exact or_left_comm fun _ _ hx hy =>
      hapart id (ha.refers.spans.get? hx) (hb.refers.spans.get? hy)
  · intro type
    rw [h₂₁.metadataTypes, h₂.metadataTypes, h₁₂.metadataTypes, h₁.metadataTypes]
    exact (perm_append_swap rfl rfl).mem_iff
  · exact perm_append_swap (by rw [h₁₂.pendingLinks, h₁.pendingLinks])
      (by rw [h₂₁.pendingLinks, h₂.pendingLinks])
  · exact perm_append_swap (by rw [h₁₂.pendingMembers, h₁.pendingMembers])
      (by rw [h₂₁.pendingMembers, h₂.pendingMembers])
  · exact perm_append_swap (by rw [h₁₂.pendingBodies, h₁.pendingBodies])
      (by rw [h₂₁.pendingBodies, h₂.pendingBodies])

end Draft

namespace Index

variable {root : String} {types others : List Value} {d d' : Draft} {entry : Value}

/-- Entries whose names are spelled alike, but for plus signs and dots, have the same name. -/
def Spelled (types : List Value) : Prop :=
  ∀ a ∈ types, ∀ b ∈ types, dottedName a = dottedName b → typeName a = typeName b

instance (types : List Value) : Decidable (Spelled types) :=
  inferInstanceAs (Decidable (∀ a ∈ types, ∀ b ∈ types, _ → _))

/-- A sound draft in which no name of an entry belongs to another type. -/
structure Open (types : List Value) (d : Draft) : Prop where
  sound : d.Sound
  unclaimed : d.Unclaimed types

theorem open_empty (types : List Value) : Open types Draft.empty :=
  ⟨Sound.empty, fun _ _ _ _ hid => by cases hid⟩

theorem Open.opens (h : Open types d) (hspelled : Spelled types) (hentry : entry ∈ types)
    (hopens : d.Opens entry d') : Open types d' := by
  refine ⟨hopens.becomes.sound, ?_⟩
  intro other hother name id hid hsame
  rw [hopens.typeNames] at hid
  obtain hold | hnew := exchange_of_registerTypeName hid
  · exact (h.unclaimed other hother name id hold hsame).mono hopens.becomes.kept
  · have hname := hspelled entry hentry other hother (hnew.symm.trans hsame)
    have hknown := hopens.brings.2
    unfold typeId at hknown
    rw [hname] at hknown
    exact hknown

theorem declareType_keepsOpen (hspelled : Spelled types) (root : String) (hentry : entry ∈ types) :
    Keeps (Open types) (declareType root entry) := by
  intro d hd
  refine (declareType_opens hd.sound root entry).imp ?_
  intro _ _ hopens
  exact hd.opens hspelled hentry hopens

theorem declareType_respectsOn (root : String) (hentry : entry ∈ types) :
    RespectsOn (Open types) (Alike Slot.places) (declareType root entry) := by
  intro d d' hd hd' halike _ e hrun
  obtain ⟨own, hown, hjoined⟩ := declareType_splits hd.sound hd.unclaimed hentry _ e hrun
  obtain ⟨e', hrun', hjoined'⟩ := declareType_joins hd'.unclaimed hentry hown fun id hid => by
    rw [halike.symbols]
    exact hjoined.fresh id hid
  exact ⟨e', hrun', hjoined.alike hjoined' halike⟩

/-- Two entries may change places: each of them declares what it does by itself. -/
theorem declareType_swaps (hspelled : Spelled types) (root : String) {a b : Value} (ha : a ∈ types)
    (hb : b ∈ types) :
    Swaps (Open types) (Alike Slot.places) (declareType root a) (declareType root b) := by
  intro d hd _ d₁₂ hrun
  obtain ⟨_, d₁, hrun₁, hrun₁₂⟩ := bind_run_eq_ok.mp hrun
  have hd₁ := declareType_keepsOpen hspelled root ha d hd _ d₁ hrun₁
  obtain ⟨first, hfirst, h₁⟩ := declareType_splits hd.sound hd.unclaimed ha _ d₁ hrun₁
  obtain ⟨second, hsecond, h₁₂⟩ := declareType_splits hd₁.sound hd₁.unclaimed hb _ d₁₂ hrun₁₂
  have hfirstSound := (declareType_ensures Sound.empty root a _ first hfirst).sound
  have hsecondSound := (declareType_ensures Sound.empty root b _ second hsecond).sound
  have hfresh : ∀ id, Known second.symbols id → first.symbols.get? id = none ∧
      d.symbols.get? id = none := by
    intro id hid
    have hnone := h₁₂.fresh id hid
    rw [h₁.symbols] at hnone
    exact Option.or_eq_none_iff.mp hnone
  obtain ⟨d₂, hrun₂, h₂⟩ := declareType_joins hd.unclaimed hb hsecond fun id hid =>
    (hfresh id hid).2
  have hd₂ := declareType_keepsOpen hspelled root hb d hd _ d₂ hrun₂
  obtain ⟨d₂₁, hrun₂₁, h₂₁⟩ := declareType_joins hd₂.unclaimed ha hfirst fun id hid => by
    rw [h₂.symbols, h₁.fresh id hid, Option.or_none, Option.eq_none_iff_forall_ne_some]
    intro s hs
    obtain ⟨x, hx⟩ := hid
    rw [(hfresh id ⟨s, hs⟩).1] at hx
    cases hx
  exact ⟨d₂₁, bind_run_eq_ok.mpr ⟨(), d₂, hrun₂, hrun₂₁⟩,
    Joined.alike_swap hfirstSound hsecondSound h₁ h₁₂ h₂ h₂₁⟩

/-- The first pass ends alike in every order of the entries. -/
theorem declareTypes_alike (hspelled : Spelled types) (root : String) (hperm : types.Perm others) :
    Ensures (forEach (declareType root) types) Draft.empty fun _ d =>
      ∃ d', forEach (declareType root) others Draft.empty = .ok ((), d') ∧
        Alike Slot.places d d' := by
  refine forEach_perm (P := Open types) (fun d => Alike.refl _ d) (fun _ _ _ => Alike.trans) hperm
    (fun _ ha => declareType_keepsOpen hspelled root ha)
    (fun _ ha => declareType_respectsOn root ha) ?_ (open_empty types) (open_empty types)
    (Alike.refl _ _)
  exact List.pairwise_of_forall_mem_list fun a ha b hb =>
    ⟨declareType_swaps hspelled root ha hb, declareType_swaps hspelled root hb ha⟩

end Index
end SymbolAtlas
