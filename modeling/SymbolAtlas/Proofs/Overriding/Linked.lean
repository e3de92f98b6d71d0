import SymbolAtlas.Proofs.Index.Ownership
import SymbolAtlas.Proofs.Overriding.Search
import Mathlib.Tactic

/-!
# Members that are linked as the hierarchy has it

A member overrides what it inherits from the nearest type above that declares such a member, and the
accessors of a property override those of the property that it overrides, side by side.  Metadata
that comes in later changes nothing of that, since it declares nothing.
-/

namespace SymbolAtlas

open Relation

namespace Tables

/-- The id belongs to a member of a type above the one around `m`, which `m` may override, and in
between nothing declares such a member. -/
def Inherits (t declared : Tables) (m : Symbol) (id : String) : Prop :=
  ∃ type base x, t.containing.get? m.id = some type ∧ TransGen t.HasBase type base ∧
    x ∈ t.membersOf base ∧ x.id = id ∧ m.MayOverride x ∧
      ∀ between, TransGen t.HasBase type between → TransGen t.HasBase between base →
        ∀ y ∈ declared.membersOf between, ¬ m.MayOverride y

/-- No type above the one around `m` declares a member that `m` may override. -/
def InheritsNothing (t declared : Tables) (m : Symbol) : Prop :=
  ∀ type base, t.containing.get? m.id = some type → TransGen t.HasBase type base →
    ∀ y ∈ declared.membersOf base, ¬ m.MayOverride y

end Tables

namespace Link

open Tables

variable {t : Tables} {m : Symbol} {id : String}

theorem inherits_of_inherited? (hacyclic : t.IsAcyclic) (hfound : inherited? t m = some id) :
    t.Inherits t m id := by
  unfold inherited? at hfound
  split at hfound
  next type htype =>
    obtain ⟨base, habove, hoverridable, hbetween⟩ :=
      inheritedFrom_eq_some hacyclic (fun _ _ => rfl) hfound
    obtain ⟨x, hx, hid, hmay⟩ := overridable?_eq_some hoverridable
    refine ⟨type, base, x, htype, habove, hx, hid, hmay, ?_⟩
    intro between hfrom hto
    exact overridable?_eq_none_iff.mp (hbetween between hfrom hto)
  next => cases hfound

theorem inheritsNothing_of_inherited? (hacyclic : t.IsAcyclic)
    (hfound : inherited? t m = none) : t.InheritsNothing t m := by
  intro type base htype habove
  unfold inherited? at hfound
  rw [htype] at hfound
  exact overridable?_eq_none_iff.mp
    (inheritedFrom_eq_none hacyclic (fun _ _ => rfl) hfound habove)

end Link

namespace Draft

open Tables

variable {d e e' : Draft} {m x : Symbol} {id type property a : String} {kind : MethodKind}

theorem Enriches.mem_membersOf (h : d.Enriches e) (hx : x ∈ d.membersOf type) :
    x ∈ e.membersOf type := by
  obtain ⟨id, hid, hget⟩ := mem_symbolsOf.mp hx
  exact mem_symbolsOf.mpr ⟨id, h.mem_listAt hid, h.kept id x hget⟩

/-- Where nothing has such a member, nothing declares one. -/
theorem Enriches.inherits (h : d.Enriches e) {b : String} (hinherits : e.Inherits e.toTables m b) :
    e.Inherits d.toTables m b := by
  obtain ⟨type, base, x, htype, habove, hx, hid, hmay, hbetween⟩ := hinherits
  refine ⟨type, base, x, htype, habove, hx, hid, hmay, ?_⟩
  intro between hfrom hto y hy
  exact hbetween between hfrom hto y (h.mem_membersOf hy)

theorem Enriches.inheritsNothing (h : d.Enriches e) (hnothing : e.InheritsNothing e.toTables m) :
    e.InheritsNothing d.toTables m :=
  fun type base htype habove y hy => hnothing type base htype habove y (h.mem_membersOf hy)

/-- Only what members override has changed. -/
def Relinks (d e : Draft) : Prop :=
  ∃ overridden, e = { d with overridden }

theorem Relinks.refl (d : Draft) : d.Relinks d :=
  ⟨d.overridden, rfl⟩

theorem Relinks.trans (hfirst : d.Relinks e) (hlast : e.Relinks e') : d.Relinks e' := by
  obtain ⟨first, rfl⟩ := hfirst
  obtain ⟨last, rfl⟩ := hlast
  exact ⟨last, rfl⟩

theorem Relinks.symbols (h : d.Relinks e) : e.symbols = d.symbols := by
  obtain ⟨overridden, rfl⟩ := h
  rfl

theorem Relinks.ordered (h : d.Relinks e) (hd : d.Ordered) : e.Ordered := by
  obtain ⟨overridden, rfl⟩ := h
  exact ⟨hd.owned.of_same rfl rfl rfl rfl,
    hd.equipped.of_same rfl (fun _ => Iff.rfl) fun _ _ _ _ => Iff.rfl⟩

theorem Relinks.hasAccessor_iff (h : d.Relinks e) :
    e.HasAccessor property kind a ↔ d.HasAccessor property kind a := by
  obtain ⟨overridden, rfl⟩ := h
  rfl

theorem Relinks.inherits_iff (h : d.Relinks e) {declared : Tables} {b : String} :
    e.Inherits declared m b ↔ d.Inherits declared m b := by
  obtain ⟨overridden, rfl⟩ := h
  rfl

theorem Relinks.inheritsNothing_iff (h : d.Relinks e) {declared : Tables} :
    e.InheritsNothing declared m ↔ d.InheritsNothing declared m := by
  obtain ⟨overridden, rfl⟩ := h
  rfl

theorem Enriches.hasAccessor_iff (h : d.Enriches e) (hd : d.Ordered) (he : e.Ordered)
    (hproperty : KnownAs d.symbols .property property)
    (hkind : kind = .propertyGet ∨ kind = .propertySet) :
    e.HasAccessor property kind a ↔ d.HasAccessor property kind a := by
  obtain ⟨getter, setter, hpair, hget, hset⟩ := hd.equipped.sides property hproperty
  have hlater := h.accessors_eq hproperty.known
  rw [hpair] at hlater
  have hsides := he.equipped.hasAccessor_iff hlater a
  obtain rfl | rfl := hkind
  · rw [← hget, hsides.1]
  · rw [← hset, hsides.2]

/-- The links of a member, and those of its accessors if it has any, are as the hierarchy has
them. -/
structure Linked (d : Draft) (t : Tables) (id : String) : Prop where
  inherits : ∀ m, d.symbols.get? id = some m → ∀ b, t.overridden.get? id = some b →
    t.Inherits d.toTables m b
  nothing : ∀ m, d.symbols.get? id = some m → m.isOverride = true →
    t.overridden.get? id = none → t.InheritsNothing d.toTables m
  accessors : ∀ kind, kind = .propertyGet ∨ kind = .propertySet → ∀ a,
    t.HasAccessor id kind a → ∀ b, t.overridden.get? a = some b ↔
      ∃ target, t.overridden.get? id = some target ∧ t.HasAccessor target kind b

section Later

variable (hd : d.Enriches e) (h : e.Enriches e') (hbases : e'.HasBase = e.HasBase)

include h hbases

theorem inherits_later {b : String} (hm : Known e.symbols m.id)
    (hinherits : e.Inherits d.toTables m b) : e'.Inherits d.toTables m b := by
  obtain ⟨type, base, x, htype, habove, hx, hid, hmay, hbetween⟩ := hinherits
  unfold Inherits
  rw [hbases, h.containing_eq hm]
  exact ⟨type, base, x, htype, habove, h.mem_membersOf hx, hid, hmay, hbetween⟩

theorem inheritsNothing_later (hm : Known e.symbols m.id)
    (hnothing : e.InheritsNothing d.toTables m) : e'.InheritsNothing d.toTables m := by
  unfold InheritsNothing
  rw [hbases, h.containing_eq hm]
  exact hnothing

include hd

/-- What is linked remains so, as long as its links are left alone. -/
theorem Linked.later (hlinked : d.Linked e.toTables id)
    (hids : e.symbols.Each fun id s => s.id = id) (he : e.Ordered) (he' : e'.Ordered)
    (hid : Known d.symbols id) (hself : e'.overridden.get? id = e.overridden.get? id)
    (haccessors : ∀ kind, kind = .propertyGet ∨ kind = .propertySet → ∀ a,
      e.HasAccessor id kind a → e'.overridden.get? a = e.overridden.get? a) :
    d.Linked e'.toTables id := by
  obtain ⟨m, hm⟩ := hid
  have hknown := hd.kept id m hm
  obtain rfl : m.id = id := hids.get? hknown
  constructor
  · intro m' hm' b hb
    obtain rfl : m = m' := Option.some.inj (hm.symm.trans hm')
    rw [hself] at hb
    exact inherits_later h hbases ⟨m, hknown⟩ (hlinked.inherits m hm b hb)
  · intro m' hm' hmodifier hnone
    obtain rfl : m = m' := Option.some.inj (hm.symm.trans hm')
    rw [hself] at hnone
    exact inheritsNothing_later h hbases ⟨m, hknown⟩ (hlinked.nothing m hm hmodifier hnone)
  · intro kind hkind a ha b
    -- the overridden member is a property as well, so that its accessors are the same
    have hproperty : m.kind = .property := by
      obtain ⟨found, hfound, hproperty⟩ := he'.owned.property_of_hasAccessor hkind ha
      obtain rfl : m = found := Option.some.inj ((h.kept m.id m hknown).symm.trans hfound)
      exact hproperty
    rw [h.hasAccessor_iff he he' ⟨m, hknown, hproperty⟩ hkind] at ha
    rw [haccessors kind hkind a ha, hself, hlinked.accessors kind hkind a ha b]
    refine exists_congr fun target => and_congr_right fun htarget => ?_
    obtain ⟨-, base, x, -, -, hx, rfl, hmay, -⟩ := hlinked.inherits m hm target htarget
    have hheld := holds_of_mem_symbolsOf hids hx
    exact (h.hasAccessor_iff he he' ⟨x, hheld, hmay.2.1.trans hproperty⟩ hkind).symm

end Later

end Draft
end SymbolAtlas
