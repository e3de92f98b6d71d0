import SymbolAtlas.Proofs.Index.Link
import Mathlib.Logic.Relation
import Mathlib.Tactic

/-!
# The search for an overridden member

A member overrides the first of its name, kind and parameter types that a type above its own has,
the types being asked from below.  The search uses up the bases that it follows.  Where no type lies
above itself, none of them is needed twice, and all types above are asked until one has an answer.
-/

namespace SymbolAtlas

open Relation

/-- The second member is one that the first may override: it has the same name and kind and matching
parameter types. -/
def Symbol.MayOverride (m x : Symbol) : Prop :=
  x.name = m.name ∧ x.kind = m.kind ∧
    Signature.typesMatch m.parameterTypes x.parameterTypes = true

namespace Tables

/-- The second type is the base of the first. -/
def HasBase (t : Tables) (type base : String) : Prop :=
  t.baseTypes.get? type = some base

/-- No type lies above itself. -/
def IsAcyclic (t : Tables) : Prop :=
  ∀ type, ¬ TransGen t.HasBase type type

variable {t t' : Tables} {type base other : String}

theorem IsAcyclic.of_hasBase (h : t'.IsAcyclic) (hbases : t'.HasBase = t.HasBase) :
    t.IsAcyclic := by
  unfold IsAcyclic
  rw [← hbases]
  exact h

/-- Above a type lies its base, with all that lies above that. -/
theorem HasBase.eq_or_above (hbase : t.HasBase type base) (habove : TransGen t.HasBase type other) :
    other = base ∨ TransGen t.HasBase base other := by
  obtain ⟨next, hnext, hrest⟩ := TransGen.head'_iff.mp habove
  obtain rfl : base = next := Option.some.inj (hbase.symm.trans hnext)
  exact reflTransGen_iff_eq_or_transGen.mp hrest

end Tables

namespace Link

open Tables

variable {t : Tables} {m : Symbol} {type id : String} {bases : List (String × String)}

theorem overridable?_eq_some (hfound : overridable? t m type = some id) :
    ∃ x ∈ t.membersOf type, x.id = id ∧ m.MayOverride x := by
  unfold overridable? at hfound
  obtain ⟨x, hx, rfl⟩ := Option.map_eq_some_iff.mp hfound
  refine ⟨x, List.mem_of_find?_eq_some hx, rfl, ?_⟩
  simpa [Symbol.MayOverride, and_assoc] using List.find?_some hx

theorem overridable?_eq_none_iff :
    overridable? t m type = none ↔ ∀ x ∈ t.membersOf type, ¬ m.MayOverride x := by
  unfold overridable?
  simp [Symbol.MayOverride]

/-- The bases that are left show all that lies above a type. -/
def Shows (t : Tables) (bases : List (String × String)) (type : String) : Prop :=
  ∀ other, ReflTransGen t.HasBase type other → Table.find? other bases = t.baseTypes.get? other

theorem Shows.hasBase_iff (h : Shows t bases type) {base : String} :
    Table.find? type bases = some base ↔ t.HasBase type base := by
  rw [h type .refl, HasBase]

/-- The base that a search follows is not asked for again above it. -/
theorem Shows.above (h : Shows t bases type) (hacyclic : t.IsAcyclic) {base : String}
    (hbase : t.HasBase type base) : Shows t (Table.without type bases) base := by
  intro other hother
  have hne : other ≠ type := by
    rintro rfl
    exact hacyclic other (.head' hbase hother)
  rw [Table.find?_without, if_neg hne]
  exact h other (.head hbase hother)

/-- A search that succeeds finds the member in a type above, and no type between has one. -/
theorem inheritedFrom_eq_some (hacyclic : t.IsAcyclic) (hbases : Shows t bases type)
    (hfound : inheritedFrom t m bases type = some id) :
    ∃ base, TransGen t.HasBase type base ∧ overridable? t m base = some id ∧
      ∀ between, TransGen t.HasBase type between → TransGen t.HasBase between base →
        overridable? t m between = none := by
  induction bases, type using inheritedFrom.induct t m with
  | case1 bases type hnone =>
      rw [inheritedFrom_of_none hnone] at hfound
      cases hfound
  | case2 bases type base hbase found hoverridable =>
      rw [inheritedFrom_of_some hbase] at hfound
      simp only [hoverridable, Option.some.injEq] at hfound
      subst hfound
      have hlink := hbases.hasBase_iff.mp hbase
      refine ⟨base, .single hlink, hoverridable, ?_⟩
      intro between habove hbelow
      obtain rfl | hbeyond := hlink.eq_or_above habove
      · exact absurd hbelow (hacyclic between)
      · exact absurd (hbeyond.trans hbelow) (hacyclic base)
  | case3 bases type base hbase hnone ih =>
      rw [inheritedFrom_of_some hbase] at hfound
      simp only [hnone] at hfound
      have hlink := hbases.hasBase_iff.mp hbase
      obtain ⟨top, htop, hoverridable, hbetween⟩ := ih (hbases.above hacyclic hlink) hfound
      refine ⟨top, .head hlink htop, hoverridable, ?_⟩
      intro between habove hbelow
      obtain rfl | hbeyond := hlink.eq_or_above habove
      · exact hnone
      · exact hbetween between hbeyond hbelow

/-- A search that fails has asked all types above. -/
theorem inheritedFrom_eq_none (hacyclic : t.IsAcyclic) (hbases : Shows t bases type)
    (hfound : inheritedFrom t m bases type = none) {base : String}
    (hbase : TransGen t.HasBase type base) : overridable? t m base = none := by
  induction bases, type using inheritedFrom.induct t m with
  | case1 bases type hnone =>
      obtain ⟨next, hnext, -⟩ := TransGen.head'_iff.mp hbase
      simp [hbases.hasBase_iff.mpr hnext] at hnone
  | case2 bases type next hnext found hoverridable =>
      rw [inheritedFrom_of_some hnext] at hfound
      simp [hoverridable] at hfound
  | case3 bases type next hnext hnone ih =>
      rw [inheritedFrom_of_some hnext] at hfound
      simp only [hnone] at hfound
      have hlink := hbases.hasBase_iff.mp hnext
      obtain rfl | hbeyond := hlink.eq_or_above hbase
      · exact hnone
      · exact ih (hbases.above hacyclic hlink) hfound hbeyond

end Link
end SymbolAtlas
