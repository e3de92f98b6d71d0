import SymbolAtlas.Proofs.Snapshot.Dispatch
import Mathlib.Tactic

/-!
# Implementing types further down

A type has the interfaces of its bases, and with an interface it has all that this one extends.  So
the types that implement an interface include whatever classes and structs are derived from them,
and whatever implements an interface that extends it.  Neither bases nor extensions have to end for
this.  A type never counts as an interface of its own, which leaves nothing out, as an interface is
not among the types that can implement.
-/

namespace SymbolAtlas

open Relation Tables

namespace Snapshot

variable {s : Snapshot} {i k x type : Symbol} {a b c : String}

/-- What a base has, a derived type has as well. -/
theorem mem_interfaceIds_of_hasBase (hbase : TransGen s.HasBase a b) (hne : c ≠ a)
    (hc : c ∈ s.interfaceIds b) : c ∈ s.interfaceIds a := by
  obtain ⟨-, start, hstart, hchain⟩ := mem_interfaceIds_iff.mp hc
  refine mem_interfaceIds_iff.mpr ⟨hne, start, Or.inr ?_, hchain⟩
  obtain rfl | habove := hstart
  · exact hbase
  · exact hbase.trans habove

/-- With an interface a type has what this one extends. -/
theorem mem_interfaceIds_of_extends (hchain : TransGen s.Extends b c) (hne : c ≠ a)
    (hb : b ∈ s.interfaceIds a) : c ∈ s.interfaceIds a := by
  obtain ⟨-, start, hstart, hfirst⟩ := mem_interfaceIds_iff.mp hb
  have hdeclares : TransGen s.Declares b c := TransGen.mono (fun _ _ h => h.2) _ _ hchain
  exact mem_interfaceIds_iff.mpr ⟨hne, start, hstart, hfirst.trans hdeclares⟩

/-- An interface is implemented by the classes and structs that have it. -/
theorem mem_implementationsOf_interface_iff (hs : s.tables.Closed) (hkind : i.kind = .namedType) :
    x ∈ s.implementationsOf i ↔ Holds s.tables.symbols x ∧ x.kind = .namedType ∧
      x.typeKind.any TypeKind.isConcrete = true ∧ i.id ∈ s.interfaceIds x.id := by
  have himplementers : s.implementationsOf i = s.implementers i.id := if_pos (by simp [hkind])
  rw [himplementers]
  constructor
  · intro hx
    have hheld := holds_of_mem_sorted hs hx
    obtain ⟨hnamed, hrest⟩ := (mem_implementers_iff hs hheld).mp hx
    obtain ⟨found, hfound, hfoundKind, hid⟩ := (hs.typeNames x.id).mp hnamed
    obtain rfl := (hs.holds hfound).eq_of_id hheld hid
    exact ⟨hheld, hfoundKind, hrest⟩
  · rintro ⟨hheld, hnamed, hrest⟩
    have hvalue : x ∈ s.tables.symbols.values :=
      List.mem_map.mpr ⟨(x.id, x), Table.mem_of_find? hheld, rfl⟩
    exact (mem_implementers_iff hs hheld).mpr
      ⟨(hs.typeNames x.id).mpr ⟨x, hvalue, hnamed, rfl⟩, hrest⟩

/-- What can implement is not an interface. -/
theorem ne_of_isConcrete (hi : Holds s.tables.symbols i) (hinterface : isInterface i = true)
    (hx : Holds s.tables.symbols x) (hconcrete : x.typeKind.any TypeKind.isConcrete = true) :
    i.id ≠ x.id := by
  intro hid
  obtain rfl := hi.eq_of_id hx hid
  rw [beq_iff_eq.mp hinterface] at hconcrete
  cases hconcrete

/-- Classes and structs that are derived from a type which implements an interface implement it,
and so does whatever implements an interface that extends it. -/
theorem implementationsOf_closed (hs : s.tables.WellFormed) (hlinks : s.tables.LinksTypes)
    (hi : Holds s.tables.symbols i) (hkind : i.kind = .namedType)
    (hinterface : isInterface i = true) :
    (∀ type ∈ s.implementationsOf i, ∀ x ∈ s.derivedTypes type true,
      x.typeKind.any TypeKind.isConcrete = true → x ∈ s.implementationsOf i) ∧
    (∀ k ∈ s.derivedInterfaces i true, ∀ x ∈ s.implementationsOf k,
      x ∈ s.implementationsOf i) := by
  have himplements : ∀ {x}, x ∈ s.implementationsOf i ↔ _ :=
    mem_implementationsOf_interface_iff hs.closed hkind
  constructor
  · intro type htype x hx hconcrete
    have hheld := holds_of_mem_sorted hs.closed hx
    have hnamed := kind_of_mem_derivedTypes hs hlinks hx
    obtain ⟨-, -, -, hhas⟩ := himplements.mp htype
    obtain ⟨-, hbase⟩ := (mem_derivedTypes_iff hs hheld).mp hx
    have hne := ne_of_isConcrete hi hinterface hheld hconcrete
    exact himplements.mpr
      ⟨hheld, hnamed, hconcrete, mem_interfaceIds_of_hasBase hbase hne hhas⟩
  · intro k hk x hx
    have hkHeld := holds_of_mem_sorted hs.closed hk
    obtain ⟨-, hchain⟩ := (mem_derivedInterfaces_iff hs hkHeld).mp hk
    obtain ⟨-, hkKind⟩ := isInterface_of_mem_derivedInterfaces hs hlinks hk
    obtain ⟨hheld, hnamed, hconcrete, hhas⟩ :=
      (mem_implementationsOf_interface_iff hs.closed hkKind).mp hx
    have hne := ne_of_isConcrete hi hinterface hheld hconcrete
    exact himplements.mpr
      ⟨hheld, hnamed, hconcrete, mem_interfaceIds_of_extends hchain hne hhas⟩

/-- Two classes that are bases of each other, of which one has one of two interfaces that extend
each other. -/
def broodDocument : Value :=
  let type (name kind : String) (links : List (Value × Value)) : Value :=
    .mapping ((.text "name", .text name) :: (.text "kind", .text kind) :: links)
  let base (name : String) : Value × Value := (.text "base", .text name)
  let has (name : String) : Value × Value := (.text "interfaces", .list [.text name])
  .mapping [(.text "types", .list [
    type "Egg" "class" [base "Hen", has "INight"], type "Hen" "struct" [base "Egg"],
    type "IDay" "interface" [has "INight"], type "INight" "interface" [has "IDay"]])]

theorem implementationsOf_closed_brood : ∃ s egg hen day night,
    ofDocument .empty broodDocument "/work" none = .ok s ∧
      [egg, hen, day, night].map Symbol.id = ["T:Egg", "T:Hen", "T:IDay", "T:INight"] ∧
      (egg ∈ s.implementationsOf night ∧ hen ∈ s.derivedTypes egg true ∧
        hen ∈ s.implementationsOf night) ∧
      (night ∈ s.derivedInterfaces day true ∧ egg ∈ s.implementationsOf day) := by
  have hfacts : (ofDocument .empty broodDocument "/work" none).toOption.any (fun s => decide (
      (∀ id ∈ ["T:Egg", "T:Hen"], (s.symbol? id).any (fun t =>
        decide (t.kind = .namedType ∧ t.typeKind.any TypeKind.isConcrete = true)) = true) ∧
      (∀ id ∈ ["T:IDay", "T:INight"], (s.symbol? id).any (fun t =>
        decide (t.kind = .namedType ∧ isInterface t = true)) = true) ∧
      s.tables.baseTypes.get? "T:Hen" = some "T:Egg" ∧
      "T:INight" ∈ s.tables.declaredInterfaces.listAt "T:Egg" ∧
      "T:IDay" ∈ s.tables.declaredInterfaces.listAt "T:INight")) = true := by
    decide +kernel
  obtain ⟨s, hs, hfacts⟩ := Attempt.exists_ok_of_any hfacts
  obtain ⟨hclasses, hinterfaces, hhen, hegg, hnight⟩ := of_decide_eq_true hfacts
  have hwell := wellFormed_of_ofDocument hs
  have hlinks := linksTypes_of_ofDocument hs
  obtain ⟨egg, heggHeld, heggId, heggFacts⟩ :=
    hwell.closed.exists_holds_of_any (hclasses "T:Egg" (by simp))
  obtain ⟨hen, hhenHeld, hhenId, hhenFacts⟩ :=
    hwell.closed.exists_holds_of_any (hclasses "T:Hen" (by simp))
  obtain ⟨day, hdayHeld, hdayId, hdayFacts⟩ :=
    hwell.closed.exists_holds_of_any (hinterfaces "T:IDay" (by simp))
  obtain ⟨night, hnightHeld, hnightId, hnightFacts⟩ :=
    hwell.closed.exists_holds_of_any (hinterfaces "T:INight" (by simp))
  obtain ⟨heggKind, heggConcrete⟩ := of_decide_eq_true heggFacts
  obtain ⟨-, hhenConcrete⟩ := of_decide_eq_true hhenFacts
  obtain ⟨hdayKind, hday⟩ := of_decide_eq_true hdayFacts
  obtain ⟨hnightKind, hnightInterface⟩ := of_decide_eq_true hnightFacts
  have hnightExtends : s.Extends night.id day.id := by
    rw [← hdayId, ← hnightId] at hnight
    exact ⟨(isInterfaceId_of_holds hnightHeld).trans hnightInterface, hnight⟩
  have heggImplements : egg ∈ s.implementationsOf night := by
    rw [mem_implementationsOf_interface_iff hwell.closed hnightKind, mem_interfaceIds_iff, hnightId,
      heggId]
    exact ⟨heggHeld, heggKind, heggConcrete, by decide, "T:Egg", Or.inl rfl, .single hegg⟩
  have hhenDerived : hen ∈ s.derivedTypes egg true := by
    rw [mem_derivedTypes_iff hwell hhenHeld, hhenId, heggId]
    exact ⟨by decide, .single hhen⟩
  have hnightDerived : night ∈ s.derivedInterfaces day true := by
    refine (mem_derivedInterfaces_iff hwell hnightHeld).mpr ⟨?_, .single hnightExtends⟩
    rw [hnightId, hdayId]
    decide
  refine ⟨s, egg, hen, day, night, hs, by simp [heggId, hhenId, hdayId, hnightId],
    ⟨heggImplements, hhenDerived, ?_⟩, hnightDerived, ?_⟩
  · exact (implementationsOf_closed hwell hlinks hnightHeld hnightKind hnightInterface).1 egg
      heggImplements hen hhenDerived hhenConcrete
  · exact (implementationsOf_closed hwell hlinks hdayHeld hdayKind hday).2 night hnightDerived egg
      heggImplements

end Snapshot
end SymbolAtlas
