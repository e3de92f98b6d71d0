import SymbolAtlas.Proofs.Index.Ownership
import SymbolAtlas.Proofs.Snapshot.Complete
import SymbolAtlas.Resolution
import Mathlib.Tactic

/-!
# The forest of a snapshot

In a loaded workspace members lie in types, accessors in properties and nested types in other types,
so that the search for the type around a symbol ends wherever it starts, though it is not told how
far it may go.
-/

namespace SymbolAtlas
namespace Snapshot

open Tables

/-- Going outwards from a symbol, if there is one, until a type or nothing is around. -/
inductive Climbs (s : Snapshot) : Option Symbol → Option Symbol → Prop where
  | outside : Climbs s none none
  | type {x : Symbol} (hkind : x.kind = .namedType) : Climbs s (some x) (some x)
  | outwards {x : Symbol} {found : Option Symbol} (hkind : x.kind ≠ .namedType)
      (hclimbs : Climbs s (s.containerOf? x) found) : Climbs s (some x) found

/-- Members lie in the types that list them, accessors in properties, and types in other types. -/
structure Forest (s : Snapshot) : Prop where
  /-- A member is listed by one type and once.  It lies in that type, or, as an accessor, in a
  property of that type. -/
  member : ∀ x, s.symbol? x.id = some x → x.kind ≠ .namedType →
    ∃ type, s.symbol? type.id = some type ∧ type.kind = .namedType ∧
      (s.tables.members.listAt type.id).count x.id = 1 ∧
      (∀ other, x.id ∈ s.tables.members.listAt other → other = type.id) ∧
      (x.isAccessor = false → s.tables.containing.get? x.id = some type.id) ∧
      (x.isAccessor = true → ∃ property, s.symbol? property.id = some property ∧
        property.kind = .property ∧ property.id ∈ s.tables.members.listAt type.id ∧
        s.tables.containing.get? x.id = some property.id)
  /-- The entry of a property for its accessors names those that lie in it, and only those. -/
  property : ∀ p, s.symbol? p.id = some p → p.kind = .property →
    ∃ getter setter, s.tables.accessors.get? p.id = some (getter, setter) ∧
      (∀ id, getter = some id ↔ s.tables.HasAccessor p.id .propertyGet id) ∧
        ∀ id, setter = some id ↔ s.tables.HasAccessor p.id .propertySet id
  /-- Nothing but a property has an entry for accessors. -/
  properties : ∀ id pair, s.tables.accessors.get? id = some pair →
    KnownAs s.tables.symbols .property id
  /-- A type lies in another type, if in anything. -/
  nested : ∀ type, s.symbol? type.id = some type → type.kind = .namedType →
    ∀ container, s.tables.containing.get? type.id = some container →
      container ≠ type.id ∧ KnownAs s.tables.symbols .namedType container
  /-- No way outwards is endless. -/
  finite : WellFounded fun container id => s.tables.LiesIn id container
  /-- Every member lies in a type, directly or not. -/
  reaches : ∀ x, s.symbol? x.id = some x → x.kind ≠ .namedType →
    ∃ type, KnownAs s.tables.symbols .namedType type ∧
      Relation.TransGen s.tables.LiesIn x.id type
  /-- Going outwards from around a symbol ends, and with the type that is found with a bound. -/
  ends : ∀ x, s.Climbs (s.containerOf? x) ((s.containerOf? x).bind s.enclosingType?)

variable {s : Snapshot}

/-- Links that agree with the tables on the whole way outwards lead to its end. -/
theorem climbs_enclosingTypeFrom (hs : s.tables.Closed)
    (hfinite : WellFounded fun container id => s.tables.LiesIn id container) (x : Symbol)
    (links : List (String × String))
    (hlinks : ∀ id, Relation.ReflTransGen s.tables.LiesIn x.id id →
      Table.find? id links = s.tables.containing.get? id) :
    s.Climbs (some x) (s.enclosingTypeFrom links x) := by
  induction hid : x.id using hfinite.induction generalizing x links with
  | _ id ih =>
      subst hid
      rw [enclosingTypeFrom]
      by_cases hkind : x.kind = .namedType
      · rw [if_pos (by simp [hkind])]
        exact .type hkind
      rw [if_neg (by simp [hkind])]
      refine .outwards hkind ?_
      have hself := hlinks x.id .refl
      unfold containerOf?
      split
      next hnone =>
        rw [← hself, hnone]
        simpa using Climbs.outside
      next container hcontainer =>
        rw [← hself, hcontainer, Option.bind_some]
        cases hnext : s.symbol? container with
        | none => exact .outside
        | some next =>
            have hid : next.id = container := hs.ids.get? hnext
            have hlies : s.tables.LiesIn x.id next.id := by
              rw [LiesIn, ← hself, hcontainer, hid]
            refine ih next.id hlies next _ ?_ rfl
            -- the way outwards never comes back, so the link that was used up is not missed
            intro id hreach
            have hne : id ≠ x.id := by
              rintro rfl
              have hcycle := Relation.transGen_swap.mpr (Relation.TransGen.head' hlies hreach)
              exact hfinite.transGen.asymmetric x.id x.id hcycle hcycle
            rw [Table.find?_without, if_neg hne]
            exact hlinks id (.head hlies hreach)

theorem climbs_enclosingType (hs : s.tables.Closed) (howned : s.tables.Owned) (x : Symbol) :
    s.Climbs (s.containerOf? x) ((s.containerOf? x).bind s.enclosingType?) := by
  cases s.containerOf? x with
  | none => exact .outside
  | some container =>
      exact climbs_enclosingTypeFrom hs howned.wellFounded container _ fun _ _ => rfl

theorem forest_of_owned (hs : s.tables.Closed) (howned : s.tables.Owned)
    (hequipped : s.tables.Equipped) : s.Forest where
  member := by
    intro x hx hkind
    obtain ⟨type, hlisted⟩ := howned.listed x.id x hx hkind
    obtain ⟨found, hfound, hnamed⟩ := (howned.lists type x.id hlisted).1
    obtain rfl : found.id = type := hs.ids.get? hfound
    refine ⟨found, hfound, hnamed, List.count_eq_one_of_mem (howned.once found.id) hlisted, ?_,
      howned.plain found.id x.id hlisted x hx, ?_⟩
    · intro other hother
      exact howned.sole other found.id x.id hother hlisted
    · intro haccessor
      obtain ⟨-, property, hproperty, hlies, p, hp, hpkind⟩ :=
        howned.accessor found.id x.id hlisted x hx haccessor
      obtain rfl : p.id = property := hs.ids.get? hp
      exact ⟨p, hp, hpkind, hproperty, hlies⟩
  property := by
    intro p hp hkind
    exact hequipped.sides p.id ⟨p, hp, hkind⟩
  properties := hequipped.properties
  nested := by
    intro type htype hkind container hcontainer
    obtain ⟨hknown, hshorter⟩ := howned.nested type.id container ⟨type, htype, hkind⟩ hcontainer
    refine ⟨?_, hknown⟩
    rintro rfl
    exact Nat.lt_irrefl _ hshorter
  finite := howned.wellFounded
  reaches := by
    intro x hx hkind
    obtain ⟨type, hlisted⟩ := howned.listed x.id x hx hkind
    exact ⟨type, (howned.lists type x.id hlisted).1, howned.transGen_liesIn hx hlisted⟩
  ends := climbs_enclosingType hs howned

/-- In a document that can be loaded, ownership is a forest. -/
theorem forest_of_ofDocument {disk : Disk} {data : Value} {root : String}
    {sourcePath : Option String} (hs : ofDocument disk data root sourcePath = .ok s) :
    s.Forest := by
  have ht := tables_of_ofDocument hs
  obtain ⟨howned, hequipped⟩ := Index.owned_of_tables ht
  exact forest_of_owned (Index.closed_of_tables ht) howned hequipped

/-- An order with lines inside, of which a method reads a property of a type that nothing declares. -/
def nestedDocument : Value :=
  let total := .mapping [(.text "kind", .text "property"), (.text "name", .text "Total")]
  let read := .mapping [(.text "op", .text "property"), (.text "property", .text "Price.Net")]
  let sum := .mapping [(.text "name", .text "Sum"), (.text "body", .list [read])]
  .mapping [(.text "types", .list
    [ .mapping [(.text "name", .text "Order")],
      .mapping [(.text "name", .text "Order+Line"), (.text "members", .list [total, sum])]])]

theorem forest_of_ofDocument_nested : ∃ s,
    ofDocument .empty nestedDocument "/work" none = .ok s ∧
      s.tables.containing.get? "M:Order+Line.get_Total" = some "P:Order+Line.Total" ∧
        s.tables.containing.get? "M:Price.set_Net" = some "P:Price.Net" ∧
          s.tables.containing.get? "T:Order+Line" = some "T:Order" ∧ s.Forest := by
  have hfacts : (ofDocument .empty nestedDocument "/work" none).toOption.any (fun s => decide (
      s.tables.containing.get? "M:Order+Line.get_Total" = some "P:Order+Line.Total" ∧
        s.tables.containing.get? "M:Price.set_Net" = some "P:Price.Net" ∧
          s.tables.containing.get? "T:Order+Line" = some "T:Order")) = true := by
    decide +kernel
  obtain ⟨s, hs, hfacts⟩ := Attempt.exists_ok_of_any hfacts
  obtain ⟨hgetter, hsetter, hline⟩ := of_decide_eq_true hfacts
  exact ⟨s, hs, hgetter, hsetter, hline, forest_of_ofDocument hs⟩

end Snapshot
end SymbolAtlas
