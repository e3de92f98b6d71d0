import SymbolAtlas.Proofs.Index.Kind
import SymbolAtlas.Proofs.Overriding.Document
import SymbolAtlas.Proofs.Snapshot.Dispatch
import SymbolAtlas.Proofs.Snapshot.Ownership
import Mathlib.Tactic

/-!
# Overrides along the hierarchy

Where entries do not name what their members override, a member overrides the nearest one that fits
above its type, and accessors follow their properties.  A chain of overrides therefore climbs a
chain of bases, and whatever overrides a member lies in a type derived from the member's own.
-/

namespace SymbolAtlas

open Relation Tables

namespace Tables

variable {t : Tables} {s : Symbol} {id type property a : String} {kind : MethodKind}

theorem Owned.exists_hasAccessor (h : t.Owned) (hkinds : t.KindsMethods)
    (hs : t.symbols.get? id = some s) (haccessor : s.isAccessor = true) :
    ∃ property kind, (kind = .propertyGet ∨ kind = .propertySet) ∧
      t.HasAccessor property kind id := by
  have hside : s.methodKind = some .propertyGet ∨ s.methodKind = some .propertySet := by
    simpa [Symbol.isAccessor] using haccessor
  have hmethod : s.kind = .method := hkinds.get? hs (by obtain h | h := hside <;> simp [h])
  obtain ⟨type, hlisted⟩ := h.listed id s hs (by simp [hmethod])
  obtain ⟨-, property, -, hlies, -⟩ := h.accessor type id hlisted s hs haccessor
  obtain hget | hset := hside
  · exact ⟨property, .propertyGet, Or.inl rfl, hlies, s, hs, hmethod, hget⟩
  · exact ⟨property, .propertySet, Or.inr rfl, hlies, s, hs, hmethod, hset⟩

/-- Accessors are listed by the types that list their properties. -/
theorem Owned.mem_listAt_of_hasAccessor (h : t.Owned)
    (hkind : kind = .propertyGet ∨ kind = .propertySet) (ha : t.HasAccessor property kind a)
    (hproperty : property ∈ t.members.listAt type) : a ∈ t.members.listAt type := by
  obtain ⟨hlies, s, hs, hmethod, hside⟩ := ha
  have haccessor : s.isAccessor = true := by
    obtain rfl | rfl := hkind <;> simp [Symbol.isAccessor, hside]
  obtain ⟨other, hlisted⟩ := h.listed a s hs (by simp [hmethod])
  obtain ⟨-, found, hfound, hin, -⟩ := h.accessor other a hlisted s hs haccessor
  obtain rfl : property = found := Option.some.inj (hlies.symm.trans hin)
  obtain rfl := h.sole type other property hproperty hfound
  exact hlisted

end Tables

namespace Snapshot

variable {s : Snapshot} {declared : Tables} {m x type : Symbol} {a b : String}

theorem Climbs.eq_of_type {found : Option Symbol} (h : s.Climbs (some type) found)
    (hkind : type.kind = .namedType) : found = some type := by
  cases h with
  | type => rfl
  | outwards hmember => exact absurd hkind hmember

theorem Climbs.outwards_of_member {found : Option Symbol} (h : s.Climbs (some x) found)
    (hmember : x.kind ≠ .namedType) : s.Climbs (s.containerOf? x) found := by
  cases h with
  | type hkind => exact absurd hkind hmember
  | outwards _ hclimbs => exact hclimbs

/-- The type around a member is the one that lists it. -/
theorem enclosingType?_of_mem (hs : s.tables.Closed) (howned : s.tables.Owned)
    (hx : Holds s.tables.symbols x) (htype : Holds s.tables.symbols type)
    (hlisted : x.id ∈ s.tables.members.listAt type.id) : s.enclosingType? x = some type := by
  have hget : ∀ {y : Symbol}, Holds s.tables.symbols y → s.symbol? y.id = some y := fun hy => hy
  obtain ⟨hnamed, member, hfound, hmember⟩ := howned.lists type.id x.id hlisted
  obtain rfl : x = member := Option.some.inj (hx.symm.trans hfound)
  have hkind := hnamed.kind_eq htype
  have hplain : ∀ {y : Symbol}, Holds s.tables.symbols y → y.isAccessor = false →
      y.id ∈ s.tables.members.listAt type.id → s.containerOf? y = some type := by
    intro y hy haccessor hy'
    rw [containerOf?, howned.plain type.id y.id hy' y hy haccessor, Option.bind_some, hget htype]
  have hclimbs : s.Climbs (s.containerOf? x) (s.enclosingType? x) :=
    (climbs_enclosingTypeFrom hs howned.wellFounded x _ fun _ _ => rfl).outwards_of_member hmember
  cases haccessor : x.isAccessor with
  | false =>
      rw [hplain hx haccessor hlisted] at hclimbs
      exact hclimbs.eq_of_type hkind
  | true =>
      obtain ⟨-, property, hproperty, hlies, p, hp, hpkind⟩ :=
        howned.accessor type.id x.id hlisted x hx haccessor
      obtain rfl : p.id = property := hs.ids.get? hp
      rw [containerOf?, hlies, Option.bind_some, hget hp] at hclimbs
      have hout := hclimbs.outwards_of_member (by simp [hpkind])
      rw [hplain hp (howned.isAccessor_eq_false hp hpkind) hproperty] at hout
      exact hout.eq_of_type hkind

/-! ## Chains of overrides -/

section

variable (hs : s.tables.Closed) (howned : s.tables.Owned) (hkinds : s.tables.KindsMethods)
  (hfollows : s.tables.FollowsHierarchy declared)

include hs howned hfollows

/-- What a member other than an accessor overrides is listed by a type above the member's own. -/
theorem exists_above_of_plain (hm : Holds s.tables.symbols m) (hplain : m.isAccessor = false)
    (hover : s.Overrides m.id b) :
    ∃ type base, m.id ∈ s.tables.members.listAt type ∧ b ∈ s.tables.members.listAt base ∧
      TransGen s.HasBase type base := by
  obtain ⟨hkind, type, base, x, htype, habove, hx, rfl, -⟩ :=
    hfollows.inherits m hm hplain b hover
  obtain ⟨other, hlisted⟩ := howned.listed m.id m hm hkind
  have hown := howned.plain other m.id hlisted m hm hplain
  obtain rfl : type = other := Option.some.inj (htype.symm.trans hown)
  obtain ⟨id, hid, hget⟩ := mem_symbolsOf.mp hx
  obtain rfl : x.id = id := hs.ids.get? hget
  exact ⟨type, base, hlisted, hid, habove⟩

include hkinds

/-- Each override climbs from one type to another above it. -/
theorem exists_above_of_overrides (hover : s.Overrides a b) :
    ∃ type base, a ∈ s.tables.members.listAt type ∧ b ∈ s.tables.members.listAt base ∧
      TransGen s.HasBase type base := by
  obtain ⟨m, hm⟩ := (hs.refers.overridden.get? hover).1
  obtain rfl : m.id = a := hs.ids.get? hm
  cases haccessor : m.isAccessor with
  | false => exact exists_above_of_plain hs howned hfollows hm haccessor hover
  | true =>
      obtain ⟨property, kind, hkind, ha⟩ := howned.exists_hasAccessor hkinds hm haccessor
      obtain ⟨p, hp, hpkind⟩ := howned.property_of_hasAccessor hkind ha
      obtain rfl : p.id = property := hs.ids.get? hp
      obtain ⟨target, htarget, hb⟩ := (hfollows.accessors p.id kind hkind m.id ha b).mp hover
      obtain ⟨type, base, hlisted, habove, hchain⟩ := exists_above_of_plain hs howned hfollows hp
        (howned.isAccessor_eq_false hp hpkind) htarget
      exact ⟨type, base, howned.mem_listAt_of_hasAccessor hkind ha hlisted,
        howned.mem_listAt_of_hasAccessor hkind hb habove, hchain⟩

/-- A chain of overrides climbs a chain of bases. -/
theorem exists_above_of_chain (hchain : TransGen s.Overrides a b) :
    ∃ type base, a ∈ s.tables.members.listAt type ∧ b ∈ s.tables.members.listAt base ∧
      TransGen s.HasBase type base := by
  induction hchain with
  | single hover => exact exists_above_of_overrides hs howned hkinds hfollows hover
  | tail _ hover ih =>
      obtain ⟨type, middle, hlisted, hmiddle, hbelow⟩ := ih
      obtain ⟨other, base, hother, hbase, habove⟩ :=
        exists_above_of_overrides hs howned hkinds hfollows hover
      obtain rfl := howned.sole middle other _ hmiddle hother
      exact ⟨type, base, hlisted, hbase, hbelow.trans habove⟩

end

/-! ## A loaded document -/

/-- What members override is found along the bases of their types, beside what entries declare in a
draft. -/
structure OverridesFollow (s : Snapshot) (d : Draft) : Prop where
  /-- A member other than an accessor overrides one above its own type that has its name and kind
  and matching parameters, and no type between declares such a member. -/
  nearest : ∀ m, s.symbol? m.id = some m → m.isAccessor = false → ∀ b, s.Overrides m.id b →
    ∃ x type base, s.symbol? b = some x ∧ s.enclosingType? m = some type ∧
      s.enclosingType? x = some base ∧ TransGen s.HasBase type.id base.id ∧ m.MayOverride x ∧
        ∀ between, TransGen s.HasBase type.id between → TransGen s.HasBase between base.id →
          ∀ y ∈ d.membersOf between, ¬ m.MayOverride y
  /-- With the modifier it overrides nothing only if no type above declares such a member. -/
  nothing : ∀ m, s.symbol? m.id = some m → m.isAccessor = false → m.isOverride = true →
    (∀ b, ¬ s.Overrides m.id b) → ∃ type, s.enclosingType? m = some type ∧
      ∀ base, TransGen s.HasBase type.id base → ∀ y ∈ d.membersOf base, ¬ m.MayOverride y
  /-- An accessor overrides the one on its side of the property that its own property overrides. -/
  accessors : ∀ a, s.symbol? a.id = some a → a.isAccessor = true →
    ∃ property kind, s.tables.HasAccessor property kind a.id ∧ ∀ b, s.Overrides a.id b ↔
      ∃ target, s.Overrides property target ∧ s.tables.HasAccessor target kind b
  /-- What overrides a member lies in a type derived from the member's. -/
  derived : ∀ m, s.symbol? m.id = some m → ∀ x ∈ s.overridesOf m,
    ∃ type base, s.enclosingType? x = some type ∧ s.enclosingType? m = some base ∧
      type ∈ s.derivedTypes base true

theorem exists_enclosingType (hs : s.tables.Closed) (howned : s.tables.Owned)
    (hx : Holds s.tables.symbols x) (hlisted : x.id ∈ s.tables.members.listAt a) :
    ∃ type, Holds s.tables.symbols type ∧ type.id = a ∧ s.enclosingType? x = some type := by
  obtain ⟨type, htype, -⟩ := (howned.lists a x.id hlisted).1
  obtain rfl : type.id = a := hs.ids.get? htype
  exact ⟨type, htype, rfl, enclosingType?_of_mem hs howned hx htype hlisted⟩

/-- Overrides that follow the hierarchy from one link to the next follow it in chains. -/
theorem overridesFollow (hs : s.tables.WellFormed) (howned : s.tables.Owned)
    (hkinds : s.tables.KindsMethods) {d : Draft}
    (hfollows : s.tables.FollowsHierarchy d.toTables) (hacyclic : s.tables.IsAcyclic) :
    s.OverridesFollow d where
  nearest := by
    intro m hm hplain b hb
    obtain ⟨hkind, type, base, x, htype, habove, hx, rfl, hmay, hbetween⟩ :=
      hfollows.inherits m hm hplain b hb
    obtain ⟨own, hown⟩ := howned.listed m.id m hm hkind
    obtain rfl : own = type :=
      Option.some.inj ((howned.plain own m.id hown m hm hplain).symm.trans htype)
    have hheld := holds_of_mem_symbolsOf hs.closed.ids hx
    have hlisted : x.id ∈ s.tables.members.listAt base :=
      (mem_symbolsOf_iff hs.closed hheld).mp hx
    obtain ⟨A, -, rfl, hA⟩ := exists_enclosingType hs.closed howned hm hown
    obtain ⟨B, -, rfl, hB⟩ := exists_enclosingType hs.closed howned hheld hlisted
    exact ⟨x, A, B, hheld, hA, hB, habove, hmay, hbetween⟩
  nothing := by
    intro m hm hplain hmodifier hnone
    obtain ⟨hkind, hnothing⟩ :=
      hfollows.nothing m hm hplain hmodifier (Option.eq_none_iff_forall_ne_some.mpr hnone)
    obtain ⟨own, hown⟩ := howned.listed m.id m hm hkind
    obtain ⟨type, -, rfl, htype⟩ := exists_enclosingType hs.closed howned hm hown
    exact ⟨type, htype, fun base => hnothing type.id base (howned.plain _ m.id hown m hm hplain)⟩
  accessors := by
    intro a ha haccessor
    obtain ⟨property, kind, hkind, hlies⟩ := howned.exists_hasAccessor hkinds ha haccessor
    exact ⟨property, kind, hlies, hfollows.accessors property kind hkind a.id hlies⟩
  derived := by
    intro m hm x hx
    have hheld := holds_of_mem_sorted hs.closed hx
    obtain ⟨-, hchain⟩ := (mem_overridesOf_iff hs hheld).mp hx
    obtain ⟨low, high, hlow, hhigh, habove⟩ :=
      exists_above_of_chain hs.closed howned hkinds hfollows hchain
    obtain ⟨type, htype, rfl, henclosing⟩ := exists_enclosingType hs.closed howned hheld hlow
    obtain ⟨base, -, rfl, hbase⟩ := exists_enclosingType hs.closed howned hm hhigh
    refine ⟨type, base, henclosing, hbase, (mem_derivedTypes_iff hs htype).mpr ⟨?_, habove⟩⟩
    intro heq
    rw [heq] at habove
    exact hacyclic base.id habove

/-- In a document that names no overridden member and has no type above itself, overrides follow the
hierarchy. -/
theorem overridesFollow_of_ofDocument {disk : Disk} {data : Value} {root : String}
    {sourcePath : Option String} (hs : ofDocument disk data root sourcePath = .ok s)
    (hinfers : Index.InfersOverrides data) (hacyclic : ∀ type, ¬ TransGen s.HasBase type type) :
    ∃ types d, Index.typesOf data = .ok types ∧
      Building.forEach (Declaration.declareType root) types Draft.empty = .ok ((), d) ∧
        s.OverridesFollow d := by
  have ht := tables_of_ofDocument hs
  obtain ⟨howned, hequipped⟩ := Index.owned_of_tables ht
  have hkinds := Index.kindsMethods_of_tables ht
  obtain ⟨e, hrun, htables⟩ := Index.exists_run_of_tables ht
  obtain ⟨types, d, htypes, hdeclared, hfollows⟩ :=
    Index.readDocument_followsHierarchy disk root hinfers () e hrun
  refine ⟨types, d, htypes, hdeclared, ?_⟩
  have hordered : e.Ordered := ⟨htables ▸ howned, htables ▸ hequipped⟩
  have hfollows : s.tables.FollowsHierarchy d.toTables := by
    rw [← htables]
    apply hfollows hordered
    rw [htables]
    exact hacyclic
  exact overridesFollow (wellFormed_of_ofDocument hs) howned hkinds hfollows hacyclic

/-- Tiles are squares and squares are quadrangles.  Each has an area that overrides the one above,
and the side of a square overrides that of a quadrangle. -/
def tileDocument : Value :=
  let member (kind name modifier : String) : Value := .mapping [(.text "kind", .text kind),
    (.text "name", .text name), (.text "modifiers", .list [.text modifier])]
  let type (name base : String) (members : List Value) : Value := .mapping
    [(.text "name", .text name), (.text "base", .text base), (.text "members", .list members)]
  .mapping [(.text "types", .list [
    type "Tile" "Square" [member "method" "Area" "override"],
    type "Square" "Quadrangle"
      [member "method" "Area" "override", member "property" "Side" "override"],
    type "Quadrangle" "" [member "method" "Area" "virtual", member "property" "Side" "virtual"]])]

theorem overridesFollow_of_ofDocument_tile : ∃ s,
    ofDocument .empty tileDocument "/work" none = .ok s ∧ Index.InfersOverrides tileDocument ∧
      (∀ type, ¬ TransGen s.HasBase type type) ∧
      s.Overrides "M:Tile.Area()" "M:Square.Area()" ∧
      s.Overrides "M:Square.Area()" "M:Quadrangle.Area()" ∧
      s.Overrides "M:Square.get_Side" "M:Quadrangle.get_Side" ∧
      ∃ types d, Index.typesOf tileDocument = .ok types ∧
        Building.forEach (Declaration.declareType "/work") types Draft.empty = .ok ((), d) ∧
          s.OverridesFollow d := by
  have hinfers : Index.InfersOverrides tileDocument := by decide +kernel
  have hfacts : (ofDocument .empty tileDocument "/work" none).toOption.any (fun s => decide (
      (∀ entry ∈ s.tables.baseTypes.entries, entry.1.length < entry.2.length) ∧
      s.tables.overridden.get? "M:Tile.Area()" = some "M:Square.Area()" ∧
      s.tables.overridden.get? "M:Square.Area()" = some "M:Quadrangle.Area()" ∧
      s.tables.overridden.get? "M:Square.get_Side" = some "M:Quadrangle.get_Side")) = true := by
    decide +kernel
  obtain ⟨s, hs, hfacts⟩ := Attempt.exists_ok_of_any hfacts
  obtain ⟨hbases, htile, hsquare, hside⟩ := of_decide_eq_true hfacts
  have hacyclic : ∀ type, ¬ TransGen s.HasBase type type := by
    intro type hcycle
    have hlonger : TransGen (· < ·) type.length type.length :=
      hcycle.lift String.length fun a b hbase => hbases (a, b) (Table.mem_of_find? hbase)
    rw [transGen_eq_self] at hlonger
    exact lt_irrefl _ hlonger
  exact ⟨s, hs, hinfers, hacyclic, htile, hsquare, hside,
    overridesFollow_of_ofDocument hs hinfers hacyclic⟩

end Snapshot
end SymbolAtlas
