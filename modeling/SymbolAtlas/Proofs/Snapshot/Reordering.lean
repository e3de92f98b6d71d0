import SymbolAtlas.Proofs.Reordering.Document
import SymbolAtlas.Proofs.Snapshot.Lookup
import Mathlib.Tactic

/-!
# Snapshots and the order of types

A document that names only what it declares loads in every order of its types or in none, and its
tables have the same entries in all of them.  Two things do depend on the order.  A nested type that
comes in ahead of the type around it lies nowhere, since its place is looked up in the first pass
only.  And a name with dots belongs to the entry that takes it first, be it the name of a type or
another name of a nested one.
-/

namespace SymbolAtlas

open Building Declaration Draft Tables Index

/-- Two sets of tables have the same entries, but for the places of some types. -/
structure Tables.AgreeBut (apart : String → Prop) (t t' : Tables) : Prop where
  symbols : ∀ id, t'.symbols.get? id = t.symbols.get? id
  typeNames : ∀ name, t'.typeNames.get? name = t.typeNames.get? name
  containing : ∀ id, ¬ apart id → t'.containing.get? id = t.containing.get? id
  baseTypes : ∀ id, t'.baseTypes.get? id = t.baseTypes.get? id
  declaredInterfaces : ∀ id, t'.declaredInterfaces.get? id = t.declaredInterfaces.get? id
  accessors : ∀ id, t'.accessors.get? id = t.accessors.get? id
  overridden : ∀ id, t'.overridden.get? id = t.overridden.get? id
  explicitImplementations : ∀ id,
    t'.explicitImplementations.get? id = t.explicitImplementations.get? id
  bodies : ∀ id, t'.bodies.get? id = t.bodies.get? id
  spans : ∀ id, t'.spans.get? id = t.spans.get? id

theorem Draft.Alike.agreeBut {types others : List Value} {d d' : Draft}
    (h : Alike (disputed types others) d d') :
    d.toTables.AgreeBut (fun id => AheadOfOuter types id ∨ AheadOfOuter others id) d'.toTables where
  symbols := h.symbols
  typeNames := h.typeNames
  containing id hid := by
    refine h.containing id (Or.inr ?_)
    rintro ⟨other, heq, hahead⟩
    obtain rfl := Slot.place.inj heq
    exact hid hahead
  baseTypes id := h.baseTypes id (type_not_mem_disputed id)
  declaredInterfaces id := h.declaredInterfaces id (type_not_mem_disputed id)
  accessors := h.accessors
  overridden id := h.overridden id (member_not_mem_disputed id)
  explicitImplementations id := h.explicitImplementations id (member_not_mem_disputed id)
  bodies id := h.bodies id (member_not_mem_disputed id)
  spans := h.spans

namespace Snapshot

variable {root : String} {types others : List Value} {data data' : Value}

/-- A document that loads does so in every order of its types, with the same entries in its tables
but for nested types that come in ahead of the types around them. -/
theorem exists_ofDocument_of_reordered (h : Reordered types others data data')
    (hspelled : Spelled types) (hnames : DeclaresNames root types) {disk : Disk}
    {sourcePath : Option String} {s : Snapshot}
    (hs : ofDocument disk data root sourcePath = .ok s) :
    ∃ s', ofDocument disk data' root sourcePath = .ok s' ∧
      s.tables.AgreeBut (fun id => AheadOfOuter types id ∨ AheadOfOuter others id) s'.tables := by
  obtain ⟨t, ht, hname, rfl⟩ := ofDocument_eq_ok.mp hs
  obtain ⟨d, hrun, rfl⟩ := (Index.tables_eq_ok (isMapping_of_field h.listed)).mp ht
  obtain ⟨d', hrun', halike⟩ := readDocument_alike h hspelled hnames disk _ d hrun
  have ht' := (Index.tables_eq_ok (isMapping_of_field h.relisted)).mpr ⟨d', hrun', rfl⟩
  have hname' : (data'.field "name").isWritable = true := by
    rw [h.same "name" (by decide)]
    exact hname
  exact ⟨_, ofDocument_eq_ok.mpr ⟨_, ht', hname', rfl⟩, halike.agreeBut⟩

/-- A document that names only what it declares loads in every order of its types or in none.  Where
it loads its tables have the same entries, but for the places of nested types that one of the orders
puts ahead of the types around them. -/
theorem ofDocument_reordered (h : Reordered types others data data') (hspelled : Spelled types)
    (hnames : DeclaresNames root types) (disk : Disk) (sourcePath : Option String) :
    ((∃ s, ofDocument disk data root sourcePath = .ok s) ↔
      ∃ s', ofDocument disk data' root sourcePath = .ok s') ∧
    ∀ s s', ofDocument disk data root sourcePath = .ok s →
      ofDocument disk data' root sourcePath = .ok s' →
        s.tables.AgreeBut (fun id => AheadOfOuter types id ∨ AheadOfOuter others id) s'.tables := by
  refine ⟨⟨?_, ?_⟩, ?_⟩
  · rintro ⟨s, hs⟩
    obtain ⟨s', hs', -⟩ := exists_ofDocument_of_reordered h hspelled hnames hs
    exact ⟨s', hs'⟩
  · rintro ⟨s', hs'⟩
    obtain ⟨s, hs, -⟩ := exists_ofDocument_of_reordered h.symm (hspelled.perm h.perm)
      (hnames.perm hspelled h.perm) hs'
    exact ⟨s, hs⟩
  · intro s s' hs hs'
    obtain ⟨found, hfound, hagree⟩ := exists_ofDocument_of_reordered h hspelled hnames hs
    rw [hs'] at hfound
    cases hfound
    exact hagree

/-- A document that lists some types and nothing else. -/
def typesDocument (types : List Value) : Value :=
  .mapping [(.text "types", .list types)]

theorem reordered_typesDocument (hperm : types.Perm others) :
    Reordered types others (typesDocument types) (typesDocument others) := by
  refine ⟨rfl, rfl, hperm, ?_⟩
  intro key hkey
  simp [typesDocument, Value.field, Value.get?, Value.entry?, Value.text?, Ne.symm hkey]

/-- A shop that sells, with its orders inside. -/
def shopTypes : List Value :=
  let pay := .mapping [(.text "op", .text "invocation"), (.text "target", .text "Shop+Order.Total")]
  let sell := .mapping [(.text "name", .text "Sell"), (.text "body", .list [pay])]
  let owner := .mapping [(.text "kind", .text "property"), (.text "name", .text "Owner")]
  let total := .mapping [(.text "name", .text "Total"),
    (.text "modifiers", .list [.text "override"])]
  [ .mapping [(.text "name", .text "Shop"), (.text "members", .list [owner, sell])],
    .mapping [(.text "name", .text "Shop+Order"), (.text "base", .text "Item"),
      (.text "interfaces", .list [.text "IPriced"]), (.text "members", .list [total])] ]

/-- What the orders of a shop inherit and implement. -/
def itemTypes : List Value :=
  let total := .mapping [(.text "name", .text "Total"),
    (.text "modifiers", .list [.text "virtual"])]
  [ .mapping [(.text "name", .text "Item"), (.text "members", .list [total])],
    .mapping [(.text "name", .text "IPriced"), (.text "kind", .text "interface"),
      (.text "members", .list [.mapping [(.text "name", .text "Total")]])] ]

theorem ofDocument_reordered_shop : ∃ s s',
    Reordered (shopTypes ++ itemTypes) (itemTypes ++ shopTypes)
      (typesDocument (shopTypes ++ itemTypes)) (typesDocument (itemTypes ++ shopTypes)) ∧
    Spelled (shopTypes ++ itemTypes) ∧ DeclaresNames "/work" (shopTypes ++ itemTypes) ∧
    ofDocument .empty (typesDocument (shopTypes ++ itemTypes)) "/work" none = .ok s ∧
    ofDocument .empty (typesDocument (itemTypes ++ shopTypes)) "/work" none = .ok s' ∧
    s.tables.symbols.keys ≠ s'.tables.symbols.keys ∧
    s'.tables.containing.get? "T:Shop+Order" = some "T:Shop" ∧
    s'.tables.overridden.get? "M:Shop+Order.Total()" = some "M:Item.Total()" ∧
    s.tables.AgreeBut (fun _ => False) s'.tables := by
  have hreordered : Reordered _ _ (typesDocument (shopTypes ++ itemTypes))
      (typesDocument (itemTypes ++ shopTypes)) := reordered_typesDocument List.perm_append_comm
  have hspelled : Spelled (shopTypes ++ itemTypes) := by decide +kernel
  have hnames : DeclaresNames "/work" (shopTypes ++ itemTypes) := by decide +kernel
  have hfirst : OuterFirst (shopTypes ++ itemTypes) := by decide +kernel
  have hfirst' : OuterFirst (itemTypes ++ shopTypes) := by decide +kernel
  have hkeys : (ofDocument .empty (typesDocument (shopTypes ++ itemTypes)) "/work" none
      ).toOption.any (fun s => decide (s.tables.symbols.keys.head? = some "T:Shop")) = true := by
    decide +kernel
  have hfacts : (ofDocument .empty (typesDocument (itemTypes ++ shopTypes)) "/work" none
      ).toOption.any (fun s => decide (s.tables.symbols.keys.head? = some "T:Item" ∧
        s.tables.containing.get? "T:Shop+Order" = some "T:Shop" ∧
          s.tables.overridden.get? "M:Shop+Order.Total()" = some "M:Item.Total()")) = true := by
    decide +kernel
  obtain ⟨s, hs, hkeys⟩ := Attempt.exists_ok_of_any hkeys
  obtain ⟨s', hs', hfacts⟩ := Attempt.exists_ok_of_any hfacts
  obtain ⟨hkeys', hplace, hoverridden⟩ := of_decide_eq_true hfacts
  have hagree := (ofDocument_reordered hreordered hspelled hnames .empty none).2 s s' hs hs'
  refine ⟨s, s', hreordered, hspelled, hnames, hs, hs', ?_, hplace, hoverridden, ?_⟩
  · intro heq
    rw [← heq, of_decide_eq_true hkeys, Option.some.injEq] at hkeys'
    exact absurd hkeys' (by decide)
  · exact { hagree with
      containing := fun id _ => hagree.containing id
        (not_or.mpr ⟨hfirst.not_aheadOfOuter id, hfirst'.not_aheadOfOuter id⟩) }

/-- A type of a name and nothing else. -/
def bareType (name : String) : Value :=
  .mapping [(.text "name", .text name)]

/-- A nested type lies in its outer type or nowhere, depending on which of them comes first. -/
theorem nested_type_ahead_of_outer : ∃ s s',
    Reordered [bareType "Outer+Inner", bareType "Outer"] [bareType "Outer", bareType "Outer+Inner"]
      (typesDocument [bareType "Outer+Inner", bareType "Outer"])
      (typesDocument [bareType "Outer", bareType "Outer+Inner"]) ∧
    DeclaresNames "/work" [bareType "Outer+Inner", bareType "Outer"] ∧
    ofDocument .empty (typesDocument [bareType "Outer+Inner", bareType "Outer"]) "/work" none =
      .ok s ∧
    ofDocument .empty (typesDocument [bareType "Outer", bareType "Outer+Inner"]) "/work" none =
      .ok s' ∧
    s.tables.containing.get? "T:Outer+Inner" = none ∧
    s'.tables.containing.get? "T:Outer+Inner" = some "T:Outer" := by
  have hlone : (ofDocument .empty (typesDocument [bareType "Outer+Inner", bareType "Outer"]) "/work"
      none).toOption.any (fun s => decide (s.tables.containing.get? "T:Outer+Inner" = none)) =
        true := by
    decide +kernel
  have hplaced : (ofDocument .empty (typesDocument [bareType "Outer", bareType "Outer+Inner"])
      "/work" none).toOption.any (fun s => decide (
        s.tables.containing.get? "T:Outer+Inner" = some "T:Outer")) = true := by
    decide +kernel
  obtain ⟨s, hs, hlone⟩ := Attempt.exists_ok_of_any hlone
  obtain ⟨s', hs', hplaced⟩ := Attempt.exists_ok_of_any hplaced
  exact ⟨s, s', reordered_typesDocument (List.Perm.swap _ _ _), by decide +kernel, hs, hs',
    of_decide_eq_true hlone, of_decide_eq_true hplaced⟩

-- a name with dots is taken by a nested type as well, but not if another type has it already
example : (ofDocument .empty (typesDocument [bareType "A+B", bareType "A.B"]) "/work"
    none).toOption.isSome = false := by
  decide +kernel

example : (ofDocument .empty (typesDocument [bareType "A.B", bareType "A+B"]) "/work"
    none).toOption.isSome = true := by
  decide +kernel

end Snapshot
end SymbolAtlas
