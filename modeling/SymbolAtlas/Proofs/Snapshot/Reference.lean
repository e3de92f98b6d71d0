import SymbolAtlas.Proofs.Index.Citation
import SymbolAtlas.Proofs.Snapshot.Ownership
import SymbolAtlas.Proofs.Text.Order
import Mathlib.Tactic

/-!
# References to a symbol

A symbol is referred to where an operation in a body carries it, where an object of it is created,
and where the document says so.  Every such place is listed once, and the places are in order.
-/

namespace SymbolAtlas

/-- The constructor that an operation creates an object with. -/
def Operation.constructor? : Operation → Option Symbol
  | .creation constructor _ _ _ => constructor
  | _ => none

theorem Operation.callee?_of_constructor? {op : Operation} {c : Symbol}
    (hc : op.constructor? = some c) : op.callee? = some c := by
  cases op with
  | creation => exact hc
  | _ => cases hc

namespace Mention

variable {seen mentions : List Mention} {m : Mention}

theorem sameAs_iff {a b : Mention} :
    a.sameAs b = true ↔ a.symbol = b.symbol ∧ a.location = b.location := by
  unfold sameAs
  rw [Bool.and_eq_true, beq_iff_eq, beq_iff_eq]

/-- A mention is dropped only if there is one of the same symbol at the same place. -/
theorem exists_mem_distinctFrom_iff (seen mentions : List Mention) (symbol : String)
    (l : Location) :
    (∃ m ∈ distinctFrom seen mentions, m.symbol = symbol ∧ m.location = l) ↔
      ∃ m ∈ seen ++ mentions, m.symbol = symbol ∧ m.location = l := by
  induction mentions generalizing seen with
  | nil => simp [distinctFrom]
  | cons first rest ih =>
      unfold distinctFrom
      split
      next hseen =>
        obtain ⟨same, hsame, hfirst⟩ := List.any_eq_true.mp hseen
        obtain ⟨hsymbol, hlocation⟩ := sameAs_iff.mp hfirst
        rw [ih]
        constructor
        · rintro ⟨m, hm, hspot⟩
          refine ⟨m, ?_, hspot⟩
          rcases List.mem_append.mp hm with hm | hm
          · exact List.mem_append_left _ hm
          · exact List.mem_append_right _ (List.mem_cons_of_mem _ hm)
        · rintro ⟨m, hm, hspot⟩
          rcases List.mem_append.mp hm with hm | hm
          · exact ⟨m, List.mem_append_left _ hm, hspot⟩
          · rcases List.mem_cons.mp hm with rfl | hm
            · exact ⟨same, List.mem_append_left _ hsame, hsymbol ▸ hspot.1, hlocation ▸ hspot.2⟩
            · exact ⟨m, List.mem_append_right _ hm, hspot⟩
      next =>
        rw [ih]
        simp only [List.mem_append, List.mem_cons]
        constructor
        · rintro ⟨m, (rfl | hm) | hm, hspot⟩
          · exact ⟨m, Or.inr (Or.inl rfl), hspot⟩
          · exact ⟨m, Or.inl hm, hspot⟩
          · exact ⟨m, Or.inr (Or.inr hm), hspot⟩
        · rintro ⟨m, hm | rfl | hm, hspot⟩
          · exact ⟨m, Or.inl (Or.inr hm), hspot⟩
          · exact ⟨m, Or.inl (Or.inl rfl), hspot⟩
          · exact ⟨m, Or.inr hm, hspot⟩

theorem pairwise_distinctFrom (hseen : seen.reverse.Pairwise fun a b => a.sameAs b = false) :
    (distinctFrom seen mentions).Pairwise fun a b => a.sameAs b = false := by
  induction mentions generalizing seen with
  | nil => exact hseen
  | cons first rest ih =>
      unfold distinctFrom
      split
      next => exact ih hseen
      next hnew =>
        apply ih
        rw [List.reverse_cons, List.pairwise_append]
        refine ⟨hseen, List.pairwise_singleton _ _, ?_⟩
        intro a ha b hb
        rw [List.mem_singleton.mp hb, ← Bool.not_eq_true]
        intro hsame
        obtain ⟨hsymbol, hlocation⟩ := sameAs_iff.mp hsame
        exact hnew (List.any_eq_true.mpr ⟨a, List.mem_reverse.mp ha,
          sameAs_iff.mpr ⟨hsymbol.symm, hlocation.symm⟩⟩)

end Mention

namespace Tables

variable {t : Tables} {id : String} {l : Location}

theorem exists_mem_tokenMention_iff {s : Symbol} {location : Option Location} :
    (∃ m ∈ tokenMention s location, m.symbol = id ∧ m.location = l) ↔
      s.id = id ∧ location = some l := by
  cases location <;> simp [tokenMention]

/-- The symbol around another one is mentioned like a symbol itself. -/
theorem exists_mem_container_iff (ht : t.Closed) (inner : String) (location : Option Location) :
    (∃ m ∈ (t.symbolsOf (t.containing.get? inner).toList).flatMap
        (fun s => tokenMention s location), m.symbol = id ∧ m.location = l) ↔
      t.containing.get? inner = some id ∧ location = some l := by
  cases hcontainer : t.containing.get? inner with
  | none => simp [symbolsOf]
  | some container =>
      obtain ⟨s, hs⟩ := (ht.refers.containing.get? hcontainer).2
      have hid : s.id = container := ht.ids.get? hs
      have hfound : t.symbolsOf (some container).toList = [s] := by
        simp [symbolsOf, hs]
      rw [hfound, List.flatMap_singleton, exists_mem_tokenMention_iff, hid, Option.some.injEq]

/-- An operation mentions the symbol it carries, and what lies around a constructor it carries. -/
theorem exists_mem_mentionsIn_iff (ht : t.Closed) (op : Operation) :
    (∃ m ∈ t.mentionsIn op, m.symbol = id ∧ m.location = l) ↔
      op.location = some l ∧ ((∃ s, op.Names s ∧ s.id = id) ∨
        ∃ c, op.constructor? = some c ∧ t.containing.get? c.id = some id) := by
  cases op with
  | invocation target receiver arguments location =>
      cases target with
      | none => simp [mentionsIn, Operation.Names, Operation.member?, Operation.callee?,
          Operation.constructor?]
      | some target =>
          rw [mentionsIn, exists_mem_tokenMention_iff]
          simp [Operation.Names, Operation.member?, Operation.callee?, Operation.constructor?,
            Operation.location, and_comm]
  | creation constructor arguments initializer location =>
      cases constructor with
      | none => simp [mentionsIn, Operation.Names, Operation.member?, Operation.callee?,
          Operation.constructor?]
      | some constructor =>
          have hself : (∃ m ∈ location.toList.map fun l => (⟨constructor.id, l, none⟩ : Mention),
              m.symbol = id ∧ m.location = l) ↔ constructor.id = id ∧ location = some l := by
            cases location <;> simp
          simp only [mentionsIn, List.mem_append, or_and_right, exists_or,
            exists_mem_container_iff ht, hself]
          simp [Operation.Names, Operation.member?, Operation.callee?, Operation.constructor?,
            Operation.location]
          tauto
  | propertyReference property receiver arguments location =>
      rw [mentionsIn, exists_mem_tokenMention_iff]
      simp [Operation.Names, Operation.member?, Operation.callee?, Operation.constructor?,
        Operation.location, and_comm]
  | fieldReference field receiver location =>
      rw [mentionsIn, exists_mem_tokenMention_iff]
      simp [Operation.Names, Operation.member?, Operation.callee?, Operation.constructor?,
        Operation.location, and_comm]
  | eventReference event receiver location =>
      rw [mentionsIn, exists_mem_tokenMention_iff]
      simp [Operation.Names, Operation.member?, Operation.callee?, Operation.constructor?,
        Operation.location, and_comm]
  | _ => simp [mentionsIn, Operation.Names, Operation.member?, Operation.callee?,
      Operation.constructor?]

theorem exists_mem_bodies_iff (ht : t.Closed) {x : Symbol} (hx : Holds t.symbols x) :
    (∃ m ∈ t.bodies.entries.flatMap (fun (_, body) => body.walk.flatMap t.mentionsIn),
      m.symbol = x.id ∧ m.location = l) ↔
        ∃ body ∈ t.bodies.values, ∃ op ∈ body.walk, op.location = some l ∧
          (op.Names x ∨ ∃ c, op.constructor? = some c ∧ t.containing.get? c.id = some x.id) := by
  -- what a body carries under the id of the symbol is that symbol
  have hnames : ∀ entry ∈ t.bodies.entries, ∀ op ∈ entry.2.walk,
      (∃ y, op.Names y ∧ y.id = x.id) ↔ op.Names x := by
    intro entry hentry op hop
    constructor
    · rintro ⟨y, hy, hid⟩
      have hholds : t.symbols.get? y.id = some y := (ht.refers.bodies entry hentry).2 op hop y hy
      rw [hid, hx] at hholds
      exact Option.some.inj hholds ▸ hy
    · intro hop
      exact ⟨x, hop, rfl⟩
  constructor
  · rintro ⟨m, hm, hspot⟩
    obtain ⟨entry, hentry, hm⟩ := List.mem_flatMap.mp hm
    obtain ⟨op, hop, hm⟩ := List.mem_flatMap.mp hm
    obtain ⟨hlocation, hcarried⟩ := (exists_mem_mentionsIn_iff ht op).mp ⟨m, hm, hspot⟩
    rw [hnames entry hentry op hop] at hcarried
    exact ⟨entry.2, Table.mem_values_iff.mpr ⟨entry.1, hentry⟩, op, hop, hlocation, hcarried⟩
  · rintro ⟨body, hbody, op, hop, hlocation, hcarried⟩
    obtain ⟨method, hentry⟩ := Table.mem_values_iff.mp hbody
    rw [← hnames _ hentry op hop] at hcarried
    obtain ⟨m, hm, hspot⟩ := (exists_mem_mentionsIn_iff ht op).mpr ⟨hlocation, hcarried⟩
    exact ⟨m, List.mem_flatMap.mpr ⟨_, hentry, List.mem_flatMap.mpr ⟨op, hop, hm⟩⟩, hspot⟩

theorem exists_mem_listed_iff (ht : t.WellFormed) {x : Symbol} (hx : Holds t.symbols x) :
    (∃ m ∈ t.explicitReferences.entries.flatMap (fun (id, locations) =>
      (t.symbolsOf [id]).flatMap fun s => locations.flatMap fun l => tokenMention s (some l)),
        m.symbol = x.id ∧ m.location = l) ↔ l ∈ t.explicitReferences.listAt x.id := by
  rw [Table.mem_listAt_iff]
  constructor
  · rintro ⟨m, hm, hsymbol, hlocation⟩
    obtain ⟨⟨owner, locations⟩, hentry, hm⟩ := List.mem_flatMap.mp hm
    obtain ⟨s, hs, hm⟩ := List.mem_flatMap.mp hm
    obtain ⟨l', hl', hm⟩ := List.mem_flatMap.mp hm
    obtain ⟨hsid, hplace⟩ := exists_mem_tokenMention_iff.mp ⟨m, hm, hsymbol, hlocation⟩
    obtain ⟨found, hmem, hget⟩ := mem_symbolsOf.mp hs
    obtain rfl : found = owner := List.mem_singleton.mp hmem
    have hid : s.id = found := ht.closed.ids.get? hget
    obtain rfl : found = x.id := hid.symm.trans hsid
    obtain rfl : l' = l := Option.some.inj hplace
    exact ⟨locations, Table.find?_of_mem ht.keyed.explicitReferences hentry, hl'⟩
  · rintro ⟨locations, hlocations, hl⟩
    have hfound : t.symbolsOf [x.id] = [x] := by
      simp [symbolsOf, show t.symbols.get? x.id = some x from hx]
    refine ⟨⟨x.id, l, some x.name.length⟩, ?_, rfl, rfl⟩
    refine List.mem_flatMap.mpr ⟨(x.id, locations), Table.mem_of_find? hlocations, ?_⟩
    simp only [hfound, List.flatMap_singleton]
    exact List.mem_flatMap.mpr ⟨l, hl, List.mem_singleton_self _⟩

/-- A symbol is mentioned in bodies and by the table of listed references. -/
theorem exists_mem_mentions_iff (ht : t.WellFormed) {x : Symbol} (hx : Holds t.symbols x) :
    (∃ m ∈ t.mentions, m.symbol = x.id ∧ m.location = l) ↔
      (∃ body ∈ t.bodies.values, ∃ op ∈ body.walk, op.location = some l ∧
        (op.Names x ∨ ∃ c, op.constructor? = some c ∧ t.containing.get? c.id = some x.id)) ∨
          l ∈ t.explicitReferences.listAt x.id := by
  rw [← exists_mem_bodies_iff ht.closed hx, ← exists_mem_listed_iff ht hx]
  unfold mentions
  simp only [List.mem_append, or_and_right, exists_or]

end Tables

namespace Snapshot

open Tables

variable {s : Snapshot}

theorem mem_placesOf_iff {id : String} {l : Location} :
    l ∈ s.placesOf id ↔ ∃ m ∈ s.tables.mentions, m.symbol = id ∧ m.location = l := by
  unfold placesOf
  rw [s.mentions_eq]
  have hdistinct := Mention.exists_mem_distinctFrom_iff [] s.tables.mentions id l
  rw [List.nil_append] at hdistinct
  rw [← hdistinct, List.mem_map]
  simp only [List.mem_filter, beq_iff_eq, and_assoc]
  rfl

theorem nodup_placesOf (id : String) : (s.placesOf id).Nodup := by
  unfold placesOf
  have hdistinct : s.mentions.Pairwise fun a b => a.sameAs b = false := by
    rw [s.mentions_eq]
    exact Mention.pairwise_distinctFrom List.Pairwise.nil
  rw [List.Nodup, List.pairwise_map]
  refine (hdistinct.filter _).imp_of_mem ?_
  intro a b ha hb hab hsame
  have ha := (List.mem_filter.mp ha).2
  have hb := (List.mem_filter.mp hb).2
  rw [beq_iff_eq] at ha hb
  rw [Mention.sameAs_iff.mpr ⟨ha.trans hb.symm, hsame⟩] at hab
  cases hab

theorem map_location_referencesTo (s : Snapshot) (x : Symbol) :
    (s.referencesTo x).map Reference.location = (s.placesOf x.id).mergeSort Location.precedes := by
  unfold referencesTo
  rw [List.map_map]
  exact List.map_id _

/-- What lies around a symbol that is no accessor is a type. -/
theorem Forest.isType_of_container (hforest : s.Forest) {c x : Symbol}
    (hc : s.symbol? c.id = some c) (hx : s.symbol? x.id = some x)
    (hcontainer : s.tables.containing.get? c.id = some x.id) (hplain : c.isAccessor = false) :
    x.kind = .namedType := by
  by_cases hkind : c.kind = .namedType
  · obtain ⟨-, found, hfound, hnamed⟩ := hforest.nested c hc hkind x.id hcontainer
    obtain rfl : x = found := Option.some.inj (hx.symm.trans hfound)
    exact hnamed
  · obtain ⟨type, htype, hnamed, -, -, hlies, -⟩ := hforest.member c hc hkind
    rw [hlies hplain, Option.some.injEq] at hcontainer
    rw [hcontainer] at htype
    obtain rfl : x = type := Option.some.inj (hx.symm.trans htype)
    exact hnamed

/-- The places of a symbol are those of the operations that carry it, those at which an object of it
is created, and those that the document lists for it.  What an object is created of is a type,
unless an accessor takes the place of the constructor. -/
theorem referencesTo_iff {disk : Disk} {data : Value} {root : String} {sourcePath : Option String}
    (hs : ofDocument disk data root sourcePath = .ok s) {x : Symbol}
    (hx : s.symbol? x.id = some x) :
    ∃ listed, Index.citations root data = .ok listed ∧
      (∀ l, l ∈ (s.referencesTo x).map Reference.location ↔
        (∃ body ∈ s.tables.bodies.values, ∃ op ∈ body.walk,
          op.location = some l ∧ op.Names x) ∨
        (∃ body ∈ s.tables.bodies.values, ∃ op ∈ body.walk, op.location = some l ∧
          ∃ c, op.constructor? = some c ∧ s.tables.containing.get? c.id = some x.id ∧
            (x.kind = .namedType ∨ c.isAccessor = true)) ∨
        ∃ entry ∈ listed, entry.1 = x.id ∧ l ∈ entry.2) ∧
      ((s.referencesTo x).map Reference.location).Pairwise Location.Before := by
  have hforest := forest_of_ofDocument hs
  have ht := tables_of_ofDocument hs
  have hwell := Index.wellFormed_of_tables ht
  obtain ⟨listed, hlisted, hcited⟩ := Index.mem_explicitReferences_iff ht
  refine ⟨listed, hlisted, ?_, ?_⟩
  · intro l
    rw [map_location_referencesTo, List.mem_mergeSort, mem_placesOf_iff,
      exists_mem_mentions_iff hwell hx, hcited]
    constructor
    · rintro (⟨body, hbody, op, hop, hlocation, hnames | ⟨c, hc, hcontainer⟩⟩ | hentry)
      · exact Or.inl ⟨body, hbody, op, hop, hlocation, hnames⟩
      · refine Or.inr (Or.inl ⟨body, hbody, op, hop, hlocation, c, hc, hcontainer, ?_⟩)
        have hcarried : op.Names c := Or.inr (Operation.callee?_of_constructor? hc)
        obtain ⟨method, hmethod⟩ := Table.mem_values_iff.mp hbody
        have hheld := (hwell.closed.refers.bodies _ hmethod).2 op hop c hcarried
        cases haccessor : c.isAccessor with
        | true => exact Or.inr rfl
        | false => exact Or.inl (hforest.isType_of_container hheld hx hcontainer haccessor)
      · exact Or.inr (Or.inr hentry)
    · rintro (⟨body, hbody, op, hop, hlocation, hnames⟩ |
        ⟨body, hbody, op, hop, hlocation, c, hc, hcontainer, -⟩ | hentry)
      · exact Or.inl ⟨body, hbody, op, hop, hlocation, Or.inl hnames⟩
      · exact Or.inl ⟨body, hbody, op, hop, hlocation, Or.inr ⟨c, hc, hcontainer⟩⟩
      · exact Or.inr hentry
  · rw [map_location_referencesTo]
    exact Location.pairwise_before_mergeSort (nodup_placesOf x.id)

/-- A cart that is created at one place and referred to at another one. -/
def cartDocument : Value :=
  let creation := .mapping [(.text "op", .text "new"), (.text "type", .text "Cart"),
    (.text "line", .int 4), (.text "column", .int 9)]
  let fill := .mapping [(.text "name", .text "Fill"), (.text "body", .list [creation])]
  let cart := .mapping [(.text "name", .text "Cart"), (.text "file", .text "Cart.cs"),
    (.text "members", .list [fill])]
  let listed := .mapping [(.text "symbol", .text "Cart"),
    (.text "locations", .list [.text "Cart.cs:2:1"])]
  .mapping [(.text "types", .list [cart]), (.text "references", .list [listed])]

theorem referencesTo_iff_cart : ∃ s x,
    ofDocument .empty cartDocument "/work" none = .ok s ∧ s.symbol? x.id = some x ∧
      x.id = "T:Cart" ∧
        ∃ listed, Index.citations "/work" cartDocument = .ok listed ∧
          (∃ body ∈ s.tables.bodies.values, ∃ op ∈ body.walk,
            op.location = some ⟨"/work/Cart.cs", 4, 9⟩ ∧
              ∃ c, op.constructor? = some c ∧
                s.tables.containing.get? c.id = some x.id ∧
                  (x.kind = .namedType ∨ c.isAccessor = true)) ∧
          (∀ entry ∈ listed, entry.1 = x.id → ∀ l ∈ entry.2,
            l ∈ (s.referencesTo x).map Reference.location) ∧
          ⟨"/work/Cart.cs", 4, 9⟩ ∈ (s.referencesTo x).map Reference.location ∧
          ((s.referencesTo x).map Reference.location).Pairwise Location.Before := by
  have hfacts : (ofDocument .empty cartDocument "/work" none).toOption.any (fun s => decide (
      (s.symbol? "T:Cart").any (fun x => decide (x.kind = .namedType)) = true ∧
      (s.tables.bodies.values.any fun body => body.walk.any fun op =>
        decide (op.location = some ⟨"/work/Cart.cs", 4, 9⟩) &&
          op.constructor?.any fun c =>
            decide (s.tables.containing.get? c.id = some "T:Cart")) = true)) = true := by
    decide +kernel
  obtain ⟨s, hs, hfacts⟩ := Attempt.exists_ok_of_any hfacts
  obtain ⟨hcart, hcreated⟩ := of_decide_eq_true hfacts
  obtain ⟨x, hx, hid, hkind⟩ := (ofDocument_closed hs).1.exists_holds_of_any hcart
  have hkind := of_decide_eq_true hkind
  obtain ⟨listed, hlisted, hplaces, hsorted⟩ := referencesTo_iff hs hx
  have hcreation : ∃ body ∈ s.tables.bodies.values, ∃ op ∈ body.walk,
      op.location = some ⟨"/work/Cart.cs", 4, 9⟩ ∧ ∃ c, op.constructor? = some c ∧
        s.tables.containing.get? c.id = some x.id ∧
          (x.kind = .namedType ∨ c.isAccessor = true) := by
    obtain ⟨body, hbody, hbelow⟩ := List.any_eq_true.mp hcreated
    obtain ⟨op, hop, hspot⟩ := List.any_eq_true.mp hbelow
    rw [Bool.and_eq_true, decide_eq_true_eq, Option.any_eq_true] at hspot
    obtain ⟨hlocation, c, hc, hcontainer⟩ := hspot
    rw [← hid] at hcontainer
    exact ⟨body, hbody, op, hop, hlocation, c, hc, of_decide_eq_true hcontainer, Or.inl hkind⟩
  refine ⟨s, x, hs, hx, hid, listed, hlisted, hcreation, ?_, ?_, hsorted⟩
  · intro entry hentry howner l hl
    exact (hplaces l).mpr (Or.inr (Or.inr ⟨entry, hentry, howner, hl⟩))
  · exact (hplaces _).mpr (Or.inr (Or.inl hcreation))

/-- A creation whose type is written like the setter of a property, with its parameter list. -/
def setterDocument : Value :=
  let price := .mapping [(.text "kind", .text "property"), (.text "name", .text "Price"),
    (.text "type", .text "int"), (.text "get", .bool true), (.text "set", .bool true)]
  let creation := .mapping [(.text "op", .text "new"),
    (.text "type", .text "Item.set_Price(int)"), (.text "line", .int 3), (.text "column", .int 5)]
  let copy := .mapping [(.text "name", .text "Copy"), (.text "body", .list [creation])]
  .mapping [(.text "types", .list [.mapping [(.text "name", .text "Item"),
    (.text "file", .text "Item.cs"), (.text "members", .list [price, copy])]])]

/-- A property is listed as referred to at a place where no operation carries it and which the
document does not list: the setter in it has been taken for a constructor. -/
theorem referencesTo_of_created_setter : ∃ s p,
    ofDocument .empty setterDocument "/work" none = .ok s ∧ s.symbol? p.id = some p ∧
      p.kind = .property ∧
        (∀ body ∈ s.tables.bodies.values, ∀ op ∈ body.walk, ¬ op.Names p) ∧
          Index.citations "/work" setterDocument = .ok [] ∧
            ⟨"/work/Item.cs", 3, 5⟩ ∈ (s.referencesTo p).map Reference.location := by
  have hfacts : (ofDocument .empty setterDocument "/work" none).toOption.any (fun s => decide (
      (s.symbol? "P:Item.Price").any (fun p => decide (p.kind = .property)) = true ∧
      (s.tables.bodies.values.all fun body => body.walk.all fun op =>
        (op.member?.all fun y => decide (y.id ≠ "P:Item.Price")) &&
          op.callee?.all fun y => decide (y.id ≠ "P:Item.Price")) = true ∧
      ⟨"/work/Item.cs", 3, 5⟩ ∈ s.placesOf "P:Item.Price")) = true := by
    decide +kernel
  have hcitations : (Index.citations "/work" setterDocument).toOption.any
      (fun listed => decide (listed = [])) = true := by
    decide +kernel
  obtain ⟨s, hs, hfacts⟩ := Attempt.exists_ok_of_any hfacts
  obtain ⟨listed, hlisted, hnone⟩ := Attempt.exists_ok_of_any hcitations
  obtain rfl := of_decide_eq_true hnone
  obtain ⟨hprice, hcarried, hplace⟩ := of_decide_eq_true hfacts
  obtain ⟨p, hp, hid, hkind⟩ := (ofDocument_closed hs).1.exists_holds_of_any hprice
  refine ⟨s, p, hs, hp, of_decide_eq_true hkind, ?_, hlisted, ?_⟩
  · intro body hbody op hop hnames
    have hboth := List.all_eq_true.mp (List.all_eq_true.mp hcarried body hbody) op hop
    rw [Bool.and_eq_true, Option.all_eq_true, Option.all_eq_true] at hboth
    rcases hnames with hmember | hcallee
    · exact of_decide_eq_true (hboth.1 p hmember) hid
    · exact of_decide_eq_true (hboth.2 p hcallee) hid
  · rw [map_location_referencesTo, List.mem_mergeSort, hid]
    exact hplace

end Snapshot
end SymbolAtlas
