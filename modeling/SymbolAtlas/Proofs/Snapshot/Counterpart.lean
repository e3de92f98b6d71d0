import SymbolAtlas.Proofs.Snapshot.Implementers
import Mathlib.Tactic

/-!
# What a type provides for an interface member

A type provides the first of its own members that fits, or what its base provides if none of them
does, so that a nearer member hides all that lie further up.  What implements an interface member is
whatever names it, together with what the classes and structs that have the interface provide by the
member's name and parameter types.  Kinds are not compared.  A nearer member of another kind then
takes the place of the one that is meant; where no type provides such a member, the implementations
are those of the member's own kind.
-/

namespace SymbolAtlas

open Relation Tables

namespace Snapshot

variable {s : Snapshot} {m x y : Symbol} {p q : Symbol → Bool} {type : String}

/-- The first of the members of a type that fits, or else what its base provides. -/
inductive Provides (s : Snapshot) (fits : Symbol → Bool) : String → Symbol → Prop
  | own {type : String} {x : Symbol} (hfound : (s.tables.membersOf type).find? fits = some x) :
      Provides s fits type x
  | inherited {type base : String} {x : Symbol}
      (hnone : (s.tables.membersOf type).find? fits = none) (hbase : s.HasBase type base)
      (hprovided : Provides s fits base x) : Provides s fits type x

namespace Provides

theorem fits (h : s.Provides p type x) : p x = true := by
  induction h with
  | own hfound => exact List.find?_some hfound
  | inherited _ _ _ ih => exact ih

theorem holds (hs : s.tables.Closed) (h : s.Provides p type x) : Holds s.tables.symbols x := by
  induction h with
  | own hfound => exact holds_of_mem_symbolsOf hs.ids (List.mem_of_find?_eq_some hfound)
  | inherited _ _ _ ih => exact ih

theorem unique (hx : s.Provides p type x) (hy : s.Provides p type y) : x = y := by
  induction hx with
  | own hfound =>
      cases hy with
      | own hother => exact Option.some.inj (hfound.symm.trans hother)
      | inherited hnone => rw [hfound] at hnone; cases hnone
  | inherited hnone hbase _ ih =>
      cases hy with
      | own hother => rw [hnone] at hother; cases hother
      | inherited _ hother hy =>
          obtain rfl := Option.some.inj (hbase.symm.trans hother)
          exact ih hy

/-- Where something fits a narrower condition, something fits a wider one. -/
theorem exists_wider (h : s.Provides q type x) (hwider : ∀ y, q y = true → p y = true) :
    ∃ y, s.Provides p type y := by
  induction h with
  | own hfound =>
      have hsome := List.find?_isSome.mpr
        ⟨_, List.mem_of_find?_eq_some hfound, hwider _ (List.find?_some hfound)⟩
      obtain ⟨y, hy⟩ := Option.isSome_iff_exists.mp hsome
      exact ⟨y, .own hy⟩
  | @inherited type base x _ hbase _ ih =>
      cases hfind : (s.tables.membersOf type).find? p with
      | some y => exact ⟨y, .own hfind⟩
      | none =>
          obtain ⟨y, hy⟩ := ih
          exact ⟨y, .inherited hfind hbase hy⟩

/-- What is provided is still provided under a narrower condition that it fits. -/
theorem narrow (h : s.Provides p type x) (hwider : ∀ y, q y = true → p y = true)
    (hx : q x = true) : s.Provides q type x := by
  have hnone : ∀ {members : List Symbol}, members.find? p = none → members.find? q = none := by
    intro members hp
    rw [List.find?_eq_none] at hp ⊢
    intro y hy hq
    exact hp y hy (hwider y hq)
  induction h with
  | own hfound =>
      obtain ⟨-, before, after, hmembers, hbefore⟩ := List.find?_eq_some_iff_append.mp hfound
      refine .own (List.find?_eq_some_iff_append.mpr ⟨hx, before, after, hmembers, ?_⟩)
      intro y hy
      rw [Bool.not_eq_true', Bool.eq_false_iff]
      intro hq
      simpa [hwider y hq] using hbefore y hy
  | inherited hp hbase _ ih => exact .inherited (hnone hp) hbase (ih hx)

end Provides

/-- The member could implement the interface member: it has the signature, and it does not say what
it implements. -/
def hasSignatureOf (s : Snapshot) (m x : Symbol) : Bool :=
  x.signature == m.signature && !s.tables.explicitImplementations.contains x.id

/-- The same for members of one kind. -/
def matchesMember (s : Snapshot) (m x : Symbol) : Bool :=
  x.kind == m.kind && s.hasSignatureOf m x

theorem isChain_baseChain (s : Snapshot) (type : String) :
    (type :: s.baseChain type).IsChain s.HasBase :=
  Reach.isChain_explore_single s.tables.baseTypes type

theorem provides_of_findSome? {rest : List String}
    (hchain : (type :: rest).IsChain s.HasBase)
    (hfound : (type :: rest).findSome? (fun owner => (s.tables.membersOf owner).find? p) = some x) :
    s.Provides p type x := by
  induction rest generalizing type with
  | nil =>
      rw [List.findSome?_singleton] at hfound
      exact .own hfound
  | cons base rest ih =>
      obtain ⟨hbase, hrest⟩ := List.isChain_cons_cons.mp hchain
      rw [List.findSome?_cons] at hfound
      cases hfind : (s.tables.membersOf type).find? p with
      | some y =>
          rw [hfind] at hfound
          obtain rfl := Option.some.inj hfound
          exact .own hfind
      | none =>
          rw [hfind] at hfound
          exact .inherited hfind hbase (ih hrest hfound)

theorem Provides.exists_owner (h : s.Provides p type x) :
    ∃ owner ∈ type :: s.baseChain type, (s.tables.membersOf owner).find? p = some x := by
  have howner : ∃ owner, ReflTransGen s.HasBase type owner ∧
      (s.tables.membersOf owner).find? p = some x := by
    induction h with
    | own hfound => exact ⟨_, .refl, hfound⟩
    | inherited _ hbase _ ih =>
        obtain ⟨owner, hchain, hfound⟩ := ih
        exact ⟨owner, .head hbase hchain, hfound⟩
  obtain ⟨owner, hchain, hfound⟩ := howner
  refine ⟨owner, ?_, hfound⟩
  rw [List.mem_cons, mem_baseChain_iff]
  exact reflTransGen_iff_eq_or_transGen.mp hchain

/-- The search through a type and its bases finds what the type provides. -/
theorem findSome?_baseChain_iff :
    (type :: s.baseChain type).findSome? (fun owner => (s.tables.membersOf owner).find? p) = some x ↔
      s.Provides p type x := by
  have hprovides := fun y => provides_of_findSome? (p := p) (x := y) (s.isChain_baseChain type)
  constructor
  · exact hprovides x
  · intro hx
    obtain ⟨owner, howner, hfound⟩ := hx.exists_owner
    cases hsearch : (type :: s.baseChain type).findSome? fun owner =>
        (s.tables.membersOf owner).find? p with
    | some y => rw [hx.unique (hprovides y hsearch)]
    | none =>
        rw [List.findSome?_eq_none_iff.mp hsearch owner howner] at hfound
        cases hfound

theorem matchingMember?_iff (hs : s.tables.Closed) (hx : Holds s.tables.symbols x) :
    s.matchingMember? m.signature (type :: s.baseChain type) = some x.id ↔
      s.Provides (s.hasSignatureOf m) type x := by
  have hsearch : s.matchingMember? m.signature (type :: s.baseChain type) =
      ((type :: s.baseChain type).findSome? fun owner =>
        (s.tables.membersOf owner).find? (s.hasSignatureOf m)).map Symbol.id := by
    rw [List.map_findSome?]
    rfl
  rw [hsearch, Option.map_eq_some_iff]
  constructor
  · rintro ⟨y, hy, hid⟩
    have hprovided := findSome?_baseChain_iff.mp hy
    rwa [(hprovided.holds hs).eq_of_id hx hid] at hprovided
  · intro hprovided
    exact ⟨x, findSome?_baseChain_iff.mpr hprovided, rfl⟩

/-- What implements a member of an interface names it, or is provided by a type that implements the
interface, whatever its kind. -/
theorem mem_implementationsOf_iff_hasSignature (hs : s.tables.WellFormed) {interface : Symbol}
    (hkind : m.kind ≠ .namedType) (hinterface : interface.kind = .namedType)
    (hcontainer : s.tables.containing.get? m.id = some interface.id) :
    x ∈ s.implementationsOf m ↔ Holds s.tables.symbols x ∧
      (m.id ∈ s.tables.explicitImplementations.listAt x.id ∨
        ∃ type ∈ s.implementationsOf interface, s.Provides (s.hasSignatureOf m) type.id x) := by
  have himplementers : s.implementationsOf interface = s.implementers interface.id :=
    if_pos (by simp [hinterface])
  rw [implementationsOf_member hkind, himplementers]
  constructor
  · intro hx
    have hheld := holds_of_mem_memberImplementations hs.closed hx
    obtain ⟨owner, howner, hx⟩ := (mem_memberImplementations_iff hs hheld).mp hx
    obtain rfl := Option.some.inj (hcontainer.symm.trans howner)
    simp only [matchingMember?_iff hs.closed hheld] at hx
    exact ⟨hheld, hx⟩
  · rintro ⟨hheld, hx⟩
    simp only [← matchingMember?_iff hs.closed hheld] at hx
    exact (mem_memberImplementations_iff hs hheld).mpr ⟨interface.id, hcontainer, hx⟩

theorem hasSignatureOf_of_matchesMember (h : s.matchesMember m y = true) :
    s.hasSignatureOf m y = true :=
  (Bool.and_eq_true_iff.mp h).2

/-- What implements a member of an interface names it, or is the nearest member of its kind, name
and parameter types that a type with the interface has, as long as none of these types has a nearer
member of another kind. -/
theorem mem_implementationsOf_iff_matches (hs : s.tables.WellFormed) {interface : Symbol}
    (hkind : m.kind ≠ .namedType) (hinterface : interface.kind = .namedType)
    (hcontainer : s.tables.containing.get? m.id = some interface.id)
    (hkinds : ∀ type ∈ s.implementationsOf interface, ∀ y,
      s.Provides (s.hasSignatureOf m) type.id y → y.kind = m.kind) :
    x ∈ s.implementationsOf m ↔ Holds s.tables.symbols x ∧
      (m.id ∈ s.tables.explicitImplementations.listAt x.id ∨
        ∃ type ∈ s.implementationsOf interface, s.Provides (s.matchesMember m) type.id x) := by
  have hnarrow : ∀ type ∈ s.implementationsOf interface, ∀ y,
      s.Provides (s.hasSignatureOf m) type.id y → s.Provides (s.matchesMember m) type.id y := by
    intro type htype y hy
    apply hy.narrow (fun _ => hasSignatureOf_of_matchesMember)
    unfold matchesMember
    rw [hy.fits, hkinds type htype y hy, beq_self_eq_true, Bool.and_self]
  have hprovides : ∀ type ∈ s.implementationsOf interface,
      (s.Provides (s.hasSignatureOf m) type.id x ↔ s.Provides (s.matchesMember m) type.id x) := by
    intro type htype
    constructor
    · exact hnarrow type htype x
    · intro hx
      obtain ⟨y, hy⟩ := hx.exists_wider (fun _ => hasSignatureOf_of_matchesMember)
      rw [hx.unique (hnarrow type htype y hy)]
      exact hy
  rw [mem_implementationsOf_iff_hasSignature hs hkind hinterface hcontainer]
  have hsame : (∃ type ∈ s.implementationsOf interface,
        s.Provides (s.hasSignatureOf m) type.id x) ↔
      ∃ type ∈ s.implementationsOf interface, s.Provides (s.matchesMember m) type.id x :=
    exists_congr fun type => and_congr_right (hprovides type)
  rw [hsame]

/-- A ring that names the member which it implements and inherits another one from a base without
the interface, beside a box with an overload. -/
def shapeDocument : Value :=
  let type (name : String) (more : List (Value × Value)) : Value :=
    .mapping ((.text "name", .text name) :: more)
  let scale (parameters : List String) (more : List (Value × Value)) : Value :=
    .mapping ((.text "name", .text "Scale") ::
      (.text "parameters", .list (parameters.map .text)) :: more)
  let shape : Value × Value := (.text "interfaces", .list [.text "IShape"])
  let members (declared : List Value) : Value × Value := (.text "members", .list declared)
  .mapping [(.text "types", .list [
    type "IShape" [(.text "kind", .text "interface"), members [scale ["int by"] []]],
    type "Plate" [members [scale ["int by"] []]],
    type "Ring" [(.text "base", .text "Plate"), shape, members [scale ["double by"] [],
      scale ["int by"] [(.text "implements", .text "IShape.Scale")]]],
    type "Box" [shape, members [scale [] [], scale ["int by"] []]]])]

theorem mem_implementationsOf_iff_matches_ring : ∃ s interface scale ring named inherited,
    ofDocument .empty shapeDocument "/work" none = .ok s ∧
      [interface, scale, ring, named, inherited].map Symbol.id =
        ["T:IShape", "M:IShape.Scale(System.Int32)", "T:Ring", "M:Ring.Scale(System.Int32)",
          "M:Plate.Scale(System.Int32)"] ∧
      ring ∈ s.implementationsOf interface ∧ named ∈ s.implementationsOf scale ∧
      s.Provides (s.matchesMember scale) ring.id inherited ∧
      inherited ∈ s.implementationsOf scale := by
  have hfacts : (ofDocument .empty shapeDocument "/work" none).toOption.any (fun s => decide (
      (∀ id ∈ ["M:Ring.Scale(System.Int32)"], s.tables.symbols.contains id = true) ∧
      (s.symbol? "T:IShape").any (fun t => t.kind == .namedType) = true ∧
      (s.symbol? "T:Ring").any (fun t =>
        decide (t.kind = .namedType ∧ t.typeKind.any TypeKind.isConcrete = true)) = true ∧
      (s.symbol? "M:IShape.Scale(System.Int32)").any (fun m => decide (m.kind ≠ .namedType ∧
        (∀ y ∈ s.tables.symbols.values, y.signature = m.signature → y.kind = m.kind) ∧
        (s.tables.membersOf "T:Ring").find? (s.matchesMember m) = none ∧
        ((s.tables.membersOf "T:Plate").find? (s.matchesMember m)).any
          (fun x => x.id == "M:Plate.Scale(System.Int32)") = true)) = true ∧
      s.tables.containing.get? "M:IShape.Scale(System.Int32)" = some "T:IShape" ∧
      s.tables.baseTypes.get? "T:Ring" = some "T:Plate" ∧
      "T:IShape" ∈ s.tables.declaredInterfaces.listAt "T:Ring" ∧
      "M:IShape.Scale(System.Int32)" ∈
        s.tables.explicitImplementations.listAt "M:Ring.Scale(System.Int32)")) = true := by
    decide +kernel
  obtain ⟨s, hs, hfacts⟩ := Attempt.exists_ok_of_any hfacts
  obtain ⟨hids, hinterface, hring, hscale, hcontainer, hbase, hdeclares, hnames⟩ :=
    of_decide_eq_true hfacts
  have hwell := wellFormed_of_ofDocument hs
  obtain ⟨named, hnamedHeld, hnamedId⟩ :=
    hwell.closed.exists_holds hids _ (List.mem_singleton_self _)
  obtain ⟨interface, -, hinterfaceId, hinterfaceKind⟩ := hwell.closed.exists_holds_of_any hinterface
  obtain ⟨ring, hringHeld, hringId, hringFacts⟩ := hwell.closed.exists_holds_of_any hring
  obtain ⟨scale, -, hscaleId, hscaleFacts⟩ := hwell.closed.exists_holds_of_any hscale
  obtain ⟨hringKind, hconcrete⟩ := of_decide_eq_true hringFacts
  obtain ⟨hkind, hsame, hnone, hplate⟩ := of_decide_eq_true hscaleFacts
  obtain ⟨inherited, hfound, hinheritedId⟩ := (Option.any_eq_true _ _).mp hplate
  have hinterfaceKind : interface.kind = .namedType := beq_iff_eq.mp hinterfaceKind
  rw [← hscaleId] at hcontainer hnames
  rw [← hinterfaceId] at hcontainer
  rw [← hnamedId] at hnames
  have hprovides : s.Provides (s.matchesMember scale) ring.id inherited := by
    rw [hringId]
    exact .inherited hnone hbase (.own hfound)
  have hringImplements : ring ∈ s.implementationsOf interface := by
    rw [mem_implementationsOf_interface_iff hwell.closed hinterfaceKind, mem_interfaceIds_iff,
      hringId, hinterfaceId]
    exact ⟨hringHeld, hringKind, hconcrete, by decide, "T:Ring", Or.inl rfl, .single hdeclares⟩
  have hkinds : ∀ type ∈ s.implementationsOf interface, ∀ y,
      s.Provides (s.hasSignatureOf scale) type.id y → y.kind = scale.kind := by
    intro type _ y hy
    have hvalue : y ∈ s.tables.symbols.values :=
      List.mem_map.mpr ⟨(y.id, y), Table.mem_of_find? (hy.holds hwell.closed), rfl⟩
    exact hsame y hvalue (beq_iff_eq.mp (Bool.and_eq_true_iff.mp hy.fits).1)
  have himplements : ∀ x, x ∈ s.implementationsOf scale ↔ _ := fun x =>
    mem_implementationsOf_iff_matches (x := x) hwell hkind hinterfaceKind hcontainer hkinds
  refine ⟨s, interface, scale, ring, named, inherited, hs, ?_, hringImplements, ?_, hprovides, ?_⟩
  · simp [hinterfaceId, hscaleId, hringId, hnamedId, beq_iff_eq.mp hinheritedId]
  · exact (himplements named).mpr ⟨hnamedHeld, Or.inl hnames⟩
  · exact (himplements inherited).mpr
      ⟨hprovides.holds hwell.closed, Or.inr ⟨ring, hringImplements, hprovides⟩⟩

/-- A square with a field of the name of a property that it inherits and that its interface asks
for. -/
def squareDocument : Value :=
  let type (name : String) (more : List (Value × Value)) : Value :=
    .mapping ((.text "name", .text name) :: more)
  let area (kind : String) : Value × Value := (.text "members", .list [.mapping [
    (.text "kind", .text kind), (.text "name", .text "Area")]])
  .mapping [(.text "types", .list [
    type "IShape" [(.text "kind", .text "interface"), area "property"],
    type "Shape" [area "property"],
    type "Square" [(.text "base", .text "Shape"),
      (.text "interfaces", .list [.text "IShape"]), area "field"]])]

/-- The field takes the place of the property that the square inherits: it is listed as what
implements the property of the interface, and the inherited one is not. -/
theorem field_hides_inherited_property : ∃ s interface area square inherited field,
    ofDocument .empty squareDocument "/work" none = .ok s ∧
      isInterface interface = true ∧ area ∈ s.membersOf interface ∧ area.kind = .property ∧
      square ∈ s.implementationsOf interface ∧
      s.Provides (s.matchesMember area) square.id inherited ∧
      inherited ∉ s.implementationsOf area ∧
      field ∈ s.implementationsOf area ∧ field.kind ≠ area.kind := by
  have hfacts : (ofDocument .empty squareDocument "/work" none).toOption.any (fun s => decide (
      (s.symbol? "T:IShape").any (fun t =>
        decide (t.kind = .namedType ∧ isInterface t = true)) = true ∧
      (s.symbol? "T:Square").any (fun t =>
        decide (t.kind = .namedType ∧ t.typeKind.any TypeKind.isConcrete = true)) = true ∧
      (s.symbol? "P:IShape.Area").any (fun m => decide (m.kind = .property ∧
        (s.tables.membersOf "T:Square").find? (s.matchesMember m) = none ∧
        ((s.tables.membersOf "T:Shape").find? (s.matchesMember m)).any
          (fun x => x.id == "P:Shape.Area") = true ∧
        ((s.tables.membersOf "T:Square").find? (s.hasSignatureOf m)).any
          (fun x => decide (x.id = "F:Square.Area" ∧ x.kind = .field)) = true)) = true ∧
      "P:IShape.Area" ∈ s.tables.members.listAt "T:IShape" ∧
      s.tables.containing.get? "P:IShape.Area" = some "T:IShape" ∧
      s.tables.explicitImplementations.listAt "P:Shape.Area" = [] ∧
      s.tables.baseTypes.entries = [("T:Square", "T:Shape")] ∧
      s.tables.declaredInterfaces.entries = [("T:Square", ["T:IShape"])])) = true := by
    decide +kernel
  obtain ⟨s, hs, hfacts⟩ := Attempt.exists_ok_of_any hfacts
  obtain ⟨hinterfaceFacts, hsquareFacts, hareaFacts, hmember, hcontainer, hunnamed, hbases,
    hdeclared⟩ := of_decide_eq_true hfacts
  have hwell := wellFormed_of_ofDocument hs
  obtain ⟨interface, -, hinterfaceId, hinterfaceFacts⟩ :=
    hwell.closed.exists_holds_of_any hinterfaceFacts
  obtain ⟨square, hsquareHeld, hsquareId, hsquareFacts⟩ :=
    hwell.closed.exists_holds_of_any hsquareFacts
  obtain ⟨area, hareaHeld, hareaId, hareaFacts⟩ := hwell.closed.exists_holds_of_any hareaFacts
  obtain ⟨hinterfaceKind, hinterface⟩ := of_decide_eq_true hinterfaceFacts
  obtain ⟨hsquareKind, hconcrete⟩ := of_decide_eq_true hsquareFacts
  obtain ⟨hproperty, hnone, hshape, hsquare⟩ := of_decide_eq_true hareaFacts
  obtain ⟨inherited, hinheritedFound, hinheritedId⟩ := (Option.any_eq_true _ _).mp hshape
  obtain ⟨field, hfieldFound, hfieldFacts⟩ := (Option.any_eq_true _ _).mp hsquare
  obtain ⟨hfieldId, hfield⟩ := of_decide_eq_true hfieldFacts
  have hinheritedId : inherited.id = "P:Shape.Area" := beq_iff_eq.mp hinheritedId
  rw [← hareaId] at hmember hcontainer
  rw [← hinterfaceId] at hmember hcontainer
  have hkind : area.kind ≠ .namedType := by
    rw [hproperty]
    decide
  have himplements : ∀ x, x ∈ s.implementationsOf area ↔ _ := fun x =>
    mem_implementationsOf_iff_hasSignature (x := x) hwell hkind hinterfaceKind hcontainer
  have hbase : s.HasBase "T:Square" "T:Shape" := by
    unfold HasBase Table.get?
    rw [hbases]
    rfl
  have hdeclares : s.Declares "T:Square" "T:IShape" := by
    unfold Declares Table.listAt Table.get?
    rw [hdeclared]
    exact List.mem_singleton_self _
  have hprovides : s.Provides (s.hasSignatureOf area) "T:Square" field := .own hfieldFound
  have hsquareImplements : square ∈ s.implementationsOf interface := by
    rw [mem_implementationsOf_interface_iff hwell.closed hinterfaceKind, mem_interfaceIds_iff,
      hsquareId, hinterfaceId]
    exact ⟨hsquareHeld, hsquareKind, hconcrete, by decide, "T:Square", Or.inl rfl,
      .single hdeclares⟩
  -- nothing is derived from the square, so that no other type has the interface
  have honly : ∀ type ∈ s.implementationsOf interface, type.id = "T:Square" := by
    intro type htype
    obtain ⟨-, -, -, hhas⟩ :=
      (mem_implementationsOf_interface_iff hwell.closed hinterfaceKind).mp htype
    obtain ⟨-, start, hstart, hchain⟩ := mem_interfaceIds_iff.mp hhas
    obtain ⟨next, hfirst, -⟩ := TransGen.head'_iff.mp hchain
    obtain rfl : start = "T:Square" := by
      obtain ⟨ids, hget, -⟩ := Table.mem_listAt_iff.mp hfirst
      have hentry := Table.mem_of_find? hget
      rw [hdeclared] at hentry
      exact congrArg Prod.fst (List.mem_singleton.mp hentry)
    obtain hself | habove := hstart
    · exact hself.symm
    · obtain ⟨last, -, hlast⟩ := TransGen.tail'_iff.mp habove
      have hentry := Table.mem_of_find? hlast
      rw [hbases] at hentry
      have hsame : "T:Square" = "T:Shape" := congrArg Prod.snd (List.mem_singleton.mp hentry)
      exact absurd hsame (by decide)
  refine ⟨s, interface, area, square, inherited, field, hs, hinterface,
    (mem_symbolsOf_iff hwell.closed hareaHeld).mpr hmember, hproperty, hsquareImplements, ?_, ?_,
    ?_, ?_⟩
  · rw [hsquareId]
    exact .inherited hnone hbase (.own hinheritedFound)
  · rw [himplements, hinheritedId, hunnamed]
    rintro ⟨-, hnames | ⟨type, htype, hother⟩⟩
    · cases hnames
    · rw [honly type htype] at hother
      rw [hother.unique hprovides, hfieldId] at hinheritedId
      exact absurd hinheritedId (by decide)
  · rw [himplements]
    refine ⟨hprovides.holds hwell.closed, Or.inr ⟨square, hsquareImplements, ?_⟩⟩
    rw [hsquareId]
    exact hprovides
  · rw [hfield, hproperty]
    decide

end Snapshot
end SymbolAtlas
