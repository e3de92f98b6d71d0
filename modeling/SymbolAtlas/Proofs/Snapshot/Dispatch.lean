import SymbolAtlas.Proofs.Snapshot.Caller
import Mathlib.Tactic

/-!
# Dispatched calls

A call names one member and may end up in another that overrides or implements it, so that who
calls the one directly calls the other indirectly.  Overriding is one relation, whether the links
are followed from a member to what it overrides or turned round.  Implementing is not: what an
interface is implemented by is searched from the types that have it, what a member implements from
the member's own type, and a member that a type inherits is found by the first search only, unless
the type that it comes from has the interface as well.
-/

namespace SymbolAtlas

open Relation Tables

namespace Snapshot

variable {s : Snapshot} {m x : Symbol} {a b : String}

/-- Who calls the first member directly is an indirect caller of the second, and comes with all the
places of the direct calls. -/
def DispatchesTo (s : Snapshot) (m x : Symbol) : Prop :=
  ∀ c ∈ s.callersOf m, c.isDirect = true →
    ∃ other ∈ s.callersOf x, other.method = c.method ∧ other.isDirect = false ∧
      ∀ l ∈ c.callSites, l ∈ other.callSites

theorem mem_dispatchTargets_iff :
    a ∈ s.dispatchTargets x ↔
      a ∈ s.overriddenChain x.id ∨ a ∈ (s.implementedMembers x).map Symbol.id := by
  unfold dispatchTargets
  rw [List.mem_append, List.mem_filter, Bool.not_eq_true', List.contains_eq_mem,
    decide_eq_false_iff_not]
  tauto

theorem dispatchesTo_of_mem_dispatchTargets (hs : s.tables.Closed)
    (hm : m.id ∈ s.dispatchTargets x) : s.DispatchesTo m x := by
  -- a call that names the first member is one of those that may end up in the second
  have hreaching : ∀ call ∈ s.callsReaching m true, call ∈ s.callsReaching x false :=
    fun call hcall => List.mem_flatMap.mpr ⟨m.id, hm, hcall⟩
  intro c hc hdirect
  obtain ⟨hmethod, hstands⟩ := standsFor_of_mem_callersOf hs hc
  rw [hdirect] at hstands
  obtain ⟨call, hcall, hcaller⟩ := hstands.makes
  obtain ⟨other, hother, hsame, hindirect⟩ :=
    exists_mem_callersOf hs (hreaching call hcall) hmethod hcaller
  have hstandsOther := (standsFor_of_mem_callersOf hs hother).2
  rw [hindirect] at hstandsOther
  refine ⟨other, hother, hsame, hindirect, ?_⟩
  intro l hl
  obtain ⟨call, hcall, hcaller, hlocation⟩ := (hstands.places l).mp hl
  rw [hstandsOther.places, hsame]
  exact ⟨call, hreaching call hcall, hcaller, hlocation⟩

theorem exists_direct_caller (hs : s.tables.Closed) {method : Symbol} {location : Option Location}
    (hcall : ⟨m.id, method.id, location⟩ ∈ s.calls) (hmethod : Holds s.tables.symbols method) :
    ∃ c ∈ s.callersOf m, c.method = method ∧ c.isDirect = true ∧
      ∀ l ∈ location, l ∈ c.callSites := by
  have hreaching : ⟨m.id, method.id, location⟩ ∈ s.callsReaching m true :=
    List.mem_filter.mpr ⟨hcall, beq_self_eq_true m.id⟩
  obtain ⟨c, hc, hsame, hdirect⟩ := exists_mem_callersOf hs hreaching hmethod rfl
  have hstands := (standsFor_of_mem_callersOf hs hc).2
  rw [hdirect] at hstands
  refine ⟨c, hc, hsame, hdirect, ?_⟩
  rintro l rfl
  rw [hstands.places, hsame]
  exact ⟨_, hreaching, rfl, rfl⟩

/-! ## Overrides -/

/-- The first member overrides the second. -/
def Overrides (s : Snapshot) (a b : String) : Prop :=
  s.tables.overridden.get? a = some b

theorem mem_overriddenChain_iff : b ∈ s.overriddenChain a ↔ TransGen s.Overrides a b :=
  Reach.mem_explore_single_iff

theorem mem_overridesOf_iff (hs : s.tables.WellFormed) (hx : Holds s.tables.symbols x) :
    x ∈ s.overridesOf m ↔ x.id ≠ m.id ∧ TransGen s.Overrides x.id m.id := by
  unfold overridesOf
  rw [mem_sorted_iff hs.closed hx]
  exact Reach.mem_beyond_reversed_iff hs.keyed.overridden

/-- A member has among its overrides the others from which a chain of overridden members leads to
it, and to them its calls are dispatched. -/
theorem overridesOf_agrees (hs : s.tables.WellFormed) (hm : Holds s.tables.symbols m)
    (hx : Holds s.tables.symbols x) (hne : m ≠ x) :
    (x ∈ s.overridesOf m ↔ TransGen s.Overrides x.id m.id) ∧
      (x ∈ s.overridesOf m → s.DispatchesTo m x) := by
  have hids : x.id ≠ m.id := fun hid => hne (hm.eq_of_id hx hid.symm)
  constructor
  · rw [mem_overridesOf_iff hs hx]
    exact and_iff_right hids
  · intro hover
    apply dispatchesTo_of_mem_dispatchTargets hs.closed
    rw [mem_dispatchTargets_iff, mem_overriddenChain_iff]
    exact Or.inl ((mem_overridesOf_iff hs hx).mp hover).2

/-- Three members that override each other in a ring, and a call of one of them. -/
def ringDocument : Value :=
  let light (name next : String) : Value :=
    .mapping [(.text "name", .text name), (.text "members", .list [.mapping [
      (.text "name", .text "Next"), (.text "overrides", .text (next ++ ".Next"))]])]
  let call : Value := .mapping [(.text "op", .text "invocation"),
    (.text "target", .text "Green.Next"), (.text "line", .int 2), (.text "column", .int 5)]
  let road : Value := .mapping [(.text "name", .text "Road"), (.text "file", .text "Road.cs"),
    (.text "members", .list [.mapping [(.text "name", .text "Open"),
      (.text "body", .list [call])]])]
  .mapping [(.text "types", .list [light "Red" "Amber", light "Amber" "Green",
    light "Green" "Red", road])]

theorem overridesOf_agrees_ring : ∃ s red green road c,
    ofDocument .empty ringDocument "/work" none = .ok s ∧
      [red, green, road].map Symbol.id = ["M:Red.Next()", "M:Green.Next()", "M:Road.Open()"] ∧
      red ∈ s.overridesOf green ∧ TransGen s.Overrides red.id green.id ∧
      c ∈ s.callersOf red ∧ c.method = road ∧ c.isDirect = false ∧
      ⟨"/work/Road.cs", 2, 5⟩ ∈ c.callSites := by
  have hfacts : (ofDocument .empty ringDocument "/work" none).toOption.any (fun s => decide (
      (∀ id ∈ ["M:Red.Next()", "M:Green.Next()", "M:Road.Open()"],
        s.tables.symbols.contains id = true) ∧
      s.tables.overridden.get? "M:Red.Next()" = some "M:Amber.Next()" ∧
      s.tables.overridden.get? "M:Amber.Next()" = some "M:Green.Next()" ∧
      ⟨"M:Green.Next()", "M:Road.Open()", some ⟨"/work/Road.cs", 2, 5⟩⟩ ∈ s.calls)) = true := by
    decide +kernel
  obtain ⟨s, hs, hfacts⟩ := Attempt.exists_ok_of_any hfacts
  obtain ⟨hids, hred, hamber, hcall⟩ := of_decide_eq_true hfacts
  have hwell := wellFormed_of_ofDocument hs
  have hsymbol := hwell.closed.exists_holds hids
  obtain ⟨red, hredHeld, hredId⟩ := hsymbol "M:Red.Next()" (by simp)
  obtain ⟨green, hgreenHeld, hgreenId⟩ := hsymbol "M:Green.Next()" (by simp)
  obtain ⟨road, hroadHeld, hroadId⟩ := hsymbol "M:Road.Open()" (by simp)
  have hne : green ≠ red := by
    rintro rfl
    exact absurd (hredId.symm.trans hgreenId) (by decide)
  have hchain : TransGen s.Overrides red.id green.id := by
    rw [hredId, hgreenId]
    exact .head hred (.single hamber)
  obtain ⟨hover, hdispatch⟩ := overridesOf_agrees hwell hgreenHeld hredHeld hne
  have hmem : red ∈ s.overridesOf green := hover.mpr hchain
  rw [← hgreenId, ← hroadId] at hcall
  obtain ⟨direct, hdirectMem, hdirectMethod, hdirect, hplaces⟩ :=
    exists_direct_caller hwell.closed hcall hroadHeld
  obtain ⟨c, hc, hmethod, hindirect, hsites⟩ := hdispatch hmem direct hdirectMem hdirect
  refine ⟨s, red, green, road, c, hs, ?_, hmem, hchain, hc, hmethod.trans hdirectMethod,
    hindirect, hsites _ (hplaces _ rfl)⟩
  simp [hredId, hgreenId, hroadId]

/-! ## Implementations -/

/-- The type around a member has an interface. -/
def OwnTypeHas (s : Snapshot) (x : Symbol) (interface : String) : Prop :=
  ∃ type, s.tables.containing.get? x.id = some type ∧ interface ∈ s.interfaceIds type

/-- A member that says what it implements implements that alone, and another one the members with
its signature of the interfaces that its type has. -/
theorem mem_implementedMembers_iff (hs : s.tables.Closed) (hm : Holds s.tables.symbols m) :
    m ∈ s.implementedMembers x ↔
      m.id ∈ s.tables.explicitImplementations.listAt x.id ∨
        s.tables.explicitImplementations.listAt x.id = [] ∧
          ∃ interface, s.OwnTypeHas x interface ∧
            m ∈ s.tables.membersOf interface ∧ m.signature = x.signature := by
  unfold implementedMembers OwnTypeHas
  split
  next hnone =>
    rw [hnone]
    cases hcontainer : s.tables.containing.get? x.id with
    | none => simp
    | some type => simp
  next hnamed =>
    rw [mem_symbolsOf_iff hs hm, or_iff_left]
    rintro ⟨hnone, -⟩
    exact hnamed hnone

theorem mem_implementers_iff (hs : s.tables.Closed) {type : Symbol}
    (htype : Holds s.tables.symbols type) :
    type ∈ s.implementers a ↔
      type.id ∈ s.tables.typeNames.values ∧ type.typeKind.any TypeKind.isConcrete = true ∧
        a ∈ s.interfaceIds type.id := by
  have hfound : s.symbol? type.id = some type := htype
  unfold implementers
  rw [mem_sorted_iff hs htype, List.mem_filter, hfound]
  simp

theorem mem_keysWhere_contains_iff (hs : s.tables.WellFormed) :
    a ∈ s.tables.explicitImplementations.keysWhere (·.contains b) ↔
      b ∈ s.tables.explicitImplementations.listAt a := by
  rw [Table.mem_listAt_iff]
  constructor
  · intro ha
    obtain ⟨⟨key, named⟩, hentry, rfl⟩ := List.mem_map.mp ha
    obtain ⟨hmem, hnamed⟩ := List.mem_filter.mp hentry
    have hget := Table.find?_of_mem hs.keyed.explicitImplementations hmem
    exact ⟨named, hget, List.contains_iff_mem.mp hnamed⟩
  · rintro ⟨named, hget, hmem⟩
    refine List.mem_map.mpr ⟨(a, named), ?_, rfl⟩
    exact List.mem_filter.mpr ⟨Table.mem_of_find? hget, List.contains_iff_mem.mpr hmem⟩

theorem mem_memberImplementations_iff (hs : s.tables.WellFormed)
    (hx : Holds s.tables.symbols x) :
    x ∈ s.memberImplementations m ↔
      ∃ interface, s.tables.containing.get? m.id = some interface ∧
        (m.id ∈ s.tables.explicitImplementations.listAt x.id ∨
          ∃ type ∈ s.implementers interface,
            s.matchingMember? m.signature (type.id :: s.baseChain type.id) = some x.id) := by
  unfold memberImplementations
  cases hcontainer : s.tables.containing.get? m.id with
  | none => simp
  | some interface =>
      simp only []
      rw [mem_sorted_iff hs.closed hx, List.mem_append, mem_keysWhere_contains_iff hs,
        List.mem_filterMap]
      simp

/-- What matches a signature has it, and does not say what it implements. -/
theorem of_matchingMember {signature : String × List String} {owners : List String}
    (hs : s.tables.Closed) (hx : Holds s.tables.symbols x)
    (hmatch : s.matchingMember? signature owners = some x.id) :
    x.signature = signature ∧ s.tables.explicitImplementations.listAt x.id = [] := by
  obtain ⟨owner, -, howner⟩ := List.exists_of_findSome?_eq_some hmatch
  obtain ⟨found, hfound, hid⟩ := Option.map_eq_some_iff.mp howner
  have hheld : Holds s.tables.symbols found :=
    holds_of_mem_symbolsOf hs.ids (List.mem_of_find?_eq_some hfound)
  have hsame : found = x := hheld.eq_of_id hx hid
  have hsatisfies := List.find?_some hfound
  rw [hsame, Bool.and_eq_true, beq_iff_eq, Bool.not_eq_true'] at hsatisfies
  obtain ⟨hsignature, hunnamed⟩ := hsatisfies
  refine ⟨hsignature, ?_⟩
  unfold Table.listAt
  rw [Option.not_isSome_iff_eq_none.mp (Bool.eq_false_iff.mp hunnamed)]
  rfl

theorem holds_of_mem_memberImplementations (hs : s.tables.Closed)
    (hx : x ∈ s.memberImplementations m) : Holds s.tables.symbols x := by
  unfold memberImplementations at hx
  cases hcontainer : s.tables.containing.get? m.id with
  | none =>
      rw [hcontainer] at hx
      cases hx
  | some interface =>
      rw [hcontainer] at hx
      exact holds_of_mem_symbolsOf hs.ids (List.mem_mergeSort.mp hx)

theorem implementationsOf_member (hkind : m.kind ≠ .namedType) :
    s.implementationsOf m = s.memberImplementations m := by
  unfold implementationsOf
  rw [if_neg]
  simpa using hkind

theorem mem_implementationsOf_of_matching (hs : s.tables.WellFormed)
    (hx : Holds s.tables.symbols x) (hkind : m.kind ≠ .namedType) {type : Symbol}
    (htype : Holds s.tables.symbols type) (hnamed : type.id ∈ s.tables.typeNames.values)
    (hconcrete : type.typeKind.any TypeKind.isConcrete = true)
    (hinterface : a ∈ s.interfaceIds type.id)
    (hcontainer : s.tables.containing.get? m.id = some a)
    (hmatch : s.matchingMember? m.signature (type.id :: s.baseChain type.id) = some x.id) :
    x ∈ s.implementationsOf m := by
  rw [implementationsOf_member hkind, mem_memberImplementations_iff hs hx]
  have himplementer : type ∈ s.implementers a :=
    (mem_implementers_iff hs.closed htype).mpr ⟨hnamed, hconcrete, hinterface⟩
  exact ⟨a, hcontainer, Or.inr ⟨type, himplementer, hmatch⟩⟩

/-- The calls of an interface member are dispatched to a member that implements it, if that one
says so or is in a type that has the interface itself. -/
theorem dispatchesTo_of_mem_implementationsOf (hs : s.tables.WellFormed) {interface : Symbol}
    (hm : m ∈ s.membersOf interface) (hkind : m.kind ≠ .namedType)
    (hx : x ∈ s.implementationsOf m)
    (hown : m.id ∈ s.tables.explicitImplementations.listAt x.id ∨
      s.OwnTypeHas x interface.id) :
    s.DispatchesTo m x := by
  rw [implementationsOf_member hkind] at hx
  have hmHeld : Holds s.tables.symbols m := holds_of_mem_symbolsOf hs.closed.ids hm
  have hxHeld : Holds s.tables.symbols x := holds_of_mem_memberImplementations hs.closed hx
  have himplemented : m ∈ s.implementedMembers x := by
    rw [mem_implementedMembers_iff hs.closed hmHeld]
    obtain hnamed | htype := hown
    · exact Or.inl hnamed
    · obtain ⟨-, -, hnamed | ⟨type, -, hmatch⟩⟩ :=
        (mem_memberImplementations_iff hs hxHeld).mp hx
      · exact Or.inl hnamed
      · -- found by its signature, it finds the interface member by the same signature
        obtain ⟨hsignature, hunnamed⟩ := of_matchingMember hs.closed hxHeld hmatch
        exact Or.inr ⟨hunnamed, interface.id, htype, hm, hsignature.symm⟩
  apply dispatchesTo_of_mem_dispatchTargets hs.closed
  rw [mem_dispatchTargets_iff]
  exact Or.inr (List.mem_map_of_mem himplemented)

/-- An interface with a member that a robot declares itself and a car inherits from its base, and a
call of that member. -/
def runnerDocument : Value :=
  let type (name : String) (more : List (Value × Value)) : Value :=
    .mapping ((.text "name", .text name) :: more)
  let run (more : List (Value × Value)) : Value × Value :=
    (.text "members", .list [.mapping ((.text "name", .text "Run") :: more)])
  let runner : Value × Value := (.text "interfaces", .list [.text "IRunner"])
  let call : Value := .mapping [(.text "op", .text "invocation"),
    (.text "target", .text "IRunner.Run"), (.text "line", .int 4), (.text "column", .int 5)]
  .mapping [(.text "types", .list [
    type "IRunner" [(.text "kind", .text "interface"), run []],
    type "Robot" [runner, run []],
    type "Engine" [run []],
    type "Car" [(.text "base", .text "Engine"), runner],
    type "Driver" [(.text "file", .text "Driver.cs"), run [(.text "body", .list [call])]]])]

theorem searches_runner (hbases : s.tables.baseTypes.entries = [("T:Car", "T:Engine")])
    (hdeclared : s.tables.declaredInterfaces.entries =
      [("T:Robot", ["T:IRunner"]), ("T:Car", ["T:IRunner"])]) :
    s.baseChain "T:Robot" = [] ∧ s.baseChain "T:Car" = ["T:Engine"] ∧
      s.interfaceIds "T:Robot" = ["T:IRunner"] ∧ s.interfaceIds "T:Car" = ["T:IRunner"] ∧
      s.interfaceIds "T:Engine" = [] := by
  unfold interfaceIds baseChain Reach.single
  rw [hbases, hdeclared]
  refine ⟨?_, ?_, ?_, ?_, ?_⟩ <;> cbv

theorem dispatchesTo_of_mem_implementationsOf_robot : ∃ s interface run robot driver c,
    ofDocument .empty runnerDocument "/work" none = .ok s ∧
      [run, robot, driver].map Symbol.id = ["M:IRunner.Run()", "M:Robot.Run()", "M:Driver.Run()"] ∧
      run ∈ s.membersOf interface ∧ robot ∈ s.implementationsOf run ∧
      c ∈ s.callersOf robot ∧ c.method = driver ∧ c.isDirect = false ∧
      ⟨"/work/Driver.cs", 4, 5⟩ ∈ c.callSites := by
  have hfacts : (ofDocument .empty runnerDocument "/work" none).toOption.any (fun s => decide (
      (∀ id ∈ ["T:IRunner", "M:Robot.Run()", "M:Driver.Run()"],
        s.tables.symbols.contains id = true) ∧
      (s.symbol? "M:IRunner.Run()").any (fun m => decide (m.kind ≠ .namedType ∧
        s.matchingMember? m.signature ["T:Robot"] = some "M:Robot.Run()")) = true ∧
      (s.symbol? "T:Robot").any (fun type => type.typeKind.any TypeKind.isConcrete) = true ∧
      "T:Robot" ∈ s.tables.typeNames.values ∧
      "M:IRunner.Run()" ∈ s.tables.members.listAt "T:IRunner" ∧
      s.tables.containing.get? "M:IRunner.Run()" = some "T:IRunner" ∧
      s.tables.containing.get? "M:Robot.Run()" = some "T:Robot" ∧
      s.tables.baseTypes.entries = [("T:Car", "T:Engine")] ∧
      s.tables.declaredInterfaces.entries =
        [("T:Robot", ["T:IRunner"]), ("T:Car", ["T:IRunner"])] ∧
      ⟨"M:IRunner.Run()", "M:Driver.Run()", some ⟨"/work/Driver.cs", 4, 5⟩⟩ ∈ s.calls)) = true := by
    decide +kernel
  obtain ⟨s, hs, hfacts⟩ := Attempt.exists_ok_of_any hfacts
  obtain ⟨hids, hrunFacts, hrobotFacts, hnamed, hmember, hcontainer, hrobotType, hbases, hdeclared,
    hcall⟩ := of_decide_eq_true hfacts
  have hwell := wellFormed_of_ofDocument hs
  have hsymbol := hwell.closed.exists_holds hids
  obtain ⟨interface, -, hinterfaceId⟩ := hsymbol "T:IRunner" (by simp)
  obtain ⟨robot, hrobot, hrobotId⟩ := hsymbol "M:Robot.Run()" (by simp)
  obtain ⟨driver, hdriver, hdriverId⟩ := hsymbol "M:Driver.Run()" (by simp)
  obtain ⟨run, hrun, hrunId, hrunFacts⟩ := hwell.closed.exists_holds_of_any hrunFacts
  obtain ⟨hkind, hmatch⟩ := of_decide_eq_true hrunFacts
  obtain ⟨type, htype, htypeId, hconcrete⟩ := hwell.closed.exists_holds_of_any hrobotFacts
  obtain ⟨hchain, -, hinterfaces, -, -⟩ := searches_runner hbases hdeclared
  rw [← hrunId] at hmember hcontainer hcall
  rw [← hinterfaceId] at hmember hcontainer
  rw [← hrobotId] at hmatch hrobotType
  rw [← htypeId] at hmatch hnamed hrobotType hchain hinterfaces
  rw [← hdriverId] at hcall
  have hinterface : interface.id ∈ s.interfaceIds type.id := by
    rw [hinterfaces, hinterfaceId]
    exact List.mem_singleton_self _
  have hmember : run ∈ s.membersOf interface := (mem_symbolsOf_iff hwell.closed hrun).mpr hmember
  have himplements : robot ∈ s.implementationsOf run := by
    apply mem_implementationsOf_of_matching hwell hrobot hkind htype hnamed hconcrete hinterface
      hcontainer
    rw [hchain]
    exact hmatch
  have hown : s.OwnTypeHas robot interface.id := ⟨type.id, hrobotType, hinterface⟩
  obtain ⟨direct, hdirectMem, hdirectMethod, hdirect, hplaces⟩ :=
    exists_direct_caller hwell.closed hcall hdriver
  obtain ⟨c, hc, hmethod, hindirect, hsites⟩ := dispatchesTo_of_mem_implementationsOf hwell hmember
    hkind himplements (Or.inr hown) direct hdirectMem hdirect
  refine ⟨s, interface, run, robot, driver, c, hs, ?_, hmember, himplements, hc,
    hmethod.trans hdirectMethod, hindirect, hsites _ (hplaces _ rfl)⟩
  simp [hrunId, hrobotId, hdriverId]

theorem ownTypeHas_of_mem_implementedMembers
    (hunnamed : s.tables.explicitImplementations.listAt x.id = [])
    (hm : m ∈ s.implementedMembers x) : ∃ interface, s.OwnTypeHas x interface := by
  unfold implementedMembers at hm
  rw [hunnamed] at hm
  cases hcontainer : s.tables.containing.get? x.id with
  | none =>
      rw [hcontainer] at hm
      cases hm
  | some type =>
      rw [hcontainer] at hm
      obtain ⟨interface, hinterface, -⟩ := List.mem_flatMap.mp hm
      exact ⟨interface, type, hcontainer, hinterface⟩

/-- A member that overrides nothing, names nothing as implemented and is in a type without
interfaces has no indirect callers, whatever types inherit it. -/
theorem isDirect_of_mem_callersOf (hs : s.tables.Closed)
    (hoverridden : s.tables.overridden.get? x.id = none)
    (hunnamed : s.tables.explicitImplementations.listAt x.id = [])
    (hown : ∀ interface, ¬ s.OwnTypeHas x interface) {c : Caller} (hc : c ∈ s.callersOf x) :
    c.isDirect = true := by
  have hstands := (standsFor_of_mem_callersOf hs hc).2
  cases hdirect : c.isDirect with
  | true => rfl
  | false =>
      rw [hdirect] at hstands
      obtain ⟨call, hcall, -⟩ := hstands.makes
      obtain ⟨target, htarget, -⟩ := List.mem_flatMap.mp hcall
      obtain hchain | himplemented := mem_dispatchTargets_iff.mp htarget
      · obtain ⟨next, hnext, -⟩ := TransGen.head'_iff.mp (mem_overriddenChain_iff.mp hchain)
        unfold Overrides at hnext
        rw [hoverridden] at hnext
        cases hnext
      · obtain ⟨m, hm, -⟩ := List.mem_map.mp himplemented
        obtain ⟨interface, htype⟩ := ownTypeHas_of_mem_implementedMembers hunnamed hm
        exact absurd htype (hown interface)

/-- A member that a type inherits implements an interface of that type, but the calls of the
interface member are not dispatched to it. -/
theorem not_dispatched_to_inherited : ∃ s interface run engine c,
    ofDocument .empty runnerDocument "/work" none = .ok s ∧
      isInterface interface = true ∧ run ∈ s.membersOf interface ∧
      engine ∈ s.implementationsOf run ∧ c ∈ s.callersOf run ∧ c.isDirect = true ∧
      ∀ other ∈ s.callersOf engine, other.isDirect = false → other.method ≠ c.method := by
  have hfacts : (ofDocument .empty runnerDocument "/work" none).toOption.any (fun s => decide (
      (∀ id ∈ ["M:Engine.Run()", "M:Driver.Run()"], s.tables.symbols.contains id = true) ∧
      (s.symbol? "T:IRunner").any isInterface = true ∧
      (s.symbol? "M:IRunner.Run()").any (fun m => decide (m.kind ≠ .namedType ∧
        s.matchingMember? m.signature ["T:Car", "T:Engine"] = some "M:Engine.Run()")) = true ∧
      (s.symbol? "T:Car").any (fun type => type.typeKind.any TypeKind.isConcrete) = true ∧
      "T:Car" ∈ s.tables.typeNames.values ∧
      "M:IRunner.Run()" ∈ s.tables.members.listAt "T:IRunner" ∧
      s.tables.containing.get? "M:IRunner.Run()" = some "T:IRunner" ∧
      s.tables.containing.get? "M:Engine.Run()" = some "T:Engine" ∧
      s.tables.baseTypes.entries = [("T:Car", "T:Engine")] ∧
      s.tables.declaredInterfaces.entries =
        [("T:Robot", ["T:IRunner"]), ("T:Car", ["T:IRunner"])] ∧
      s.tables.overridden.get? "M:Engine.Run()" = none ∧
      s.tables.explicitImplementations.listAt "M:Engine.Run()" = [] ∧
      ⟨"M:IRunner.Run()", "M:Driver.Run()", some ⟨"/work/Driver.cs", 4, 5⟩⟩ ∈ s.calls)) = true := by
    decide +kernel
  obtain ⟨s, hs, hfacts⟩ := Attempt.exists_ok_of_any hfacts
  obtain ⟨hids, hinterfaceFacts, hrunFacts, hcarFacts, hnamed, hmember, hcontainer, hengineType,
    hbases, hdeclared, hoverridden, hunnamed, hcall⟩ := of_decide_eq_true hfacts
  have hwell := wellFormed_of_ofDocument hs
  have hsymbol := hwell.closed.exists_holds hids
  obtain ⟨engine, hengine, hengineId⟩ := hsymbol "M:Engine.Run()" (by simp)
  obtain ⟨driver, hdriver, hdriverId⟩ := hsymbol "M:Driver.Run()" (by simp)
  obtain ⟨interface, -, hinterfaceId, hinterface⟩ :=
    hwell.closed.exists_holds_of_any hinterfaceFacts
  obtain ⟨run, hrun, hrunId, hrunFacts⟩ := hwell.closed.exists_holds_of_any hrunFacts
  obtain ⟨hkind, hmatch⟩ := of_decide_eq_true hrunFacts
  obtain ⟨car, hcar, hcarId, hconcrete⟩ := hwell.closed.exists_holds_of_any hcarFacts
  obtain ⟨-, hchain, -, hinterfaces, hnone⟩ := searches_runner hbases hdeclared
  rw [← hrunId] at hmember hcontainer hcall
  rw [← hinterfaceId] at hmember
  rw [← hengineId] at hmatch hengineType hoverridden hunnamed
  rw [← hcarId] at hmatch hnamed hchain hinterfaces
  rw [← hdriverId] at hcall
  have himplements : engine ∈ s.implementationsOf run := by
    apply mem_implementationsOf_of_matching hwell hengine hkind hcar hnamed hconcrete ?_ hcontainer
    · rw [hchain]
      exact hmatch
    · rw [hinterfaces]
      exact List.mem_singleton_self _
  have hown : ∀ interface, ¬ s.OwnTypeHas engine interface := by
    rintro interface ⟨type, htype, hmem⟩
    rw [hengineType] at htype
    obtain rfl : "T:Engine" = type := Option.some.inj htype
    rw [hnone] at hmem
    cases hmem
  obtain ⟨c, hc, -, hdirect, -⟩ := exists_direct_caller hwell.closed hcall hdriver
  refine ⟨s, interface, run, engine, c, hs, hinterface,
    (mem_symbolsOf_iff hwell.closed hrun).mpr hmember, himplements, hc, hdirect, ?_⟩
  intro other hother hindirect
  rw [isDirect_of_mem_callersOf hwell.closed hoverridden hunnamed hown hother] at hindirect
  cases hindirect

end Snapshot
end SymbolAtlas
