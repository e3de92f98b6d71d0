import SymbolAtlas.Inheritance
import SymbolAtlas.Proofs.Attempt
import SymbolAtlas.Proofs.Index.Build
import SymbolAtlas.Proofs.Reversal
import SymbolAtlas.Proofs.Snapshot.Lookup
import Mathlib.Tactic

/-!
# The hierarchy read upwards and downwards

The tables link types upwards, to their bases and to the interfaces that they declare.  Queries go
along these links or turn them round, and in either direction they list what chains of links
connect.  Bases give the same relation both ways.  Downwards only the links between interfaces are
followed, while upwards the bases of the first type count as well, so that the two readings of
interfaces agree as long as nothing but interfaces lies on the way.
-/

namespace SymbolAtlas

open Relation Tables

theorem Tables.Holds.eq_of_id {symbols : Table Symbol} {x y : Symbol} (hx : Holds symbols x)
    (hy : Holds symbols y) (hid : x.id = y.id) : x = y := by
  have hx : symbols.get? x.id = some x := hx
  have hy : symbols.get? y.id = some y := hy
  rw [hid, hy] at hx
  exact (Option.some.inj hx).symm

namespace Snapshot

variable {s : Snapshot} {x : Symbol} {ids : List String} {a b : String}

/-- What a document is loaded into is well formed. -/
theorem wellFormed_of_ofDocument {disk : Disk} {data : Value} {root : String}
    {sourcePath : Option String} (hs : ofDocument disk data root sourcePath = .ok s) :
    s.tables.WellFormed :=
  Index.wellFormed_of_tables (tables_of_ofDocument hs)

/-- In what a document is loaded into, bases and interfaces link types. -/
theorem linksTypes_of_ofDocument {disk : Disk} {data : Value} {root : String}
    {sourcePath : Option String} (hs : ofDocument disk data root sourcePath = .ok s) :
    s.tables.LinksTypes :=
  Index.linksTypes_of_tables (tables_of_ofDocument hs)

/-! ## Symbols of ids -/

theorem mem_symbolsOf_iff (hs : s.tables.Closed) (hx : Holds s.tables.symbols x) :
    x ∈ s.symbolsOf ids ↔ x.id ∈ ids := by
  unfold symbolsOf
  rw [mem_symbolsOf]
  constructor
  · rintro ⟨id, hid, hget⟩
    have heq : x.id = id := hs.ids.get? hget
    rw [heq]
    exact hid
  · intro hid
    exact ⟨x.id, hid, hx⟩

theorem mem_sorted_iff (hs : s.tables.Closed) (hx : Holds s.tables.symbols x) :
    x ∈ s.sorted ids ↔ x.id ∈ ids := by
  unfold sorted
  rw [List.mem_mergeSort, mem_symbolsOf_iff hs hx, Link.mem_distinct]

theorem holds_of_mem_sorted (hs : s.tables.Closed) (hx : x ∈ s.sorted ids) :
    Holds s.tables.symbols x :=
  holds_of_mem_symbolsOf hs.ids (List.mem_mergeSort.mp hx)

/-! ## Bases -/

/-- The second type is the base of the first. -/
def HasBase (s : Snapshot) (a b : String) : Prop :=
  s.tables.baseTypes.get? a = some b

theorem mem_baseChain_iff : b ∈ s.baseChain a ↔ TransGen s.HasBase a b :=
  Reach.mem_explore_single_iff

theorem mem_ancestorsOf_iff (hs : s.tables.Closed) {type base : Symbol}
    (hbase : Holds s.tables.symbols base) :
    base ∈ s.ancestorsOf type ↔ base.id ≠ type.id ∧ TransGen s.HasBase type.id base.id := by
  unfold ancestorsOf
  rw [mem_symbolsOf_iff hs hbase, List.mem_filter, mem_baseChain_iff]
  simp [and_comm]

theorem mem_derivedTypes_iff (hs : s.tables.WellFormed) {type base : Symbol}
    (htype : Holds s.tables.symbols type) :
    type ∈ s.derivedTypes base true ↔
      type.id ≠ base.id ∧ TransGen s.HasBase type.id base.id := by
  unfold derivedTypes
  rw [mem_sorted_iff hs.closed htype]
  exact Reach.mem_beyond_reversed_iff hs.keyed.baseTypes

theorem kind_of_mem_derivedTypes (hs : s.tables.WellFormed) (hlinks : s.tables.LinksTypes)
    {base : Symbol} (hx : x ∈ s.derivedTypes base true) : x.kind = .namedType := by
  have hheld := holds_of_mem_sorted hs.closed hx
  obtain ⟨-, hchain⟩ := (mem_derivedTypes_iff hs hheld).mp hx
  obtain ⟨_, hfirst, -⟩ := TransGen.head'_iff.mp hchain
  exact (hlinks.bases.get? hfirst).1.kind_eq hheld

/-! ## Interfaces -/

/-- The first type declares the second as one of its interfaces. -/
def Declares (s : Snapshot) (a b : String) : Prop :=
  b ∈ s.tables.declaredInterfaces.listAt a

def isInterfaceId (s : Snapshot) (id : String) : Bool :=
  (s.symbol? id).any isInterface

/-- The first type is an interface and declares the second. -/
def Extends (s : Snapshot) (a b : String) : Prop :=
  s.isInterfaceId a = true ∧ s.Declares a b

theorem isInterfaceId_of_holds (hx : Holds s.tables.symbols x) :
    s.isInterfaceId x.id = isInterface x := by
  have hx : s.symbol? x.id = some x := hx
  unfold isInterfaceId
  rw [hx]
  rfl

theorem leads_declaredInterfaces (s : Snapshot) :
    Reach.Leads s.tables.declaredInterfaces.entries = s.Declares := by
  funext a b
  exact propext (Reach.leads_entries_iff _ a b)

theorem mem_interfaceIds_iff :
    b ∈ s.interfaceIds a ↔
      b ≠ a ∧ ∃ start, (start = a ∨ TransGen s.HasBase a start) ∧ TransGen s.Declares start b := by
  unfold interfaceIds
  rw [List.mem_filter, Reach.mem_explore_iff, leads_declaredInterfaces, and_comm]
  simp [mem_baseChain_iff]

theorem mem_interfacesOf_iff (hs : s.tables.Closed) {type interface : Symbol}
    (hinterface : Holds s.tables.symbols interface) :
    interface ∈ s.interfacesOf type true ↔ interface.id ∈ s.interfaceIds type.id := by
  unfold interfacesOf
  rw [if_pos rfl]
  exact mem_symbolsOf_iff hs hinterface

/-- What one entry of declared interfaces adds to the links that lead down from an interface. -/
theorem mem_listAt_extensions (r : Table (List String)) (entry : String × List String) :
    b ∈ (if s.isInterfaceId entry.1 then
        entry.2.foldl (fun r interface => r.append interface entry.1) r else r).listAt a ↔
      b ∈ r.listAt a ∨ s.isInterfaceId entry.1 = true ∧ a ∈ entry.2 ∧ b = entry.1 := by
  by_cases hinterface : s.isInterfaceId entry.1 = true
  · have hfold := Table.foldl_iff
      (f := fun (r : Table (List String)) interface => r.append interface entry.1)
      (p := fun r => b ∈ r.listAt a) (q := fun interface => interface = a ∧ b = entry.1)
      (fun _ _ => Table.mem_listAt_append) r entry.2
    rw [if_pos hinterface, hfold]
    simp [hinterface]
  · simp [hinterface]

theorem leads_extensionLinks_iff (hkeys : s.tables.declaredInterfaces.keys.Nodup) :
    Reach.Leads s.extensionLinks a b ↔ s.Extends b a := by
  have hfold := Table.foldl_iff (p := fun r : Table (List String) => b ∈ r.listAt a)
    (mem_listAt_extensions (s := s)) .empty s.tables.declaredInterfaces.entries
  refine (Reach.leads_entries_iff _ a b).trans (hfold.trans ?_)
  constructor
  · rintro (hempty | ⟨entry, hentry, hinterface, hmem, rfl⟩)
    · exact absurd hempty List.not_mem_nil
    · exact ⟨hinterface, Table.mem_listAt_iff.mpr ⟨entry.2, Table.find?_of_mem hkeys hentry, hmem⟩⟩
  · rintro ⟨hinterface, hdeclares⟩
    obtain ⟨interfaces, hget, hmem⟩ := Table.mem_listAt_iff.mp hdeclares
    exact Or.inr ⟨(b, interfaces), Table.mem_of_find? hget, hinterface, hmem, rfl⟩

theorem mem_derivedInterfaces_iff (hs : s.tables.WellFormed) {i j : Symbol}
    (hi : Holds s.tables.symbols i) :
    i ∈ s.derivedInterfaces j true ↔ i.id ≠ j.id ∧ TransGen s.Extends i.id j.id := by
  have hlinks : Reach.Leads s.extensionLinks = Function.swap s.Extends := by
    funext a b
    exact propext (leads_extensionLinks_iff hs.keyed.declaredInterfaces)
  unfold derivedInterfaces
  rw [mem_sorted_iff hs.closed hi]
  unfold Reach.targets
  rw [if_pos rfl, Reach.mem_beyond_iff, hlinks, transGen_swap]

/-- Whatever extends another interface is an interface itself. -/
theorem isInterface_of_mem_derivedInterfaces (hs : s.tables.WellFormed)
    (hlinks : s.tables.LinksTypes) {j : Symbol} (hx : x ∈ s.derivedInterfaces j true) :
    isInterface x = true ∧ x.kind = .namedType := by
  have hheld := holds_of_mem_sorted hs.closed hx
  obtain ⟨-, hchain⟩ := (mem_derivedInterfaces_iff hs hheld).mp hx
  obtain ⟨_, ⟨hinterface, hdeclares⟩, -⟩ := TransGen.head'_iff.mp hchain
  obtain ⟨ids, hget, -⟩ := Table.mem_listAt_iff.mp hdeclares
  exact ⟨(isInterfaceId_of_holds hheld).symm.trans hinterface,
    (hlinks.interfaces.get? hget).1.kind_eq hheld⟩

/-- Where only interfaces are declared, what an interface declares it extends. -/
theorem transGen_extends
    (hdeclared : s.tables.declaredInterfaces.Each fun _ ids =>
      ∀ id ∈ ids, s.isInterfaceId id = true)
    (hchain : TransGen s.Declares a b) (ha : s.isInterfaceId a = true) :
    TransGen s.Extends a b := by
  induction hchain using TransGen.head_induction_on with
  | single hdeclares => exact .single ⟨ha, hdeclares⟩
  | head hdeclares _ ih => exact .head ⟨ha, hdeclares⟩ (ih (hdeclared.listAt _ _ hdeclares))

/-- A type lies below another exactly if that one is among its ancestors.  An interface that lies
below another has it among its interfaces, and the other way round as well where only interfaces
are declared and none of them has a base. -/
theorem hierarchy_agrees (hs : s.tables.WellFormed) :
    (∀ type base, Holds s.tables.symbols type → Holds s.tables.symbols base →
      (type ∈ s.derivedTypes base true ↔ base ∈ s.ancestorsOf type)) ∧
    (∀ i j, Holds s.tables.symbols i → Holds s.tables.symbols j →
      i ∈ s.derivedInterfaces j true → j ∈ s.interfacesOf i true) ∧
    ((s.tables.declaredInterfaces.Each fun _ ids => ∀ id ∈ ids, s.isInterfaceId id = true) →
      (s.tables.baseTypes.Each fun type _ => s.isInterfaceId type = false) →
      ∀ i j, Holds s.tables.symbols i → Holds s.tables.symbols j → isInterface i = true →
        j ∈ s.interfacesOf i true → i ∈ s.derivedInterfaces j true) := by
  refine ⟨?_, ?_, ?_⟩
  · intro type base htype hbase
    rw [mem_derivedTypes_iff hs htype, mem_ancestorsOf_iff hs.closed hbase, ne_comm]
  · intro i j hi hj hbelow
    obtain ⟨hne, hchain⟩ := (mem_derivedInterfaces_iff hs hi).mp hbelow
    rw [mem_interfacesOf_iff hs.closed hj, mem_interfaceIds_iff]
    exact ⟨hne.symm, i.id, Or.inl rfl, TransGen.mono (fun _ _ h => h.2) _ _ hchain⟩
  · intro hdeclared hbases i j hi hj hinterface habove
    have hi' : s.isInterfaceId i.id = true := (isInterfaceId_of_holds hi).trans hinterface
    rw [mem_interfacesOf_iff hs.closed hj, mem_interfaceIds_iff] at habove
    obtain ⟨hne, start, hstart, hchain⟩ := habove
    -- an interface has no base here, so what it has it reaches by declarations alone
    have hself : start = i.id := by
      refine hstart.resolve_right ?_
      intro hbase
      obtain ⟨base, hfirst, -⟩ := TransGen.head'_iff.mp hbase
      have hnone : s.isInterfaceId i.id = false := hbases.get? hfirst
      rw [hi'] at hnone
      cases hnone
    rw [hself] at hchain
    rw [mem_derivedInterfaces_iff hs hi]
    exact ⟨hne.symm, transGen_extends hdeclared hchain hi'⟩

/-- Two classes that are bases of each other, and two interfaces that extend each other. -/
def mutualDocument : Value :=
  let type (name kind link : String) (target : Value) : Value :=
    .mapping [(.text "name", .text name), (.text "kind", .text kind), (.text link, target)]
  .mapping [(.text "types", .list [
    type "Egg" "class" "base" (.text "Hen"),
    type "Hen" "class" "base" (.text "Egg"),
    type "IDay" "interface" "interfaces" (.list [.text "INight"]),
    type "INight" "interface" "interfaces" (.list [.text "IDay"])])]

theorem hierarchy_agrees_mutual : ∃ s egg hen day night,
    ofDocument .empty mutualDocument "/work" none = .ok s ∧ s.tables.WellFormed ∧
      [egg, hen, day, night].map Symbol.id = ["T:Egg", "T:Hen", "T:IDay", "T:INight"] ∧
      (egg ∈ s.derivedTypes hen true ∧ hen ∈ s.ancestorsOf egg) ∧
      (hen ∈ s.derivedTypes egg true ∧ egg ∈ s.ancestorsOf hen) ∧
      (day ∈ s.derivedInterfaces night true ∧ night ∈ s.interfacesOf day true) := by
  have hfacts : (ofDocument .empty mutualDocument "/work" none).toOption.any (fun s => decide (
      (∀ id ∈ ["T:Egg", "T:Hen", "T:IDay", "T:INight"], s.tables.symbols.contains id = true) ∧
      (∀ entry ∈ s.tables.declaredInterfaces.entries,
        ∀ id ∈ entry.2, s.isInterfaceId id = true) ∧
      (∀ entry ∈ s.tables.baseTypes.entries, s.isInterfaceId entry.1 = false) ∧
      s.tables.baseTypes.get? "T:Egg" = some "T:Hen" ∧
      s.tables.baseTypes.get? "T:Hen" = some "T:Egg" ∧
      "T:INight" ∈ s.tables.declaredInterfaces.listAt "T:IDay" ∧
      s.isInterfaceId "T:IDay" = true)) = true := by
    decide +kernel
  obtain ⟨s, hs, hfacts⟩ := Attempt.exists_ok_of_any hfacts
  obtain ⟨hids, hdeclared, hbases, hegg, hhen, hday, hinterface⟩ := of_decide_eq_true hfacts
  have hwell := wellFormed_of_ofDocument hs
  have hsymbol := hwell.closed.exists_holds hids
  obtain ⟨egg, heggHeld, heggId⟩ := hsymbol "T:Egg" (by simp)
  obtain ⟨hen, hhenHeld, hhenId⟩ := hsymbol "T:Hen" (by simp)
  obtain ⟨day, hdayHeld, hdayId⟩ := hsymbol "T:IDay" (by simp)
  obtain ⟨night, hnightHeld, hnightId⟩ := hsymbol "T:INight" (by simp)
  obtain ⟨htypes, -, hinterfaces⟩ := hierarchy_agrees hwell
  have hhenAbove : hen ∈ s.ancestorsOf egg := by
    rw [mem_ancestorsOf_iff hwell.closed hhenHeld, heggId, hhenId]
    exact ⟨by decide, .single hegg⟩
  have heggAbove : egg ∈ s.ancestorsOf hen := by
    rw [mem_ancestorsOf_iff hwell.closed heggHeld, heggId, hhenId]
    exact ⟨by decide, .single hhen⟩
  have hnightAbove : night ∈ s.interfacesOf day true := by
    rw [mem_interfacesOf_iff hwell.closed hnightHeld, mem_interfaceIds_iff, hdayId, hnightId]
    exact ⟨by decide, "T:IDay", Or.inl rfl, .single hday⟩
  have hdayInterface : isInterface day = true := by
    rw [← isInterfaceId_of_holds hdayHeld, hdayId]
    exact hinterface
  refine ⟨s, egg, hen, day, night, hs, hwell, ?_, ⟨?_, hhenAbove⟩, ⟨?_, heggAbove⟩,
    ?_, hnightAbove⟩
  · simp [heggId, hhenId, hdayId, hnightId]
  · exact (htypes egg hen heggHeld hhenHeld).mpr hhenAbove
  · exact (htypes hen egg hhenHeld heggHeld).mpr heggAbove
  · exact hinterfaces hdeclared hbases day night hdayHeld hnightHeld hdayInterface hnightAbove

end Snapshot
end SymbolAtlas
