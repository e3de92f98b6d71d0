import SymbolAtlas.Proofs.Attempt
import SymbolAtlas.Proofs.Index.Build
import SymbolAtlas.Proofs.Snapshot.Innermost
import SymbolAtlas.Proofs.Snapshot.Lookup
import Mathlib.Tactic

/-!
# Queries of a snapshot are complete

The queries of a snapshot follow ids from one table to the next and leave out those that lead
nowhere.  A snapshot is complete if they never leave one out, so that what comes back stands for
exactly the ids that were looked up.  Closed tables make a snapshot complete, and a document that
can be loaded gives closed tables.
-/

namespace SymbolAtlas
namespace Snapshot

open Tables

/-- The methods that make some calls, each once. -/
def callerIds (calls : List CallSite) : List String :=
  (calls.foldl addCall .empty).keys

/-- Every id that a query looks up leads to the symbol of that id. -/
structure Complete (s : Snapshot) : Prop where
  typeNamed : ∀ name, (s.typeNamed? name).map Symbol.id = s.tables.typeNames.get? name
  members : ∀ type, (s.tables.membersOf type).map Symbol.id = s.tables.members.listAt type
  declarations : ∀ name, ∀ d ∈ s.declarationsNamed name, s.symbol? d.id = some d
  spans : ∀ file, ∀ d ∈ s.spansIn file, s.symbol? d.2.id = some d.2
  accessors : ∀ property getter setter,
    s.tables.accessors.get? property.id = some (getter, setter) →
      (s.accessorsOf property).1.map Symbol.id = getter ∧
        (s.accessorsOf property).2.map Symbol.id = setter
  container : ∀ symbol,
    (s.containerOf? symbol).map Symbol.id = s.tables.containing.get? symbol.id
  source : ∀ symbol, (s.sourceOf? symbol).map Symbol.id =
    if symbol.inSource then some symbol.id else s.tables.sourceDefinitions.get? symbol.id
  base : ∀ type, (s.baseOf? type).map Symbol.id = s.tables.baseTypes.get? type.id
  interfaces : ∀ type isTransitive, (s.interfacesOf type isTransitive).map Symbol.id =
    if isTransitive then s.interfaceIds type.id else s.tables.declaredInterfaces.listAt type.id
  declarers : ∀ type ∈ s.tables.declaredInterfaces.keys, Known s.tables.symbols type
  derivedTypes : ∀ type isTransitive, ((s.derivedTypes type isTransitive).map Symbol.id).Perm
    (Link.distinct (Reach.targets (Reach.reversed s.tables.baseTypes) type.id isTransitive))
  derivedInterfaces : ∀ type isTransitive,
    ((s.derivedInterfaces type isTransitive).map Symbol.id).Perm
      (Link.distinct (Reach.targets s.extensionLinks type.id isTransitive))
  overrides : ∀ member, ((s.overridesOf member).map Symbol.id).Perm
    (Link.distinct (Reach.targets (Reach.reversed s.tables.overridden) member.id true))
  types : ∀ type ∈ s.tables.typeNames.values, Known s.tables.symbols type
  implementers : ∀ interface, ((s.implementers interface).map Symbol.id).Perm
    (Link.distinct (s.tables.typeNames.values.filter fun type =>
      ((s.symbol? type).any fun t => t.typeKind.any TypeKind.isConcrete) &&
        (s.interfaceIds type).contains interface))
  implementations : ∀ member interface,
    s.tables.containing.get? member.id = some interface →
      ((s.memberImplementations member).map Symbol.id).Perm
        (Link.distinct
          (s.tables.explicitImplementations.keysWhere (·.contains member.id) ++
            (s.implementers interface).filterMap fun type =>
              s.matchingMember? member.signature (type.id :: s.baseChain type.id)))
  implemented : ∀ member, s.tables.explicitImplementations.listAt member.id ≠ [] →
    (s.implementedMembers member).map Symbol.id =
      s.tables.explicitImplementations.listAt member.id
  callers : ∀ method, ((s.callersOf method).map fun c => c.method.id).Perm
    (callerIds (s.callsTo method.id) ++
      callerIds ((s.dispatchTargets method).flatMap s.callsTo))
  created : ∀ constructor,
    (s.symbolsOf (s.tables.containing.get? constructor).toList).map Symbol.id =
      (s.tables.containing.get? constructor).toList
  listed : ∀ id ∈ s.tables.explicitReferences.keys, (s.symbolsOf [id]).map Symbol.id = [id]
  mentioned : ∀ m ∈ s.mentions, (s.symbol? m.symbol).map Symbol.id = some m.symbol

variable {s : Snapshot}

/-! ## Queries along one table -/

theorem map_id_accessorsOf (hs : s.tables.Closed) {property : Symbol}
    {getter setter : Option String}
    (hpair : s.tables.accessors.get? property.id = some (getter, setter)) :
    (s.accessorsOf property).1.map Symbol.id = getter ∧
      (s.accessorsOf property).2.map Symbol.id = setter := by
  have hknown := (hs.refers.accessors.get? hpair).2
  unfold accessorsOf
  rw [hpair]
  exact ⟨map_id_bind hs hknown.1, map_id_bind hs hknown.2⟩

theorem map_id_sourceOf (hs : s.tables.Closed) (symbol : Symbol) :
    (s.sourceOf? symbol).map Symbol.id =
      if symbol.inSource then some symbol.id else s.tables.sourceDefinitions.get? symbol.id := by
  unfold sourceOf?
  split
  next => rfl
  next =>
    apply map_id_bind hs
    intro id hid
    exact (hs.refers.sourceDefinitions.get? hid).2

theorem map_id_interfacesOf (hs : s.tables.Closed) (type : Symbol) (isTransitive : Bool) :
    (s.interfacesOf type isTransitive).map Symbol.id =
      if isTransitive then s.interfaceIds type.id
      else s.tables.declaredInterfaces.listAt type.id := by
  apply map_id_symbolsOf hs
  intro id hid
  split at hid
  next => exact known_of_mem_interfaceIds hs hid
  next => exact (hs.refers.declaredInterfaces.mono fun _ _ h => h.2).listAt type.id id hid

theorem symbol_of_mem_declarationsNamed (hs : s.tables.Closed) {name : String} {d : Symbol}
    (hd : d ∈ s.declarationsNamed name) : s.symbol? d.id = some d := by
  have hmem := List.mem_mergeSort.mp hd
  exact hs.holds (List.mem_of_mem_filter hmem)

theorem symbol_of_mem_spansIn (hs : s.tables.Closed) {file : String} {d : Span × Symbol}
    (hd : d ∈ s.spansIn file) : s.symbol? d.2.id = some d.2 := by
  obtain ⟨id, hentry, -⟩ := mem_spansIn_iff.mp hd
  exact hs.holds (Table.mem_values_iff.mpr ⟨id, hentry⟩)

/-! ## Members that implement others -/

theorem map_id_memberImplementations (hs : s.tables.Closed) {member : Symbol}
    {interface : String} (hcontainer : s.tables.containing.get? member.id = some interface) :
    ((s.memberImplementations member).map Symbol.id).Perm
      (Link.distinct
        (s.tables.explicitImplementations.keysWhere (·.contains member.id) ++
          (s.implementers interface).filterMap fun type =>
            s.matchingMember? member.signature (type.id :: s.baseChain type.id))) := by
  unfold memberImplementations
  rw [hcontainer]
  apply map_id_sorted hs
  intro id hid
  rcases List.mem_append.mp hid with hexplicit | hmatched
  · exact known_of_mem_keysWhere hs hexplicit
  · rcases List.mem_filterMap.mp hmatched with ⟨type, -, hmatch⟩
    exact known_of_matchingMember hs hmatch

theorem map_id_implementedMembers (hs : s.tables.Closed) {member : Symbol}
    (hexplicit : s.tables.explicitImplementations.listAt member.id ≠ []) :
    (s.implementedMembers member).map Symbol.id =
      s.tables.explicitImplementations.listAt member.id := by
  have hknown := (hs.refers.explicitImplementations.mono fun _ _ h => h.2).listAt member.id
  unfold implementedMembers
  split
  next hnone => exact absurd hnone hexplicit
  next named => exact map_id_symbolsOf hs hknown

/-! ## Callers -/

theorem each_addCall {p : String → Prop} {groups : Table (List Location)}
    (hgroups : groups.Each fun caller _ => p caller) {call : CallSite} (hcall : p call.caller) :
    (addCall groups call).Each fun caller _ => p caller := by
  unfold addCall
  simp only []
  split
  next => exact hgroups.insert hcall
  next => exact hgroups.insert hcall

theorem map_id_callersBehind (hs : s.tables.Closed) (isDirect : Bool) {calls : List CallSite}
    (hcalls : ∀ c ∈ calls, c ∈ s.calls) :
    ((s.callersBehind isDirect calls).map fun c => c.method.id) = callerIds calls := by
  have hgroups : (calls.foldl addCall .empty).Each fun caller _ =>
      Known s.tables.symbols caller := by
    refine List.foldlRecOn
      (motive := fun groups : Table (List Location) =>
        groups.Each fun caller _ => Known s.tables.symbols caller)
      calls addCall (Table.each_empty _) ?_
    intro groups hgroups call hcall
    exact each_addCall hgroups (known_of_mem_calls hs (hcalls call hcall))
  unfold callersBehind callerIds Table.keys
  rw [List.map_filterMap, ← List.filterMap_eq_map]
  apply List.filterMap_congr
  intro entry hentry
  rcases hgroups entry hentry with ⟨method, hmethod⟩
  have hid : method.id = entry.1 := hs.ids.get? hmethod
  simp only [symbol?, hmethod, Option.map_some, Function.comp_apply, hid]

theorem map_id_callersOf (hs : s.tables.Closed) (method : Symbol) :
    ((s.callersOf method).map fun c => c.method.id).Perm
      (callerIds (s.callsTo method.id) ++
        callerIds ((s.dispatchTargets method).flatMap s.callsTo)) := by
  have hto : ∀ target, ∀ c ∈ s.callsTo target, c ∈ s.calls := by
    intro target c hc
    exact List.mem_of_mem_filter hc
  have hdispatched : ∀ c ∈ (s.dispatchTargets method).flatMap s.callsTo, c ∈ s.calls := by
    intro c hc
    rcases List.mem_flatMap.mp hc with ⟨target, -, hc⟩
    exact hto target c hc
  have hdirect := map_id_callersBehind hs true (hto method.id)
  have hindirect := map_id_callersBehind hs false hdispatched
  rw [← hdirect, ← hindirect, ← List.map_append]
  exact (List.mergeSort_perm _ callerPrecedes).map _

/-! ## All queries -/

theorem complete_of_closed (hs : s.tables.Closed) : s.Complete where
  typeNamed := by
    intro name
    apply map_id_bind hs
    intro id hid
    exact known_of_mem_typeNames hs (Table.mem_values_iff.mpr ⟨name, Table.mem_of_find? hid⟩)
  members := by
    intro type
    apply map_id_symbolsOf hs
    exact (hs.refers.members.mono fun _ _ h => h.2).listAt type
  declarations := fun _ _ hd => symbol_of_mem_declarationsNamed hs hd
  spans := fun _ _ hd => symbol_of_mem_spansIn hs hd
  accessors := fun _ _ _ hpair => map_id_accessorsOf hs hpair
  container := by
    intro symbol
    apply map_id_bind hs
    intro id hid
    exact (hs.refers.containing.get? hid).2
  source := map_id_sourceOf hs
  base := by
    intro type
    apply map_id_bind hs
    intro id hid
    exact (hs.refers.baseTypes.get? hid).2
  interfaces := map_id_interfacesOf hs
  declarers := by
    intro type htype
    rcases List.mem_map.mp htype with ⟨entry, hentry, rfl⟩
    exact (hs.refers.declaredInterfaces entry hentry).1
  derivedTypes := by
    intro type isTransitive
    exact map_id_sorted hs ((leadInto_derived hs).targets type.id isTransitive)
  derivedInterfaces := by
    intro type isTransitive
    exact map_id_sorted hs ((leadInto_extensionLinks hs).targets type.id isTransitive)
  overrides := by
    intro member
    exact map_id_sorted hs ((leadInto_overriding hs).targets member.id true)
  types := fun _ htype => known_of_mem_typeNames hs htype
  implementers := by
    intro interface
    apply map_id_sorted hs
    intro type htype
    exact known_of_mem_typeNames hs (List.mem_of_mem_filter htype)
  implementations := fun _ _ hcontainer => map_id_memberImplementations hs hcontainer
  implemented := fun _ hexplicit => map_id_implementedMembers hs hexplicit
  callers := map_id_callersOf hs
  created := by
    intro constructor
    apply map_id_symbolsOf hs
    intro id hid
    exact (hs.refers.containing.get? (Option.mem_toList.mp hid)).2
  listed := by
    intro id hid
    rcases List.mem_map.mp hid with ⟨entry, hentry, rfl⟩
    apply map_id_symbolsOf hs
    intro id hid
    rw [List.mem_singleton.mp hid]
    exact hs.refers.explicitReferences entry hentry
  mentioned := by
    intro m hm
    rcases known_of_mem_mentions hs hm with ⟨symbol, hsymbol⟩
    have hid : symbol.id = m.symbol := hs.ids.get? hsymbol
    unfold symbol?
    rw [hsymbol, Option.map_some, hid]

/-- A document that can be loaded gives closed tables, in which no query looks up an id in vain. -/
theorem ofDocument_closed {disk : Disk} {data : Value} {root : String}
    {sourcePath : Option String} (hs : ofDocument disk data root sourcePath = .ok s) :
    s.tables.Closed ∧ s.Complete := by
  have hclosed := Index.closed_of_tables (tables_of_ofDocument hs)
  exact ⟨hclosed, complete_of_closed hclosed⟩

/-- A class with a property and a method that calls a member of its base, where nothing declares
the base or the member. -/
def orderDocument : Value :=
  let total := .mapping [(.text "kind", .text "property"), (.text "name", .text "Total")]
  let save := .mapping [(.text "op", .text "invocation"), (.text "target", .text "Entity.Save")]
  let pay := .mapping [(.text "name", .text "Pay"), (.text "body", .list [save])]
  .mapping [(.text "types", .list [.mapping [(.text "name", .text "Order"),
    (.text "base", .text "Entity"), (.text "members", .list [total, pay])]])]

theorem ofDocument_closed_order : ∃ s, ofDocument .empty orderDocument "/work" none = .ok s ∧
    s.size = ⟨2, 7, 1⟩ ∧ s.tables.Closed ∧ s.Complete := by
  have hsize : (ofDocument .empty orderDocument "/work" none).toOption.map size =
      some ⟨2, 7, 1⟩ := by
    decide +kernel
  cases hs : ofDocument .empty orderDocument "/work" none with
  | error fault =>
      rw [hs] at hsize
      cases hsize
  | ok s =>
      rw [hs] at hsize
      exact ⟨s, rfl, Option.some.inj hsize, ofDocument_closed hs⟩

end Snapshot
end SymbolAtlas
