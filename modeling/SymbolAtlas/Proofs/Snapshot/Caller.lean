import SymbolAtlas.Proofs.Classification.Paths
import SymbolAtlas.Proofs.Snapshot.Complete
import SymbolAtlas.Proofs.Snapshot.Hierarchy
import SymbolAtlas.Proofs.Text.Order
import SymbolAtlas.Snapshot.Usage
import Mathlib.Tactic

/-!
# Callers and their calls

Calls are put into groups, one for each caller, and a group keeps every place of its calls once.  A
caller that is listed stands for all of its calls to a method: it makes one of them, and it comes
with the places of those that have one, in order.
-/

namespace SymbolAtlas

open Tables

/-- The caller makes one of some calls and comes with the places of all that it makes, each place
once and in order. -/
structure Caller.StandsFor (c : Caller) (calls : List CallSite) : Prop where
  makes : ∃ call ∈ calls, call.caller = c.method.id
  places : ∀ l, l ∈ c.callSites ↔
    ∃ call ∈ calls, call.caller = c.method.id ∧ call.location = some l
  nodup : c.callSites.Nodup
  ordered : c.callSites.Pairwise fun a b => a.precedes b = true

namespace Snapshot

variable {s : Snapshot}

/-! ## Groups of calls -/

/-- The places of a group after a call that may have one. -/
def withPlace (places : List Location) : Option Location → List Location
  | some l => if places.contains l then places else places ++ [l]
  | none => places

theorem addCall_eq (groups : Table (List Location)) (call : CallSite) :
    addCall groups call =
      groups.insert call.caller (withPlace (groups.listAt call.caller) call.location) := by
  unfold addCall withPlace
  cases call.location <;> rfl

theorem mem_withPlace (places : List Location) (location : Option Location) (l : Location) :
    l ∈ withPlace places location ↔ l ∈ places ∨ location = some l := by
  unfold withPlace
  cases location with
  | none => simp
  | some other =>
      by_cases hother : other ∈ places
      · simp only [List.contains_iff_mem.mpr hother, if_true, Option.some.injEq]
        constructor
        · exact Or.inl
        · rintro (hold | rfl)
          · exact hold
          · exact hother
      · simp [hother, eq_comm]

theorem nodup_withPlace {places : List Location} (hplaces : places.Nodup)
    (location : Option Location) : (withPlace places location).Nodup := by
  unfold withPlace
  cases location with
  | none => exact hplaces
  | some l =>
      by_cases hl : l ∈ places
      · simpa [hl] using hplaces
      · simpa [hl] using hplaces.concat hl

theorem mem_listAt_addCall (groups : Table (List Location)) (call : CallSite) (caller : String)
    (l : Location) :
    l ∈ (addCall groups call).listAt caller ↔
      l ∈ groups.listAt caller ∨ call.caller = caller ∧ call.location = some l := by
  rw [addCall_eq, Table.listAt_insert]
  by_cases hcaller : call.caller = caller
  · subst hcaller
    simp [mem_withPlace]
  · simp [hcaller]

theorem contains_addCall (groups : Table (List Location)) (call : CallSite) (caller : String) :
    (addCall groups call).contains caller = true ↔
      groups.contains caller = true ∨ call.caller = caller := by
  rw [addCall_eq]
  unfold Table.contains
  rw [Table.get?_insert]
  by_cases hcaller : call.caller = caller <;> simp [hcaller]

/-- What holds of the groups of some calls. -/
structure Groups (calls : List CallSite) (groups : Table (List Location)) : Prop where
  unique : groups.keys.Nodup
  nodup : groups.Each fun _ places => places.Nodup
  callers : ∀ caller, groups.contains caller = true ↔ ∃ call ∈ calls, call.caller = caller
  places : ∀ caller l, l ∈ groups.listAt caller ↔
    ∃ call ∈ calls, call.caller = caller ∧ call.location = some l

theorem groups_foldl (calls : List CallSite) : Groups calls (calls.foldl addCall .empty) := by
  -- distinct keys and places are kept by every step, and what is in a group comes from the calls
  have hkept : (calls.foldl addCall .empty).keys.Nodup ∧
      (calls.foldl addCall .empty).Each fun _ places => places.Nodup := by
    refine List.foldlRecOn (motive := fun groups : Table (List Location) =>
      groups.keys.Nodup ∧ groups.Each fun _ places => places.Nodup) calls addCall
      ⟨List.nodup_nil, Table.each_empty _⟩ ?_
    rintro groups ⟨hunique, hnodup⟩ call -
    have hold : (groups.listAt call.caller).Nodup := by
      unfold Table.listAt
      cases hget : groups.get? call.caller with
      | none => exact List.nodup_nil
      | some places => exact hnodup.get? hget
    rw [addCall_eq]
    exact ⟨Table.nodup_keys_insert hunique _ _, hnodup.insert (nodup_withPlace hold _)⟩
  refine ⟨hkept.1, hkept.2, ?_, ?_⟩
  · intro caller
    have hfold := Table.foldl_iff (p := fun groups : Table (List Location) =>
      groups.contains caller = true) (contains_addCall · · caller) .empty calls
    simpa [Table.contains] using hfold
  · intro caller l
    have hfold := Table.foldl_iff (p := fun groups : Table (List Location) =>
      l ∈ groups.listAt caller) (mem_listAt_addCall · · caller l) .empty calls
    simpa [Table.listAt_empty] using hfold

/-! ## Listed callers -/

theorem standsFor_of_mem_callersBehind (hs : s.tables.Closed) {isDirect : Bool}
    {calls : List CallSite} {c : Caller} (hc : c ∈ s.callersBehind isDirect calls) :
    Holds s.tables.symbols c.method ∧ c.isDirect = isDirect ∧ c.StandsFor calls := by
  have hgroups := groups_foldl calls
  obtain ⟨⟨caller, places⟩, hentry, hsome⟩ := List.mem_filterMap.mp hc
  obtain ⟨method, hmethod, rfl⟩ := Option.map_eq_some_iff.mp hsome
  have hid : method.id = caller := hs.ids.get? hmethod
  have hget : (calls.foldl addCall .empty).get? caller = some places :=
    Table.find?_of_mem hgroups.unique hentry
  have hlist : (calls.foldl addCall .empty).listAt caller = places := by
    unfold Table.listAt
    rw [hget]
    rfl
  have hholds : Holds s.tables.symbols method := by
    unfold Holds
    rw [hid]
    exact hmethod
  refine ⟨hholds, rfl, ?_, ?_, ?_, ?_⟩
  · rw [hid]
    exact (hgroups.callers caller).mp (Table.contains_iff.mpr ⟨places, hget⟩)
  · intro l
    rw [hid, List.mem_mergeSort, ← hlist]
    exact hgroups.places caller l
  · rw [(List.mergeSort_perm places Location.precedes).nodup_iff]
    exact hgroups.nodup.get? hget
  · exact Location.pairwise_mergeSort places

theorem exists_mem_callersBehind (isDirect : Bool) {calls : List CallSite} {call : CallSite}
    (hcall : call ∈ calls) {method : Symbol} (hmethod : s.symbol? call.caller = some method) :
    ∃ c ∈ s.callersBehind isDirect calls, c.method = method := by
  have hcaller := ((groups_foldl calls).callers call.caller).mpr ⟨call, hcall, rfl⟩
  obtain ⟨places, hget⟩ := Table.contains_iff.mp hcaller
  refine ⟨⟨method, isDirect, places.mergeSort Location.precedes⟩, ?_, rfl⟩
  refine List.mem_filterMap.mpr ⟨(call.caller, places), Table.mem_of_find? hget, ?_⟩
  exact Option.map_eq_some_iff.mpr ⟨method, hmethod, rfl⟩

/-- The calls that reach a method by naming it, or by naming what may be dispatched to it. -/
def callsReaching (s : Snapshot) (method : Symbol) (isDirect : Bool) : List CallSite :=
  if isDirect then s.callsTo method.id else (s.dispatchTargets method).flatMap s.callsTo

theorem mem_calls_of_mem_callsReaching {method : Symbol} {isDirect : Bool} {call : CallSite}
    (hcall : call ∈ s.callsReaching method isDirect) : call ∈ s.calls := by
  cases isDirect with
  | true => exact List.mem_of_mem_filter hcall
  | false =>
      obtain ⟨target, -, hcall⟩ := List.mem_flatMap.mp hcall
      exact List.mem_of_mem_filter hcall

theorem mem_callersOf {method : Symbol} {c : Caller} :
    c ∈ s.callersOf method ↔
      ∃ isDirect, c ∈ s.callersBehind isDirect (s.callsReaching method isDirect) := by
  unfold callersOf
  rw [List.mem_mergeSort, List.mem_append, Bool.exists_bool]
  exact or_comm

theorem standsFor_of_mem_callersOf (hs : s.tables.Closed) {method : Symbol} {c : Caller}
    (hc : c ∈ s.callersOf method) :
    Holds s.tables.symbols c.method ∧ c.StandsFor (s.callsReaching method c.isDirect) := by
  obtain ⟨isDirect, hc⟩ := mem_callersOf.mp hc
  obtain ⟨hholds, rfl, hstands⟩ := standsFor_of_mem_callersBehind hs hc
  exact ⟨hholds, hstands⟩

theorem exists_mem_callersOf (hs : s.tables.Closed) {method caller : Symbol} {isDirect : Bool}
    {call : CallSite} (hcall : call ∈ s.callsReaching method isDirect)
    (hcaller : Holds s.tables.symbols caller) (hid : call.caller = caller.id) :
    ∃ c ∈ s.callersOf method, c.method = caller ∧ c.isDirect = isDirect := by
  have hget : s.symbol? call.caller = some caller := by
    rw [hid]
    exact hcaller
  obtain ⟨c, hc, hmethod⟩ := exists_mem_callersBehind isDirect hcall hget
  obtain ⟨-, hdirect, -⟩ := standsFor_of_mem_callersBehind hs hc
  exact ⟨c, mem_callersOf.mpr ⟨isDirect, hc⟩, hmethod, hdirect⟩

theorem nodup_map_callersBehind (hs : s.tables.Closed) (isDirect : Bool) {calls : List CallSite}
    (hcalls : ∀ call ∈ calls, call ∈ s.calls) :
    ((s.callersBehind isDirect calls).map fun c => (c.method, c.isDirect)).Nodup := by
  have hids := map_id_callersBehind hs isDirect hcalls
  have hunique : (callerIds calls).Nodup := (groups_foldl calls).unique
  apply List.Nodup.of_map fun entry : Symbol × Bool => entry.1.id
  rw [← hids] at hunique
  rw [List.map_map]
  exact hunique

/-- No caller is listed twice as direct, or twice as indirect. -/
theorem nodup_map_callersOf (hs : s.tables.Closed) (method : Symbol) :
    ((s.callersOf method).map fun c => (c.method, c.isDirect)).Nodup := by
  have hside : ∀ isDirect, ((s.callersBehind isDirect (s.callsReaching method isDirect)).map
      fun c => (c.method, c.isDirect)).Nodup := by
    intro isDirect
    exact nodup_map_callersBehind hs isDirect fun _ hcall => mem_calls_of_mem_callsReaching hcall
  unfold callersOf
  rw [((List.mergeSort_perm _ _).map _).nodup_iff, List.map_append]
  refine (hside true).append (hside false) ?_
  intro entry hdirect hindirect
  obtain ⟨c, hc, rfl⟩ := List.mem_map.mp hdirect
  obtain ⟨other, hother, heq⟩ := List.mem_map.mp hindirect
  have htrue := (standsFor_of_mem_callersBehind hs hc).2.1
  have hfalse := (standsFor_of_mem_callersBehind hs hother).2.1
  have hsame : other.isDirect = c.isDirect := congrArg Prod.snd heq
  rw [htrue, hfalse] at hsame
  cases hsame

/-! ## Direct callers and classified calls -/

theorem mem_callsIn_iff {method : String} {op : Operation} {call : CallSite} :
    call ∈ callsIn method op ↔
      ∃ callee, op.callee? = some callee ∧ call = ⟨callee.id, method, op.location⟩ := by
  cases op with
  | invocation target receiver arguments location =>
      cases target <;> simp [callsIn, Operation.callee?, Operation.location]
  | creation constructor arguments initializer location =>
      cases constructor <;> simp [callsIn, Operation.callee?, Operation.location]
  | _ => simp [callsIn, Operation.callee?]

/-- The calls of a method from a body are those of its operations that carry the method. -/
theorem mem_callsTo_iff (hs : s.tables.WellFormed) {callee : Symbol} {method : String}
    {body : Operation} (hcallee : Holds s.tables.symbols callee)
    (hbody : s.tables.bodies.get? method = some body) (call : CallSite) :
    call ∈ s.callsTo callee.id ∧ call.caller = method ↔
      ∃ op ∈ body.walk, op.callee? = some callee ∧ call = ⟨callee.id, method, op.location⟩ := by
  unfold callsTo
  rw [s.calls_eq, List.mem_filter, beq_iff_eq]
  constructor
  · rintro ⟨⟨hcall, htarget⟩, hcaller⟩
    obtain ⟨⟨key, tree⟩, hentry, hcall⟩ := List.mem_flatMap.mp hcall
    obtain ⟨op, hop, hcall⟩ := List.mem_flatMap.mp hcall
    obtain ⟨found, hfound, rfl⟩ := mem_callsIn_iff.mp hcall
    -- a method has one body and an id one symbol, so this is the body and the method meant
    obtain rfl : key = method := hcaller
    obtain rfl : tree = body := by
      have hget := Table.find?_of_mem hs.keyed.bodies hentry
      exact Option.some.inj (hget.symm.trans hbody)
    obtain rfl : found = callee := by
      have hheld := (hs.closed.refers.bodies.get? hbody).2 op hop found (Or.inr hfound)
      exact hheld.eq_of_id hcallee htarget
    exact ⟨op, hop, hfound, rfl⟩
  · rintro ⟨op, hop, hfound, rfl⟩
    refine ⟨⟨?_, rfl⟩, rfl⟩
    refine List.mem_flatMap.mpr ⟨(method, body), Table.mem_of_find? hbody, ?_⟩
    exact List.mem_flatMap.mpr ⟨op, hop, mem_callsIn_iff.mpr ⟨callee, hfound, rfl⟩⟩

theorem mem_calls_classify_iff {method callee : Symbol} {body : Operation}
    (hbody : s.bodyOf? method = some body) :
    callee ∈ (s.classify false method).calls ↔ ∃ op ∈ body.walk, op.callee? = some callee := by
  unfold classify
  rw [hbody, mem_calls_classifyTree, ← exists_uses_iff_exists_walk body]
  simp [countedAccessor?]

/-- What a body calls are the methods that list it as a direct caller, and it is listed with the
places of its calls, each once and in order. -/
theorem mem_calls_iff_direct_caller {disk : Disk} {data : Value} {root : String}
    {sourcePath : Option String} (hs : ofDocument disk data root sourcePath = .ok s)
    {method callee : Symbol} {body : Operation} (hmethod : Holds s.tables.symbols method)
    (hcallee : Holds s.tables.symbols callee) (hbody : s.bodyOf? method = some body) :
    (callee ∈ (s.classify false method).calls ↔
      ∃ c ∈ s.callersOf callee, c.method = method ∧ c.isDirect = true) ∧
    (∀ c ∈ s.callersOf callee, c.method = method → c.isDirect = true →
      c.callSites.Nodup ∧ c.callSites.Pairwise (fun a b => a.precedes b = true) ∧
        ∀ l, l ∈ c.callSites ↔
          ∃ op ∈ body.walk, op.callee? = some callee ∧ op.location = some l) ∧
    ((s.callersOf callee).map fun c => (c.method, c.isDirect)).Nodup := by
  have hwell := wellFormed_of_ofDocument hs
  have hcalls : ∀ call : CallSite, call ∈ s.callsTo callee.id ∧ call.caller = method.id ↔
      ∃ op ∈ body.walk, op.callee? = some callee ∧
        call = ⟨callee.id, method.id, op.location⟩ :=
    mem_callsTo_iff hwell hcallee hbody
  refine ⟨?_, ?_, nodup_map_callersOf hwell.closed callee⟩
  · rw [mem_calls_classify_iff hbody]
    constructor
    · rintro ⟨op, hop, hfound⟩
      obtain ⟨hcall, hcaller⟩ := (hcalls _).mpr ⟨op, hop, hfound, rfl⟩
      have hreaching : _ ∈ s.callsReaching callee true := hcall
      exact exists_mem_callersOf hwell.closed hreaching hmethod hcaller
    · rintro ⟨c, hc, rfl, hdirect⟩
      have hstands := (standsFor_of_mem_callersOf hwell.closed hc).2
      rw [hdirect] at hstands
      obtain ⟨call, hcall, hcaller⟩ := hstands.makes
      obtain ⟨op, hop, hfound, -⟩ := (hcalls call).mp ⟨hcall, hcaller⟩
      exact ⟨op, hop, hfound⟩
  · rintro c hc rfl hdirect
    have hstands := (standsFor_of_mem_callersOf hwell.closed hc).2
    rw [hdirect] at hstands
    refine ⟨hstands.nodup, hstands.ordered, ?_⟩
    intro l
    rw [hstands.places]
    constructor
    · rintro ⟨call, hcall, hcaller, hlocation⟩
      obtain ⟨op, hop, hfound, rfl⟩ := (hcalls call).mp ⟨hcall, hcaller⟩
      exact ⟨op, hop, hfound, hlocation⟩
    · rintro ⟨op, hop, hfound, hlocation⟩
      obtain ⟨hcall, hcaller⟩ := (hcalls _).mpr ⟨op, hop, hfound, rfl⟩
      exact ⟨_, hcall, hcaller, hlocation⟩

/-- A method that calls another three times: at a place, inside that call at an earlier place, and
nowhere. -/
def receiptDocument : Value :=
  let pay (more : List (Value × Value)) : Value :=
    .mapping ([(.text "op", .text "invocation"), (.text "target", .text "Shop.Pay")] ++ more)
  let place (line column : Int) : List (Value × Value) :=
    [(.text "line", .int line), (.text "column", .int column)]
  let inner := pay (place 5 9)
  let outer := pay (place 7 3 ++ [(.text "arguments", .list [inner])])
  .mapping [(.text "types", .list [.mapping [(.text "name", .text "Shop"),
    (.text "file", .text "Shop.cs"), (.text "members", .list [
      .mapping [(.text "name", .text "Pay")],
      .mapping [(.text "name", .text "Order"), (.text "body", .list [outer, pay []])]])]])]

theorem mem_calls_iff_direct_caller_order : ∃ s order pay c,
    ofDocument .empty receiptDocument "/work" none = .ok s ∧
      order.id = "M:Shop.Order()" ∧ pay.id = "M:Shop.Pay()" ∧
      pay ∈ (s.classify false order).calls ∧
      c ∈ s.callersOf pay ∧ c.method = order ∧ c.isDirect = true ∧
      ∀ l, l ∈ c.callSites ↔ l = ⟨"/work/Shop.cs", 5, 9⟩ ∨ l = ⟨"/work/Shop.cs", 7, 3⟩ := by
  have hfacts : (ofDocument .empty receiptDocument "/work" none).toOption.any (fun s => decide (
      (∀ id ∈ ["M:Shop.Order()", "M:Shop.Pay()"], s.tables.symbols.contains id = true) ∧
      s.tables.bodies.contains "M:Shop.Order()" = true ∧
      s.calls = [⟨"M:Shop.Pay()", "M:Shop.Order()", some ⟨"/work/Shop.cs", 7, 3⟩⟩,
        ⟨"M:Shop.Pay()", "M:Shop.Order()", some ⟨"/work/Shop.cs", 5, 9⟩⟩,
        ⟨"M:Shop.Pay()", "M:Shop.Order()", none⟩])) = true := by
    decide +kernel
  obtain ⟨s, hs, hfacts⟩ := Attempt.exists_ok_of_any hfacts
  obtain ⟨hids, hbody, hcalls⟩ := of_decide_eq_true hfacts
  have hwell := wellFormed_of_ofDocument hs
  have hsymbol := hwell.closed.exists_holds hids
  obtain ⟨order, horder, horderId⟩ := hsymbol "M:Shop.Order()" (by simp)
  obtain ⟨pay, hpay, hpayId⟩ := hsymbol "M:Shop.Pay()" (by simp)
  obtain ⟨body, hbody⟩ := Table.contains_iff.mp hbody
  rw [← horderId] at hbody
  obtain ⟨hcalled, hplaces, -⟩ := mem_calls_iff_direct_caller hs horder hpay hbody
  have hcarried : ∀ location, (∃ op ∈ body.walk, op.callee? = some pay ∧ op.location = location) ↔
      ⟨pay.id, order.id, location⟩ ∈ s.calls := by
    intro location
    have hto := mem_callsTo_iff hwell hpay hbody ⟨pay.id, order.id, location⟩
    simpa [callsTo, eq_comm] using hto.symm
  rw [horderId, hpayId, hcalls] at hcarried
  have hclassified : pay ∈ (s.classify false order).calls := by
    obtain ⟨op, hop, hfound, -⟩ := (hcarried none).mpr (by simp)
    exact (mem_calls_classify_iff hbody).mpr ⟨op, hop, hfound⟩
  obtain ⟨c, hc, hmethod, hdirect⟩ := hcalled.mp hclassified
  refine ⟨s, order, pay, c, hs, horderId, hpayId, hclassified, hc, hmethod, hdirect, ?_⟩
  obtain ⟨-, -, hsites⟩ := hplaces c hc hmethod hdirect
  intro l
  rw [hsites, hcarried]
  simp [or_comm]

end Snapshot
end SymbolAtlas
