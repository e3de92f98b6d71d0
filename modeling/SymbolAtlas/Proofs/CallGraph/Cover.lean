import SymbolAtlas.Proofs.CallGraph.Follow
import SymbolAtlas.Proofs.Classification.Paths
import SymbolAtlas.Proofs.Reach
import SymbolAtlas.Proofs.Snapshot.Lookup
import Mathlib.Data.Set.Card
import Mathlib.Tactic

/-!
# What a search for dependencies finds

A search that has ended has classified exactly the methods within its depth.  The calls of these
are edges between ids, which are counted once each, and a cycle among them is found by exploring
them from every caller.
-/

namespace SymbolAtlas
namespace Snapshot

open BreadthFirst Classification Relation

variable {s : Snapshot} {accessors : Bool}
variable {root : Symbol} {depth : Nat} {seen : List (Symbol × Nat)}
variable {bodies : List (String × Operation)} {met : List Symbol} {d : Dependencies}

variable (s accessors) in
/-- Some of the methods with the first id calls one with the second. -/
def Arrow (methods : List Symbol) (a b : String) : Prop :=
  ∃ method ∈ methods, ∃ callee ∈ s.callees accessors method, method.id = a ∧ callee.id = b

theorem Following.leads_iff (h : s.Following accessors root depth seen [] bodies met d)
    (a b : String) :
    Reach.Leads d.edges a b ↔ s.Arrow accessors (seen.map Prod.fst) a b := by
  constructor
  · rintro ⟨ids, hids, hb⟩
    obtain ⟨visit, hvisit, heq⟩ := h.seen_of_edges _ (Table.mem_of_find? hids)
    obtain ⟨rfl, rfl⟩ := Prod.mk.inj heq
    obtain ⟨callee, hcallee, rfl⟩ := List.mem_map.mp hb
    exact ⟨visit.1, List.mem_map_of_mem hvisit, callee, hcallee, rfl, rfl⟩
  · rintro ⟨method, hmethod, callee, hcallee, rfl, rfl⟩
    obtain ⟨visit, hvisit, rfl⟩ := List.mem_map.mp hmethod
    have hsome := List.ne_nil_of_mem hcallee
    exact ⟨_, h.edges_of_seen visit hvisit hsome, List.mem_map_of_mem hcallee⟩

theorem Following.mem_arrows_iff (h : s.Following accessors root depth seen [] bodies met d)
    (a b : String) :
    (a, b) ∈ d.arrows ↔ s.Arrow accessors (seen.map Prod.fst) a b := by
  rw [← h.leads_iff, Dependencies.arrows, List.mem_eraseDups, List.mem_flatMap]
  constructor
  · rintro ⟨edge, hedge, hb⟩
    obtain ⟨visit, hvisit, rfl⟩ := h.seen_of_edges edge hedge
    obtain ⟨id, hid, heq⟩ := List.mem_map.mp hb
    obtain ⟨rfl, rfl⟩ := Prod.mk.inj heq
    have hsome : s.callees accessors visit.1 ≠ [] := by
      intro hnil
      rw [hnil] at hid
      cases hid
    exact ⟨_, h.edges_of_seen visit hvisit hsome, hid⟩
  · rintro ⟨ids, hids, hb⟩
    exact ⟨(a, ids), Table.mem_of_find? hids, List.mem_map_of_mem hb⟩

end Snapshot

namespace Dependencies

open Relation

theorem nodup_eraseDups {α : Type} [BEq α] [LawfulBEq α] (l : List α) : l.eraseDups.Nodup := by
  induction hlength : l.length using Nat.strong_induction_on generalizing l with
  | _ n ih =>
      cases l with
      | nil => simp
      | cons a rest =>
          rw [List.eraseDups_cons, List.nodup_cons]
          have hshort : (rest.filter fun b => !b == a).length < n := by
            rw [← hlength]
            exact Nat.lt_succ_of_le (List.length_filter_le _ rest)
          refine ⟨?_, ih _ hshort _ rfl⟩
          rw [List.mem_eraseDups, List.mem_filter]
          simp

theorem nodup_arrows (d : Dependencies) : d.arrows.Nodup :=
  nodup_eraseDups _

/-- Arrows are counted once each. -/
theorem edgeCount_eq_ncard {d : Dependencies} {arrow : String → String → Prop}
    (harrow : ∀ a b, (a, b) ∈ d.arrows ↔ arrow a b) :
    d.edgeCount = {pair : String × String | arrow pair.1 pair.2}.ncard := by
  have hset : {pair : String × String | arrow pair.1 pair.2} = ↑d.arrows.toFinset := by
    ext ⟨a, b⟩
    rw [Set.mem_ofPred_eq, Finset.mem_coe, List.mem_toFinset, harrow]
  rw [hset, Set.ncard_coe_finset, List.toFinset_card_of_nodup d.nodup_arrows]
  rfl

/-- A graph is cyclic exactly if its edges lead from some id back to it. -/
theorem isCyclic_iff (d : Dependencies) :
    d.isCyclic = true ↔ ∃ id, TransGen (Reach.Leads d.edges) id id := by
  unfold isCyclic
  rw [List.any_eq_true]
  constructor
  · rintro ⟨⟨caller, ids⟩, -, hback⟩
    obtain ⟨start, hstart, hpath⟩ :=
      (Reach.mem_explore_iff d.edges [caller] caller).mp (List.contains_iff_mem.mp hback)
    obtain rfl := List.mem_singleton.mp hstart
    exact ⟨start, hpath⟩
  · rintro ⟨id, hpath⟩
    obtain ⟨next, ⟨ids, hids, -⟩, -⟩ := TransGen.head'_iff.mp hpath
    have hback : id ∈ Reach.explore d.edges [id] :=
      (Reach.mem_explore_iff d.edges [id] id).mpr ⟨id, List.mem_singleton_self id, hpath⟩
    exact ⟨(id, ids), Table.mem_of_find? hids, List.contains_iff_mem.mpr hback⟩

end Dependencies

namespace Snapshot

open BreadthFirst Classification Relation

variable (s : Snapshot) (accessors : Bool)

/-- The symbols that are some of the methods or called by them. -/
def Involved (methods : List Symbol) : Set Symbol :=
  {x | x ∈ methods ∨ ∃ method ∈ methods, x ∈ s.callees accessors method}

theorem ncard_arrow_of_injOn {methods : List Symbol}
    (hids : Set.InjOn Symbol.id (s.Involved accessors methods)) :
    {pair : String × String | s.Arrow accessors methods pair.1 pair.2}.ncard =
      {call : Symbol × Symbol | call.1 ∈ methods ∧ call.2 ∈ s.callees accessors call.1}.ncard := by
  have himage : {pair : String × String | s.Arrow accessors methods pair.1 pair.2} =
      (fun call : Symbol × Symbol => (call.1.id, call.2.id)) ''
        {call | call.1 ∈ methods ∧ call.2 ∈ s.callees accessors call.1} := by
    ext ⟨a, b⟩
    constructor
    · rintro ⟨method, hmethod, callee, hcallee, rfl, rfl⟩
      exact ⟨(method, callee), ⟨hmethod, hcallee⟩, rfl⟩
    · rintro ⟨⟨method, callee⟩, ⟨hmethod, hcallee⟩, heq⟩
      obtain ⟨rfl, rfl⟩ := Prod.mk.inj heq
      exact ⟨method, hmethod, callee, hcallee, rfl, rfl⟩
  rw [himage]
  apply Set.InjOn.ncard_image
  rintro ⟨method, callee⟩ ⟨hmethod, hcallee⟩ ⟨other, called⟩ ⟨hother, hcalled⟩ heq
  obtain ⟨hmethods, hcallees⟩ := Prod.mk.inj heq
  have hfirst : method = other := hids (Or.inl hmethod) (Or.inl hother) hmethods
  have hsecond : callee = called :=
    hids (Or.inr ⟨method, hmethod, hcallee⟩) (Or.inr ⟨other, hother, hcalled⟩) hcallees
  rw [hfirst, hsecond]

/-- What a search from a root down to a depth has to find, the methods being all those that are
near enough. -/
structure Covers (root : Symbol) (depth : Int) (methods : List Symbol) (d : Dependencies) :
    Prop where
  each_once : methods.Nodup
  near_enough : ∀ method, method ∈ methods ↔
    ∃ n : Nat, Distance (s.callees accessors) root n method ∧ (n : Int) ≤ max 1 depth - 1
  visited_eq : d.visited = methods.length
  deepest_eq : ∃ n, d.deepest = n + 1 ∧
    (∃ method ∈ methods, Distance (s.callees accessors) root n method) ∧
      ∀ method ∈ methods, ∀ m, Distance (s.callees accessors) root m method → m ≤ n
  found_eq : d.found = mergeAll (methods.map (s.classify accessors))
  mem_calls : ∀ x, x ∈ d.found.calls ↔ ∃ method ∈ methods, x ∈ (s.classify accessors method).calls
  mem_reads : ∀ x, x ∈ d.found.reads ↔ ∃ method ∈ methods, x ∈ (s.classify accessors method).reads
  mem_writes : ∀ x, x ∈ d.found.writes ↔
    ∃ method ∈ methods, x ∈ (s.classify accessors method).writes
  isSet : d.found.IsSet
  edgeCount_eq : d.edgeCount =
    {pair : String × String | s.Arrow accessors methods pair.1 pair.2}.ncard
  edgeCount_of_injOn : Set.InjOn Symbol.id (s.Involved accessors methods) →
    d.edgeCount =
      {call : Symbol × Symbol | call.1 ∈ methods ∧ call.2 ∈ s.callees accessors call.1}.ncard
  isCyclic_iff : d.isCyclic = true ↔ ∃ id, TransGen (s.Arrow accessors methods) id id
  nothing_skipped : d.skipped = []

variable {s accessors}

theorem le_foldl_max {levels : List Nat} {level : Nat} (hlevel : level ∈ levels) :
    level ≤ levels.foldl max 0 := by
  induction levels using List.reverseRecOn with
  | nil => cases hlevel
  | append_singleton levels last ih =>
      rw [List.foldl_append, List.foldl_cons, List.foldl_nil]
      rcases List.mem_append.mp hlevel with hlevel | hlevel
      · exact (ih hlevel).trans (le_max_left _ _)
      · rw [List.mem_singleton.mp hlevel]
        exact le_max_right _ _

theorem foldl_max_mem {levels : List Nat} (hsome : levels ≠ []) :
    levels.foldl max 0 ∈ levels := by
  induction levels using List.reverseRecOn with
  | nil => exact absurd rfl hsome
  | append_singleton levels last ih =>
      rw [List.foldl_append, List.foldl_cons, List.foldl_nil, List.mem_append, List.mem_singleton]
      by_cases hnil : levels = []
      · subst hnil
        exact Or.inr (Nat.zero_max last)
      · rcases max_choice (levels.foldl max 0) last with hleft | hright
        · rw [hleft]
          exact Or.inl (ih hnil)
        · exact Or.inr hright

/-- The deepest level belongs to the methods that are farthest from the root. -/
theorem Following.exists_deepest {root : Symbol} {bound : Nat} {seen : List (Symbol × Nat)}
    {bodies : List (String × Operation)} {met : List Symbol} {d : Dependencies}
    (h : s.Following accessors root bound seen [] bodies met d) :
    ∃ n, d.deepest = n + 1 ∧
      (∃ method ∈ seen.map Prod.fst, Distance (s.callees accessors) root n method) ∧
        ∀ method ∈ seen.map Prod.fst, ∀ m,
          Distance (s.callees accessors) root m method → m ≤ n := by
  have hroot := h.searching.root_mem
  rw [List.append_nil] at hroot
  have hsome : seen.map Prod.snd ≠ [] := List.ne_nil_of_mem (List.mem_map_of_mem hroot)
  obtain ⟨visit, hvisit, hlevel⟩ := List.mem_map.mp (foldl_max_mem hsome)
  obtain ⟨n, hn, -, hdistance⟩ := h.searching.mem_seen_iff.mp hvisit
  have hdeepest : d.deepest = n + 1 := by rw [h.deepest_eq, ← hlevel, hn]
  refine ⟨n, hdeepest, ⟨visit.1, List.mem_map_of_mem hvisit, hdistance⟩, ?_⟩
  intro method hmethod m hm
  obtain ⟨other, hother, rfl⟩ := List.mem_map.mp hmethod
  obtain ⟨k, hk, -, hdistance⟩ := h.searching.mem_seen_iff.mp hother
  have hle := le_foldl_max (List.mem_map_of_mem (f := Prod.snd) hother)
  rw [← h.deepest_eq, hdeepest, hk] at hle
  have hleast := hm.least k hdistance.chain
  omega

theorem Following.covers {root : Symbol} {depth : Int} {bound : Nat}
    (hbound : (bound : Int) = max 1 depth) {seen : List (Symbol × Nat)}
    {bodies : List (String × Operation)} {met : List Symbol} {d : Dependencies}
    (h : s.Following accessors root bound seen [] bodies met d) :
    s.Covers accessors root depth (seen.map Prod.fst) d := by
  have hfound : d.found = mergeAll ((seen.map Prod.fst).map (s.classify accessors)) := by
    rw [List.map_map]
    exact h.found_eq
  have hmem : ∀ {f : Classification → List Symbol}, IsList f → ∀ x, x ∈ f d.found ↔
      ∃ method ∈ seen.map Prod.fst, x ∈ f (s.classify accessors method) := by
    intro f hf x
    rw [hfound, hf.mem_mergeAll]
    simp only [List.mem_map, exists_exists_and_eq_and]
  have hnodup := h.searching.nodup
  rw [List.append_nil] at hnodup
  constructor
  · exact hnodup
  · intro method
    rw [h.searching.mem_map_fst_iff]
    constructor
    · rintro ⟨n, hn, hdistance⟩
      exact ⟨n, hdistance, by omega⟩
    · rintro ⟨n, hdistance, hn⟩
      exact ⟨n, by omega, hdistance⟩
  · rw [h.visited_eq, List.length_map]
  · exact h.exists_deepest
  · exact hfound
  · exact hmem isList_calls
  · exact hmem isList_reads
  · exact hmem isList_writes
  · rw [hfound]
    exact isSet_mergeAll _
  · exact Dependencies.edgeCount_eq_ncard h.mem_arrows_iff
  · intro hids
    rw [← s.ncard_arrow_of_injOn accessors hids]
    exact Dependencies.edgeCount_eq_ncard h.mem_arrows_iff
  · rw [Dependencies.isCyclic_iff]
    have harrow : Reach.Leads d.edges = s.Arrow accessors (seen.map Prod.fst) := by
      funext a b
      exact propext (h.leads_iff a b)
    rw [harrow]
  · exact h.nothing_skipped

/-! ## Calls in closed tables -/

theorem holds_of_accessorsOf (hs : s.tables.Closed) {property x : Symbol}
    (hx : (s.accessorsOf property).1 = some x ∨ (s.accessorsOf property).2 = some x) :
    Tables.Holds s.tables.symbols x := by
  have hbind : ∀ {found : Option String}, found.bind s.symbol? = some x →
      Tables.Holds s.tables.symbols x := by
    intro found hfound
    rcases Option.bind_eq_some_iff.mp hfound with ⟨id, -, hget⟩
    have hid : x.id = id := hs.ids.get? hget
    unfold Tables.Holds
    rw [hid]
    exact hget
  unfold accessorsOf at hx
  split at hx
  next => exact hx.elim hbind hbind
  next => rcases hx with hgetter | hsetter <;> contradiction

/-- All that a method calls is what the tables hold under its id. -/
theorem holds_of_mem_callees (hs : s.tables.Closed) {method x : Symbol}
    (hx : x ∈ s.callees accessors method) : Tables.Holds s.tables.symbols x := by
  unfold callees at hx
  cases hbody : s.bodyOf? method with
  | none =>
      rw [s.classify_of_no_body accessors hbody] at hx
      cases hx
  | some body =>
      have hsettled := (hs.refers.bodies.get? hbody).2
      rw [s.classify_of_body accessors hbody, mem_calls_classifyTree] at hx
      rcases hx with ⟨entry, hentry, hcallee | ⟨member, -, hread | hwrite⟩⟩
      · have hop : entry.1 ∈ body.walk := by
          rw [← Operation.uses_map_fst body .read]
          exact List.mem_map_of_mem hentry
        exact hsettled entry.1 hop x (Or.inr hcallee)
      · have hgetter := ((s.countedAccessor?_eq_some_iff accessors member x false).mp hread.2).2.2
        exact holds_of_accessorsOf hs (Or.inl hgetter)
      · have hsetter := ((s.countedAccessor?_eq_some_iff accessors member x true).mp hwrite.2).2.2
        exact holds_of_accessorsOf hs (Or.inr hsetter)

theorem holds_of_chain (hs : s.tables.Closed) {root x : Symbol}
    (hroot : Tables.Holds s.tables.symbols root) {n : Nat}
    (hchain : Chain (s.callees accessors) root n x) : Tables.Holds s.tables.symbols x := by
  cases hchain with
  | root => exact hroot
  | step _ hnext => exact holds_of_mem_callees hs hnext

/-- In closed tables calls between symbols are counted as the calls between their ids. -/
theorem Covers.edgeCount_of_closed (hs : s.tables.Closed) {root : Symbol} {depth : Int}
    {methods : List Symbol} {d : Dependencies} (hroot : Tables.Holds s.tables.symbols root)
    (h : s.Covers accessors root depth methods d) :
    d.edgeCount =
      {call : Symbol × Symbol | call.1 ∈ methods ∧ call.2 ∈ s.callees accessors call.1}.ncard := by
  apply h.edgeCount_of_injOn
  have hholds : ∀ x ∈ s.Involved accessors methods, Tables.Holds s.tables.symbols x := by
    intro x hx
    rcases hx with hmethod | ⟨method, -, hcallee⟩
    · rcases (h.near_enough x).mp hmethod with ⟨n, hdistance, -⟩
      exact holds_of_chain hs hroot hdistance.chain
    · exact holds_of_mem_callees hs hcallee
  intro x hx y hy hid
  have hfirst : s.tables.symbols.get? x.id = some x := hholds x hx
  have hsecond : s.tables.symbols.get? y.id = some y := hholds y hy
  rw [← hid, hfirst] at hsecond
  exact Option.some.inj hsecond

/-- A search that is not stopped finds the calls, reads and writes of all methods that are near
enough, however the calls go round. -/
theorem dependenciesOf_covers (s : Snapshot) (accessors : Bool) {deadline : Deadline}
    (hopen : deadline.isOver = false) (root : Symbol) (depth : Int) (withCallers : Bool) :
    ∃ methods d, s.dependenciesOf accessors (fun _ => none) deadline root (.whole depth)
        withCallers = .ok (d, if withCallers then some (s.callersOf root) else none) ∧
      s.Covers accessors root depth methods d := by
  have hnumber : (Number.greater (.whole 1) (.whole depth)).whole? =
      some (((max 1 depth).toNat : Nat) : Int) := by
    rw [Int.toNat_of_nonneg (by omega)]
    exact Number.whole?_greater rfl rfl
  have hstart : s.Following accessors root (max 1 depth).toNat [] [(root, 1)]
      s.tables.bodies.entries [root] {} := .start (by omega)
  obtain ⟨seen, bodies, met, d, hfollow, h⟩ := hstart.exists_followCalls hnumber
  have hcheck : deadline.check = .ok () := by
    unfold Deadline.check Deadline.expiry?
    rw [hopen]
    rfl
  refine ⟨seen.map Prod.fst, d, ?_, h.covers (Int.toNat_of_nonneg (by omega))⟩
  unfold dependenciesOf
  rw [Attempt.bind_eq_ok]
  refine ⟨(), hcheck, ?_⟩
  rw [Attempt.bind_eq_ok]
  exact ⟨d, hfollow, rfl⟩

/-- A method that calls itself. -/
def recursiveMethod : Symbol :=
  { id := "M:Tree.Walk()", name := "Walk", kind := .method, display := "Tree.Walk()" }

def recursiveSnapshot : Snapshot :=
  .ofTables "Forest" "" none
    { bodies := ⟨[(recursiveMethod.id, .invocation (some recursiveMethod) none [] none)]⟩ }

theorem dependenciesOf_covers_recursive :
    ∃ methods d, recursiveSnapshot.dependenciesOf true (fun _ => none) .none recursiveMethod
        (.whole 3) false = .ok (d, none) ∧
      recursiveSnapshot.Covers true recursiveMethod 3 methods d ∧ d.isCyclic = true := by
  obtain ⟨methods, d, hfound, hcovers⟩ := dependenciesOf_covers recursiveSnapshot true
    (rfl : Deadline.none.isOver = false) recursiveMethod 3 false
  refine ⟨methods, d, hfound, hcovers, ?_⟩
  have hroot : recursiveMethod ∈ methods :=
    (hcovers.near_enough recursiveMethod).mpr
      ⟨0, ⟨.root, fun m _ => Nat.zero_le m⟩, by decide⟩
  have hcalls : recursiveMethod ∈ recursiveSnapshot.callees true recursiveMethod := by decide
  exact hcovers.isCyclic_iff.mpr ⟨recursiveMethod.id,
    .single ⟨recursiveMethod, hroot, recursiveMethod, hcalls, rfl, rfl⟩⟩

end Snapshot
end SymbolAtlas
