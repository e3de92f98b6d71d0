import SymbolAtlas.CallGraph
import SymbolAtlas.Proofs.Attempt
import SymbolAtlas.Proofs.BreadthFirst
import SymbolAtlas.Proofs.Classification.Merge
import SymbolAtlas.Proofs.Number.Whole
import SymbolAtlas.Proofs.Table
import Mathlib.Tactic

/-!
# Following calls

Following calls is a breadth-first search over the methods that bodies call.  A body leaves the
pool when its method is classified; a method that comes later under the same id has the same
classification, so that merging it again would change nothing and all it calls has been met.
-/

namespace SymbolAtlas
namespace Snapshot

open BreadthFirst Classification

variable (s : Snapshot) (accessors : Bool)

/-- The methods that the body of a method calls. -/
def callees (method : Symbol) : List Symbol :=
  (s.classify accessors method).calls

theorem nodup_callees (method : Symbol) : (s.callees accessors method).Nodup :=
  (s.isSet_classifyTree accessors (s.bodyOf? method)).calls

theorem classify_of_id_eq {a b : Symbol} (hid : a.id = b.id) :
    s.classify accessors a = s.classify accessors b := by
  unfold classify bodyOf?
  rw [hid]

theorem classify_of_no_body {method : Symbol} (hbody : s.bodyOf? method = none) :
    s.classify accessors method = .empty := by
  unfold classify
  rw [hbody]
  rfl

theorem classify_of_body {method : Symbol} {body : Operation}
    (hbody : s.bodyOf? method = some body) :
    s.classify accessors method = s.classifyTree accessors (some body) := by
  unfold classify
  rw [hbody]

/-- What holds while calls are followed: `seen` are the visits so far. -/
structure Following (root : Symbol) (depth : Nat) (seen queue : List (Symbol × Nat))
    (bodies : List (String × Operation)) (met : List Symbol) (d : Dependencies) : Prop where
  searching : Searching (s.callees accessors) root depth seen queue
  met_eq : met = (seen ++ queue).map Prod.fst
  kept : ∀ {id body}, Table.find? id bodies = some body → s.tables.bodies.get? id = some body
  used : ∀ {id body}, s.tables.bodies.get? id = some body →
    Table.find? id bodies = some body ∨ ∃ visit ∈ seen, visit.1.id = id
  found_eq : d.found = mergeAll (seen.map fun visit => s.classify accessors visit.1)
  visited_eq : d.visited = seen.length
  deepest_eq : d.deepest = (seen.map Prod.snd).foldl max 0
  edges_of_seen : ∀ visit ∈ seen, s.callees accessors visit.1 ≠ [] →
    Table.find? visit.1.id d.edges = some ((s.callees accessors visit.1).map Symbol.id)
  seen_of_edges : ∀ edge ∈ d.edges,
    ∃ visit ∈ seen, edge = (visit.1.id, (s.callees accessors visit.1).map Symbol.id)
  nothing_skipped : d.skipped = []

variable {s accessors}
variable {root method : Symbol} {depth level : Nat} {seen rest : List (Symbol × Nat)}
variable {bodies : List (String × Operation)} {met : List Symbol} {d : Dependencies}

theorem Following.start (hdepth : 0 < depth) :
    s.Following accessors root depth [] [(root, 1)] s.tables.bodies.entries [root] {} where
  searching := .start hdepth
  met_eq := rfl
  kept := id
  used := Or.inl
  found_eq := rfl
  visited_eq := rfl
  deepest_eq := rfl
  edges_of_seen := by simp
  seen_of_edges := by simp
  nothing_skipped := rfl

/-- A method without a body of its own in the pool calls nothing, or was met under its id. -/
theorem Following.known_of_no_body
    (h : s.Following accessors root depth seen ((method, level) :: rest) bodies met d)
    (hnone : Table.find? method.id bodies = none) :
    s.classify accessors method = .empty ∨ ∃ visit ∈ seen, visit.1.id = method.id := by
  cases hbody : s.bodyOf? method with
  | none => exact Or.inl (s.classify_of_no_body accessors hbody)
  | some body =>
      rcases h.used hbody with hpool | hseen
      · rw [hnone] at hpool
        cases hpool
      · exact Or.inr hseen

theorem Following.callees_met
    (h : s.Following accessors root depth seen ((method, level) :: rest) bodies met d)
    (hnone : Table.find? method.id bodies = none) (hlevel : level < depth) :
    ∀ callee ∈ s.callees accessors method, callee ∈ met := by
  intro callee hcallee
  rcases h.known_of_no_body hnone with hempty | ⟨visit, hvisit, hid⟩
  · unfold callees at hcallee
    rw [hempty] at hcallee
    cases hcallee
  · have hle : visit.2 ≤ level :=
      (List.pairwise_append.mp h.searching.ordered).2.2 visit hvisit (method, level)
        List.mem_cons_self
    unfold callees at hcallee
    rw [← s.classify_of_id_eq accessors hid] at hcallee
    obtain ⟨m, hm, -⟩ := h.searching.opened visit hvisit (by omega) callee hcallee
    rw [h.met_eq]
    exact List.mem_map_of_mem hm

/-- Merging what a known method classifies as changes nothing. -/
theorem Following.merge_known
    (h : s.Following accessors root depth seen ((method, level) :: rest) bodies met d)
    (hnone : Table.find? method.id bodies = none) :
    d.found.merge (s.classify accessors method) = d.found := by
  rcases h.known_of_no_body hnone with hempty | ⟨visit, hvisit, hid⟩
  · rw [hempty, merge_empty]
  · rw [h.found_eq, ← s.classify_of_id_eq accessors hid]
    exact mergeAll_merge_self
      (List.mem_map_of_mem (f := fun visit => s.classify accessors visit.1) hvisit)

theorem Following.edges_known
    (h : s.Following accessors root depth seen ((method, level) :: rest) bodies met d)
    (hnone : Table.find? method.id bodies = none) (hsome : s.callees accessors method ≠ []) :
    Table.find? method.id d.edges = some ((s.callees accessors method).map Symbol.id) := by
  unfold callees at hsome ⊢
  rcases h.known_of_no_body hnone with hempty | ⟨other, hother, hid⟩
  · rw [hempty] at hsome
    exact absurd rfl hsome
  · rw [← s.classify_of_id_eq accessors hid] at hsome ⊢
    rw [← hid]
    exact h.edges_of_seen other hother hsome

theorem Following.edges_added {queue : List (Symbol × Nat)}
    (h : s.Following accessors root depth seen queue bodies met d)
    {visit : Symbol × Nat} (hvisit : visit ∈ seen ++ [(method, level)])
    (hsome : s.callees accessors visit.1 ≠ []) :
    Table.find? visit.1.id ((d.visit level).add method (s.classify accessors method)).edges =
      some ((s.callees accessors visit.1).map Symbol.id) := by
  have happend : Table.find? visit.1.id
      ((d.visit level).add method (s.classify accessors method)).edges =
      (Table.find? visit.1.id d.edges).or
        (Table.find? visit.1.id [(method.id, (s.callees accessors method).map Symbol.id)]) :=
    Table.find?_append visit.1.id _ _
  rw [happend]
  rcases List.mem_append.mp hvisit with hold | hlast
  · rw [h.edges_of_seen visit hold hsome, Option.some_or]
  · obtain rfl := List.mem_singleton.mp hlast
    cases hfind : Table.find? method.id d.edges with
    | none => simp [Table.find?]
    | some ids =>
        obtain ⟨other, hother, heq⟩ := h.seen_of_edges _ (Table.mem_of_find? hfind)
        obtain ⟨hid, rfl⟩ := Prod.mk.inj heq
        unfold callees
        rw [Option.some_or, s.classify_of_id_eq accessors hid]

/-- A visit is counted, and its level is the deepest yet or none deeper. -/
theorem Following.counted {queue : List (Symbol × Nat)}
    (h : s.Following accessors root depth seen queue bodies met d) (method : Symbol)
    (level : Nat) :
    (d.visit level).visited = (seen ++ [(method, level)]).length ∧
      (d.visit level).deepest = ((seen ++ [(method, level)]).map Prod.snd).foldl max 0 := by
  constructor
  · rw [List.length_append, List.length_singleton, ← h.visited_eq]
    rfl
  · rw [List.map_append, List.foldl_append, ← h.deepest_eq]
    rfl

theorem Following.leave
    (h : s.Following accessors root depth seen ((method, level) :: rest) bodies met d)
    (hnone : Table.find? method.id bodies = none) :
    s.Following accessors root depth (seen ++ [(method, level)]) rest bodies met
      (d.visit level) := by
  have hnothing : ∀ b, b ∈ ([] : List Symbol) ↔ level < depth ∧
      b ∈ s.callees accessors method ∧ b ∉ (seen ++ (method, level) :: rest).map Prod.fst := by
    intro b
    constructor
    · intro hb
      cases hb
    · rintro ⟨hlevel, hb, hnew⟩
      rw [← h.met_eq] at hnew
      exact absurd (h.callees_met hnone hlevel b hb) hnew
  have hsearching := h.searching.visit List.nodup_nil hnothing
  rw [waiting, List.map_nil, List.append_nil] at hsearching
  have hcounted := h.counted method level
  constructor
  · exact hsearching
  · rw [h.met_eq, List.append_assoc, List.singleton_append]
  · exact h.kept
  · intro id body hbody
    rcases h.used hbody with hpool | ⟨visit, hvisit, hid⟩
    · exact Or.inl hpool
    · exact Or.inr ⟨visit, List.mem_append_left _ hvisit, hid⟩
  · rw [List.map_append, List.map_singleton, mergeAll_concat, ← h.found_eq, h.merge_known hnone]
    rfl
  · exact hcounted.1
  · exact hcounted.2
  · intro visit hvisit hsome
    rcases List.mem_append.mp hvisit with hold | hlast
    · exact h.edges_of_seen visit hold hsome
    · obtain rfl := List.mem_singleton.mp hlast
      exact h.edges_known hnone hsome
  · intro edge hedge
    obtain ⟨visit, hvisit, heq⟩ := h.seen_of_edges edge hedge
    exact ⟨visit, List.mem_append_left _ hvisit, heq⟩
  · exact h.nothing_skipped

theorem Following.expand
    (h : s.Following accessors root depth seen ((method, level) :: rest) bodies met d)
    {new : List Symbol} (hnodup : new.Nodup)
    (hnew : ∀ b, b ∈ new ↔ level < depth ∧ b ∈ s.callees accessors method ∧ b ∉ met) :
    s.Following accessors root depth (seen ++ [(method, level)])
      (rest ++ waiting new level) (Table.without method.id bodies)
      (met ++ new) ((d.visit level).add method (s.classify accessors method)) := by
  rw [h.met_eq] at hnew
  have hcounted := h.counted method level
  constructor
  · exact h.searching.visit hnodup hnew
  · simp only [h.met_eq, List.map_append, List.map_cons, map_fst_waiting, List.append_assoc,
      List.cons_append, List.nil_append]
  · intro id other hother
    rw [Table.find?_without] at hother
    split at hother
    next => cases hother
    next => exact h.kept hother
  · intro id other hother
    by_cases hid : id = method.id
    · exact Or.inr ⟨(method, level), by simp, hid.symm⟩
    · rw [Table.find?_without, if_neg hid]
      rcases h.used hother with hpool | ⟨visit, hvisit, heq⟩
      · exact Or.inl hpool
      · exact Or.inr ⟨visit, List.mem_append_left _ hvisit, heq⟩
  · rw [List.map_append, List.map_singleton, mergeAll_concat, ← h.found_eq]
    rfl
  · exact hcounted.1
  · exact hcounted.2
  · intro visit hvisit hsome
    exact h.edges_added hvisit hsome
  · intro edge hedge
    rcases List.mem_append.mp hedge with hold | hlast
    · obtain ⟨visit, hvisit, heq⟩ := h.seen_of_edges edge hold
      exact ⟨visit, List.mem_append_left _ hvisit, heq⟩
    · exact ⟨(method, level), by simp, List.mem_singleton.mp hlast⟩
  · exact h.nothing_skipped

theorem mem_firstMet {number : Number} (hnumber : number.whole? = some (depth : Int))
    (level : Nat) (met calls : List Symbol) (x : Symbol) :
    x ∈ firstMet number level met calls ↔ level < depth ∧ x ∈ calls ∧ x ∉ met := by
  unfold firstMet
  rw [Number.lt_of_whole rfl hnumber]
  by_cases hlevel : level < depth <;> simp [hlevel, List.mem_mergeSort]

theorem nodup_firstMet (number : Number) (level : Nat) (met : List Symbol) {calls : List Symbol}
    (hcalls : calls.Nodup) : (firstMet number level met calls).Nodup := by
  unfold firstMet
  split
  next => exact (List.mergeSort_perm _ _).nodup_iff.mpr (hcalls.filter _)
  next => exact List.nodup_nil

theorem followCalls_of_no_body {number : Number} (hnone : Table.find? method.id bodies = none) :
    s.followCalls accessors (fun _ => none) number bodies ((method, level) :: rest) met d =
      s.followCalls accessors (fun _ => none) number bodies rest met (d.visit level) := by
  rw [followCalls]
  simp only []
  split
  next => rfl
  next body hbody =>
    rw [hnone] at hbody
    cases hbody

theorem followCalls_of_body {number : Number} {body : Operation} {c : Classification}
    (hbody : Table.find? method.id bodies = some body)
    (hc : s.classifyTree accessors (some body) = c) :
    s.followCalls accessors (fun _ => none) number bodies ((method, level) :: rest) met d =
      s.followCalls accessors (fun _ => none) number (Table.without method.id bodies)
        (rest ++ (firstMet number level met c.calls).map fun callee => (callee, level + 1))
        (met ++ firstMet number level met c.calls) ((d.visit level).add method c) := by
  subst hc
  rw [followCalls]
  simp only []
  split
  next hnone =>
    rw [hbody] at hnone
    cases hnone
  next other hother =>
    rw [hbody, Option.some.injEq] at hother
    subst hother
    rfl

/-- Following calls comes to an end where no method waits, if no body is out of reach. -/
theorem Following.exists_followCalls {number : Number}
    (hnumber : number.whole? = some (depth : Int)) {queue : List (Symbol × Nat)}
    (h : s.Following accessors root depth seen queue bodies met d) :
    ∃ seen bodies' met' found,
      s.followCalls accessors (fun _ => none) number bodies queue met d = .ok found ∧
        s.Following accessors root depth seen [] bodies' met' found := by
  induction bodies, queue, met, d using
      followCalls.induct s accessors (fun _ => none) number generalizing seen with
  | case1 bodies met d =>
      rw [followCalls]
      exact ⟨seen, bodies, met, d, rfl, h⟩
  | case2 bodies met d method level rest houtage => cases houtage
  | case3 bodies met d method level rest houtage ih => cases houtage
  | case4 bodies met d method level rest houtage hnone ih =>
      rw [followCalls_of_no_body hnone]
      exact ih (h.leave hnone)
  | case5 bodies met d method level rest houtage body hbody c new =>
      rename_i ih
      have hclassify : s.classify accessors method = c :=
        s.classify_of_body accessors (h.kept hbody)
      have hcallees : s.callees accessors method = c.calls := by
        unfold callees
        rw [hclassify]
      have hnodup : new.Nodup := by
        have hcalls := s.nodup_callees accessors method
        rw [hcallees] at hcalls
        exact nodup_firstMet number level met hcalls
      have hnew : ∀ b, b ∈ new ↔ level < depth ∧ b ∈ s.callees accessors method ∧ b ∉ met := by
        intro b
        rw [hcallees]
        exact mem_firstMet hnumber level met c.calls b
      have hexpand := h.expand hnodup hnew
      rw [hclassify] at hexpand
      rw [followCalls_of_body hbody rfl]
      exact ih hexpand

end Snapshot
end SymbolAtlas
