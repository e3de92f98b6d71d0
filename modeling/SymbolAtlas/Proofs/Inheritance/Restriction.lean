import SymbolAtlas.Inheritance
import SymbolAtlas.Proofs.Attempt
import SymbolAtlas.Proofs.Text.Order
import Mathlib.Tactic

/-!
# Hierarchies restricted to source

A request may be restricted to symbols in source.  It then fails where it fails without the
restriction, and otherwise has the same lists without the symbols of metadata, in the same order:
what is found beyond a type of metadata is found all the same.  Sorting is stable and repetitions
are dropped where they come up again, so that neither depends on whether it comes before or after
the restriction.
-/

namespace SymbolAtlas

/-! ## Sorted lists -/

section Sorting

variable {α : Type} {le : α → α → Bool}

/-- A sorted list falls into what is smaller than an item and the rest, and the item goes in
between. -/
theorem mergeSort_around (htrans : ∀ a b c, le a b = true → le b c = true → le a c = true)
    (htotal : ∀ a b, (le a b || le b a) = true) (a : α) (items : List α) :
    items.mergeSort le = (items.mergeSort le).filter (fun b => !le a b) ++
        (items.mergeSort le).filter (le a) ∧
      (a :: items).mergeSort le = (items.mergeSort le).filter (fun b => !le a b) ++
        a :: (items.mergeSort le).filter (le a) := by
  obtain ⟨smaller, others, hsorted, hitems, hsmaller⟩ :=
    List.mergeSort_cons htrans htotal a items
  have hpairs := List.pairwise_mergeSort htrans htotal (a :: items)
  rw [hsorted, List.pairwise_append, List.pairwise_cons] at hpairs
  have hothers : ∀ b ∈ others, le a b = true := hpairs.2.1.1
  have hnone : ∀ b ∈ smaller, le a b = false := by simpa using hsmaller
  have hleft : (items.mergeSort le).filter (fun b => !le a b) = smaller := by
    rw [hitems, List.filter_append, List.filter_eq_self.mpr hsmaller,
      List.filter_eq_nil_iff.mpr (by simpa using hothers), List.append_nil]
  have hright : (items.mergeSort le).filter (le a) = others := by
    rw [hitems, List.filter_append, List.filter_eq_self.mpr hothers,
      List.filter_eq_nil_iff.mpr (by simpa using hnone), List.nil_append]
  rw [hleft, hright]
  exact ⟨hitems, hsorted⟩

/-- What is left of a sorted list is what is left of the list, sorted. -/
theorem filter_mergeSort (htrans : ∀ a b c, le a b = true → le b c = true → le a c = true)
    (htotal : ∀ a b, (le a b || le b a) = true) (p : α → Bool) (items : List α) :
    (items.mergeSort le).filter p = (items.filter p).mergeSort le := by
  induction items with
  | nil => simp
  | cons a rest ih =>
      obtain ⟨-, hall⟩ := mergeSort_around htrans htotal a rest
      obtain ⟨hwithout, hwith⟩ := mergeSort_around htrans htotal a (rest.filter p)
      have hsmaller : ((rest.mergeSort le).filter (fun b => !le a b)).filter p =
          ((rest.filter p).mergeSort le).filter (fun b => !le a b) := by
        rw [← ih, List.filter_comm]
      have hothers : ((rest.mergeSort le).filter (le a)).filter p =
          ((rest.filter p).mergeSort le).filter (le a) := by
        rw [← ih, List.filter_comm]
      rw [hall, List.filter_append, List.filter_cons, hsmaller, hothers]
      cases hp : p a with
      | true => rw [if_pos rfl, List.filter_cons_of_pos hp, ← hwith]
      | false => rw [if_neg Bool.false_ne_true, List.filter_cons_of_neg (by simp [hp]), ← hwithout]

end Sorting

/-! ## Lists by display -/

section Lists

open Snapshot

theorem filter_foldl_distinct (p : Symbol → Bool) (symbols seen : List Symbol) :
    (symbols.foldl (fun seen x => if seen.contains x then seen else seen ++ [x]) seen).filter p =
      (symbols.filter p).foldl (fun seen x => if seen.contains x then seen else seen ++ [x])
        (seen.filter p) := by
  induction symbols generalizing seen with
  | nil => rfl
  | cons x rest ih =>
      rw [List.foldl_cons, ih]
      cases hx : p x with
      | false =>
          -- a symbol that is left out is left out of the symbols seen so far
          have hseen : (if seen.contains x then seen else seen ++ [x]).filter p =
              seen.filter p := by
            split
            next => rfl
            next => rw [List.filter_append, List.filter_singleton, hx, cond_false, List.append_nil]
          rw [hseen, List.filter_cons_of_neg (by simp [hx])]
      | true =>
          have hcontains : (seen.filter p).contains x = seen.contains x := by
            rw [Bool.eq_iff_iff, List.contains_iff_mem, List.contains_iff_mem, List.mem_filter]
            exact and_iff_left hx
          have hseen : (if seen.contains x then seen else seen ++ [x]).filter p =
              if (seen.filter p).contains x then seen.filter p else seen.filter p ++ [x] := by
            rw [hcontains, apply_ite (List.filter p), List.filter_append, List.filter_singleton,
              hx, cond_true]
          rw [hseen, List.filter_cons_of_pos hx, List.foldl_cons]

theorem filter_distinctSymbols (p : Symbol → Bool) (symbols : List Symbol) :
    (distinctSymbols symbols).filter p = distinctSymbols (symbols.filter p) :=
  filter_foldl_distinct p symbols []

theorem filter_byDisplay (p : Symbol → Bool) (symbols : List Symbol) :
    (byDisplay symbols).filter p = byDisplay (symbols.filter p) := by
  have htrans : ∀ a b c : Symbol, a.precedes b = true → b.precedes c = true →
      a.precedes c = true := fun _ _ _ hab hbc => Text.precedes_trans hab hbc
  have htotal : ∀ a b : Symbol, (a.precedes b || b.precedes a) = true := by
    intro a b
    rw [Bool.or_eq_true]
    exact Text.precedes_total a.display b.display
  unfold byDisplay
  rw [filter_mergeSort htrans htotal, filter_distinctSymbols]

@[simp] theorem keepInSource_true (symbols : List Symbol) :
    keepInSource true symbols = symbols.filter Symbol.inSource :=
  rfl

@[simp] theorem keepInSource_false (symbols : List Symbol) : keepInSource false symbols = symbols :=
  rfl

end Lists

/-! ## What a request answers -/

/-- A hierarchy has the lists of another one without the symbols of metadata. -/
structure Hierarchy.Restricts (all kept : Hierarchy) : Prop where
  root : kept.root = all.root
  ancestors : kept.ancestors = all.ancestors.filter Symbol.inSource
  interfaces : kept.interfaces = all.interfaces.filter Symbol.inSource
  descendants : kept.descendants = all.descendants.filter Symbol.inSource
  /-- The members are the same, and each of them loses its overriding members of metadata. -/
  overrides : kept.overrides = all.overrides.map fun found =>
    found.map fun entry => (entry.1, entry.2.filter Symbol.inSource)

/-- Implementations are those of another answer without the symbols of metadata. -/
structure Implementations.Restricts (all kept : Implementations) : Prop where
  interface : kept.interface = all.interface
  member : kept.member = all.member
  found : kept.found = all.found.filter Symbol.inSource
  extensions : kept.extensions = all.extensions.map (·.filter Symbol.inSource)

namespace Snapshot

open Attempt

theorem descendantsOf_true (s : Snapshot) (type : Symbol) :
    s.descendantsOf type true = (s.descendantsOf type false).filter Symbol.inSource :=
  (filter_byDisplay _ _).symm

theorem overridesIn_true (s : Snapshot) (type : Symbol) :
    s.overridesIn type true = (s.overridesIn type false).map fun entry =>
      (entry.1, entry.2.filter Symbol.inSource) := by
  simp [overridesIn, filter_byDisplay]

/-- The descendants that a request wants to see, as a list and as a tree. -/
def descentFor (s : Snapshot) (deadline : Deadline) (type : Symbol) (view : HierarchyView) :
    Attempt (List Symbol × Option DescendantTree) :=
  if view.direction.goesDown then do
    deadline.check
    let flat := s.descendantsOf type view.inSourceOnly
    let maxDepth ← Target.ordered view.maxDepth
    pure (flat, some (s.descendantTree type flat maxDepth))
  else pure ([], none)

/-- The overrides that a request wants to see. -/
def overridesFor (s : Snapshot) (deadline : Deadline) (type : Symbol) (view : HierarchyView) :
    Attempt (Option (List (Symbol × List Symbol))) :=
  if view.withOverrides then do
    if !(s.overridableMembers type).isEmpty then deadline.check
    pure (some (s.overridesIn type view.inSourceOnly))
  else pure none

theorem hierarchyOf_eq (s : Snapshot) (deadline : Deadline) (type : Symbol)
    (view : HierarchyView) (htype : type.kind = .namedType) :
    s.hierarchyOf deadline type view = (do
      let below ← s.descentFor deadline type view
      let overrides ← s.overridesFor deadline type view
      pure
        { root := type
          ancestors :=
            if view.direction.goesUp then keepInSource view.inSourceOnly (s.ancestorsOf type)
            else []
          interfaces :=
            if view.withInterfaces then
              byDisplay (keepInSource view.inSourceOnly (s.interfacesOf type true))
            else []
          descendants := below.1
          tree := below.2
          overrides }) := by
  unfold hierarchyOf descentFor overridesFor
  cases view.direction.goesDown <;> cases view.withOverrides <;>
    cases (s.overridableMembers type).isEmpty <;> simp [htype]

theorem hierarchyOf_restricts (s : Snapshot) (deadline : Deadline) (type : Symbol)
    (view : HierarchyView) :
    Agrees Hierarchy.Restricts
      (s.hierarchyOf deadline type { view with inSourceOnly := false })
      (s.hierarchyOf deadline type { view with inSourceOnly := true }) := by
  by_cases htype : type.kind = .namedType
  case neg =>
    simp only [hierarchyOf, bne_iff_ne, ne_eq, htype, not_false_eq_true, if_true]
    exact .error _
  rw [hierarchyOf_eq _ _ _ _ htype, hierarchyOf_eq _ _ _ _ htype]
  refine Agrees.bind (R := fun (a b : List Symbol × Option DescendantTree) =>
    b.1 = a.1.filter Symbol.inSource) ?descent fun all kept hdescent => ?_
  case descent =>
    unfold descentFor
    split
    next =>
      refine agrees_bind_same fun _ => agrees_bind_same fun _ => ?_
      exact .ok (s.descendantsOf_true type)
    next => exact .ok rfl
  refine Agrees.bind (R := fun (a b : Option (List (Symbol × List Symbol))) =>
    b = a.map fun found => found.map fun entry => (entry.1, entry.2.filter Symbol.inSource))
    ?overrides fun _ _ hoverrides => ?_
  case overrides =>
    unfold overridesFor
    split
    next =>
      cases (s.overridableMembers type).isEmpty with
      | true => exact .ok (congrArg some (s.overridesIn_true type))
      | false => exact agrees_bind_same fun _ => .ok (congrArg some (s.overridesIn_true type))
    next => exact .ok rfl
  refine .ok ⟨rfl, ?_, ?_, hdescent, hoverrides⟩
  · rw [apply_ite (List.filter Symbol.inSource)]
    rfl
  · rw [apply_ite (List.filter Symbol.inSource), filter_byDisplay]
    rfl

theorem implementationsFor_restricts (s : Snapshot) (deadline : Deadline) (target : Symbol)
    (member : Value) (withExtensions : Bool) :
    Agrees Implementations.Restricts
      (s.implementationsFor deadline target member withExtensions false)
      (s.implementationsFor deadline target member withExtensions true) := by
  unfold implementationsFor
  cases s.interfaceOf? target with
  | none => exact .error _
  | some interface =>
      refine agrees_bind_same fun _ => agrees_bind_same fun _ => ?_
      refine .ok ⟨rfl, rfl, (filter_byDisplay _ _).symm, ?_⟩
      rw [apply_ite (Option.map _), Option.map_some, descendantsOf_true]
      rfl

/-- Restricting a hierarchy or the implementations of an interface to symbols in source only takes
the other symbols out of the lists: the requests fail together and with the same fault, and
otherwise every list keeps its symbols in source, in their order. -/
theorem inSourceOnly_restricts (s : Snapshot) (deadline : Deadline) :
    (∀ (type : Symbol) (view : HierarchyView),
      Agrees Hierarchy.Restricts
        (s.hierarchyOf deadline type { view with inSourceOnly := false })
        (s.hierarchyOf deadline type { view with inSourceOnly := true })) ∧
    (∀ (target : Symbol) (member : Value) (withExtensions : Bool),
      Agrees Implementations.Restricts
        (s.implementationsFor deadline target member withExtensions false)
        (s.implementationsFor deadline target member withExtensions true)) :=
  ⟨s.hierarchyOf_restricts deadline, s.implementationsFor_restricts deadline⟩

end Snapshot
end SymbolAtlas
