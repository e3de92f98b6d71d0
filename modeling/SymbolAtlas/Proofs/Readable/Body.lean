import SymbolAtlas.Proofs.Index.Body
import SymbolAtlas.Proofs.Readable.Entry
import SymbolAtlas.Proofs.Value.Text
import Mathlib.Tactic

/-!
# Readable bodies

A body is readable if every mapping in it tells its place and its arguments in shapes that can be
used, names itself and what it refers to by what can be written, and has scalars as keys.  Every
part of an operation is nested less deeply than the operation itself, so that the fuel of reading is
never used up, and a name in a body that stands for nothing is refused.
-/

namespace SymbolAtlas

namespace Value

theorem depth_le_depthOfItems {items : List Value} {item : Value} (hitem : item ∈ items) :
    item.depth ≤ depthOfItems items := by
  induction items with
  | nil => cases hitem
  | cons first rest ih =>
      unfold depthOfItems
      rcases List.mem_cons.mp hitem with rfl | hrest
      · exact le_max_left _ _
      · exact (ih hrest).trans (le_max_right _ _)

theorem depth_le_depthOfEntries {entries : List (Value × Value)} {entry : Value × Value}
    (hentry : entry ∈ entries) : entry.2.depth ≤ depthOfEntries entries := by
  induction entries with
  | nil => cases hentry
  | cons first rest ih =>
      unfold depthOfEntries
      rcases List.mem_cons.mp hentry with rfl | hrest
      · exact le_max_left _ _
      · exact (ih hrest).trans (le_max_right _ _)

theorem depth_of_isScalar {v : Value} (hv : v.isScalar = true) : v.depth = 0 := by
  cases v <;> simp_all [isScalar, isList, isMapping, depth]

/-- A field of a mapping is missing, or the value of one of its entries. -/
theorem field_cases (entries : List (Value × Value)) (key : String) :
    (mapping entries).field key = null ∨ ∃ entry ∈ entries, (mapping entries).field key = entry.2 := by
  have hfield : (mapping entries).field key =
      ((entries.find? fun e => e.1.text? == some key).map Prod.snd).getD null := rfl
  rw [hfield]
  cases hfind : entries.find? fun e => e.1.text? == some key with
  | none => exact Or.inl rfl
  | some entry => exact Or.inr ⟨entry, List.mem_of_find?_eq_some hfind, rfl⟩

theorem depth_field_lt {node : Value} (hnode : node.isMapping = true) (key : String) :
    (node.field key).depth < node.depth := by
  cases node with
  | mapping entries =>
      rcases field_cases entries key with hnull | ⟨entry, hentry, hvalue⟩
      · simp [hnull, depth]
      · rw [hvalue, depth]
        exact Nat.lt_succ_of_le (depth_le_depthOfEntries hentry)
  | _ => cases hnode

theorem isMapping_of_isArgument {item : Value} (hitem : Body.isArgument item = true) :
    item.isMapping = true := by
  simp only [Body.isArgument, Bool.and_eq_true] at hitem
  exact hitem.1

end Value

namespace MemberName

open Building Draft Tables

variable {d : Draft}

end MemberName

namespace Body

open Building Draft Tables

/-- The keys whose values an operation of a form uses as texts. -/
def textKeys : String → List String
  | "invocation" => ["target"]
  | "object_creation" => ["constructor", "type"]
  | "property_reference" => ["property"]
  | "field_reference" => ["field"]
  | "event_reference" => ["event"]
  | "compound_assignment" => ["operator"]
  | _ => []

/-- The name of an operation and what it refers to can be written. -/
def isNameable (node : Value) : Bool :=
  node.hasWritable ["op", "ref_kind"] && node.hasWritable (textKeys (formOf node))

mutual

/-- Whatever a body asks of its parts they can be used for. -/
def isReadable : Value → Bool
  | .list items => areReadable items
  | .mapping entries =>
      Entry.isLocatable (.mapping entries) && isNameable (.mapping entries) &&
        ((Value.mapping entries).field "arguments").isListing && entriesAreReadable entries
  | _ => true

def areReadable : List Value → Bool
  | [] => true
  | item :: rest => isReadable item && areReadable rest

def entriesAreReadable : List (Value × Value) → Bool
  | [] => true
  | (key, value) :: rest => key.isScalar && isReadable value && entriesAreReadable rest

end

theorem isReadable_of_mem {items : List Value} (hitems : areReadable items = true) {item : Value}
    (hitem : item ∈ items) : isReadable item = true := by
  induction items with
  | nil => cases hitem
  | cons first rest ih =>
      rw [areReadable, Bool.and_eq_true] at hitems
      rcases List.mem_cons.mp hitem with rfl | hrest
      · exact hitems.1
      · exact ih hitems.2 hrest

theorem isReadable_of_mem_entries {entries : List (Value × Value)}
    (hentries : entriesAreReadable entries = true) {entry : Value × Value}
    (hentry : entry ∈ entries) : entry.1.isScalar = true ∧ isReadable entry.2 = true := by
  induction entries with
  | nil => cases hentry
  | cons first rest ih =>
      simp only [entriesAreReadable, Bool.and_eq_true] at hentries
      rcases List.mem_cons.mp hentry with rfl | hrest
      · exact hentries.1
      · exact ih hentries.2 hrest

theorem isReadable_of_isScalar {v : Value} (hv : v.isScalar = true) : isReadable v = true := by
  cases v <;> simp_all [Value.isScalar, Value.isList, Value.isMapping, isReadable]

theorem isLocatable_of_isReadable {node : Value} (hnode : isReadable node = true) :
    Entry.isLocatable node = true := by
  cases node with
  | mapping entries =>
      simp only [isReadable, Bool.and_eq_true] at hnode
      exact hnode.1.1.1
  | _ => rfl

theorem isNameable_of_isReadable {node : Value} (hnode : isReadable node = true)
    (hmapping : node.isMapping = true) : isNameable node = true := by
  cases node with
  | mapping entries =>
      simp only [isReadable, Bool.and_eq_true] at hnode
      exact hnode.1.1.2
  | _ => cases hmapping

theorem isReadable_field {node : Value} (hnode : isReadable node = true) (key : String) :
    isReadable (node.field key) = true := by
  cases node with
  | mapping entries =>
      simp only [isReadable, Bool.and_eq_true] at hnode
      rcases Value.field_cases entries key with hnull | ⟨entry, hentry, hvalue⟩
      · rw [hnull]
        rfl
      · rw [hvalue]
        exact (isReadable_of_mem_entries hnode.2 hentry).2
  | _ => rfl

/-- The items of a readable value are readable and nested no deeper. -/
theorem of_mem_items {v item : Value} (hv : isReadable v = true) {items : List Value}
    (hitems : v.items? = .ok items) (hitem : item ∈ items) :
    isReadable item = true ∧ item.depth ≤ v.depth := by
  cases v with
  | list listed =>
      cases hitems
      rw [isReadable] at hv
      refine ⟨isReadable_of_mem hv hitem, ?_⟩
      rw [Value.depth]
      exact (Value.depth_le_depthOfItems hitem).trans (Nat.le_succ _)
  | text s =>
      cases hitems
      obtain ⟨c, -, rfl⟩ := List.mem_map.mp hitem
      exact ⟨rfl, Nat.zero_le _⟩
  | mapping entries =>
      cases hitems
      simp only [isReadable, Bool.and_eq_true] at hv
      obtain ⟨entry, hentry, rfl⟩ := List.mem_map.mp hitem
      have hscalar := (isReadable_of_mem_entries hv.2 hentry).1
      refine ⟨isReadable_of_isScalar hscalar, ?_⟩
      rw [Value.depth_of_isScalar hscalar]
      exact Nat.zero_le _
  | _ => cases hitems

theorem of_mem_argumentList {node item : Value} (hnode : isReadable node = true)
    (hmapping : node.isMapping = true) {items : List Value}
    (hitems : argumentList node = .ok items) (hitem : item ∈ items) :
    isReadable item = true ∧ item.depth < node.depth := by
  have hfield := isReadable_field hnode "arguments"
  unfold argumentList Value.itemsIfPresent at hitems
  split at hitems
  next =>
    cases hfound : (node.field "arguments").items? with
    | error m =>
        rw [hfound] at hitems
        cases hitems
    | ok found =>
        rw [hfound] at hitems
        cases hitems
        obtain ⟨hreadable, hdepth⟩ := of_mem_items hfield hfound hitem
        exact ⟨hreadable, hdepth.trans_lt (Value.depth_field_lt hmapping "arguments")⟩
  next =>
    cases hitems
    cases hitem

/-- A reader only refuses what is readable and nested less deeply than a bound. -/
def AcceptsBelow (read : Reader) (bound : Nat) : Prop :=
  ∀ {d : Draft}, d.Sound → ∀ node, isReadable node = true → node.depth < bound →
    OnlyRefuses (read node) d

/-- A reader can be used on all parts of an operation. -/
structure AcceptsParts (read : Reader) (bound : Nat) (node : Value) : Prop where
  reads : Reads read
  accepts : AcceptsBelow read bound
  readable : isReadable node = true
  isMapping : node.isMapping = true
  depth_le : node.depth ≤ bound

variable {d : Draft} {read : Reader} {bound : Nat} {node : Value}

theorem AcceptsParts.field (h : AcceptsParts read bound node) (hd : d.Sound) (key : String) :
    OnlyRefuses (read (node.field key)) d :=
  h.accepts hd _ (isReadable_field h.readable key)
    ((Value.depth_field_lt h.isMapping key).trans_le h.depth_le)

theorem needed_onlyRefuses (h : AcceptsParts read bound node) (hd : d.Sound) (place : Place)
    (key : String) : OnlyRefuses (needed read place node key) d := by
  unfold needed
  refine onlyRefuses_lift_bind (Entry.required_onlyRefuses _ _ _) ?_
  intro part hpart
  rw [Entry.eq_field_of_required hpart]
  exact h.field hd key

theorem AcceptsParts.isNameable (h : AcceptsParts read bound node) : isNameable node = true :=
  isNameable_of_isReadable h.readable h.isMapping

theorem passingOf_onlyRefuses (hnode : isNameable node = true) (place : Place)
    (parameter : Passing) : (passingOf place node parameter).OnlyRefuses := by
  rw [Body.isNameable, Bool.and_eq_true] at hnode
  unfold passingOf
  simp only []
  split
  next => exact Entry.passing_onlyRefuses (Value.isWritable_field hnode.1 (by decide)) _
  next => exact Attempt.onlyRefuses_ok _

theorem argument_onlyRefuses (h : AcceptsParts read bound node) (hd : d.Sound) (place : Place)
    (parameter : Passing) : OnlyRefuses (argument read place node parameter) d := by
  unfold argument
  refine onlyRefuses_lift_bind (passingOf_onlyRefuses h.isNameable _ _) ?_
  intro passing _
  refine (needed_onlyRefuses h hd place "value").bind ?_
  intro value _
  have hlocatable := isLocatable_of_isReadable h.readable
  refine onlyRefuses_lift_bind (Entry.location_onlyRefuses hlocatable _ _ _) ?_
  intro location _
  exact onlyRefuses_pure _

theorem listedArgument_onlyRefuses (hreads : Reads read) (haccepts : AcceptsBelow read bound)
    (hd : d.Sound) (place : Place) {item : Value} (hitem : isReadable item = true)
    (hdepth : item.depth < bound) (parameter : Passing) :
    OnlyRefuses (listedArgument read place item parameter) d := by
  unfold listedArgument
  split
  next hargument =>
    have hmapping := Value.isMapping_of_isArgument hargument
    exact argument_onlyRefuses ⟨hreads, haccepts, hitem, hmapping, hdepth.le⟩ hd place parameter
  next =>
    refine (haccepts hd item hitem hdepth).bind ?_
    intro value _
    exact onlyRefuses_pure _

theorem arguments_onlyRefuses (hreads : Reads read) (haccepts : AcceptsBelow read bound)
    (hd : d.Sound) (place : Place) (parameters : List Parameter) {items : List Value}
    (hitems : ∀ item ∈ items, isReadable item = true ∧ item.depth < bound) :
    OnlyRefuses (arguments read place parameters items) d := by
  induction items generalizing d parameters with
  | nil =>
      unfold arguments
      exact onlyRefuses_pure []
  | cons item rest ih =>
      obtain ⟨hreadable, hdepth⟩ := hitems item List.mem_cons_self
      unfold arguments
      refine onlyRefuses_bind
        (listedArgument_onlyRefuses hreads haccepts hd place hreadable hdepth _) ?_
      refine (listedArgument_ensures hreads hd place item _).imp ?_
      intro first d' hfirst
      refine (ih hfirst.1.sound _ fun other hother =>
        hitems other (List.mem_cons_of_mem item hother)).bind ?_
      intro others _
      exact onlyRefuses_pure _

/-- The arguments of an operation, which may be read after other parts of it. -/
theorem AcceptsParts.arguments (h : AcceptsParts read bound node) (hd : d.Sound) (place : Place)
    (parameters : List Parameter) {items : List Value} (hitems : argumentList node = .ok items) :
    OnlyRefuses (Body.arguments read place parameters items) d := by
  apply arguments_onlyRefuses h.reads h.accepts hd
  intro item hitem
  obtain ⟨hreadable, hlt⟩ := of_mem_argumentList h.readable h.isMapping hitems hitem
  exact ⟨hreadable, hlt.trans_le h.depth_le⟩

end Body
end SymbolAtlas
