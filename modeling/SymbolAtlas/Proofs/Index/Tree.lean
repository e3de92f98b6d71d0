import SymbolAtlas.Proofs.Index.Chain
import SymbolAtlas.Proofs.Operation.Walk
import Mathlib.Tactic

/-!
# Trees and their entries

The tree of a body has the shape of its document: every operation is read from an entry of its own,
and the parts of that entry are the entries of its children.  An operation lies where its own entry
says, in the file of that entry or else in the file around the body, whatever file an operation
around it gives.
-/

namespace SymbolAtlas
namespace Building

variable {α β : Type} {Q : α → Prop} {R : β → Prop}

/-- Whatever draft the step starts from, its result satisfies a condition. -/
def Gives (step : Building α) (Q : α → Prop) : Prop :=
  ∀ d : Draft, Ensures step d fun a _ => Q a

theorem gives_pure {a : α} (h : Q a) : Gives (pure a) Q :=
  fun _ => ensures_pure.mpr h

theorem gives_throw (fault : Fault) : Gives (throw fault) Q :=
  fun _ => ensures_throw.mpr trivial

theorem gives_lift (x : Attempt α) : Gives (liftM x) fun a => x = .ok a :=
  fun _ => ensures_lift.mpr fun _ ha => ha

theorem Gives.bind {step : Building α} {next : α → Building β} (hstep : Gives step Q)
    (hnext : ∀ a, Q a → Gives (next a) R) : Gives (step >>= next) R := by
  intro d
  refine (hstep d).bind ?_
  intro a d' ha
  exact hnext a ha d'

/-- A step whose result does not matter. -/
theorem gives_bind {step : Building α} {next : α → Building β} (hnext : ∀ a, Gives (next a) R) :
    Gives (step >>= next) R := by
  have hany : Gives step fun _ => True := fun _ _ _ _ => trivial
  exact hany.bind fun a _ => hnext a

theorem gives_forAll {S : α → β → Prop} {step : α → Building β}
    (hstep : ∀ a, Gives (step a) (S a)) (items : List α) :
    Gives (forAll step items) (List.Forall₂ S items) := by
  induction items with
  | nil => exact gives_pure .nil
  | cons a rest ih =>
      refine (hstep a).bind fun b hb => ih.bind fun bs hbs => ?_
      exact gives_pure (.cons hb hbs)

end Building

/-- The operation at a path, which leads from the root to a child by its position each time. -/
def Operation.at? (op : Operation) : List Nat → Option Operation
  | [] => some op
  | i :: path => op.children[i]?.bind fun child => child.at? path

namespace Body

/-! ## Entries of operations -/

/-- The entry of an argument.  A value that stands in an argument list by itself is the value of an
argument that says nothing else. -/
def argumentEntry (item : Value) : Value :=
  let entries :=
    match item with
    | .mapping entries => if isArgument item then entries else [(.text "value", item)]
    | _ => [(.text "value", item)]
  .mapping ((.text "op", .text "argument") :: entries)

def argumentEntries (node : Value) : List Value :=
  ((argumentList node).toOption.getD []).map argumentEntry

def optionalPart (node : Value) (key : String) : List Value :=
  let part := node.field key
  if part.isNull then [] else [part]

/-- The entries that the children of an operation of a form are read from. -/
def partsOfForm (node : Value) : String → List Value
  | "invocation" => optionalPart node "instance" ++ argumentEntries node
  | "object_creation" => argumentEntries node ++ optionalPart node "initializer"
  | "property_reference" => optionalPart node "instance" ++ argumentEntries node
  | "field_reference" => optionalPart node "instance"
  | "event_reference" => optionalPart node "instance"
  | "assignment" => [node.field "target", node.field "value"]
  | "compound_assignment" => [node.field "target", node.field "value"]
  | "increment" => [node.field "target"]
  | "decrement" => [node.field "target"]
  | "argument" => [node.field "value"]
  | _ => childList node

/-- The entries that the children of an entry's operation are read from. -/
def partsOf : Value → List Value
  | .list items => items
  | .mapping entries =>
      let node := .mapping entries
      partsOfForm node (formOf node)
  | _ => []

/-- The entry of an operation at a path. -/
def entryAt? (node : Value) : List Nat → Option Value
  | [] => some node
  | i :: path => (partsOf node)[i]?.bind fun part => entryAt? part path

/-- Only a mapping gives a location. -/
def ownLocation (place : Place) (node : Value) : Attempt (Option Location) :=
  if node.isMapping then Entry.location place.root node place.file place.text else .ok none

/-- An operation lies where its entry says, and so do all operations below it. -/
inductive Lies (place : Place) : Value → Operation → Prop where
  | intro {node : Value} {op : Operation} (hlocation : ownLocation place node = .ok op.location)
      (hparts : List.Forall₂ (Lies place) (partsOf node) op.children) : Lies place node op

/-- The same with the parts of the entry given. -/
structure LiesWith (place : Place) (node : Value) (parts : List Value) (op : Operation) : Prop where
  location : Entry.location place.root node place.file place.text = .ok op.location
  parts : List.Forall₂ (Lies place) parts op.children

variable {place : Place} {node : Value} {op : Operation} {location : Option Location}

/-! ## What lies where -/

theorem Lies.ownLocation_eq (h : Lies place node op) :
    ownLocation place node = .ok op.location := by
  cases h with
  | intro hlocation _ => exact hlocation

theorem rel_getElem? {α β : Type} {R : α → β → Prop} {as : List α} {bs : List β}
    (h : List.Forall₂ R as bs) (i : Nat) : Option.Rel R as[i]? bs[i]? := by
  induction h generalizing i with
  | nil => exact .none
  | cons hfirst _ ih =>
      cases i with
      | zero => exact .some hfirst
      | succ i => exact ih i

/-- A tree and its document have the same paths, and each operation lies where the entry at its path
says. -/
theorem Lies.at? (h : Lies place node op) (path : List Nat) :
    Option.Rel (Lies place) (entryAt? node path) (op.at? path) := by
  induction path generalizing node op with
  | nil => exact .some h
  | cons i path ih =>
      obtain ⟨-, hparts⟩ := h
      have hchild := rel_getElem? hparts i
      unfold entryAt? Operation.at?
      generalize (partsOf node)[i]? = part at hchild
      generalize op.children[i]? = child at hchild
      cases hchild with
      | none => exact .none
      | some hlies => exact ih hlies

theorem Lies.of_mapping {entries : List (Value × Value)} {form : String}
    (hform : formName (Text.lower ((Value.mapping entries).fieldOr "op" (.text "block")).plain) =
      form)
    (h : LiesWith place (.mapping entries) (partsOfForm (.mapping entries) form) op) :
    Lies place (.mapping entries) op := by
  refine .intro h.location ?_
  have hparts := h.parts
  rw [← hform] at hparts
  exact hparts

/-! ## Reading -/

section Reading

open Building

variable {read : Reader} (hread : ∀ node, Gives (read node) (Lies place node))

include hread

theorem optional_gives (node : Value) (key : String) :
    Gives (optional read node key) fun part =>
      List.Forall₂ (Lies place) (optionalPart node key) part.toList := by
  unfold optional optionalPart
  simp only []
  split
  next => exact gives_pure .nil
  next => exact (hread _).bind fun op hop => gives_pure (.cons hop .nil)

theorem needed_gives (node : Value) (key : String) :
    Gives (needed read place node key) (Lies place (node.field key)) := by
  refine (gives_lift _).bind fun part hpart => ?_
  rw [← Entry.eq_field_of_required hpart]
  exact hread part

theorem argument_gives (node : Value) (parameter : Passing) :
    Gives (argument read place node parameter) (LiesWith place node [node.field "value"]) := by
  unfold argument
  refine gives_bind fun passing => ?_
  refine (needed_gives hread node "value").bind fun value hvalue => ?_
  refine (gives_lift _).bind fun location hlocation => gives_pure ?_
  exact ⟨hlocation, .cons hvalue .nil⟩

theorem listedArgument_gives (item : Value) (parameter : Passing) :
    Gives (listedArgument read place item parameter) (Lies place (argumentEntry item)) := by
  have hform : formName (Text.lower "argument") = "argument" := by decide +kernel
  unfold listedArgument
  split
  next hargument =>
    cases item with
    | mapping entries =>
        refine fun d => (argument_gives hread (.mapping entries) parameter d).imp ?_
        intro op _ hop
        unfold argumentEntry
        simp only [hargument, if_true]
        exact .of_mapping hform ⟨hop.location, hop.parts⟩
    | _ => cases hargument
  next hvalue =>
    refine (hread item).bind fun value hlies => gives_pure ?_
    have hentry : argumentEntry item =
        .mapping [(.text "op", .text "argument"), (.text "value", item)] := by
      unfold argumentEntry
      cases item <;> simp [hvalue]
    rw [hentry]
    refine .of_mapping hform ⟨?_, .cons hlies .nil⟩
    cases place.file <;> rfl

theorem arguments_gives (parameters : List Parameter) (items : List Value) :
    Gives (arguments read place parameters items)
      (List.Forall₂ (Lies place) (items.map argumentEntry)) := by
  induction items generalizing parameters with
  | nil => exact gives_pure .nil
  | cons item rest ih =>
      refine (listedArgument_gives hread item _).bind fun first hfirst => ?_
      refine (ih parameters.tail).bind fun others hothers => gives_pure ?_
      exact .cons hfirst hothers

omit hread in
theorem argumentEntries_eq {items : List Value} (hitems : argumentList node = .ok items) :
    argumentEntries node = items.map argumentEntry := by
  unfold argumentEntries
  rw [hitems]
  rfl

variable (hlocation : Entry.location place.root node place.file place.text = .ok location)

include hlocation

/-- A receiver and arguments, read in this order. -/
theorem receiverAndArguments_gives (parameters : List Parameter)
    {make : Option Operation → List Operation → Operation} (hmake : ∀ receiver arguments,
      (make receiver arguments).location = location ∧
        (make receiver arguments).children = receiver.toList ++ arguments) :
    Gives (do
      let receiver ← optional read node "instance"
      let items ← argumentList node
      let arguments ← arguments read place parameters items
      pure (make receiver arguments))
      (LiesWith place node (optionalPart node "instance" ++ argumentEntries node)) := by
  refine (optional_gives hread node "instance").bind fun receiver hreceiver => ?_
  refine (gives_lift _).bind fun items hitems => ?_
  refine (arguments_gives hread _ items).bind fun arguments harguments => gives_pure ?_
  obtain ⟨hmade, hchildren⟩ := hmake receiver arguments
  rw [argumentEntries_eq hitems]
  exact ⟨hmade ▸ hlocation, hchildren ▸ List.rel_append hreceiver harguments⟩

theorem invocation_gives : Gives (invocation read place node location)
    (LiesWith place node (optionalPart node "instance" ++ argumentEntries node)) := by
  unfold invocation
  refine gives_bind fun reference => gives_bind fun _ => gives_bind fun count => ?_
  refine gives_bind fun target => ?_
  exact receiverAndArguments_gives hread hlocation _ fun _ _ => ⟨rfl, rfl⟩

theorem creation_gives : Gives (creation read place node location)
    (LiesWith place node (argumentEntries node ++ optionalPart node "initializer")) := by
  unfold creation
  refine gives_bind fun count => gives_bind fun reference => gives_bind fun target => ?_
  refine (gives_lift _).bind fun items hitems => ?_
  refine (arguments_gives hread _ items).bind fun arguments harguments => ?_
  refine (optional_gives hread node "initializer").bind fun initializer hinitializer => ?_
  rw [argumentEntries_eq hitems]
  exact gives_pure ⟨hlocation, List.rel_append harguments hinitializer⟩

theorem propertyReference_gives : Gives (propertyReference read place node location)
    (LiesWith place node (optionalPart node "instance" ++ argumentEntries node)) := by
  unfold propertyReference
  refine gives_bind fun property => ?_
  exact receiverAndArguments_gives hread hlocation _ fun _ _ => ⟨rfl, rfl⟩

/-- A field or event with its receiver. -/
theorem variable_gives (key : String) (kind : SymbolKind)
    {make : Symbol → Option Operation → Operation} (hmake : ∀ s receiver,
      (make s receiver).location = location ∧ (make s receiver).children = receiver.toList) :
    Gives (do
      let s ← member node place key kind
      let receiver ← optional read node "instance"
      pure (make s receiver)) (LiesWith place node (optionalPart node "instance")) := by
  refine gives_bind fun s => ?_
  refine (optional_gives hread node "instance").bind fun receiver hreceiver => gives_pure ?_
  obtain ⟨hmade, hchildren⟩ := hmake s receiver
  exact ⟨hmade ▸ hlocation, hchildren ▸ hreceiver⟩

/-- A target and a value, read in this order. -/
theorem targetAndValue_gives {next : Operation → Operation → Building Operation}
    {make : Operation → Operation → Operation}
    (hnext : ∀ target value, Returns (next target value) (make target value))
    (hmake : ∀ target value,
      (make target value).location = location ∧ (make target value).children = [target, value]) :
    Gives (do
      let target ← needed read place node "target"
      let value ← needed read place node "value"
      next target value)
      (LiesWith place node [node.field "target", node.field "value"]) := by
  refine (needed_gives hread node "target").bind fun target htarget => ?_
  refine (needed_gives hread node "value").bind fun value hvalue d => ?_
  refine (hnext target value d).imp ?_
  rintro _ _ ⟨rfl, -⟩
  obtain ⟨hmade, hchildren⟩ := hmake target value
  exact ⟨hmade ▸ hlocation, hchildren ▸ .cons htarget (.cons hvalue .nil)⟩

theorem step_gives (isDecrement : Bool) : Gives (step read place node location isDecrement)
    (LiesWith place node [node.field "target"]) := by
  unfold step
  refine (needed_gives hread node "target").bind fun target htarget => gives_pure ?_
  exact ⟨hlocation, .cons htarget .nil⟩

theorem operationOf_gives (form : String) : Gives (operationOf read place node location form)
    (LiesWith place node (partsOfForm node form)) := by
  unfold operationOf
  split
  next => exact invocation_gives hread hlocation
  next => exact creation_gives hread hlocation
  next => exact propertyReference_gives hread hlocation
  next => exact variable_gives hread hlocation "field" .field fun _ _ => ⟨rfl, rfl⟩
  next => exact variable_gives hread hlocation "event" .event fun _ _ => ⟨rfl, rfl⟩
  next =>
    exact targetAndValue_gives hread hlocation (fun _ _ => returns_pure _) fun _ _ => ⟨rfl, rfl⟩
  next =>
    exact targetAndValue_gives hread hlocation (fun _ _ => (returns_pure _).after _)
      fun _ _ => ⟨rfl, rfl⟩
  next => exact step_gives hread hlocation false
  next => exact step_gives hread hlocation true
  next => exact argument_gives hread node .byValue
  next =>
    rw [partsOfForm] <;> try assumption
    refine (gives_forAll hread (childList node)).bind fun children hchildren => gives_pure ?_
    exact ⟨hlocation, hchildren⟩

end Reading

theorem readWith_gives (place : Place) (fuel : Nat) (node : Value) :
    Building.Gives (readWith place fuel node) (Lies place node) := by
  induction fuel generalizing node with
  | zero => exact Building.gives_throw _
  | succ fuel ih =>
      cases node with
      | list items =>
          refine (Building.gives_forAll ih items).bind fun children hchildren =>
            Building.gives_pure ?_
          exact .intro rfl hchildren
      | mapping entries =>
          refine Building.gives_bind fun _ => ?_
          refine (Building.gives_lift _).bind fun location hlocation => ?_
          refine fun d => (operationOf_gives ih hlocation _ d).imp fun op _ hop => ?_
          exact .of_mapping rfl hop
      | _ => exact Building.gives_pure (.intro rfl .nil)

/-- The tree of a body lies where its entries say. -/
theorem read_gives (place : Place) (node : Value) :
    Building.Gives (Body.read place node) (Lies place node) :=
  readWith_gives place (node.depth + 1) node

end Body
end SymbolAtlas
