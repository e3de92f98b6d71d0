import SymbolAtlas.Index.Body
import SymbolAtlas.Proofs.Respelling.Linking
import Mathlib.Tactic

/-!
# Bodies read twice

A body is read into trees that make the same calls if the names in it stand for symbols that
resemble each other.  What messages call the body shows the parameters of its method and may differ
between the two readings: it is told only when reading fails.
-/

namespace SymbolAtlas

namespace Entry

open Attempt

/-! ## Places in messages -/

theorem required_follows (data : Value) (key place place' : String) :
    Follows Eq (required data key place) (required data key place') := by
  unfold required
  split
  next => exact follows_refuse _ _
  next =>
    split
    next => exact follows_refuse _ _
    next => exact follows_ok rfl
  next => exact follows_ok rfl

theorem integer_follows (v : Value) (key place place' : String) :
    Follows Eq (integer v key place) (integer v key place') := by
  unfold integer
  split
  next => exact follows_ok rfl
  next =>
    apply follows_bind_same
    intro _
    exact follows_refuse _ _
  next => exact follows_error _ _

theorem location_follows (root : String) (data : Value) (around : Option String)
    (place place' : String) :
    Follows Eq (location root data around place) (location root data around place') := by
  unfold location
  apply follows_bind_same
  intro file
  split
  next => exact follows_pure rfl
  next =>
    simp only []
    split
    next => exact follows_pure rfl
    next =>
      apply (integer_follows _ _ _ _).bind
      rintro line _ rfl
      apply (integer_follows _ _ _ _).bind
      rintro column _ rfl
      exact follows_pure rfl

theorem passing_follows (v : Value) (place place' : String) :
    Follows Eq (passing v place) (passing v place') := by
  unfold passing
  apply follows_bind_same
  intro _
  split
  next => exact follows_ok rfl
  next => exact follows_refuse _ _

end Entry

namespace Body

open Building Operation

/-- The same place, whatever messages call it. -/
structure Place.Similar (place place' : Place) : Prop where
  root : place'.root = place.root
  file : place'.file = place.file

/-- A reader follows another one on every value. -/
def Reader.Follows (read other : Reader) : Prop :=
  ∀ node, Building.Follows SameCalls (read node) (other node)

variable {read other : Reader} {place place' : Place}

theorem Place.Similar.location_follows (h : place.Similar place') (node : Value) :
    Attempt.Follows Eq (Entry.location place.root node place.file place.text)
      (Entry.location place'.root node place'.file place'.text) := by
  rw [h.root, h.file]
  exact Entry.location_follows _ _ _ _ _

theorem optional_follows (hread : read.Follows other) (node : Value) (key : String) :
    Building.Follows (Option.Rel SameCalls) (optional read node key) (optional other node key) := by
  unfold optional
  simp only []
  split
  next => exact follows_pure .none
  next =>
    apply (hread _).bind
    intro op op' hop
    exact follows_pure (.some hop)

theorem needed_follows (hread : read.Follows other) (node : Value) (key : String) :
    Building.Follows SameCalls (needed read place node key) (needed other place' node key) := by
  unfold needed
  apply (follows_lift (Entry.required_follows _ _ _ _)).bind_same
  intro part
  exact hread part

/-! ## Arguments -/

theorem passingOf_follows (node : Value) (parameter : Passing) :
    Attempt.Follows Eq (passingOf place node parameter) (passingOf place' node parameter) := by
  unfold passingOf
  simp only []
  split
  next => exact Entry.passing_follows _ _ _
  next => exact Attempt.follows_ok rfl

theorem sameCalls_argument {value value' : Operation} (h : value.SameCalls value')
    (passing : Passing) (location : Option Location) :
    SameCalls (.argument value passing location) (.argument value' passing location) :=
  SameCalls.of_children (fun _ => rfl) (.cons h .nil)

theorem argument_follows (hread : read.Follows other) (hplace : place.Similar place')
    (node : Value) (parameter : Passing) :
    Building.Follows SameCalls (argument read place node parameter)
      (argument other place' node parameter) := by
  unfold argument
  apply (follows_lift (passingOf_follows _ _)).bind_same
  intro passing
  apply (needed_follows hread _ _).bind
  intro value value' hvalue
  apply (follows_lift (hplace.location_follows node)).bind_same
  intro location
  exact follows_pure (sameCalls_argument hvalue passing location)

theorem listedArgument_follows (hread : read.Follows other) (hplace : place.Similar place')
    (item : Value) (parameter : Passing) :
    Building.Follows SameCalls (listedArgument read place item parameter)
      (listedArgument other place' item parameter) := by
  unfold listedArgument
  split
  next => exact argument_follows hread hplace item parameter
  next =>
    apply (hread item).bind
    intro value value' hvalue
    exact follows_pure (sameCalls_argument hvalue parameter none)

theorem arguments_follow (hread : read.Follows other) (hplace : place.Similar place')
    {ps qs : List Parameter} (hparameters : List.Forall₂ Parameter.Resembles ps qs)
    (items : List Value) :
    Building.Follows (List.Forall₂ SameCalls) (arguments read place ps items)
      (arguments other place' qs items) := by
  induction items generalizing ps qs with
  | nil =>
      unfold arguments
      exact follows_pure .nil
  | cons item rest ih =>
      have hpassing : (qs.head?.map Parameter.passing).getD .byValue =
          (ps.head?.map Parameter.passing).getD .byValue := by
        cases hparameters with
        | nil => rfl
        | cons hfirst _ => exact hfirst.passing
      have htail : List.Forall₂ Parameter.Resembles ps.tail qs.tail := by
        cases hparameters with
        | nil => exact .nil
        | cons _ hrest => exact hrest
      unfold arguments
      rw [hpassing]
      apply (listedArgument_follows hread hplace item _).bind
      intro first first' hfirst
      apply (ih htail).bind
      intro others others' hothers
      exact follows_pure (.cons hfirst hothers)

/-! ## Operations -/

theorem forall₂_toList {op op' : Option Operation} (h : Option.Rel SameCalls op op') :
    List.Forall₂ SameCalls op.toList op'.toList := by
  cases h with
  | none => exact .nil
  | some hop => exact .cons hop .nil

theorem member_follows (node : Value) (key : String) (kind : SymbolKind) :
    Building.Follows Symbol.Resembles (member node place key kind)
      (member node place' key kind) := by
  unfold member
  apply (follows_lift (Entry.required_follows _ _ _ _)).bind_same
  intro reference
  refine FollowsOn.after ?_ _
  exact MemberName.resolve_follows _ _ _ _ _

theorem constructorReference_follows (node : Value) :
    Attempt.Follows Eq (constructorReference node place) (constructorReference node place') := by
  unfold constructorReference
  simp only []
  split
  next => exact Attempt.follows_same _
  next =>
    apply (Entry.required_follows _ _ _ _).bind
    rintro type _ rfl
    exact Attempt.follows_same _

theorem invocation_follows (hread : read.Follows other) (hplace : place.Similar place')
    (node : Value) (location : Option Location) :
    Building.Follows SameCalls (invocation read place node location)
      (invocation other place' node location) := by
  unfold invocation
  apply (follows_lift (Entry.required_follows _ _ _ _)).bind_same
  intro reference
  refine FollowsOn.after ?_ _
  apply (follows_lift_same _).bind_same
  intro count
  apply (MemberName.resolve_follows _ _ _ _ _).bind
  intro target target' htarget
  apply (optional_follows hread _ _).bind
  intro receiver receiver' hreceiver
  apply (follows_lift_same _).bind_same
  intro items
  apply (arguments_follow hread hplace htarget.parameters items).bind
  intro arguments arguments' harguments
  apply follows_pure
  apply SameCalls.of_children
  · intro method
    simp only [Tables.callsIn, htarget.id]
  · exact List.rel_append (forall₂_toList hreceiver) harguments

theorem creation_follows (hread : read.Follows other) (hplace : place.Similar place')
    (node : Value) (location : Option Location) :
    Building.Follows SameCalls (creation read place node location)
      (creation other place' node location) := by
  unfold creation
  apply (follows_lift_same _).bind_same
  intro count
  apply (follows_lift (constructorReference_follows _)).bind_same
  intro reference
  apply (MemberName.resolve_follows _ _ _ _ _).bind
  intro target target' htarget
  apply (follows_lift_same _).bind_same
  intro items
  apply (arguments_follow hread hplace htarget.parameters items).bind
  intro arguments arguments' harguments
  apply (optional_follows hread _ _).bind
  intro initializer initializer' hinitializer
  apply follows_pure
  apply SameCalls.of_children
  · intro method
    simp only [Tables.callsIn, htarget.id]
  · exact List.rel_append harguments (forall₂_toList hinitializer)

theorem propertyReference_follows (hread : read.Follows other) (hplace : place.Similar place')
    (node : Value) (location : Option Location) :
    Building.Follows SameCalls (propertyReference read place node location)
      (propertyReference other place' node location) := by
  unfold propertyReference
  apply (member_follows _ _ _).bind
  intro property property' _
  apply (optional_follows hread _ _).bind
  intro receiver receiver' hreceiver
  apply (follows_lift_same _).bind_same
  intro items
  apply (arguments_follow hread hplace .nil items).bind
  intro arguments arguments' harguments
  apply follows_pure
  apply SameCalls.of_children
  · intro method
    rfl
  · exact List.rel_append (forall₂_toList hreceiver) harguments

theorem step_follows (hread : read.Follows other) (node : Value) (location : Option Location)
    (isDecrement : Bool) :
    Building.Follows SameCalls (step read place node location isDecrement)
      (step other place' node location isDecrement) := by
  unfold step
  apply (needed_follows hread _ _).bind
  intro target target' htarget
  apply follows_pure
  exact SameCalls.of_children (fun _ => rfl) (.cons htarget .nil)

/-- What is read of a variable makes the calls of what it is read from. -/
theorem variable_follows (hread : read.Follows other) (node : Value) (key : String)
    {kind : SymbolKind} {make : Symbol → Option Operation → Operation}
    (hmake : ∀ s s' receiver receiver', Option.Rel SameCalls receiver receiver' →
      SameCalls (make s receiver) (make s' receiver')) :
    Building.Follows SameCalls
      (do
        let s ← member node place key kind
        let receiver ← optional read node "instance"
        pure (make s receiver))
      (do
        let s ← member node place' key kind
        let receiver ← optional other node "instance"
        pure (make s receiver)) := by
  apply (member_follows node key kind).bind
  intro s s' _
  apply (optional_follows hread node "instance").bind
  intro receiver receiver' hreceiver
  exact follows_pure (hmake s s' receiver receiver' hreceiver)

theorem targetAndValue_follows (hread : read.Follows other) (node : Value)
    {next next' : Operation → Operation → Building Operation}
    (hnext : ∀ target target' value value', List.Forall₂ SameCalls [target, value]
      [target', value'] →
        Building.Follows SameCalls (next target value) (next' target' value')) :
    Building.Follows SameCalls
      (do
        let target ← needed read place node "target"
        let value ← needed read place node "value"
        next target value)
      (do
        let target ← needed other place' node "target"
        let value ← needed other place' node "value"
        next' target value) := by
  apply (needed_follows hread node "target").bind
  intro target target' htarget
  apply (needed_follows hread node "value").bind
  intro value value' hvalue
  exact hnext target target' value value' (.cons htarget (.cons hvalue .nil))

theorem block_follows (hread : read.Follows other) (kind : String) (items : List Value)
    (location : Option Location) :
    Building.Follows SameCalls
      (do
        let children ← forAll read items
        pure (Operation.plain kind children location))
      (do
        let children ← forAll other items
        pure (Operation.plain kind children location)) := by
  apply (forAll_follows_same hread items).bind
  intro children children' hchildren
  exact follows_pure (SameCalls.of_children (fun _ => rfl) hchildren)

theorem operationOf_follows (hread : read.Follows other) (hplace : place.Similar place')
    (node : Value) (location : Option Location) (form : String) :
    Building.Follows SameCalls (operationOf read place node location form)
      (operationOf other place' node location form) := by
  unfold operationOf
  split
  next => exact invocation_follows hread hplace node location
  next => exact creation_follows hread hplace node location
  next => exact propertyReference_follows hread hplace node location
  next =>
    apply variable_follows hread node "field"
    intro field field' receiver receiver' hreceiver
    exact SameCalls.of_children (fun _ => rfl) (forall₂_toList hreceiver)
  next =>
    apply variable_follows hread node "event"
    intro event event' receiver receiver' hreceiver
    exact SameCalls.of_children (fun _ => rfl) (forall₂_toList hreceiver)
  next =>
    apply targetAndValue_follows hread node
    intro target target' value value' hparts
    exact follows_pure (SameCalls.of_children (fun _ => rfl) hparts)
  next =>
    apply targetAndValue_follows hread node
    intro target target' value value' hparts
    refine FollowsOn.after ?_ _
    exact follows_pure (SameCalls.of_children (fun _ => rfl) hparts)
  next => exact step_follows hread node location false
  next => exact step_follows hread node location true
  next => exact argument_follows hread hplace node .byValue
  next => exact block_follows hread _ _ location

theorem operation_follows (hread : read.Follows other) (hplace : place.Similar place')
    (node : Value) :
    Building.Follows SameCalls (operation read place node) (operation other place' node) := by
  unfold operation
  refine FollowsOn.after ?_ _
  apply (follows_lift (hplace.location_follows node)).bind_same
  intro location
  exact operationOf_follows hread hplace node location _

theorem readWith_follows (hplace : place.Similar place') (fuel : Nat) :
    Reader.Follows (readWith place fuel) (readWith place' fuel) := by
  induction fuel with
  | zero =>
      intro node
      exact follows_throw _ _
  | succ fuel ih =>
      intro node
      cases node with
      | list items =>
          rw [readWith, readWith]
          exact block_follows ih "block" items none
      | mapping entries =>
          rw [readWith, readWith]
          exact operation_follows ih hplace _
      | _ => exact follows_pure (SameCalls.of_children (fun _ => rfl) .nil)

/-- One body gives trees that make the same calls, however its method is shown. -/
theorem read_follows (hplace : place.Similar place') (node : Value) :
    Building.Follows SameCalls (Body.read place node) (Body.read place' node) :=
  readWith_follows hplace (node.depth + 1) node

end Body
end SymbolAtlas
