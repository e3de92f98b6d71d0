import SymbolAtlas.Index.Body
import SymbolAtlas.Proofs.Index.MemberName
import Mathlib.Tactic

/-!
# Bodies carry known symbols

While a body is read, members may be added for the names in it, but no symbol that an operation
carries already is ever replaced.  So a tree is settled once its own symbol is under its id and the
trees below it are settled, and reading a tree is an induction on how deep it may be nested.
-/

namespace SymbolAtlas

namespace Tables

variable {symbols : Table Symbol} {op : Operation}

theorem settled_carrying {s : Symbol} (hnames : ∀ x, op.Names x → x = s) (hs : Holds symbols s)
    (hchildren : ∀ child ∈ op.children, Settled symbols child) : Settled symbols op := by
  rw [settled_iff]
  refine ⟨?_, hchildren⟩
  intro x hx
  rw [hnames x hx]
  exact hs

theorem settled_bare (hnames : ∀ x, ¬op.Names x)
    (hchildren : ∀ child ∈ op.children, Settled symbols child) : Settled symbols op := by
  rw [settled_iff]
  refine ⟨?_, hchildren⟩
  intro x hx
  exact absurd hx (hnames x)

theorem settled_plain {kind : String} {children : List Operation} {location : Option Location}
    (hchildren : ∀ child ∈ children, Settled symbols child) :
    Settled symbols (.plain kind children location) :=
  settled_bare (by simp [Operation.Names, Operation.member?, Operation.callee?]) hchildren

theorem settled_argument {value : Operation} {passing : Passing} {location : Option Location}
    (hvalue : Settled symbols value) : Settled symbols (.argument value passing location) := by
  apply settled_bare
  · simp [Operation.Names, Operation.member?, Operation.callee?]
  · intro child hchild
    rw [List.mem_singleton.mp hchild]
    exact hvalue

theorem settled_pair {target value : Operation} (hchildren : op.children = [target, value])
    (hnames : ∀ x, ¬op.Names x) (htarget : Settled symbols target)
    (hvalue : Settled symbols value) : Settled symbols op := by
  apply settled_bare hnames
  intro child hchild
  rw [hchildren] at hchild
  rcases List.mem_cons.mp hchild with rfl | hchild
  · exact htarget
  · rw [List.mem_singleton.mp hchild]
    exact hvalue

/-- The trees of an optional part and of a list, in either order. -/
theorem settled_append {part : Option Operation} {list : List Operation}
    (hpart : ∀ child ∈ part, Settled symbols child)
    (hlist : ∀ child ∈ list, Settled symbols child) :
    ∀ child, child ∈ part.toList ++ list ∨ child ∈ list ++ part.toList →
      Settled symbols child := by
  intro child hchild
  simp only [List.mem_append, Option.mem_toList] at hchild
  rcases hchild with (hchild | hchild) | (hchild | hchild)
  · exact hpart child hchild
  · exact hlist child hchild
  · exact hlist child hchild
  · exact hpart child hchild

end Tables

namespace Body

open Building Draft Tables

/-- Whatever a reader reads from a sound draft is settled in the draft that it leaves. -/
def Reads (read : Reader) : Prop :=
  ∀ {d : Draft}, d.Sound → ∀ node, Ensures (read node) d fun op d' =>
    d.Becomes d' ∧ Settled d'.symbols op

variable {d : Draft} {read : Reader}

theorem optional_ensures (hread : Reads read) (hd : d.Sound) (node : Value) (key : String) :
    Ensures (optional read node key) d fun part d' =>
      d.Becomes d' ∧ ∀ op ∈ part, Settled d'.symbols op := by
  unfold optional
  rw [ensures_ite]
  constructor
  · intro _
    rw [ensures_pure]
    refine ⟨hd.becomes, ?_⟩
    intro op hop
    cases hop
  · intro _
    refine (hread hd _).bind ?_
    intro part d' hpart
    rw [ensures_pure]
    refine ⟨hpart.1, ?_⟩
    intro op hop
    cases hop
    exact hpart.2

theorem needed_ensures (hread : Reads read) (hd : d.Sound) (place : Place) (node : Value)
    (key : String) :
    Ensures (needed read place node key) d fun op d' =>
      d.Becomes d' ∧ Settled d'.symbols op := by
  unfold needed
  simp only [ensures_bind, ensures_lift]
  intro part _
  exact hread hd part

theorem argument_ensures (hread : Reads read) (hd : d.Sound) (place : Place) (node : Value)
    (parameter : Passing) :
    Ensures (argument read place node parameter) d fun op d' =>
      d.Becomes d' ∧ Settled d'.symbols op := by
  unfold argument
  simp only [ensures_bind, ensures_lift, ensures_pure]
  intro passing _
  refine (needed_ensures hread hd place node "value").imp ?_
  intro value d' hvalue location _
  exact ⟨hvalue.1, settled_argument hvalue.2⟩

theorem listedArgument_ensures (hread : Reads read) (hd : d.Sound) (place : Place) (item : Value)
    (parameter : Passing) :
    Ensures (listedArgument read place item parameter) d fun op d' =>
      d.Becomes d' ∧ Settled d'.symbols op := by
  unfold listedArgument
  rw [ensures_ite]
  constructor
  · intro _
    exact argument_ensures hread hd place item parameter
  · intro _
    refine (hread hd item).bind ?_
    intro value d' hvalue
    rw [ensures_pure]
    exact ⟨hvalue.1, settled_argument hvalue.2⟩

theorem arguments_ensures (hread : Reads read) (hd : d.Sound) (place : Place)
    (parameters : List Parameter) (items : List Value) :
    Ensures (arguments read place parameters items) d fun ops d' =>
      d.Becomes d' ∧ ∀ op ∈ ops, Settled d'.symbols op := by
  induction items generalizing d parameters with
  | nil =>
      unfold arguments
      rw [ensures_pure]
      refine ⟨hd.becomes, ?_⟩
      intro op hop
      cases hop
  | cons item rest ih =>
      unfold arguments
      refine (listedArgument_ensures hread hd place item _).bind ?_
      intro first d' hfirst
      refine (ih hfirst.1.sound parameters.tail).bind ?_
      intro others d'' hothers
      rw [ensures_pure]
      refine ⟨hfirst.1.trans hothers.1, ?_⟩
      intro op hop
      rcases List.mem_cons.mp hop with rfl | hop
      · exact hfirst.2.mono hothers.1.kept
      · exact hothers.2 op hop

theorem member_ensures (hd : d.Sound) (node : Value) (place : Place) (key : String)
    {kind : SymbolKind} (hkind : kind ≠ .namedType) :
    Ensures (member node place key kind) d fun s d' =>
      d.Becomes d' ∧ Holds d'.symbols s := by
  unfold member
  simp only [ensures_bind, ensures_lift]
  intro reference _ _ _
  have hsome := (Option.some_injective SymbolKind).ne hkind
  exact MemberName.resolve_ensures hd _ _ hsome none

/-- A receiver and arguments, read in this order for an operation that names one symbol. -/
theorem receiverAndArguments_ensures (hread : Reads read) (hd : d.Sound) (place : Place)
    (node : Value) (parameters : List Parameter) {s : Symbol} (hs : Holds d.symbols s)
    {make : Option Operation → List Operation → Operation}
    (hnames : ∀ receiver arguments x, (make receiver arguments).Names x → x = s)
    (hchildren : ∀ receiver arguments,
      (make receiver arguments).children = receiver.toList ++ arguments) :
    Ensures
      (do
        let receiver ← optional read node "instance"
        let items ← argumentList node
        let arguments ← arguments read place parameters items
        pure (make receiver arguments))
      d fun op d' => d.Becomes d' ∧ Settled d'.symbols op := by
  simp only [ensures_bind, ensures_lift, ensures_pure]
  refine (optional_ensures hread hd node "instance").imp ?_
  intro receiver d₁ hreceiver items _
  refine (arguments_ensures hread hreceiver.1.sound place parameters items).imp ?_
  intro arguments d₂ harguments
  have hsince := hreceiver.1.trans harguments.1
  refine ⟨hsince, settled_carrying (hnames receiver arguments) (hs.mono hsince.kept) ?_⟩
  rw [hchildren]
  intro child hchild
  refine settled_append (fun op hop => ?_) harguments.2 child (Or.inl hchild)
  exact (hreceiver.2 op hop).mono harguments.1.kept

theorem invocation_ensures (hread : Reads read) (hd : d.Sound) (place : Place) (node : Value)
    (location : Option Location) :
    Ensures (invocation read place node location) d fun op d' =>
      d.Becomes d' ∧ Settled d'.symbols op := by
  unfold invocation
  rw [ensures_bind, ensures_lift]
  intro reference _
  refine Ensures.after ?_ _
  rw [ensures_bind, ensures_lift]
  intro count _
  refine (MemberName.resolve_ensures hd _ _ (by decide) _).bind ?_
  intro target d₁ htarget
  refine (receiverAndArguments_ensures hread htarget.1.sound place node _ htarget.2 ?_
    (fun _ _ => rfl)).imp ?_
  · intro receiver arguments x hx
    simpa [Operation.Names, Operation.member?, Operation.callee?, eq_comm] using hx
  · intro op d₂ hop
    exact ⟨htarget.1.trans hop.1, hop.2⟩

theorem creation_ensures (hread : Reads read) (hd : d.Sound) (place : Place) (node : Value)
    (location : Option Location) :
    Ensures (creation read place node location) d fun op d' =>
      d.Becomes d' ∧ Settled d'.symbols op := by
  unfold creation
  simp only [ensures_bind, ensures_lift, ensures_pure]
  intro count _ reference _
  refine (MemberName.resolve_ensures hd _ _ (by decide) _).imp ?_
  intro target d₁ htarget items _
  refine (arguments_ensures hread htarget.1.sound place _ items).imp ?_
  intro arguments d₂ harguments
  refine (optional_ensures hread harguments.1.sound node "initializer").imp ?_
  intro initializer d₃ hinitializer
  have hsince := harguments.1.trans hinitializer.1
  refine ⟨htarget.1.trans hsince, settled_carrying ?_ (htarget.2.mono hsince.kept) ?_⟩
  · intro x hx
    simpa [Operation.Names, Operation.member?, Operation.callee?, eq_comm] using hx
  · intro child hchild
    refine settled_append hinitializer.2 (fun op hop => ?_) child (Or.inr hchild)
    exact (harguments.2 op hop).mono hinitializer.1.kept

theorem step_ensures (hread : Reads read) (hd : d.Sound) (place : Place) (node : Value)
    (location : Option Location) (isDecrement : Bool) :
    Ensures (step read place node location isDecrement) d fun op d' =>
      d.Becomes d' ∧ Settled d'.symbols op := by
  unfold step
  simp only [ensures_bind, ensures_pure]
  refine (needed_ensures hread hd place node "target").imp ?_
  intro target d' htarget
  refine ⟨htarget.1, settled_bare ?_ ?_⟩
  · simp [Operation.Names, Operation.member?, Operation.callee?]
  · intro child hchild
    rw [List.mem_singleton.mp hchild]
    exact htarget.2

/-- A property, field or event with its receiver. -/
theorem variable_ensures (hread : Reads read) (hd : d.Sound) (place : Place) (node : Value)
    (key : String) {kind : SymbolKind} (hkind : kind ≠ .namedType)
    {make : Symbol → Option Operation → Operation}
    (hnames : ∀ s receiver x, (make s receiver).Names x → x = s)
    (hchildren : ∀ s receiver, (make s receiver).children = receiver.toList) :
    Ensures
      (do
        let s ← member node place key kind
        let receiver ← optional read node "instance"
        pure (make s receiver))
      d fun op d' => d.Becomes d' ∧ Settled d'.symbols op := by
  refine (member_ensures hd node place key hkind).bind ?_
  intro s d' hs
  refine (optional_ensures hread hs.1.sound node "instance").bind ?_
  intro receiver d'' hreceiver
  rw [ensures_pure]
  refine ⟨hs.1.trans hreceiver.1, settled_carrying (hnames s receiver)
    (hs.2.mono hreceiver.1.kept) ?_⟩
  intro child hchild
  rw [hchildren, Option.mem_toList] at hchild
  exact hreceiver.2 child hchild

theorem propertyReference_ensures (hread : Reads read) (hd : d.Sound) (place : Place)
    (node : Value) (location : Option Location) :
    Ensures (propertyReference read place node location) d fun op d' =>
      d.Becomes d' ∧ Settled d'.symbols op := by
  unfold propertyReference
  refine (member_ensures hd node place "property" (by decide)).bind ?_
  intro property d₁ hproperty
  refine (receiverAndArguments_ensures hread hproperty.1.sound place node [] hproperty.2 ?_
    (fun _ _ => rfl)).imp ?_
  · intro receiver arguments x hx
    simpa [Operation.Names, Operation.member?, Operation.callee?, eq_comm] using hx
  · intro op d₂ hop
    exact ⟨hproperty.1.trans hop.1, hop.2⟩

/-- A target and a value, read in this order. -/
theorem targetAndValue_ensures (hread : Reads read) (hd : d.Sound) (place : Place) (node : Value)
    {next : Operation → Operation → Building Operation}
    {make : Operation → Operation → Operation}
    (hnext : ∀ target value, Returns (next target value) (make target value))
    (hnames : ∀ target value x, ¬(make target value).Names x)
    (hchildren : ∀ target value, (make target value).children = [target, value]) :
    Ensures
      (do
        let target ← needed read place node "target"
        let value ← needed read place node "value"
        next target value)
      d fun op d' => d.Becomes d' ∧ Settled d'.symbols op := by
  refine (needed_ensures hread hd place node "target").bind ?_
  intro target d' htarget
  refine (needed_ensures hread htarget.1.sound place node "value").bind ?_
  intro value d'' hvalue
  refine (hnext target value d'').imp ?_
  rintro _ _ ⟨rfl, rfl⟩
  exact ⟨htarget.1.trans hvalue.1, settled_pair (hchildren target value) (hnames target value)
    (htarget.2.mono hvalue.1.kept) hvalue.2⟩

theorem block_ensures (hread : Reads read) (hd : d.Sound) (kind : String) (items : List Value)
    (location : Option Location) :
    Ensures
      (do
        let children ← forAll read items
        pure (Operation.plain kind children location))
      d fun op d' => d.Becomes d' ∧ Settled d'.symbols op := by
  refine (forAll_ensures (p := Settled) hd (fun hkept h => h.mono hkept) ?_).bind ?_
  · intro item _ d' hbefore
    exact hread hbefore.sound item
  · intro children d' hchildren
    rw [ensures_pure]
    exact ⟨hchildren.1, settled_plain hchildren.2⟩

/-- One operation is settled if its parts are, whatever its form. -/
theorem operationOf_ensures (hread : Reads read) (hd : d.Sound) (place : Place) (node : Value)
    (location : Option Location) (form : String) :
    Ensures (operationOf read place node location form) d fun op d' =>
      d.Becomes d' ∧ Settled d'.symbols op := by
  unfold operationOf
  split
  next => exact invocation_ensures hread hd place node location
  next => exact creation_ensures hread hd place node location
  next => exact propertyReference_ensures hread hd place node location
  next =>
    refine variable_ensures hread hd place node "field" (by decide) ?_ (fun _ _ => rfl)
    intro s receiver x hx
    simpa [Operation.Names, Operation.member?, Operation.callee?, eq_comm] using hx
  next =>
    refine variable_ensures hread hd place node "event" (by decide) ?_ (fun _ _ => rfl)
    intro s receiver x hx
    simpa [Operation.Names, Operation.member?, Operation.callee?, eq_comm] using hx
  next =>
    refine targetAndValue_ensures hread hd place node (fun _ _ => returns_pure _) ?_
      (fun _ _ => rfl)
    simp [Operation.Names, Operation.member?, Operation.callee?]
  next =>
    refine targetAndValue_ensures hread hd place node (fun _ _ => (returns_pure _).after _) ?_
      (fun _ _ => rfl)
    simp [Operation.Names, Operation.member?, Operation.callee?]
  next => exact step_ensures hread hd place node location false
  next => exact step_ensures hread hd place node location true
  next => exact argument_ensures hread hd place node .byValue
  next => exact block_ensures hread hd _ _ location

theorem operation_ensures (hread : Reads read) (hd : d.Sound) (place : Place) (node : Value) :
    Ensures (operation read place node) d fun op d' =>
      d.Becomes d' ∧ Settled d'.symbols op := by
  unfold operation
  refine Ensures.after ?_ _
  simp only [ensures_bind, ensures_lift]
  intro location _
  exact operationOf_ensures hread hd place node location _

theorem literal_ensures (hd : d.Sound) :
    Ensures (pure (Operation.plain "literal" [] none)) d fun op d' =>
      d.Becomes d' ∧ Settled d'.symbols op := by
  rw [ensures_pure]
  refine ⟨hd.becomes, settled_plain ?_⟩
  intro child hchild
  cases hchild

theorem reads_readWith (place : Place) (fuel : Nat) : Reads (readWith place fuel) := by
  induction fuel with
  | zero =>
      intro d _ node
      rw [readWith]
      exact ensures_throw.mpr trivial
  | succ fuel ih =>
      intro d hd node
      cases node with
      | list items =>
          rw [readWith]
          exact block_ensures ih hd "block" items none
      | mapping entries =>
          rw [readWith]
          exact operation_ensures ih hd place (.mapping entries)
      | _ =>
          rw [readWith]
          · exact literal_ensures hd
          · simp
          · simp

theorem read_ensures (hd : d.Sound) (place : Place) (node : Value) :
    Ensures (Body.read place node) d fun op d' => d.Becomes d' ∧ Settled d'.symbols op :=
  reads_readWith place (node.depth + 1) hd node

end Body
end SymbolAtlas
