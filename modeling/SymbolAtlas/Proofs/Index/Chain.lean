import SymbolAtlas.Index.Build
import SymbolAtlas.Proofs.Index.Building
import SymbolAtlas.Proofs.Index.Declaration
import SymbolAtlas.Proofs.Value.Text
import Mathlib.Tactic

/-!
# Conditions on steps that chains satisfy

Reading puts large steps together from small ones.  A condition on steps that a chain satisfies
whenever its links do is therefore shown for a body by looking at one kind of step alone, at the
resolution of a name, and for what belongs to a type by looking at the few changes that a member
makes.
-/

namespace SymbolAtlas
namespace Building

/-- Steps that leave the draft alone satisfy the condition, and so do chains of steps that do. -/
structure Chains (P : ∀ {α : Type}, Building α → Prop) : Prop where
  pure : ∀ {α : Type} (a : α), P (pure a : Building α)
  lift : ∀ {α : Type} (x : Attempt α), P (liftM x : Building α)
  bind : ∀ {α β : Type} {step : Building α} {next : α → Building β},
    P step → (∀ a, P (next a)) → P (step >>= next)

namespace Chains

variable {P : ∀ {α : Type}, Building α → Prop} {α β : Type}

theorem throw (h : Chains P) (fault : Fault) : P (throw fault : Building α) :=
  h.lift (.error fault)

theorem refuse (h : Chains P) (cause : InvalidInput) : P (refuse cause : Building α) :=
  h.throw _

theorem refuseIf (h : Chains P) (holds : Bool) (cause : InvalidInput) :
    P (refuseIf holds cause) := by
  unfold Building.refuseIf
  cases holds with
  | true => exact h.refuse cause
  | false => exact h.pure ()

/-- What follows on a result may rely on where the result comes from. -/
theorem lift_bind (h : Chains P) {x : Attempt α} {next : α → Building β}
    (hnext : ∀ a, x = .ok a → P (next a)) : P (liftM x >>= next) := by
  cases x with
  | error fault => exact h.throw fault
  | ok a => exact hnext a rfl

/-- A check before a step. -/
theorem after (h : Chains P) (x : Attempt α) {step : Building β} (hstep : P step) :
    P (liftM x >>= fun _ => step) :=
  h.bind (h.lift x) fun _ => hstep

theorem forAll (h : Chains P) {step : α → Building β} (hstep : ∀ a, P (step a)) (items : List α) :
    P (forAll step items) := by
  induction items with
  | nil => exact h.pure []
  | cons a rest ih => exact h.bind (hstep a) fun b => h.bind ih fun bs => h.pure (b :: bs)

theorem forEach_of_mem (h : Chains P) {step : α → Building Unit} {items : List α}
    (hstep : ∀ a ∈ items, P (step a)) : P (forEach step items) := by
  induction items with
  | nil => exact h.pure ()
  | cons a rest ih =>
      refine h.bind (hstep a List.mem_cons_self) fun _ => ih ?_
      exact fun b hb => hstep b (List.mem_cons_of_mem a hb)

theorem forEach (h : Chains P) {step : α → Building Unit} (hstep : ∀ a, P (step a))
    (items : List α) : P (forEach step items) :=
  h.forEach_of_mem fun a _ => hstep a

end Chains

/-- Chains change a draft as their links do, if a relation between drafts that holds of two changes
holds of both together. -/
theorem chains_of_trans {R : Draft → Draft → Prop} (hrefl : ∀ d, R d d)
    (htrans : ∀ {d d' d''}, R d d' → R d' d'' → R d d'') :
    Chains fun step => ∀ d : Draft, Ensures step d fun _ d' => R d d' where
  pure _ d := ensures_pure.mpr (hrefl d)
  lift x d := by
    rw [ensures_lift]
    intro _ _
    exact hrefl d
  bind hstep hnext d := by
    refine (hstep d).bind ?_
    intro a d' hfirst
    refine (hnext a d').imp ?_
    intro _ _ hlast
    exact htrans hfirst hlast

end Building

/-! ## Bodies -/

namespace Body

open Building

section

variable {P : ∀ {α : Type}, Building α → Prop} (h : Chains P)
  (hresolve : ∀ reference place kind arguments, kind ≠ some SymbolKind.namedType →
    P (MemberName.resolve reference place kind arguments))
  {read : Reader} (hread : ∀ node, P (read node))

include h

include hread in
theorem optional_of_chains (node : Value) (key : String) : P (optional read node key) := by
  unfold optional
  simp only []
  split
  next => exact h.pure none
  next => exact h.bind (hread _) fun op => h.pure (some op)

include hread in
theorem needed_of_chains (place : Place) (node : Value) (key : String) :
    P (needed read place node key) := by
  unfold needed
  exact h.bind (h.lift _) hread

include hread in
theorem argument_of_chains (place : Place) (node : Value) (parameter : Passing) :
    P (argument read place node parameter) := by
  unfold argument
  refine h.bind (h.lift _) fun passing => ?_
  refine h.bind (needed_of_chains h hread place node "value") fun value => ?_
  exact h.bind (h.lift _) fun location => h.pure _

include hread in
theorem listedArgument_of_chains (place : Place) (item : Value) (parameter : Passing) :
    P (listedArgument read place item parameter) := by
  unfold listedArgument
  split
  next => exact argument_of_chains h hread place item parameter
  next => exact h.bind (hread item) fun value => h.pure _

include hread in
theorem arguments_of_chains (place : Place) (parameters : List Parameter) (items : List Value) :
    P (arguments read place parameters items) := by
  induction items generalizing parameters with
  | nil => exact h.pure []
  | cons item rest ih =>
      refine h.bind (listedArgument_of_chains h hread place item _) fun first => ?_
      exact h.bind (ih parameters.tail) fun others => h.pure _

include hresolve in
theorem member_of_chains (node : Value) (place : Place) (key : String) {kind : SymbolKind}
    (hkind : kind ≠ .namedType) : P (member node place key kind) := by
  unfold member
  refine h.bind (h.lift _) fun reference => h.after _ (hresolve _ _ _ _ ?_)
  exact fun heq => hkind (Option.some.inj heq)

include hresolve hread in
theorem invocation_of_chains (place : Place) (node : Value) (location : Option Location) :
    P (invocation read place node location) := by
  unfold invocation
  refine h.bind (h.lift _) fun reference => h.after _ ?_
  refine h.bind (h.lift _) fun count => ?_
  refine h.bind (hresolve _ _ _ _ (by decide)) fun target => ?_
  refine h.bind (optional_of_chains h hread node "instance") fun receiver => ?_
  refine h.bind (h.lift _) fun items => ?_
  exact h.bind (arguments_of_chains h hread place _ items) fun arguments => h.pure _

include hresolve hread in
theorem creation_of_chains (place : Place) (node : Value) (location : Option Location) :
    P (creation read place node location) := by
  unfold creation
  refine h.bind (h.lift _) fun count => ?_
  refine h.bind (h.lift _) fun reference => ?_
  refine h.bind (hresolve _ _ _ _ (by decide)) fun target => ?_
  refine h.bind (h.lift _) fun items => ?_
  refine h.bind (arguments_of_chains h hread place _ items) fun arguments => ?_
  exact h.bind (optional_of_chains h hread node "initializer") fun initializer => h.pure _

include hresolve hread in
theorem propertyReference_of_chains (place : Place) (node : Value) (location : Option Location) :
    P (propertyReference read place node location) := by
  unfold propertyReference
  refine h.bind (member_of_chains h hresolve node place "property" (by decide)) fun property => ?_
  refine h.bind (optional_of_chains h hread node "instance") fun receiver => ?_
  refine h.bind (h.lift _) fun items => ?_
  exact h.bind (arguments_of_chains h hread place [] items) fun arguments => h.pure _

include hresolve hread in
theorem variable_of_chains (place : Place) (node : Value) (key : String) {kind : SymbolKind}
    (hkind : kind ≠ .namedType) (make : Symbol → Option Operation → Operation) :
    P (do
      let s ← member node place key kind
      let receiver ← optional read node "instance"
      pure (make s receiver)) := by
  refine h.bind (member_of_chains h hresolve node place key hkind) fun s => ?_
  exact h.bind (optional_of_chains h hread node "instance") fun receiver => h.pure _

include hread in
theorem targetAndValue_of_chains (place : Place) (node : Value)
    {next : Operation → Operation → Building Operation}
    (hnext : ∀ target value, P (next target value)) :
    P (do
      let target ← needed read place node "target"
      let value ← needed read place node "value"
      next target value) := by
  refine h.bind (needed_of_chains h hread place node "target") fun target => ?_
  exact h.bind (needed_of_chains h hread place node "value") fun value => hnext target value

include hread in
theorem step_of_chains (place : Place) (node : Value) (location : Option Location)
    (isDecrement : Bool) : P (step read place node location isDecrement) := by
  unfold step
  exact h.bind (needed_of_chains h hread place node "target") fun target => h.pure _

include hread in
theorem block_of_chains (kind : String) (items : List Value) (location : Option Location) :
    P (do
      let children ← forAll read items
      pure (Operation.plain kind children location)) :=
  h.bind (h.forAll hread items) fun _ => h.pure _

include hresolve hread in
theorem operationOf_of_chains (place : Place) (node : Value) (location : Option Location)
    (form : String) : P (operationOf read place node location form) := by
  unfold operationOf
  split
  next => exact invocation_of_chains h hresolve hread place node location
  next => exact creation_of_chains h hresolve hread place node location
  next => exact propertyReference_of_chains h hresolve hread place node location
  next => exact variable_of_chains h hresolve hread place node "field" (by decide) _
  next => exact variable_of_chains h hresolve hread place node "event" (by decide) _
  next => exact targetAndValue_of_chains h hread place node fun _ _ => h.pure _
  next => exact targetAndValue_of_chains h hread place node fun _ _ => h.after _ (h.pure _)
  next => exact step_of_chains h hread place node location false
  next => exact step_of_chains h hread place node location true
  next => exact argument_of_chains h hread place node .byValue
  next => exact block_of_chains h hread _ _ location

include hresolve in
theorem readWith_of_chains (place : Place) (fuel : Nat) (node : Value) :
    P (readWith place fuel node) := by
  induction fuel generalizing node with
  | zero => exact h.throw _
  | succ fuel ih =>
      cases node with
      | list items => exact block_of_chains h ih "block" items none
      | mapping entries =>
          refine h.after _ (h.bind (h.lift _) fun location => ?_)
          exact operationOf_of_chains h hresolve ih place (.mapping entries) location _
      | _ => exact h.pure _

include hresolve in
/-- What chains satisfy holds of the reading of a body if it holds of the resolution of names. -/
theorem read_of_chains (place : Place) (node : Value) : P (Body.read place node) :=
  readWith_of_chains h hresolve place (node.depth + 1) node

end

end Body

/-! ## Members -/

namespace Declaration

open Building Draft

/-- A member that a declaration brings in: unless it is an accessor, it lies in the owner's type and
has a name that the document may give, or a constructor's. -/
structure Owner.Admits (owner : Owner) (Named : String → Prop) (s : Symbol) : Prop where
  apart : Apart s.id
  kind : s.kind ≠ .namedType
  inside : s.isAccessor = false → s.containingType = some owner.type.display
  named : s.isAccessor = false →
    Named s.name ∨ s.name = Signature.constructorName ∨ s.name = Signature.staticConstructorName

/-- The changes that the members of a type make satisfy the condition, and so do chains of them. -/
structure Declares (owner : Owner) (Named : String → Prop) (P : ∀ {α : Type}, Building α → Prop) :
    Prop where
  chains : Chains P
  addMember : ∀ s span, owner.Admits Named s → P (addMember owner.type.id s span)
  putContaining : ∀ id container data, Apart id →
    P (modify fun d => (d.putContaining id container).deferBody id owner.file data :
      Building PUnit)
  putAccessors : ∀ property getter setter,
    P (modify fun d => d.putAccessors property getter setter : Building PUnit)
  deferBody : ∀ method data,
    P (modify fun d => d.deferBody method owner.file data : Building PUnit)
  deferMember : ∀ member data, P (modify fun d => d.deferMember member data : Building PUnit)
  membersOf : P (do
    let d ← get
    pure (d.membersOf owner.type.id) : Building (List Symbol))

/-- The names of an entry's members are admitted. -/
def NamesMembers (Named : String → Prop) (entry : Value) : Prop :=
  ∀ items ∈ (allowing (entry.field "members").itemsIfPresent).toOption, ∀ item ∈ items,
    Named (item.field "name").plain

theorem namesMembers_of_any {Named : String → Prop} (h : ∀ name, Named name) {entry : Value} :
    NamesMembers Named entry :=
  fun _ _ item _ => h (item.field "name").plain

namespace Declares

variable {owner : Owner} {Named : String → Prop} {P : ∀ {α : Type}, Building α → Prop}

theorem declareAccessor (h : Declares owner Named P) (data : Value) (property : Symbol)
    (propertyType keyword : String) {kind : MethodKind}
    (hkind : kind = .propertyGet ∨ kind = .propertySet) :
    P (declareAccessor owner data property propertyType keyword kind) := by
  unfold Declaration.declareAccessor
  split
  next => exact h.chains.pure none
  next accessorData _ =>
    refine h.chains.bind (h.chains.lift _) fun located => ?_
    refine h.chains.bind (h.chains.lift _) fun span => ?_
    have hapart := apart_accessorSymbol owner property propertyType keyword kind located
    have haccessor : (accessorSymbol owner property propertyType keyword kind located).isAccessor =
        true := by
      rcases hkind with rfl | rfl <;> rfl
    have hadmits : owner.Admits Named
        (accessorSymbol owner property propertyType keyword kind located) :=
      ⟨hapart, by simp [accessorSymbol], by simp [haccessor], by simp [haccessor]⟩
    refine h.chains.bind (h.addMember _ span hadmits) fun _ => ?_
    exact h.chains.bind (h.putContaining _ _ _ hapart) fun _ => h.chains.pure _

theorem admits_variableSymbol (owner : Owner) (data : Value) (modifiers : List String)
    (location : Option Location) {letter name : String} (hletter : Apart letter)
    (hname : Named name) {kind : SymbolKind} (hkind : kind ≠ .namedType) :
    owner.Admits Named (variableSymbol owner data modifiers location letter name kind) :=
  ⟨apart_variableSymbol owner data modifiers location hletter name kind, hkind, fun _ => rfl,
    fun _ => .inl hname⟩

theorem declareProperty (h : Declares owner Named P) {data : Value}
    (hname : Named (data.field "name").plain) (modifiers : List String)
    (location : Option Location) (span : Option Span) :
    P (declareProperty owner data modifiers location span) := by
  unfold Declaration.declareProperty
  refine h.chains.lift_bind fun name hrequired => ?_
  obtain rfl := Entry.eq_field_of_required hrequired
  have hapart : Apart "P" := ⟨'P', [], rfl, by decide⟩
  refine h.chains.after _ (h.chains.after _ ?_)
  refine h.chains.bind (h.addMember _ span ?_) fun _ => ?_
  · exact admits_variableSymbol owner data modifiers location hapart hname (by decide)
  refine h.chains.bind (h.declareAccessor data _ _ "get" (.inl rfl)) fun getter => ?_
  refine h.chains.bind (h.declareAccessor data _ _ "set" (.inr rfl)) fun setter => ?_
  exact h.chains.bind (h.putAccessors _ getter setter) fun _ => h.chains.pure _

theorem declareMethod (h : Declares owner Named P) (data : Value) (modifiers : List String)
    (location : Option Location) (span : Option Span) {name : String}
    (hname : Named name ∨ name = Signature.constructorName ∨ name = Signature.staticConstructorName)
    (shown : String) (returns : Value) (place : String) (kind : MethodKind) :
    P (declareMethod owner data modifiers location span name shown returns place kind) := by
  unfold Declaration.declareMethod
  refine h.chains.bind (h.chains.lift _) fun parameters => h.chains.after _ ?_
  refine h.chains.bind (h.addMember _ span ?_) fun _ => ?_
  · exact ⟨apart_methodId owner.qualified name parameters, by simp [methodSymbol, memberSymbol],
      fun _ => rfl, fun _ => hname⟩
  exact h.chains.bind (h.deferBody _ _) fun _ => h.chains.pure _

theorem declareVariable (h : Declares owner Named P) {data : Value}
    (hname : Named (data.field "name").plain) (modifiers : List String)
    (location : Option Location) (span : Option Span) {letter : String} (hletter : Apart letter)
    (place : String) {kind : SymbolKind} (hkind : kind ≠ .namedType) :
    P (declareVariable owner data modifiers location span letter place kind) := by
  unfold Declaration.declareVariable
  refine h.chains.lift_bind fun name hrequired => ?_
  obtain rfl := Entry.eq_field_of_required hrequired
  refine h.chains.after _ (h.chains.after _ ?_)
  refine h.chains.bind (h.addMember _ span ?_) fun _ => h.chains.pure _
  exact admits_variableSymbol owner data modifiers location hletter hname hkind

theorem declareNamedKind (h : Declares owner Named P) {data : Value}
    (hname : Named (data.field "name").plain) (modifiers : List String)
    (location : Option Location) (span : Option Span) (place kind : String) :
    P (declareNamedKind owner data modifiers location span place kind) := by
  unfold Declaration.declareNamedKind
  split
  next => exact h.declareMethod data modifiers location span (.inr (.inl rfl)) _ _ place _
  next => exact h.declareMethod data modifiers location span (.inr (.inl rfl)) _ _ place _
  next => exact h.declareMethod data modifiers location span (.inr (.inr rfl)) _ _ place _
  next =>
    refine h.chains.lift_bind fun name hrequired => ?_
    obtain rfl := Entry.eq_field_of_required hrequired
    refine h.chains.after _ ?_
    exact h.declareMethod data modifiers location span (.inl hname) _ _ place _
  next => exact h.declareProperty hname modifiers location span
  next =>
    have hletter : Apart "F" := ⟨'F', [], rfl, by decide⟩
    exact h.declareVariable hname modifiers location span hletter place (by decide)
  next =>
    have hletter : Apart "E" := ⟨'E', [], rfl, by decide⟩
    exact h.declareVariable hname modifiers location span hletter place (by decide)
  next => exact h.chains.refuse _

theorem declareMember (h : Declares owner Named P) {data : Value}
    (hname : Named (data.field "name").plain) : P (declareMember owner data) := by
  unfold Declaration.declareMember
  refine h.chains.bind (h.chains.refuseIf _ _) fun _ => h.chains.after _ ?_
  refine h.chains.bind (h.chains.lift _) fun modifiers => ?_
  refine h.chains.bind (h.chains.lift _) fun location => ?_
  refine h.chains.bind (h.chains.lift _) fun span => h.chains.after _ ?_
  refine h.chains.bind (h.declareNamedKind hname modifiers location span _ _) fun id => ?_
  exact h.deferMember id data

theorem addConstructor (h : Declares owner Named P) (isNeeded : Bool) :
    P (addConstructor owner.type owner.qualified isNeeded) := by
  have hadmits : owner.Admits Named (implicitConstructor owner.type owner.qualified) :=
    ⟨apart_methodId owner.qualified Signature.constructorName [], by simp [implicitConstructor],
      fun _ => rfl, fun _ => .inr (.inl rfl)⟩
  have hadd : ∀ declared : List Symbol, P (
      if !(declared.any fun m => m.methodKind == some .constructor) && isNeeded then
        Building.addMember owner.type.id (implicitConstructor owner.type owner.qualified) none
      else pure ()) := by
    intro declared
    split
    next => exact h.addMember _ none hadmits
    next => exact h.chains.pure ()
  have hread := h.chains.bind h.membersOf hadd
  simp only [bind_assoc, pure_bind] at hread
  exact hread

/-- All that comes in behind a type: its members, and a constructor if it needs one. -/
theorem members (h : Declares owner Named P) {items : List Value}
    (hnames : ∀ item ∈ items, Named (item.field "name").plain) (isNeeded : Bool) :
    P (do
      forEach (Declaration.declareMember owner) items
      Declaration.addConstructor owner.type owner.qualified isNeeded) :=
  h.chains.bind (h.chains.forEach_of_mem fun item hitem => h.declareMember (hnames item hitem))
    fun _ => h.addConstructor isNeeded

end Declares

/-- So do the changes that everything else in an entry makes behind its type. -/
structure DeclaresContents (owner : Owner) (Named : String → Prop)
    (P : ∀ {α : Type}, Building α → Prop) : Prop extends Declares owner Named P where
  putSpan : ∀ span, P (modify fun d => d.putSpan owner.type.id span : Building PUnit)
  nest : P (nest owner.qualified owner.type.id)
  deferLink : ∀ data, P (modify fun d => d.deferLink owner.type.id data : Building PUnit)

theorem DeclaresContents.declareContents {owner : Owner} {Named : String → Prop}
    {P : ∀ {α : Type}, Building α → Prop} (h : DeclaresContents owner Named P) {data : Value}
    (hnames : NamesMembers Named data) (location : Option Location) (needsConstructor : Bool) :
    P (declareContents owner data location needsConstructor) := by
  unfold Declaration.declareContents
  refine h.chains.bind (h.chains.lift _) fun span => ?_
  refine h.chains.bind (h.putSpan span) fun _ => h.chains.bind h.nest fun _ => ?_
  refine h.chains.lift_bind fun items hitems => ?_
  have hlisted := hnames items (Attempt.mem_toOption_iff.mpr hitems)
  refine h.chains.bind (h.chains.forEach_of_mem ?_) fun _ => ?_
  · exact fun item hitem => h.declareMember (hlisted item hitem)
  exact h.chains.bind (h.addConstructor needsConstructor) fun _ => h.deferLink data

end Declaration
end SymbolAtlas
