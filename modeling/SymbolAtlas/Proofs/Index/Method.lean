import SymbolAtlas.Proofs.Index.Location
import SymbolAtlas.Proofs.Reordering.Deferred
import Mathlib.Tactic

/-!
# The methods that entries declare

The entry of a member declares a method of its own or, if it is a property, one for each of its
accessors.  The first pass brings these methods in and puts their bodies off, each with the file of
its type, and a later pass reads every body that waits.  In the tables of a document, each of these
methods has a symbol, and a body that lies where its entries say.
-/

namespace SymbolAtlas
namespace Index

def memberKind (member : Value) : String :=
  Text.lower (member.fieldOr "kind" (.text "method")).plain

/-- The name of the method that a member of a kind is. -/
def methodNamed? (member : Value) : String → Option String
  | "constructor" | "ctor" => some Signature.constructorName
  | "static_constructor" => some Signature.staticConstructorName
  | "method" => some (member.field "name").plain
  | _ => none

/-- The id of an accessor: its type, its keyword and its property. -/
def accessorId (type keyword property : String) : String :=
  "M:" ++ type ++ "." ++ keyword ++ "_" ++ property

end Index

namespace Declaration

open Building Draft Tables Index

/-- The surroundings that the entry of a type makes for its members. -/
def ownerOf (root : String) (entry : Value) (type : Symbol) : Owner :=
  ⟨type, typeName entry, typeFile root entry, root, isMetadata entry⟩

/-- The methods that the entry of a member at a location declares are there, each with the entry
that its body is in. -/
structure Methods (root : String) (entry member : Value) (kind : String)
    (location : Option Location) (Has : Symbol → Value → Prop) : Prop where
  own : ∀ name ∈ methodNamed? member kind, ∃ parameters m,
    Entry.parameters (member.field "parameters") ("member of " ++ typeName entry) =
        .ok parameters ∧
      m.id = Entry.methodId (typeName entry) name parameters ∧ m.parameters = parameters ∧
      Has m member
  accessors : kind = "property" → ∀ keyword ∈ ["get", "set"],
    ∀ accessor ∈ accessorData? member keyword, ∃ place located a,
      locate (isMetadata entry) root accessor (typeFile root entry) place = .ok located ∧
        a.id = accessorId (typeName entry) keyword (member.field "name").plain ∧
        a.location = (located <|> location) ∧ Has a accessor

/-- The entry of a member has a location, and all its methods are there. -/
def DeclaresMethods (root : String) (entry : Value) (Has : Symbol → Value → Prop)
    (member : Value) : Prop :=
  ∃ place location, locate (isMetadata entry) root member (typeFile root entry) place =
      .ok location ∧ Methods root entry member (memberKind member) location Has

variable {root : String} {entry member : Value} {kind : String} {location : Option Location}
  {Has Has' : Symbol → Value → Prop}

theorem Methods.mono (h : Methods root entry member kind location Has)
    (hmono : ∀ m data, Has m data → Has' m data) :
    Methods root entry member kind location Has' where
  own name hname := by
    obtain ⟨parameters, m, hparameters, hid, hm, hhas⟩ := h.own name hname
    exact ⟨parameters, m, hparameters, hid, hm, hmono m member hhas⟩
  accessors hkind keyword hkeyword accessor haccessor := by
    obtain ⟨place, located, a, hlocated, hid, ha, hhas⟩ :=
      h.accessors hkind keyword hkeyword accessor haccessor
    exact ⟨place, located, a, hlocated, hid, ha, hmono a accessor hhas⟩

/-- A member that is neither a method nor a property. -/
theorem methods_of_none (hname : methodNamed? member kind = none) (hkind : kind ≠ "property") :
    Methods root entry member kind location Has where
  own name hsome := by
    rw [hname] at hsome
    cases hsome
  accessors hproperty := absurd hproperty hkind

theorem DeclaresMethods.mono (h : DeclaresMethods root entry Has member)
    (hmono : ∀ m data, Has m data → Has' m data) : DeclaresMethods root entry Has' member := by
  obtain ⟨place, location, hlocation, hmethods⟩ := h
  exact ⟨place, location, hlocation, hmethods.mono hmono⟩

end Declaration

/-! ## The first pass -/

namespace Draft

open Tables

/-- A method is there and waits for its body, if its entry has one. -/
structure Awaits (d : Draft) (file : Option String) (m : Symbol) (data : Value) : Prop where
  holds : Holds d.symbols m
  waits : (data.field "body").isNull = false → ⟨m.id, file, data.field "body"⟩ ∈ d.pendingBodies

variable {d d' : Draft} {file : Option String} {m : Symbol} {data : Value}

theorem Awaits.mono (h : d.Awaits file m data) (hlater : PutsOffMembers d d') :
    d'.Awaits file m data where
  holds := h.holds.mono hlater.kept
  waits hbody := by
    obtain ⟨more, hmore, -⟩ := hlater.bodies
    rw [hmore]
    exact List.mem_append_left more (h.waits hbody)

theorem awaits_deferBody (hm : Holds d.symbols m) (file : Option String) (data : Value) :
    (d.deferBody m.id file data).Awaits file m data := by
  unfold deferBody
  simp only []
  split
  next hnone =>
    refine ⟨hm, fun hbody => ?_⟩
    rw [hnone] at hbody
    cases hbody
  next => exact ⟨hm, fun _ => List.mem_append_right _ (List.mem_singleton_self _)⟩

end Draft

namespace Building

variable {α : Type} {P : Draft → Prop} {R : Draft → Draft → Prop} {Q : α → Draft → Prop}

/-- What each step of a run brings about is there in the end if no later step undoes it. -/
theorem forEach_each {step : α → Building Unit} {items : List α} {d : Draft}
    (hmono : ∀ a ∈ items, ∀ d d', Q a d → R d d' → Q a d') (hd : P d)
    (hstep : ∀ a ∈ items, ∀ d, P d → Ensures (step a) d fun _ d' => P d' ∧ R d d' ∧ Q a d') :
    Ensures (forEach step items) d fun _ d' => ∀ a ∈ items, Q a d' := by
  induction items generalizing d with
  | nil => exact ensures_pure.mpr (List.forall_mem_nil _)
  | cons first rest ih =>
      unfold forEach
      refine (hstep first List.mem_cons_self d hd).bind ?_
      rintro _ d₁ ⟨hd₁, -, hfirst⟩
      have hrest := ih (fun a ha => hmono a (List.mem_cons_of_mem first ha)) hd₁
        fun a ha => hstep a (List.mem_cons_of_mem first ha)
      have hkept : Ensures (forEach step rest) d₁ fun _ d' => P d' ∧ Q first d' := by
        refine forEach_keeps (P := fun d => P d ∧ Q first d) ⟨hd₁, hfirst⟩ ?_
        rintro a ha d' ⟨hd', hbefore⟩
        refine (hstep a (List.mem_cons_of_mem first ha) d' hd').imp ?_
        rintro _ d'' ⟨hd'', hlater, -⟩
        exact ⟨hd'', hmono first List.mem_cons_self d' d'' hbefore hlater⟩
      refine (hrest.and hkept).imp ?_
      rintro _ d' ⟨hothers, -, hfirst⟩
      exact List.forall_mem_cons.mpr ⟨hfirst, hothers⟩

end Building

namespace Declaration

open Building Draft Tables Index

variable {d : Draft} {root : String} {entry member : Value} {location : Option Location}

theorem declareAccessor_awaits (owner : Owner) (data : Value) (property : Symbol)
    (propertyType keyword : String) (kind : MethodKind) :
    Ensures (declareAccessor owner data property propertyType keyword kind) d fun _ d' =>
      ∀ accessor ∈ accessorData? data keyword, ∃ place located,
        locate owner.isMetadata owner.root accessor owner.file place = .ok located ∧
          d'.Awaits owner.file (accessorSymbol owner property propertyType keyword kind located)
            accessor := by
  unfold declareAccessor
  split
  next hnone =>
    refine ensures_pure.mpr fun accessor haccessor => ?_
    rw [hnone] at haccessor
    cases haccessor
  next accessor hdata =>
    simp only [ensures_bind, ensures_lift, ensures_modify, ensures_pure, ensures_addMember]
    intro located hlocated span _ hnew other hother
    obtain rfl : accessor = other := Option.some.inj (hdata.symm.trans hother)
    have hholds := get?_putMember_self d owner.type.id
      (accessorSymbol owner property propertyType keyword kind located) span
    refine ⟨_, located, hlocated, ?_⟩
    exact awaits_deferBody (d := Draft.putContaining _ _ property.id) hholds owner.file accessor

/-- Where an accessor lies in the end: where its own entry says, or else where its property lies. -/
theorem location_accessorSymbol (owner : Owner) (property : Symbol) {data accessor : Value}
    {located : Option Location} {place place' : String}
    (hlocation : locate owner.isMetadata owner.root data owner.file place = .ok property.location)
    (hlocated : locate owner.isMetadata owner.root accessor owner.file place' = .ok located)
    (propertyType keyword : String) (kind : MethodKind) :
    (accessorSymbol owner property propertyType keyword kind located).location =
      (located <|> property.location) := by
  unfold locate at hlocation hlocated
  unfold accessorSymbol
  cases hmetadata : owner.isMetadata with
  | false => rfl
  | true =>
      rw [hmetadata, if_pos rfl] at hlocation hlocated
      rw [← Except.ok.inj hlocation, ← Except.ok.inj hlocated]
      rfl

theorem declareProperty_methods (type : Symbol) {place : String}
    (hlocation : locate (isMetadata entry) root member (typeFile root entry) place = .ok location)
    (modifiers : List String) (span : Option Span) :
    Ensures (declareProperty (ownerOf root entry type) member modifiers location span) d fun _ d' =>
      Methods root entry member "property" location (d'.Awaits (typeFile root entry)) := by
  unfold declareProperty
  simp only [ensures_bind, ensures_lift, ensures_modify, ensures_pure, ensures_addMember]
  intro name hname _ _ _ _ hnew
  obtain rfl := Entry.eq_field_of_required hname
  let owner := ownerOf root entry type
  let property := variableSymbol owner member modifiers location "P" (member.field "name").plain
    .property
  refine (declareAccessor_awaits owner member property _ "get" .propertyGet).imp ?_
  intro getter d₁ hget
  refine ((declareAccessor_awaits owner member property _ "set" .propertySet).and
    (declareAccessor_putsOff owner member property _ "set" .propertySet)).imp ?_
  rintro setter d₂ ⟨hset, hlater⟩
  have hlast : PutsOffBodies d₂ (d₂.putAccessors property.id getter setter) :=
    putsOffBodies_of_same rfl rfl rfl
  constructor
  · rintro name ⟨⟩
  · intro _ keyword hkeyword accessor haccessor
    simp only [List.mem_cons, List.not_mem_nil, or_false] at hkeyword
    rcases hkeyword with rfl | rfl
    · obtain ⟨place', located, hlocated, hawaits⟩ := hget accessor haccessor
      exact ⟨place', located, _, hlocated, rfl,
        location_accessorSymbol owner property hlocation hlocated _ _ _,
        hawaits.mono (hlater.trans hlast).putsOffMembers⟩
    · obtain ⟨place', located, hlocated, hawaits⟩ := hset accessor haccessor
      exact ⟨place', located, _, hlocated, rfl,
        location_accessorSymbol owner property hlocation hlocated _ _ _,
        hawaits.mono hlast.putsOffMembers⟩

theorem declareMethod_methods (type : Symbol) {kind name : String}
    (hname : methodNamed? member kind = some name) (hkind : kind ≠ "property")
    (modifiers : List String) (span : Option Span) (shown : String) (returns : Value)
    (methodKind : MethodKind) :
    Ensures (declareMethod (ownerOf root entry type) member modifiers location span name shown
        returns ("member of " ++ typeName entry) methodKind) d fun _ d' =>
      Methods root entry member kind location (d'.Awaits (typeFile root entry)) := by
  unfold declareMethod
  simp only [ensures_bind, ensures_lift, ensures_modify, ensures_pure, ensures_addMember]
  intro parameters hparameters _ _ hnew
  refine ⟨fun other hother => ?_, fun hproperty => absurd hproperty hkind⟩
  obtain rfl : name = other := Option.some.inj (hname.symm.trans hother)
  have hholds := get?_putMember_self d type.id (methodSymbol (ownerOf root entry type) member
    modifiers location name shown returns.plain methodKind parameters) span
  exact ⟨parameters, _, hparameters, rfl, rfl, awaits_deferBody hholds _ member⟩

theorem declareNamedKind_methods (type : Symbol) {place : String}
    (hlocation : locate (isMetadata entry) root member (typeFile root entry) place = .ok location)
    (modifiers : List String) (span : Option Span) (kind : String) :
    Ensures (declareNamedKind (ownerOf root entry type) member modifiers location span
        ("member of " ++ typeName entry) kind) d fun _ d' =>
      Methods root entry member kind location (d'.Awaits (typeFile root entry)) := by
  unfold declareNamedKind
  split
  next => exact declareMethod_methods type rfl (by decide) _ _ _ _ _
  next => exact declareMethod_methods type rfl (by decide) _ _ _ _ _
  next => exact declareMethod_methods type rfl (by decide) _ _ _ _ _
  next =>
    simp only [ensures_bind, ensures_lift]
    intro name hname _ _
    obtain rfl := Entry.eq_field_of_required hname
    exact declareMethod_methods type rfl (by decide) _ _ _ _ _
  next => exact declareProperty_methods type hlocation modifiers span
  next => exact fun _ _ _ => methods_of_none rfl (by decide)
  next => exact fun _ _ _ => methods_of_none rfl (by decide)
  next => exact ensures_lift_refuse

theorem declareMember_methods (type : Symbol) (member : Value) :
    Ensures (declareMember (ownerOf root entry type) member) d fun _ d' =>
      DeclaresMethods root entry (d'.Awaits (typeFile root entry)) member := by
  unfold declareMember
  simp only [ensures_bind, ensures_refuseIf, ensures_lift, ensures_modify]
  intro _ _ _ modifiers _ location hlocation span _ _ _
  refine (declareNamedKind_methods type hlocation modifiers span _).imp ?_
  intro id d' hmethods
  exact ⟨_, location, hlocation, hmethods.mono fun m data hawaits => ⟨hawaits.holds, hawaits.waits⟩⟩

theorem declareMembers_methods (type : Symbol) (members : List Value) :
    Ensures (forEach (declareMember (ownerOf root entry type)) members) d fun _ d' =>
      ∀ member ∈ members, DeclaresMethods root entry (d'.Awaits (typeFile root entry)) member := by
  refine forEach_each (P := fun _ => True) (R := PutsOffMembers) ?_ trivial ?_
  · intro member _ d₁ d₂ hmethods hlater
    exact hmethods.mono fun _ _ hawaits => hawaits.mono hlater
  · intro member _ d₁ _
    refine ((declareMember_putsOff _ member).and (declareMember_methods type member)).imp ?_
    rintro _ d₂ ⟨hputsOff, hmethods⟩
    exact ⟨trivial, hputsOff, hmethods⟩

/-- All members of an entry declare their methods. -/
def DeclaresAll (root : String) (Has : Option String → Symbol → Value → Prop) (entry : Value) :
    Prop :=
  ∀ members, allowing (entry.field "members").itemsIfPresent = .ok members → ∀ member ∈ members,
    DeclaresMethods root entry (Has (typeFile root entry)) member

theorem DeclaresAll.mono {Has Has' : Option String → Symbol → Value → Prop}
    (h : DeclaresAll root Has entry)
    (hmono : ∀ m data, Has (typeFile root entry) m data → Has' (typeFile root entry) m data) :
    DeclaresAll root Has' entry :=
  fun members hmembers member hmember => (h members hmembers member hmember).mono hmono

theorem declareContents_methods (type : Symbol) (location : Option Location)
    (needsConstructor : Bool) :
    Ensures (declareContents (ownerOf root entry type) entry location needsConstructor) d
      fun _ d' => DeclaresAll root d'.Awaits entry := by
  unfold declareContents
  simp only [ensures_bind, ensures_lift, ensures_modify]
  intro span _ _ _ _ members hmembers
  refine (declareMembers_methods type members).imp ?_
  intro _ d₁ hmethods
  refine (addConstructor_putsOff _ _ _).imp ?_
  intro _ d₂ hlater others hothers member hmember
  obtain rfl : members = others := Except.ok.inj (hmembers.symm.trans hothers)
  refine (hmethods member hmember).mono fun _ _ hawaits => ?_
  have hawaits := hawaits.mono hlater
  exact ⟨hawaits.holds, hawaits.waits⟩

theorem declareType_methods (root : String) (entry : Value) :
    Ensures (declareType root entry) d fun _ d' => DeclaresAll root d'.Awaits entry := by
  rintro ⟨⟩ d' hrun
  obtain ⟨kind, location, modifiers, -, -, hbody⟩ := declareType_eq_ok.mp hrun
  exact declareContents_methods _ location _ () d' hbody

theorem declareTypes_methods (hd : d.Sound) (root : String) (types : List Value) :
    Ensures (forEach (declareType root) types) d fun _ d' =>
      ∀ entry ∈ types, DeclaresAll root d'.Awaits entry := by
  refine forEach_each (R := PutsOffMembers) ?_ hd ?_
  · intro entry _ d₁ d₂ hmethods hlater
    exact hmethods.mono fun _ _ hawaits => hawaits.mono hlater
  · intro entry _ d₁ hd₁
    refine (((declareType_ensures hd₁ root entry).and (declareType_putsOff hd₁ root entry)).and
      (declareType_methods root entry)).imp ?_
    rintro _ d₂ ⟨⟨hbecomes, hputsOff⟩, hmethods⟩
    exact ⟨hbecomes.sound, hputsOff, hmethods⟩

end Declaration

/-! ## Bodies -/

namespace Tables

open Body

/-- A method is there, and its body lies where its entries say. -/
structure HasMethod (root : String) (t : Tables) (file : Option String) (m : Symbol)
    (data : Value) : Prop where
  holds : Holds t.symbols m
  body : (data.field "body").isNull = false → ∃ text tree, t.bodies.get? m.id = some tree ∧
    Lies ⟨root, file, text⟩ (data.field "body") tree

end Tables

namespace Index

open Building Draft Tables Body Declaration

variable {d : Draft}

/-- A body has been read where it waits. -/
def HasRead (root : String) (pending : PendingBody) (d : Draft) : Prop :=
  ∃ text tree, d.bodies.get? pending.method = some tree ∧
    Lies ⟨root, pending.file, text⟩ pending.body tree

theorem readBody_reads (root : String) (pending : PendingBody) :
    Ensures (readBody root pending) d fun _ d' => HasRead root pending d' ∧
      ∀ id, id ≠ pending.method → d'.bodies.get? id = d.bodies.get? id := by
  unfold readBody
  simp only [ensures_bind, ensures_get]
  split
  next => exact ensures_throw.mpr trivial
  next method _ =>
    let place : Body.Place := ⟨root, pending.file, "body of " ++ method.display⟩
    refine ((Body.read_gives place pending.body d).and
      (ignoresLinks_sameBodies.resolves.body place pending.body d)).bind ?_
    rintro tree d' ⟨hlies, hsame⟩
    have hget : ∀ id, (d'.putBody pending.method tree).bodies.get? id =
        if pending.method = id then some tree else d'.bodies.get? id :=
      fun id => Table.get?_insert _ _ _ _
    rw [ensures_modify]
    refine ⟨⟨place.text, tree, (hget _).trans (if_pos rfl), hlies⟩, fun id hid => ?_⟩
    rw [hget, if_neg hid.symm, hsame.bodies]

/-- Different methods have different bodies, so that each of them is there in the end. -/
theorem readBodies_read (root : String) {pendings : List PendingBody}
    (hdistinct : (pendings.map PendingBody.method).Nodup) :
    Ensures (forEach (readBody root) pendings) d fun _ d' =>
      ∀ pending ∈ pendings, HasRead root pending d' := by
  induction pendings generalizing d with
  | nil => exact ensures_pure.mpr (List.forall_mem_nil _)
  | cons first rest ih =>
      rw [List.map_cons, List.nodup_cons] at hdistinct
      unfold forEach
      refine (readBody_reads root first).bind ?_
      rintro _ d₁ ⟨⟨text, tree, htree, hlies⟩, -⟩
      have hkept : Ensures (forEach (readBody root) rest) d₁ fun _ d' =>
          d'.bodies.get? first.method = some tree := by
        refine forEach_keeps (P := fun d' => d'.bodies.get? first.method = some tree) htree ?_
        intro pending hpending d' hbefore
        have hne : first.method ≠ pending.method := fun heq =>
          hdistinct.1 (List.mem_map.mpr ⟨pending, hpending, heq.symm⟩)
        refine (readBody_reads root pending).imp ?_
        rintro _ d'' ⟨-, hothers⟩
        exact (hothers _ hne).trans hbefore
      refine ((ih hdistinct.2).and hkept).imp ?_
      rintro _ d' ⟨hothers, hfirst⟩
      exact List.forall_mem_cons.mpr ⟨⟨text, tree, hfirst, hlies⟩, hothers⟩

theorem readRest_reads (hd : d.Sound) (hdistinct : (d.pendingBodies.map PendingBody.method).Nodup)
    (disk : Disk) (root : String) (data : Value) :
    Ensures (readRest disk root data) d fun _ e =>
      ∀ pending ∈ d.pendingBodies, HasRead root pending e := by
  unfold readRest
  simp only [ensures_bind, ensures_get]
  refine (linkTypes_evolves hd).imp ?_
  rintro _ d₁ ⟨hbecomes₁, hevolves₁⟩
  refine (linkMembers_evolves hbecomes₁.sound).imp ?_
  rintro _ d₂ ⟨-, hevolves₂⟩
  rw [hevolves₂.bodies, hevolves₁.bodies]
  refine (readBodies_read root hdistinct).imp ?_
  intro _ d₃ hread
  have hend := ignoresLinks_sameBodies.readEnd (fun _ _ _ => ⟨rfl, rfl⟩) (fun _ _ _ => ⟨rfl, rfl⟩)
  refine (hend disk root data d₃).imp ?_
  intro _ e hsame pending hpending
  obtain ⟨text, tree, htree, hlies⟩ := hread pending hpending
  exact ⟨text, tree, hsame.bodies ▸ htree, hlies⟩

/-! ## Documents -/

theorem readDocument_methods (disk : Disk) (root : String) (data : Value) :
    Ensures (readDocument disk root data) Draft.empty fun _ e =>
      ∃ types, typesOf data = .ok types ∧
        ∀ entry ∈ types, DeclaresAll root (e.HasMethod root) entry := by
  rw [readDocument_eq_rest]
  simp only [ensures_bind, ensures_lift]
  intro types htypes
  refine ((declareTypes_declared Sound.empty root types).and
    ((declareTypes_prepared Sound.empty root types).and
      (declareTypes_methods Sound.empty root types))).imp ?_
  rintro _ d ⟨hdeclared, hprepared, hmethods⟩
  have hd := hdeclared.becomes.sound
  refine ((readRest_enriches hd disk root data).and
    (readRest_reads hd (hprepared.apportioned hdeclared).bodies disk root data)).imp ?_
  rintro _ e ⟨henriches, hread⟩
  refine ⟨types, htypes, fun entry hentry => (hmethods entry hentry).mono ?_⟩
  intro m source hawaits
  exact ⟨hawaits.holds.mono henriches.kept, fun hbody => hread _ (hawaits.waits hbody)⟩

/-- In the tables of a document, all members of all its entries have their methods. -/
theorem declaresAll_of_tables {disk : Disk} {root : String} {data : Value} {t : Tables}
    (ht : tables disk root data = .ok t) : ∃ types, typesOf data = .ok types ∧
      ∀ entry ∈ types, DeclaresAll root (t.HasMethod root) entry := by
  obtain ⟨e, hread, rfl⟩ := exists_run_of_tables ht
  exact readDocument_methods disk root data () e hread

end Index
end SymbolAtlas
