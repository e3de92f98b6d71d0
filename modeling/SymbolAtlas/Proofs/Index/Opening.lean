import SymbolAtlas.Proofs.Index.Chain
import SymbolAtlas.Proofs.Index.Growth
import Mathlib.Tactic

/-!
# What an entry does to types

An entry of a document brings in one type, found under its name and, if it is nested, under that
name with dots, and puts it into the type around it if that is there already.  The members that come
in with it leave all types as they are.
-/

namespace SymbolAtlas
namespace Draft

open Index Tables

/-- Two drafts say the same about types and have put off the same links of types. -/
structure SameTypes (d d' : Draft) : Prop where
  typeNames : d'.typeNames = d.typeNames
  metadataTypes : d'.metadataTypes = d.metadataTypes
  pendingLinks : d'.pendingLinks = d.pendingLinks
  symbols : ∀ name, d'.symbols.get? ("T:" ++ name) = d.symbols.get? ("T:" ++ name)
  places : ∀ name, d'.containing.get? ("T:" ++ name) = d.containing.get? ("T:" ++ name)

/-- A draft in which a nested type lies in its outer type, if that is there. -/
def nested (qualified id : String) (d : Draft) : Draft :=
  if qualified.toList.contains '+' then
    match d.typeNames.get? (Declaration.outerName qualified) with
    | some outer => d.putContaining id outer
    | none => d
  else d

/-- What an entry does to a draft, apart from the members of its type. -/
structure Opens (entry : Value) (d d' : Draft) : Prop where
  becomes : d.Becomes d'
  brings : Brings d d' (typeId entry)
  typeNames : d'.typeNames = (d.registerTypeName (typeName entry) (typeId entry)).typeNames
  metadataTypes : d'.metadataTypes =
    d.metadataTypes ++ if isMetadata entry then [typeId entry] else []
  pendingLinks : d'.pendingLinks = d.pendingLinks ++ [(typeId entry, entry)]
  symbols : ∀ name, name ≠ typeName entry →
    d'.symbols.get? ("T:" ++ name) = d.symbols.get? ("T:" ++ name)
  /-- The type lies in its outer type, if that is nested and found. -/
  place : d'.containing.get? (typeId entry) =
    if (typeName entry).toList.contains '+' then
      d'.typeNames.get? (Declaration.outerName (typeName entry))
    else none
  places : ∀ name, name ≠ typeName entry →
    d'.containing.get? ("T:" ++ name) = d.containing.get? ("T:" ++ name)

variable {d d' d'' : Draft}

theorem SameTypes.refl (d : Draft) : SameTypes d d :=
  ⟨rfl, rfl, rfl, fun _ => rfl, fun _ => rfl⟩

theorem SameTypes.trans (hfirst : SameTypes d d') (hlast : SameTypes d' d'') : SameTypes d d'' where
  typeNames := hlast.typeNames.trans hfirst.typeNames
  metadataTypes := hlast.metadataTypes.trans hfirst.metadataTypes
  pendingLinks := hlast.pendingLinks.trans hfirst.pendingLinks
  symbols name := (hlast.symbols name).trans (hfirst.symbols name)
  places name := (hlast.places name).trans (hfirst.places name)

theorem sameTypes_putSpan (d : Draft) (id : String) (span : Option Span) :
    SameTypes d (d.putSpan id span) := by
  cases span <;> exact { SameTypes.refl d with }

theorem sameTypes_deferBody (d : Draft) (method : String) (file : Option String) (data : Value) :
    SameTypes d (d.deferBody method file data) := by
  unfold deferBody
  simp only []
  split <;> exact { SameTypes.refl d with }

theorem get?_insert_apart {α : Type} (t : Table α) {id : String} (hid : Apart id) (value : α)
    (name : String) : (t.insert id value).get? ("T:" ++ name) = t.get? ("T:" ++ name) := by
  rw [Table.get?_insert, if_neg (hid.ne_typeId name)]

theorem sameTypes_putContaining (d : Draft) {id : String} (hid : Apart id) (container : String) :
    SameTypes d (d.putContaining id container) :=
  { SameTypes.refl d with places := get?_insert_apart d.containing hid container }

theorem sameTypes_putMember (d : Draft) (type : String) {s : Symbol} (hs : Apart s.id)
    (span : Option Span) : SameTypes d (d.putMember type s span) := by
  refine SameTypes.trans ?_ (sameTypes_putSpan _ s.id span)
  exact { SameTypes.refl d with
    symbols := get?_insert_apart d.symbols hs s
    places := get?_insert_apart d.containing hs type }

theorem exists_nested_eq (d : Draft) (qualified id : String) :
    ∃ containing, d.nested qualified id = { d with containing } ∧
      (∀ other, id ≠ other → containing.get? other = d.containing.get? other) ∧
        containing.get? id = if qualified.toList.contains '+' then
          (d.typeNames.get? (Declaration.outerName qualified)).or (d.containing.get? id)
        else d.containing.get? id := by
  unfold nested
  split
  next =>
    split
    next outer houter =>
      refine ⟨d.containing.insert id outer, rfl, ?_, ?_⟩
      · intro other hother
        rw [Table.get?_insert, if_neg hother]
      · rw [Table.get?_insert, if_pos rfl, houter, Option.some_or]
    next hnone => exact ⟨d.containing, rfl, fun _ _ => rfl, by rw [hnone, Option.none_or]⟩
  next => exact ⟨d.containing, rfl, fun _ _ => rfl, rfl⟩

/-- Where nested types lie does not depend on extents. -/
theorem sameTypes_nested_putSpan (d : Draft) (qualified id : String) (other : String)
    (span : Option Span) :
    SameTypes (d.nested qualified id) ((d.putSpan other span).nested qualified id) := by
  cases span with
  | none => exact .refl _
  | some span =>
      unfold nested
      split
      next =>
        change SameTypes _ (match d.typeNames.get? _ with
          | some outer => _
          | none => _)
        split <;> exact { SameTypes.refl _ with }
      next => exact { SameTypes.refl d with }

end Draft

namespace Building

open Draft

variable {α β : Type}

/-- The step leaves types as they are. -/
def KeepsTypes (step : Building α) : Prop :=
  ∀ d : Draft, Ensures step d fun _ d' => SameTypes d d'

theorem keepsTypes_modify {f : Draft → Draft} (hf : ∀ d, SameTypes d (f d)) :
    KeepsTypes (modify f : Building PUnit) :=
  fun d => ensures_modify.mpr (hf d)

theorem chains_keepsTypes : Chains KeepsTypes :=
  chains_of_trans SameTypes.refl SameTypes.trans

end Building

namespace Declaration

open Building Draft Tables Index

variable {d d' : Draft}

theorem declares_keepsTypes (owner : Owner) : Declares owner (fun _ => True) KeepsTypes where
  chains := chains_keepsTypes
  addMember s span hadmits d := by
    rw [ensures_addMember]
    intro _
    exact sameTypes_putMember d owner.type.id hadmits.apart span
  putContaining id container data hapart := keepsTypes_modify fun d =>
    (sameTypes_putContaining d hapart container).trans (sameTypes_deferBody _ id owner.file data)
  putAccessors property getter setter := keepsTypes_modify fun d => { SameTypes.refl d with }
  deferBody method data := keepsTypes_modify fun d => sameTypes_deferBody d method owner.file data
  deferMember member data := keepsTypes_modify fun d => { SameTypes.refl d with }
  membersOf d := by
    rw [ensures_bind, ensures_get]
    exact ensures_pure.mpr (.refl d)

/-- Behind its place in an outer type, what belongs to a type changes types no more. -/
theorem declareContents_types (owner : Owner) (data : Value) (location : Option Location)
    (needsConstructor : Bool) (d : Draft) :
    Ensures (declareContents owner data location needsConstructor) d fun _ d' =>
      ∃ e, SameTypes (d.nested owner.qualified owner.type.id) e ∧
        d' = e.deferLink owner.type.id data := by
  unfold declareContents nest
  simp only [ensures_bind, ensures_lift, ensures_modify]
  intro span _ members _
  have hnames : ∀ item ∈ members, True := fun _ _ => trivial
  have hmembers := (declares_keepsTypes owner).members hnames needsConstructor
  have hspan := sameTypes_nested_putSpan d owner.qualified owner.type.id owner.type.id span
  have hall := hmembers (nested owner.qualified owner.type.id (d.putSpan owner.type.id span))
  rw [ensures_bind] at hall
  refine hall.imp ?_
  intro _ d₁ hfirst
  refine hfirst.imp ?_
  intro _ d₂ hlast
  exact ⟨d₂, hspan.trans hlast, rfl⟩

theorem metadataTypes_putType (d : Draft) (qualified : String) (s : Symbol) (isMetadata : Bool) :
    (d.putType qualified s isMetadata).metadataTypes =
      d.metadataTypes ++ if isMetadata then [s.id] else [] := by
  change (if isMetadata then d.metadataTypes ++ [s.id] else d.metadataTypes) = _
  split
  next => rfl
  next => exact (List.append_nil _).symm

theorem typeId_ne {entry : Value} {name : String} (hname : name ≠ typeName entry) :
    typeId entry ≠ "T:" ++ name :=
  fun heq => hname ((String.append_right_inj "T:").mp heq).symm

/-- What has opened once the members of a type have come in behind it. -/
theorem opens_of_sameTypes (hd : d.Sound) {entry : Value} {s : Symbol}
    (hid : s.id = typeId entry) (hnew : d.symbols.get? (typeId entry) = none)
    (hbecomes : d.Becomes d') {e : Draft}
    (he : SameTypes ((d.putType (typeName entry) s (isMetadata entry)).nested (typeName entry)
      (typeId entry)) e) (hlast : d' = e.deferLink (typeId entry) entry) : d.Opens entry d' := by
  obtain ⟨containing, hnested, hothers, hself⟩ := exists_nested_eq
    (d.putType (typeName entry) s (isMetadata entry)) (typeName entry) (typeId entry)
  rw [hnested] at he
  subst hlast
  have hsymbols : ∀ name, e.symbols.get? ("T:" ++ name) =
      if typeId entry = "T:" ++ name then some s else d.symbols.get? ("T:" ++ name) := by
    intro name
    rw [← hid]
    exact (he.symbols name).trans (Table.get?_insert d.symbols s.id _ s)
  have houtside : d.containing.get? (typeId entry) = none := by
    rw [Option.eq_none_iff_forall_ne_some]
    intro container hcontainer
    obtain ⟨x, hx⟩ := (hd.refers.containing.get? hcontainer).1
    rw [hnew] at hx
    cases hx
  have htypeNames : e.typeNames =
      (d.registerTypeName (typeName entry) (typeId entry)).typeNames := by
    rw [← hid]
    exact he.typeNames
  constructor
  · exact hbecomes
  · exact ⟨hnew, s, (hsymbols (typeName entry)).trans (if_pos rfl)⟩
  · exact htypeNames
  · rw [← hid]
    exact he.metadataTypes.trans (metadataTypes_putType d _ s _)
  · exact congrArg (· ++ [(typeId entry, entry)]) he.pendingLinks
  · intro name hname
    exact (hsymbols name).trans (if_neg (typeId_ne hname))
  · refine (he.places (typeName entry)).trans (hself.trans ?_)
    have hnames : (d.putType (typeName entry) s (isMetadata entry)).typeNames = e.typeNames :=
      he.typeNames.symm
    change (if _ then Option.or _ (d.containing.get? (typeId entry))
      else d.containing.get? (typeId entry)) = _
    rw [houtside, Option.or_none, hnames]
    rfl
  · intro name hname
    exact (he.places name).trans (hothers _ (typeId_ne hname))

theorem declareType_opens (hd : d.Sound) (root : String) (entry : Value) :
    Ensures (declareType root entry) d fun _ d' => d.Opens entry d' := by
  rintro ⟨⟩ d' hrun
  have hbecomes := declareType_ensures hd root entry () d' hrun
  obtain ⟨kind, location, modifiers, -, hnew, hbody⟩ := declareType_eq_ok.mp hrun
  obtain ⟨e, he, hlast⟩ := declareContents_types _ entry location _ _ () d' hbody
  exact opens_of_sameTypes hd rfl (hd.typeId_new (Table.contains_of_get? hnew)) hbecomes he hlast

end Declaration
end SymbolAtlas
