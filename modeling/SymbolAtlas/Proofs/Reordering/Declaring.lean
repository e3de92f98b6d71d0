import SymbolAtlas.Proofs.Index.Opening
import SymbolAtlas.Proofs.Reordering.Commute
import SymbolAtlas.Proofs.Reordering.Joined
import SymbolAtlas.Proofs.Text.Cut
import Mathlib.Tactic

/-!
# Declaring types in another order

An entry can be declared over a draft if and only if it can be declared by itself and the draft
knows none of its ids, provided that no two entries spell their names alike but for plus signs and
dots.  The order of the entries therefore decides neither whether all of them can be declared nor
what the tables answer in the end, apart from where nested types lie.
-/

namespace SymbolAtlas

open Building Declaration Draft Tables Index

namespace Index

/-- An entry's name with dots for plus signs. -/
def dottedName (entry : Value) : String :=
  Text.exchange '+' '.' (typeName entry)

end Index

namespace Draft

variable {base own d : Draft}

theorem get?_registerTypeName_eq (d : Draft) (qualified id name : String) :
    (d.registerTypeName qualified id).typeNames.get? name =
      if qualified = name then some id
      else (d.typeNames.get? name).or
        (if Text.exchange '+' '.' qualified = name then some id else none) := by
  unfold registerTypeName
  simp only []
  split
  next =>
    rw [Table.get?_insertNew, Table.get?_insert]
    split
    next => rw [Option.some_or]
    next => rfl
  next hplain =>
    have hself : Text.exchange '+' '.' qualified = qualified :=
      Text.exchange_of_not_mem '.' (by simpa using hplain)
    rw [hself, Table.get?_insert]
    split
    next => rfl
    next hne => rw [Option.or_none]

/-- A name that a type is found under is spelled like the type's own. -/
theorem exchange_of_registerTypeName {d : Draft} {qualified id name found : String}
    (hfound : (d.registerTypeName qualified id).typeNames.get? name = some found) :
    d.typeNames.get? name = some found ∨
      Text.exchange '+' '.' name = Text.exchange '+' '.' qualified := by
  rw [get?_registerTypeName_eq] at hfound
  split at hfound
  next heq => exact Or.inr (by rw [heq])
  next =>
    obtain hold | ⟨-, hnew⟩ := Option.or_eq_some_iff.mp hfound
    · exact Or.inl hold
    · split at hnew
      next heq => exact Or.inr (by rw [← heq, Text.exchange_exchange (by decide)])
      next => cases hnew

/-- No name that is spelled like that of an entry belongs to another type. -/
def Unclaimed (types : List Value) (d : Draft) : Prop :=
  ∀ entry ∈ types, ∀ name id, d.typeNames.get? name = some id →
    Text.exchange '+' '.' name = dottedName entry → Known d.symbols (typeId entry)

/-- A type over a base, beside the same type alone. -/
theorem joinedAt_putType {qualified : String} {s : Symbol} (hnew : base.symbols.get? s.id = none)
    (hname : ∀ name id, base.typeNames.get? name = some id →
      Text.exchange '+' '.' name ≠ Text.exchange '+' '.' qualified) (isMetadata : Bool) :
    JoinedAt base s.id (base.putType qualified s isMetadata)
      (Draft.empty.putType qualified s isMetadata) := by
  have hmembers : (Draft.empty.putType qualified s isMetadata).members.get? s.id = some [] :=
    (Table.get?_insert Table.empty s.id s.id []).trans (if_pos rfl)
  refine ⟨?_, [], hmembers, by simp⟩
  constructor
  · exact fun id => get?_insert_or s.id s rfl
  · intro name
    have hnames : ∀ d : Draft, (d.putType qualified s isMetadata).typeNames =
        (d.registerTypeName qualified s.id).typeNames := fun _ => rfl
    have halone : Draft.empty.typeNames.get? name = none := rfl
    rw [hnames, hnames, get?_registerTypeName_eq, get?_registerTypeName_eq, halone, Option.none_or]
    by_cases hself : qualified = name
    · rw [if_pos hself, if_pos hself, Option.some_or]
    rw [if_neg hself, if_neg hself]
    by_cases hdotted : Text.exchange '+' '.' qualified = name
    · have hnone : base.typeNames.get? name = none := by
        rw [Option.eq_none_iff_forall_ne_some]
        intro id hid
        refine hname name id hid ?_
        rw [← hdotted, Text.exchange_exchange (by decide)]
      rw [hnone, Option.none_or, Option.or_none]
    · rw [if_neg hdotted, Option.or_none, Option.none_or]
  · exact fun type => get?_insert_or s.id [] rfl
  · exact fun _ _ => rfl
  · exact fun _ => rfl
  · exact fun _ => rfl
  · rw [metadataTypes_putType, metadataTypes_putType]
    rfl
  · exact (List.append_nil _).symm
  · exact (List.append_nil _).symm
  · exact (List.append_nil _).symm
  · exact { SameLinks.refl ∅ base with }
  · rintro id ⟨x, hx⟩
    obtain ⟨rfl, -⟩ | hnone := get?_insert_cases hx
    · exact hnew
    · cases hnone
  · intro name id hfound
    obtain hnone | hspelled := exchange_of_registerTypeName (d := Draft.empty) hfound
    · cases hnone
    · rw [Option.eq_none_iff_forall_ne_some]
      intro other hother
      exact hname name other hother hspelled

/-- Where types lie is left open by joined drafts. -/
theorem Joined.nested (h : Joined base own d) (qualified : String) :
    Joined base (own.nested qualified ("T:" ++ qualified))
      (d.nested qualified ("T:" ++ qualified)) := by
  obtain ⟨places, hown, hothers, -⟩ := exists_nested_eq own qualified ("T:" ++ qualified)
  obtain ⟨places', hd, hothers', -⟩ := exists_nested_eq d qualified ("T:" ++ qualified)
  rw [hown, hd]
  refine { h with containing := ?_, links := { h.links with } }
  intro id hid
  have hne := (hid.ne_typeId qualified).symm
  exact (hothers' id hne).trans ((h.containing id hid).trans (by rw [hothers id hne]))

theorem Lists.same {own' : Draft} {type : String} (h : own.Lists type)
    (hsame : SameDeclarations own own') : own'.Lists type := by
  unfold Lists
  rw [hsame.members, hsame.symbols]
  exact h

theorem Lists.nested {type : String} (h : own.Lists type) (qualified id : String) :
    (own.nested qualified id).Lists type := by
  obtain ⟨places, hown, -⟩ := exists_nested_eq own qualified id
  rw [hown]
  exact h

end Draft

namespace Declaration

variable {base : Draft}

theorem declares_joins (base : Draft) {owner : Owner}
    (hid : owner.type.id = "T:" ++ owner.qualified) :
    DeclaresContents owner (fun _ => True) (Joins base owner.type.id) where
  chains := chains_joins base owner.type.id
  addMember s span _ := addMember_joins s span
  putContaining id container data _ :=
    joins_modify (fun d => (same_deferBody _ id owner.file data).symbols)
      (fun own h => by
        have hlists : (own.putContaining id container).Lists owner.type.id := h
        exact hlists.same (same_deferBody _ id owner.file data))
      fun _ _ h => (h.putContaining id container).deferBody id owner.file data
  putAccessors property getter setter :=
    joins_modify (fun _ => rfl) (fun _ h => h) fun _ _ h => h.putAccessors property getter setter
  deferBody method data :=
    joins_modify (fun d => (same_deferBody d method owner.file data).symbols)
      (fun own h => h.same (same_deferBody own method owner.file data))
      fun _ _ h => h.deferBody method owner.file data
  deferMember member data :=
    joins_modify (fun _ => rfl) (fun _ h => h) fun _ _ h => h.deferMember member data
  membersOf :=
    { grows := by
        intro d
        rw [ensures_bind, ensures_get, ensures_pure]
        exact fun _ h => h
      splits := by
        refine follows_get.bind ?_
        intro d own h
        rw [h.1.membersOf h.2]
        exact follows_pure rfl
      joins := by
        intro d own h
        rw [ensures_bind, ensures_get, ensures_pure]
        intro _
        refine ⟨d, ?_, h⟩
        rw [← h.1.membersOf h.2]
        rfl }
  putSpan span := joins_modify (fun d => (same_putSpan d _ span).symbols)
    (fun own h => h.same (same_putSpan own _ span)) fun _ _ h => h.putSpan owner.type.id span
  nest := by
    rw [hid]
    refine joins_modify ?_ (fun own h => h.nested _ _) fun _ _ h => h.nested owner.qualified
    intro d
    obtain ⟨places, hnested, -⟩ := exists_nested_eq d owner.qualified ("T:" ++ owner.qualified)
    have hsymbols : (d.nested owner.qualified ("T:" ++ owner.qualified)).symbols = d.symbols := by
      rw [hnested]
    exact hsymbols
  deferLink data :=
    joins_modify (fun _ => rfl) (fun _ h => h) fun _ _ h => h.deferLink owner.type.id data

/-! ## Types -/

section Entry

variable {root : String} {entry : Value} {types : List Value} {own : Draft}

theorem declareBody_joins (base : Draft) (root : String) (entry : Value) (kind : TypeKind)
    (location : Option Location) (modifiers : List String) :
    Joins base (typeId entry) (declareBody root entry kind location modifiers) :=
  (@declares_joins base ⟨declaredType (typeName entry) kind location modifiers entry,
    typeName entry, typeFile root entry, root, isMetadata entry⟩ rfl).declareContents
      (namesMembers_of_any fun _ => trivial) location _

theorem joinedAt_headed (hunclaimed : Unclaimed types base) (hentry : entry ∈ types)
    (hnew : base.symbols.get? (typeId entry) = none) (kind : TypeKind)
    (location : Option Location) (modifiers : List String) :
    JoinedAt base (typeId entry) (headed entry kind location modifiers base)
      (headed entry kind location modifiers Draft.empty) := by
  refine joinedAt_putType (s := declaredType (typeName entry) kind location modifiers entry)
    hnew ?_ (isMetadata entry)
  intro name id hid hspelled
  obtain ⟨s, hs⟩ := hunclaimed entry hentry name id hid hspelled
  rw [hnew] at hs
  cases hs

/-- An entry that can be declared over a draft can be declared by itself. -/
theorem declareType_splits (hbase : base.Sound) (hunclaimed : Unclaimed types base)
    (hentry : entry ∈ types) :
    Ensures (declareType root entry) base fun _ e =>
      ∃ own, declareType root entry Draft.empty = .ok ((), own) ∧ Joined base own e := by
  intro _ e hrun
  obtain ⟨kind, location, modifiers, hheads, hname, hrun⟩ := declareType_eq_ok.mp hrun
  have hstart := joinedAt_headed hunclaimed hentry
    (hbase.typeId_new (Table.contains_of_get? hname)) kind location modifiers
  obtain ⟨_, own, hown, -, hjoined⟩ :=
    (declareBody_joins base root entry kind location modifiers).splits _ _ hstart _ e hrun
  exact ⟨own, declareType_eq_ok.mpr ⟨kind, location, modifiers, hheads, rfl, hown⟩, hjoined.1⟩

/-- An entry that can be declared by itself can be declared over a draft that knows none of its
ids. -/
theorem declareType_joins (hunclaimed : Unclaimed types base) (hentry : entry ∈ types)
    (hrun : declareType root entry Draft.empty = .ok ((), own))
    (hfresh : ∀ id, Known own.symbols id → base.symbols.get? id = none) :
    ∃ e, declareType root entry base = .ok ((), e) ∧ Joined base own e := by
  have hself := (declareType_opens Sound.empty root entry _ own hrun).brings.2
  obtain ⟨kind, location, modifiers, hheads, -, hrun⟩ := declareType_eq_ok.mp hrun
  have hnew := hfresh _ hself
  have hname : base.typeNames.get? (typeName entry) = none := by
    rw [Option.eq_none_iff_forall_ne_some]
    intro id hid
    obtain ⟨s, hs⟩ := hunclaimed entry hentry _ id hid rfl
    rw [hnew] at hs
    cases hs
  have hstart := joinedAt_headed hunclaimed hentry hnew kind location modifiers
  obtain ⟨e, he, hjoined⟩ := (declareBody_joins base root entry kind location modifiers).joins _ _
    hstart _ own hrun hfresh
  exact ⟨e, declareType_eq_ok.mpr ⟨kind, location, modifiers, hheads, hname, he⟩, hjoined.1⟩

end Entry

end Declaration
end SymbolAtlas
