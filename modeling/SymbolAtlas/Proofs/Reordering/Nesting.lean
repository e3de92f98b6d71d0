import SymbolAtlas.Proofs.Index.Metadata
import SymbolAtlas.Proofs.Reordering.Types
import Mathlib.Tactic

/-!
# Where nested types lie

The first pass looks for the type around a nested one when the turn of the nested one comes, and
never again.  A nested type therefore lies in its outer type unless that is declared behind it, and
two orders of the entries agree on all other types.
-/

namespace SymbolAtlas

open Building Declaration Draft Tables Index

namespace Draft

variable {d d' : Draft}

/-- Where types lie is no link. -/
theorem SameLinks.everywhere (h : SameLinks Slot.places d d') (K : Set Slot) :
    SameLinks K d d' where
  baseTypes id _ := h.baseTypes id (by simp [Slot.places])
  declaredInterfaces id _ := h.declaredInterfaces id (by simp [Slot.places])
  overridden id _ := h.overridden id (by simp [Slot.places])
  explicitImplementations id _ := h.explicitImplementations id (by simp [Slot.places])
  bodies id _ := h.bodies id (by simp [Slot.places])

end Draft

namespace Index

variable {types others : List Value} {d d' d'' : Draft} {entry : Value}

/-- The type of an entry is found under a name: its own, or that with dots for plus signs. -/
def Names (entry : Value) (name : String) : Prop :=
  name = typeName entry ∨ name = dottedName entry

/-- The type of an id is nested and comes in ahead of the type around it. -/
def AheadOfOuter (types : List Value) (id : String) : Prop :=
  ∃ entry later, [entry, later].Sublist types ∧ id = typeId entry ∧
    '+' ∈ (typeName entry).toList ∧ Names later (outerName (typeName entry))

/-- No nested type comes in ahead of the type around it. -/
def OuterFirst (types : List Value) : Prop :=
  types.Pairwise fun entry later =>
    '+' ∈ (typeName entry).toList → ¬ Names later (outerName (typeName entry))

instance (entry : Value) (name : String) : Decidable (Names entry name) :=
  inferInstanceAs (Decidable (_ ∨ _))

instance (types : List Value) : Decidable (OuterFirst types) :=
  inferInstanceAs (Decidable (types.Pairwise _))

/-- Where a run over entries has put types. -/
structure Placed (types : List Value) (d d' : Draft) : Prop where
  typeNames : ∀ name, (∀ entry ∈ types, ¬ Names entry name) →
    d'.typeNames.get? name = d.typeNames.get? name
  others : ∀ name, (∀ entry ∈ types, name ≠ typeName entry) →
    d'.containing.get? ("T:" ++ name) = d.containing.get? ("T:" ++ name)
  /-- A nested type lies in its outer type, unless it comes in ahead of that. -/
  own : ∀ entry ∈ types, ¬ AheadOfOuter types (typeId entry) →
    d'.containing.get? (typeId entry) =
      if (typeName entry).toList.contains '+' then
        d'.typeNames.get? (outerName (typeName entry))
      else none

theorem get?_typeNames_of_opens (hopens : d.Opens entry d') {name : String}
    (hname : ¬ Names entry name) : d'.typeNames.get? name = d.typeNames.get? name := by
  obtain ⟨hself, hdotted⟩ := not_or.mp hname
  rw [hopens.typeNames, get?_registerTypeName_eq, if_neg fun heq => hself heq.symm,
    if_neg fun heq => hdotted heq.symm, Option.or_none]

theorem OuterFirst.not_aheadOfOuter (h : OuterFirst types) (id : String) :
    ¬ AheadOfOuter types id := by
  rintro ⟨entry, later, hsublist, -, hnested, hnames⟩
  exact List.pairwise_iff_forall_sublist.mp h hsublist hnested hnames

theorem AheadOfOuter.cons {id : String} (h : AheadOfOuter types id) (first : Value) :
    AheadOfOuter (first :: types) id := by
  obtain ⟨entry, later, hsublist, hahead⟩ := h
  exact ⟨entry, later, hsublist.cons first, hahead⟩

/-- No entry behind the first one declares the type around it, unless it comes in ahead of that. -/
theorem not_names_of_not_aheadOfOuter {first : Value}
    (h : ¬ AheadOfOuter (first :: types) (typeId first)) (hnested : '+' ∈ (typeName first).toList) :
    ∀ later ∈ types, ¬ Names later (outerName (typeName first)) := by
  intro later hlater hnames
  exact h ⟨first, later, (List.singleton_sublist.mpr hlater).cons_cons first, rfl, hnested, hnames⟩

theorem declareTypes_placed (hd : d.Sound)
    (hdistinct : types.Pairwise fun a b => typeId a ≠ typeId b) (root : String) :
    Ensures (forEach (declareType root) types) d fun _ d' => Placed types d d' := by
  induction types generalizing d with
  | nil =>
      refine ensures_pure.mpr ⟨fun _ _ => rfl, fun _ _ => rfl, ?_⟩
      intro entry hentry
      cases hentry
  | cons first rest ih =>
      obtain ⟨hfirst, hrest⟩ := List.pairwise_cons.mp hdistinct
      refine (declareType_opens hd root first).bind ?_
      intro _ d₁ hopens
      refine (ih hopens.becomes.sound hrest).imp ?_
      intro _ d' hplaced
      constructor
      · intro name hname
        rw [hplaced.typeNames name fun entry hentry => hname entry (List.mem_cons_of_mem _ hentry)]
        exact get?_typeNames_of_opens hopens (hname first List.mem_cons_self)
      · intro name hname
        rw [hplaced.others name fun entry hentry => hname entry (List.mem_cons_of_mem _ hentry)]
        exact hopens.places name (hname first List.mem_cons_self)
      · intro entry hentry hahead
        obtain rfl | hentry := List.mem_cons.mp hentry
        · have hsame := hplaced.others (typeName entry) fun other hother heq =>
            hfirst other hother (congrArg ("T:" ++ ·) heq)
          refine hsame.trans (hopens.place.trans ?_)
          split
          next hnested =>
            have hnames := not_names_of_not_aheadOfOuter hahead (by simpa using hnested)
            exact (hplaced.typeNames _ hnames).symm
          next => rfl
        · exact hplaced.own entry hentry fun h => hahead (h.cons first)

/-- The slots for places of types that one of two orders brings in ahead of their outer types. -/
def disputed (types others : List Value) : Set Slot :=
  {slot | ∃ id, slot = .place id ∧ (AheadOfOuter types id ∨ AheadOfOuter others id)}

theorem place_not_mem_disputed {id : String} (h : .place id ∉ disputed types others) :
    ¬ AheadOfOuter types id ∧ ¬ AheadOfOuter others id :=
  ⟨fun hahead => h ⟨id, rfl, Or.inl hahead⟩, fun hahead => h ⟨id, rfl, Or.inr hahead⟩⟩

theorem type_not_mem_disputed (type : String) : .type type ∉ disputed types others := by
  rintro ⟨id, h, -⟩
  cases h

theorem member_not_mem_disputed (member : String) : .member member ∉ disputed types others := by
  rintro ⟨id, h, -⟩
  cases h

/-- What is neither a member nor the type of an entry lies in nothing. -/
theorem Declared.containing_eq_none (h : Declared types Draft.empty d)
    (hplaced : Placed types Draft.empty d) {id : String} (hapart : ¬ Apart id)
    (hid : ∀ entry ∈ types, id ≠ typeId entry) : d.containing.get? id = none := by
  rw [Option.eq_none_iff_forall_ne_some]
  intro container hcontainer
  obtain ⟨s, hs⟩ := (h.becomes.sound.refers.containing.get? hcontainer).1
  by_cases hkind : s.kind = .namedType
  · obtain ⟨name, rfl, -⟩ := h.becomes.sound.types id s hs hkind
    rw [hplaced.others name fun entry hentry heq =>
      hid entry hentry (congrArg ("T:" ++ ·) heq)] at hcontainer
    cases hcontainer
  · exact hapart (h.becomes.sound.apart id s hs hkind)

/-- Drafts that are alike apart from where types lie agree on all types but those that one of two
orders brings in ahead of their outer types. -/
theorem Placed.alike (hperm : types.Perm others) (halike : Alike Slot.places d d')
    (hdeclared : Declared types Draft.empty d) (hplaced : Placed types Draft.empty d)
    (hdeclared' : Declared others Draft.empty d') (hplaced' : Placed others Draft.empty d') :
    Alike (disputed types others) d d' := by
  refine { halike with toSameLinks := halike.toSameLinks.everywhere _, containing := ?_ }
  intro id hid
  by_cases hapart : Apart id
  · exact halike.containing id (Or.inl hapart)
  obtain ⟨hahead, hahead'⟩ := place_not_mem_disputed (hid.resolve_left hapart)
  by_cases hentry : ∃ entry ∈ types, id = typeId entry
  · obtain ⟨entry, hentry, rfl⟩ := hentry
    rw [hplaced.own entry hentry hahead, hplaced'.own entry (hperm.mem_iff.mp hentry) hahead',
      halike.typeNames]
  · have hnone : ∀ entry ∈ types, id ≠ typeId entry := fun entry hmem heq =>
      hentry ⟨entry, hmem, heq⟩
    rw [hdeclared.containing_eq_none hplaced hapart hnone, hdeclared'.containing_eq_none hplaced'
      hapart fun entry hmem => hnone entry (hperm.mem_iff.mpr hmem)]

end Index
end SymbolAtlas
