import SymbolAtlas.Proofs.Index.Naming
import Mathlib.Tactic

/-!
# What metadata adds

Behind the first pass nothing comes in but metadata.  A draft is enriched if all that it says about
known symbols stays as it is: a list of members gets new ids only, at its end and for a type that
may get further members, and no new symbol has a location, an extent or a body.  This is the frame
of every later step, from which the passes that follow the declarations are told apart from them.
-/

namespace SymbolAtlas

/-- The symbol has no place in the sources and no modifier that only sources give. -/
structure Symbol.IsBare (s : Symbol) : Prop where
  location : s.location = none
  modifier : s.isOverride = false

namespace Draft

open Tables

/-- The id comes in on the way from one draft to another. -/
def Brings (d d' : Draft) (id : String) : Prop :=
  d.symbols.get? id = none ∧ Known d'.symbols id

/-- The second draft has all that the first has, and beside it new types and new members of types
that may get further ones. -/
structure Enriches (d d' : Draft) : Prop where
  kept : Kept d.symbols d'.symbols
  added : ∀ id s, d.symbols.get? id = none → d'.symbols.get? id = some s →
    s.IsBare ∧ Calls d'.symbols s ∧
      (s.kind = .namedType ∨ ∃ type ∈ d'.metadataTypes, id ∈ d'.members.listAt type)
  typeNames : ∀ name, d'.typeNames.get? name = d.typeNames.get? name ∨
    ∃ id, d'.typeNames.get? name = some id ∧ Brings d d' id
  members : ∀ type, ∃ more, d'.members.listAt type = d.members.listAt type ++ more ∧
    (∀ id ∈ more, Brings d d' id) ∧ (more = [] ∨ type ∈ d'.metadataTypes)
  containing : ∀ id, d'.containing.get? id = d.containing.get? id ∨ Brings d d' id
  accessors : ∀ id, d'.accessors.get? id = d.accessors.get? id ∨ Brings d d' id
  metadata : ∀ type ∈ d.metadataTypes, type ∈ d'.metadataTypes
  fresh : ∀ type ∈ d'.metadataTypes, type ∈ d.metadataTypes ∨ Brings d d' type
  spans : d'.spans = d.spans
  waiting : d'.pendingBodies = d.pendingBodies
  bodies : ∀ id, d'.bodies.get? id = d.bodies.get? id ∨
    id ∈ d.pendingBodies.map PendingBody.method

variable {d d' d'' : Draft} {id : String}

theorem Brings.mono (h : Brings d d' id) (hkept : Kept d'.symbols d''.symbols) : Brings d d'' id :=
  ⟨h.1, h.2.mono hkept⟩

theorem Brings.after (h : Brings d' d'' id) (hkept : Kept d.symbols d'.symbols) :
    Brings d d'' id := by
  refine ⟨?_, h.2⟩
  cases hget : d.symbols.get? id with
  | none => rfl
  | some s =>
      have hold := hkept id s hget
      rw [h.1] at hold
      cases hold

/-- Drafts that differ in nothing that metadata adds to, but for the bodies of methods that wait for
theirs. -/
theorem Enriches.of_same (hsymbols : d'.symbols = d.symbols) (hnames : d'.typeNames = d.typeNames)
    (hmembers : d'.members = d.members) (hcontaining : d'.containing = d.containing)
    (haccessors : d'.accessors = d.accessors) (hmetadata : d'.metadataTypes = d.metadataTypes)
    (hspans : d'.spans = d.spans) (hwaiting : d'.pendingBodies = d.pendingBodies)
    (hbodies : ∀ id, d'.bodies.get? id = d.bodies.get? id ∨
      id ∈ d.pendingBodies.map PendingBody.method) : d.Enriches d' where
  kept := by
    rw [hsymbols]
    exact Kept.refl _
  added := by
    intro id s hnone hsome
    rw [hsymbols, hnone] at hsome
    cases hsome
  typeNames name := Or.inl (by rw [hnames])
  members type := ⟨[], by rw [hmembers, List.append_nil], by simp, Or.inl rfl⟩
  containing id := Or.inl (by rw [hcontaining])
  accessors id := Or.inl (by rw [haccessors])
  metadata := by simp [hmetadata]
  fresh := by
    intro type htype
    rw [hmetadata] at htype
    exact Or.inl htype
  spans := hspans
  waiting := hwaiting
  bodies := hbodies

theorem Enriches.refl (d : Draft) : d.Enriches d :=
  Enriches.of_same rfl rfl rfl rfl rfl rfl rfl rfl fun _ => Or.inl rfl

theorem Brings.not_known (h : Brings d d' id) : ¬ Known d.symbols id := by
  rintro ⟨s, hs⟩
  rw [h.1] at hs
  cases hs

/-- What is known stays where it lies. -/
theorem Enriches.containing_eq (h : d.Enriches d') (hid : Known d.symbols id) :
    d'.containing.get? id = d.containing.get? id :=
  (h.containing id).resolve_right fun hnew => hnew.not_known hid

theorem Enriches.accessors_eq (h : d.Enriches d') (hid : Known d.symbols id) :
    d'.accessors.get? id = d.accessors.get? id :=
  (h.accessors id).resolve_right fun hnew => hnew.not_known hid

theorem Enriches.mem_listAt (h : d.Enriches d') {type : String}
    (hid : id ∈ d.members.listAt type) : id ∈ d'.members.listAt type := by
  obtain ⟨more, hmore, -⟩ := h.members type
  rw [hmore]
  exact List.mem_append_left more hid

/-- What is the same or new after each of two steps is the same or new after both. -/
theorem Enriches.same_or_brings {α : Type} {a a' a'' : Option α} (hfirst : d.Enriches d')
    (hlast : d'.Enriches d'') (h : a' = a ∨ Brings d d' id) (h' : a'' = a' ∨ Brings d' d'' id) :
    a'' = a ∨ Brings d d'' id := by
  obtain hsame' | hnew := h'
  · obtain hsame | hnew := h
    · exact Or.inl (hsame'.trans hsame)
    · exact Or.inr (hnew.mono hlast.kept)
  · exact Or.inr (hnew.after hfirst.kept)

theorem Enriches.trans (hfirst : d.Enriches d') (hlast : d'.Enriches d'') : d.Enriches d'' where
  kept := hfirst.kept.trans hlast.kept
  added := by
    intro id s hnone hsome
    cases hmiddle : d'.symbols.get? id with
    | none => exact hlast.added id s hmiddle hsome
    | some old =>
        have hold := hlast.kept id old hmiddle
        rw [hsome, Option.some.injEq] at hold
        subst hold
        obtain ⟨hbare, hcalls, hkind⟩ := hfirst.added id s hnone hmiddle
        refine ⟨hbare, hcalls.mono hlast.kept, hkind.imp_right ?_⟩
        rintro ⟨type, htype, hmember⟩
        exact ⟨type, hlast.metadata type htype, hlast.mem_listAt hmember⟩
  typeNames := by
    intro name
    obtain hsame' | ⟨id, hid, hnew⟩ := hlast.typeNames name
    · obtain hsame | ⟨id, hid, hnew⟩ := hfirst.typeNames name
      · exact Or.inl (hsame'.trans hsame)
      · exact Or.inr ⟨id, hsame'.trans hid, hnew.mono hlast.kept⟩
    · exact Or.inr ⟨id, hid, hnew.after hfirst.kept⟩
  members := by
    intro type
    obtain ⟨more, hmore, hnew, htype⟩ := hfirst.members type
    obtain ⟨more', hmore', hnew', htype'⟩ := hlast.members type
    refine ⟨more ++ more', by rw [hmore', hmore, List.append_assoc], ?_, ?_⟩
    · intro id hid
      obtain hid | hid := List.mem_append.mp hid
      · exact (hnew id hid).mono hlast.kept
      · exact (hnew' id hid).after hfirst.kept
    · obtain rfl | htype' := htype'
      · rw [List.append_nil]
        exact htype.imp_right (hlast.metadata type)
      · exact Or.inr htype'
  containing id := hfirst.same_or_brings hlast (hfirst.containing id) (hlast.containing id)
  accessors id := hfirst.same_or_brings hlast (hfirst.accessors id) (hlast.accessors id)
  metadata type htype := hlast.metadata type (hfirst.metadata type htype)
  fresh := by
    intro type htype
    obtain hold | hnew := hlast.fresh type htype
    · exact (hfirst.fresh type hold).imp_right fun hnew => hnew.mono hlast.kept
    · exact Or.inr (hnew.after hfirst.kept)
  spans := hlast.spans.trans hfirst.spans
  waiting := hlast.waiting.trans hfirst.waiting
  bodies := by
    intro id
    obtain hsame | hwaits := hlast.bodies id
    · rw [hsame]
      exact hfirst.bodies id
    · rw [hfirst.waiting] at hwaits
      exact Or.inr hwaits

/-! ## Metadata comes in -/

theorem Sound.listAt_members_of_new (hd : d.Sound) (hnew : d.symbols.get? id = none) :
    d.members.listAt id = [] := by
  unfold Table.listAt
  cases hget : d.members.get? id with
  | none => rfl
  | some ids =>
      obtain ⟨s, hs⟩ := (hd.refers.members.get? hget).1
      rw [hnew] at hs
      cases hs

theorem get?_registerTypeName_cases (d : Draft) (qualified id name : String) :
    (d.registerTypeName qualified id).typeNames.get? name = d.typeNames.get? name ∨
      (d.registerTypeName qualified id).typeNames.get? name = some id := by
  have hinsert : (d.typeNames.insert qualified id).get? name = d.typeNames.get? name ∨
      (d.typeNames.insert qualified id).get? name = some id := by
    rw [Table.get?_insert]
    split
    next => exact Or.inr rfl
    next => exact Or.inl rfl
  unfold registerTypeName
  split
  next =>
    rw [Table.get?_insertNew]
    cases hget : (d.typeNames.insert qualified id).get? name with
    | some found =>
        rw [hget] at hinsert
        exact hinsert
    | none =>
        rw [hget] at hinsert
        rw [Option.none_or]
        split
        next => exact Or.inr rfl
        next => exact Or.inl (hinsert.resolve_right (by simp))
  next => exact hinsert

/-- A type comes in from metadata. -/
theorem Sound.enriches_putType (hd : d.Sound) {name : String} {s : Symbol}
    (hnew : d.symbols.get? s.id = none) (hbare : s.IsBare) (hcalls : Calls d.symbols s)
    (hkind : s.kind = .namedType) : d.Enriches (d.putType name s true) := by
  have hself : Known (d.symbols.insert s.id s) s.id := ⟨s, get?_insert_self _ _⟩
  refine { kept := kept_insert hnew, added := ?_, typeNames := ?_, members := ?_,
           containing := fun id => Or.inl rfl, accessors := fun id => Or.inl rfl,
           metadata := fun type htype => List.mem_append_left _ htype, fresh := ?_,
           spans := rfl, waiting := rfl, bodies := fun id => Or.inl rfl }
  · intro id t hnone hsome
    obtain ⟨-, rfl⟩ | hold := get?_insert_cases hsome
    · exact ⟨hbare, hcalls.mono (kept_insert hnew), Or.inl hkind⟩
    · rw [hnone] at hold
      cases hold
  · intro other
    obtain hsame | hfound := get?_registerTypeName_cases
      { d with symbols := d.symbols.insert s.id s } name s.id other
    · exact Or.inl hsame
    · exact Or.inr ⟨s.id, hfound, hnew, hself⟩
  · intro type
    refine ⟨[], ?_, by simp, Or.inl rfl⟩
    have hlist : (d.putType name s true).members.listAt type =
        if s.id = type then [] else d.members.listAt type := Table.listAt_insert _ _ _ _
    rw [hlist, List.append_nil]
    split
    next heq =>
      rw [heq] at hnew
      exact (hd.listAt_members_of_new hnew).symm
    next => rfl
  · intro type htype
    obtain hold | hlast := List.mem_append.mp htype
    · exact Or.inl hold
    · rw [List.mem_singleton.mp hlast]
      exact Or.inr ⟨hnew, hself⟩

/-- A member comes in from metadata. -/
theorem enriches_putMember {type : String} {s : Symbol} (hnew : d.symbols.get? s.id = none)
    (hbare : s.IsBare) (hcalls : Calls d.symbols s) (htype : type ∈ d.metadataTypes) :
    d.Enriches (d.putMember type s none) := by
  have hself : Known (d.symbols.insert s.id s) s.id := ⟨s, get?_insert_self _ _⟩
  have hlist : ∀ other, (d.putMember type s none).members.listAt other =
      if type = other then d.members.listAt type ++ [s.id] else d.members.listAt other :=
    fun other => Table.listAt_insert _ _ _ _
  refine { kept := kept_insert hnew, added := ?_, typeNames := fun name => Or.inl rfl,
           members := ?_, containing := ?_, accessors := fun id => Or.inl rfl,
           metadata := fun _ h => h, fresh := fun _ h => Or.inl h, spans := rfl, waiting := rfl,
           bodies := fun id => Or.inl rfl }
  · intro id t hnone hsome
    obtain ⟨hid, rfl⟩ | hold := get?_insert_cases hsome
    · refine ⟨hbare, hcalls.mono (kept_insert hnew), Or.inr ⟨type, htype, ?_⟩⟩
      rw [hlist, if_pos rfl, ← hid]
      exact List.mem_append_right _ (List.mem_singleton_self _)
    · rw [hnone] at hold
      cases hold
  · intro other
    rw [hlist]
    split
    next heq =>
      subst heq
      refine ⟨[s.id], rfl, ?_, Or.inr htype⟩
      intro id hid
      rw [List.mem_singleton.mp hid]
      exact ⟨hnew, hself⟩
    next => exact ⟨[], (List.append_nil _).symm, by simp, Or.inl rfl⟩
  · intro id
    have hget : (d.putMember type s none).containing.get? id =
        if s.id = id then some type else d.containing.get? id := Table.get?_insert _ _ _ _
    rw [hget]
    split
    next heq =>
      subst heq
      exact Or.inr ⟨hnew, hself⟩
    next => exact Or.inl rfl

theorem Enriches.putContaining (h : d.Enriches d') (hid : Brings d d' id) (container : String) :
    d.Enriches (d'.putContaining id container) := by
  refine { h with containing := ?_ }
  intro other
  have hget : (d'.putContaining id container).containing.get? other =
      if id = other then some container else d'.containing.get? other := Table.get?_insert _ _ _ _
  rw [hget]
  split
  next heq =>
    subst heq
    exact Or.inr hid
  next => exact h.containing other

theorem Enriches.putAccessors (h : d.Enriches d') (hid : Brings d d' id)
    (getter setter : Option String) : d.Enriches (d'.putAccessors id getter setter) := by
  refine { h with accessors := ?_ }
  intro other
  have hget : (d'.putAccessors id getter setter).accessors.get? other =
      if id = other then some (getter, setter) else d'.accessors.get? other :=
    Table.get?_insert _ _ _ _
  rw [hget]
  split
  next heq =>
    subst heq
    exact Or.inr hid
  next => exact h.accessors other

/-- An accessor comes in together with its place in a property. -/
theorem Enriches.putAccessor (h : d.Enriches d') {type : String} {accessor : Symbol}
    (hnew : d'.symbols.get? accessor.id = none) (hbare : accessor.IsBare)
    (hcalls : Calls d'.symbols accessor) (htype : type ∈ d'.metadataTypes) (property : String) :
    d.Enriches ((d'.putMember type accessor none).putContaining accessor.id property) := by
  have hadded := enriches_putMember hnew hbare hcalls htype
  have hself : Known (d'.putMember type accessor none).symbols accessor.id :=
    ⟨accessor, get?_insert_self _ _⟩
  exact (h.trans hadded).putContaining (Brings.after ⟨hnew, hself⟩ h.kept) property

/-- A property comes in together with its two accessors. -/
theorem enriches_property {type : String} {property getter setter : Symbol}
    (htype : type ∈ d.metadataTypes) (hproperty : d.symbols.get? property.id = none)
    (hgetter : (d.putMember type property none).symbols.get? getter.id = none)
    (hsetter : (((d.putMember type property none).putMember type getter none).putContaining
      getter.id property.id).symbols.get? setter.id = none) (hbare : property.IsBare)
    (hbare₁ : getter.IsBare) (hbare₂ : setter.IsBare) (hcalls : Calls d.symbols property)
    (hcalls₁ : ∀ symbols, Calls symbols getter) (hcalls₂ : ∀ symbols, Calls symbols setter) :
    d.Enriches ((((((d.putMember type property none).putMember type getter none).putContaining
      getter.id property.id).putMember type setter none).putContaining setter.id
        property.id).putAccessors property.id (some getter.id) (some setter.id)) := by
  have hadded := enriches_putMember hproperty hbare hcalls htype
  have hself : Known (d.putMember type property none).symbols property.id :=
    ⟨property, get?_insert_self _ _⟩
  have hfirst := hadded.putAccessor hgetter hbare₁ (hcalls₁ _) htype property.id
  have hboth := hfirst.putAccessor hsetter hbare₂ (hcalls₂ _) htype property.id
  refine hboth.putAccessors ⟨hproperty, ?_⟩ _ _
  exact (hself.mono (kept_insert hgetter)).mono (kept_insert hsetter)

end Draft
end SymbolAtlas
