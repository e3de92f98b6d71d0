import SymbolAtlas.Proofs.Index.Kind
import SymbolAtlas.Proofs.Inheritance.Descendants
import SymbolAtlas.Proofs.Resolution.Address
import SymbolAtlas.Proofs.Snapshot.Ownership
import Mathlib.Tactic

/-!
# What a resolution yields

Whatever way a target is resolved by, the symbols that come back are entries of the table of
symbols.  Where a method is wanted they are methods, where a type is wanted they are types, and a
position comes to no accessor where accessors are not wanted.
-/

namespace SymbolAtlas

open Tables

namespace Resolution

/-- What is resolved and what are candidates answer, and candidates may have an owner. -/
def Yields (answers owns : Symbol → Prop) : Resolution → Prop
  | .resolved symbol => answers symbol
  | .ambiguous candidates owner => (∀ c ∈ candidates, answers c) ∧ ∀ o ∈ owner, owns o
  | .notFound _ => True

variable {answers answers' owns : Symbol → Prop} {result : Resolution} {methods : List Symbol}
  {m : Symbol}

theorem Yields.mono (h : result.Yields answers owns) (himp : ∀ x, answers x → answers' x) :
    result.Yields answers' owns := by
  cases result with
  | resolved symbol => exact himp symbol h
  | ambiguous candidates owner => exact ⟨fun c hc => himp c (h.1 c hc), h.2⟩
  | notFound absence => trivial

theorem yields_getD {found : Option Resolution} {otherwise : Resolution}
    (hfound : ∀ r, found = some r → r.Yields answers owns)
    (hotherwise : otherwise.Yields answers owns) :
    (found.getD otherwise).Yields answers owns := by
  cases found with
  | none => exact hotherwise
  | some r => exact hfound r rfl

theorem yields_noOverload (owner : Symbol) (member : String) (list : Option String) :
    (noOverload owner member list).Yields answers owns :=
  trivial

theorem yields_ofCandidates {candidates : List Symbol} (hanswers : ∀ c ∈ candidates, answers c)
    (absence : Absence) : (ofCandidates candidates absence).Yields answers owns := by
  unfold ofCandidates
  split
  next => trivial
  next symbol => exact hanswers symbol (by simp)
  next => exact ⟨hanswers, by simp⟩

theorem mem_of_choose? {list : Option String} (hchosen : choose? methods list = some m) :
    m ∈ methods := by
  unfold choose? at hchosen
  split at hchosen
  next => simp_all
  next => simp at hchosen
  next => exact List.mem_of_find?_eq_some hchosen

end Resolution

namespace Snapshot

open Resolution

/-- The symbol is an entry of a kind. -/
def IsEntry (s : Snapshot) (kind : SymbolKind) (x : Symbol) : Prop :=
  Holds s.tables.symbols x ∧ x.kind = kind

/-- What is known of the kinds of entries in tables that were read. -/
structure WellKinded (s : Snapshot) : Prop where
  closed : s.tables.Closed
  owned : s.tables.Owned
  equipped : s.tables.Equipped
  kinds : s.tables.KindsMethods

theorem wellKinded_of_ofDocument {s : Snapshot} {disk : Disk} {data : Value} {root : String}
    {sourcePath : Option String} (hs : ofDocument disk data root sourcePath = .ok s) :
    s.WellKinded := by
  have ht := tables_of_ofDocument hs
  exact ⟨Index.closed_of_tables ht, (Index.owned_of_tables ht).1, (Index.owned_of_tables ht).2,
    Index.kindsMethods_of_tables ht⟩

variable {s : Snapshot} {type owner property m x : Symbol} {name base file : String}
  {list : Option String} {p : Position} {result : Resolution}

namespace WellKinded

/-! ## Entries that are looked up -/

theorem kind_of_methodKind (hs : s.WellKinded) (hx : Holds s.tables.symbols x)
    (hmethod : x.methodKind.isSome = true) : x.kind = .method :=
  hs.kinds.get? hx hmethod

theorem isAccessor_of_kind (hs : s.WellKinded) (hx : Holds s.tables.symbols x)
    (hkind : x.kind ≠ .method) : x.isAccessor = false := by
  have hmethod : x.methodKind = none := by
    rw [← Option.not_isSome_iff_eq_none]
    exact fun hsome => hkind (hs.kind_of_methodKind hx hsome)
  simp [Symbol.isAccessor, hmethod]

theorem holds_of_symbol? (hs : s.WellKinded) {id : String} (hx : s.symbol? id = some x) :
    Holds s.tables.symbols x := by
  have hid : x.id = id := hs.closed.ids.get? hx
  unfold Holds
  rw [hid]
  exact hx

theorem isEntry_of_typeNamed? (hs : s.WellKinded) (htype : s.typeNamed? name = some type) :
    s.IsEntry .namedType type := by
  obtain ⟨id, hid, hget⟩ := Option.bind_eq_some_iff.mp htype
  have hvalue : id ∈ s.tables.typeNames.values :=
    Table.mem_values_iff.mpr ⟨name, Table.mem_of_find? hid⟩
  obtain ⟨found, hfound, hkind, hfoundId⟩ := (hs.closed.typeNames id).mp hvalue
  have hheld : s.tables.symbols.get? found.id = some found := hs.closed.holds hfound
  rw [hfoundId] at hheld
  obtain rfl := Option.some.inj (hheld.symm.trans hget)
  exact ⟨hs.holds_of_symbol? hget, hkind⟩

theorem holds_of_mem_membersOf (hs : s.WellKinded) (hm : m ∈ s.membersOf type) :
    Holds s.tables.symbols m :=
  holds_of_mem_symbolsOf hs.closed.ids hm

theorem holds_of_mem_membersNamed (hs : s.WellKinded) (hm : m ∈ s.membersNamed owner name) :
    Holds s.tables.symbols m :=
  hs.holds_of_mem_membersOf (List.mem_of_mem_filter hm)

theorem isEntry_of_mem_constructorsOf (hs : s.WellKinded) (hm : m ∈ s.constructorsOf type) :
    s.IsEntry .method m := by
  obtain ⟨hmember, hconstructor⟩ := mem_constructorsOf_iff.mp hm
  have hheld := hs.holds_of_mem_membersOf hmember
  have hmethod : m.methodKind.isSome = true := by
    rcases hconstructor with hmethod | hmethod <;> simp [hmethod]
  exact ⟨hheld, hs.kind_of_methodKind hheld hmethod⟩

theorem isEntry_of_mem_explicitConstructorsOf (hs : s.WellKinded)
    (hm : m ∈ s.explicitConstructorsOf type) : s.IsEntry .method m :=
  hs.isEntry_of_mem_constructorsOf (List.mem_of_mem_filter hm)

theorem isEntry_of_mem_callableConstructorsOf (hs : s.WellKinded)
    (hm : m ∈ s.callableConstructorsOf type) : s.IsEntry .method m := by
  unfold callableConstructorsOf at hm
  split at hm
  next => exact hs.isEntry_of_mem_constructorsOf hm
  next => exact hs.isEntry_of_mem_explicitConstructorsOf hm

theorem holds_of_mem_membersCalled (hs : s.WellKinded) (hm : m ∈ s.membersCalled owner name) :
    Holds s.tables.symbols m := by
  unfold membersCalled at hm
  split at hm
  next => exact (hs.isEntry_of_mem_callableConstructorsOf hm).1
  next => exact hs.holds_of_mem_membersNamed hm

/-- The entry of a property for its accessors names methods. -/
theorem isEntry_of_accessorOf? (hs : s.WellKinded) (hx : s.accessorOf? property = some x) :
    s.IsEntry .method x := by
  cases hpair : s.tables.accessors.get? property.id with
  | none => simp [accessorOf?, accessorsOf, hpair] at hx
  | some pair =>
      obtain ⟨getter, setter⟩ := pair
      have hentry : ∀ kind id, s.tables.HasAccessor property.id kind id →
          s.symbol? id = some x → s.IsEntry .method x := by
        rintro kind id ⟨-, found, hfound, hkind, -⟩ hget
        obtain rfl := Option.some.inj (hfound.symm.trans hget)
        exact ⟨hs.holds_of_symbol? hget, hkind⟩
      simp only [accessorOf?, accessorsOf, hpair, Option.orElse_eq_orElse, Option.orElse_eq_or,
        Option.or_eq_some_iff, Option.bind_eq_some_iff] at hx
      rcases hx with ⟨id, hid, hget⟩ | ⟨-, id, hid, hget⟩
      · exact hentry .propertyGet id ((hs.equipped.hasAccessor_iff hpair id).1.mp hid) hget
      · exact hentry .propertySet id ((hs.equipped.hasAccessor_iff hpair id).2.mp hid) hget

theorem holds_of_enclosing? (hs : s.WellKinded) (hx : s.enclosing? file p = some x) :
    Holds s.tables.symbols x := by
  obtain ⟨found, hfound, rfl⟩ := Option.map_eq_some_iff.mp hx
  exact symbol_of_mem_spansIn hs.closed (List.mem_of_mem_filter (innermost?_mem hfound))

theorem holds_of_symbolAt? (hs : s.WellKinded) (hx : s.symbolAt? file p = some x) :
    Holds s.tables.symbols x := by
  simp only [symbolAt?, Option.orElse_eq_orElse, Option.orElse_eq_or, Option.or_eq_some_iff] at hx
  rcases hx with htoken | ⟨-, henclosing⟩
  · obtain ⟨mention, -, hget⟩ := Option.bind_eq_some_iff.mp htoken
    exact hs.holds_of_symbol? hget
  · exact hs.holds_of_enclosing? henclosing

/-- The container of an accessor is the property that it belongs to. -/
theorem isEntry_of_containerOf? (hs : s.WellKinded) (hx : Holds s.tables.symbols x)
    (haccessor : x.isAccessor = true) :
    ∃ property, s.containerOf? x = some property ∧ s.IsEntry .property property := by
  have hmethod : x.kind = .method := by
    by_contra hkind
    simp [hs.isAccessor_of_kind hx hkind] at haccessor
  obtain ⟨type, hlisted⟩ := hs.owned.listed x.id x hx (by simp [hmethod])
  obtain ⟨-, container, -, hcontainer, property, hget, hkind⟩ :=
    hs.owned.accessor type x.id hlisted x hx haccessor
  use property
  constructor
  · rw [containerOf?, hcontainer]
    exact hget
  · exact ⟨hs.holds_of_symbol? hget, hkind⟩

/-! ## Any symbol -/

theorem of_mem_declarationsCalled (hs : s.WellKinded) {methodsOnly : Bool}
    (hx : x ∈ s.declarationsCalled base list methodsOnly) :
    Holds s.tables.symbols x ∧ (methodsOnly = true → x.kind = .method) := by
  have hfiltered : ∀ p : Symbol → Bool, ∀ simple,
      x ∈ (if methodsOnly then ((s.declarationsNamed simple).filter p).filter
        fun d => d.kind == .method else (s.declarationsNamed simple).filter p) →
      Holds s.tables.symbols x ∧ (methodsOnly = true → x.kind = .method) := by
    intro p simple hmem
    cases methodsOnly with
    | false =>
        have hnamed : x ∈ s.declarationsNamed simple := List.mem_of_mem_filter hmem
        exact ⟨symbol_of_mem_declarationsNamed hs.closed hnamed, by simp⟩
    | true =>
        obtain ⟨hmem, hkind⟩ := List.mem_filter.mp hmem
        have hnamed : x ∈ s.declarationsNamed simple := List.mem_of_mem_filter hmem
        exact ⟨symbol_of_mem_declarationsNamed hs.closed hnamed, fun _ => beq_iff_eq.mp hkind⟩
  unfold declarationsCalled at hx
  cases list with
  | none => exact hfiltered _ _ hx
  | some list => exact hfiltered _ _ (List.mem_of_mem_filter hx)

theorem yields_resolveDeclaration (hs : s.WellKinded) {owns : Symbol → Prop} {methodsOnly : Bool} :
    (s.resolveDeclaration base list methodsOnly).Yields
      (fun x => Holds s.tables.symbols x ∧ (methodsOnly = true → x.kind = .method)) owns :=
  yields_ofCandidates (fun _ hc => hs.of_mem_declarationsCalled hc) _

theorem yields_resolveMembers? (hs : s.WellKinded) {owns : Symbol → Prop}
    (hresult : s.resolveMembers? owner name list = some result) :
    result.Yields (Holds s.tables.symbols) owns := by
  unfold resolveMembers? at hresult
  split at hresult
  next => simp at hresult
  next members hmembers =>
    have hheld : ∀ m ∈ s.membersCalled owner name, Holds s.tables.symbols m :=
      fun m hm => hs.holds_of_mem_membersCalled hm
    split at hresult
    next chosen hchosen =>
      obtain rfl := Option.some.inj hresult
      exact hheld chosen (mem_of_choose? hchosen)
    next =>
      obtain rfl := Option.some.inj hresult
      split
      next => trivial
      next => exact ⟨hheld, by simp⟩

theorem yields_resolveTypeName? (hs : s.WellKinded) {owns : Symbol → Prop}
    (hresult : s.resolveTypeName? base list = some result) :
    result.Yields (Holds s.tables.symbols) owns := by
  obtain ⟨type, htype, hresult⟩ := Option.bind_eq_some_iff.mp hresult
  cases list with
  | none =>
      obtain rfl := Option.some.inj hresult
      exact (hs.isEntry_of_typeNamed? htype).1
  | some list =>
      obtain ⟨chosen, hchosen, rfl⟩ := Option.map_eq_some_iff.mp hresult
      exact (hs.isEntry_of_mem_constructorsOf (mem_of_choose? hchosen)).1

theorem yields_resolveName (hs : s.WellKinded) {owns : Symbol → Prop} (target : String) :
    (s.resolveName target).Yields (Holds s.tables.symbols) owns := by
  unfold resolveName
  simp only []
  apply yields_getD
  · intro r hr
    simp only [Option.orElse_eq_orElse, Option.orElse_eq_or, Option.or_eq_some_iff,
      Option.bind_eq_bind, Option.bind_eq_some_iff] at hr
    rcases hr with htype | ⟨-, _, -, hmember⟩
    · exact hs.yields_resolveTypeName? htype
    · exact hs.yields_resolveMembers? hmember
  · exact hs.yields_resolveDeclaration.mono fun x hx => hx.1

theorem yields_resolveAt (hs : s.WellKinded) {owns : Symbol → Prop} (accessors : Bool)
    (shown : String) :
    (s.resolveAt file p accessors shown).Yields
      (fun x => Holds s.tables.symbols x ∧ (accessors = false → x.isAccessor = false)) owns := by
  unfold resolveAt
  split
  next => trivial
  next symbol hsymbol =>
    have hheld := hs.holds_of_symbolAt? hsymbol
    cases haccessor : symbol.isAccessor with
    | false => simp [Yields, hheld, haccessor]
    | true =>
        cases accessors with
        | true => simp [Yields, hheld]
        | false =>
            obtain ⟨property, hproperty, hentry, hkind⟩ :=
              hs.isEntry_of_containerOf? hheld haccessor
            have hplain := hs.isAccessor_of_kind hentry (by simp [hkind])
            simp [Yields, hproperty, hentry, hplain]

/-! ## Methods -/

theorem yields_resolveTypeAsMethod (hs : s.WellKinded) (htype : s.IsEntry .namedType type) :
    (s.resolveTypeAsMethod type list).Yields (s.IsEntry .method) (s.IsEntry .namedType) := by
  unfold resolveTypeAsMethod
  split
  next list =>
    split
    next chosen hchosen => exact hs.isEntry_of_mem_callableConstructorsOf (mem_of_choose? hchosen)
    next => exact yields_noOverload type _ _
  next =>
    split
    next constructor hone =>
      have hmem : constructor ∈ s.explicitConstructorsOf type := by simp [hone]
      exact hs.isEntry_of_mem_explicitConstructorsOf hmem
    next constructors _ =>
      simp only []
      split
      next => trivial
      next =>
        refine ⟨?_, by simp [htype]⟩
        intro c hc
        rcases List.mem_append.mp hc with hconstructor | hmethod
        · exact hs.isEntry_of_mem_explicitConstructorsOf hconstructor
        · obtain ⟨hmember, hkind⟩ := List.mem_filter.mp hmethod
          refine ⟨hs.holds_of_mem_membersOf hmember, ?_⟩
          simp only [Bool.and_eq_true, beq_iff_eq] at hkind
          exact hkind.1.1

theorem yields_resolveConstructor (hs : s.WellKinded) (howner : s.IsEntry .namedType owner) :
    (s.resolveConstructor owner list).Yields (s.IsEntry .method) (s.IsEntry .namedType) := by
  unfold resolveConstructor
  simp only []
  split
  next chosen hchosen => exact hs.isEntry_of_mem_callableConstructorsOf (mem_of_choose? hchosen)
  next =>
    split
    next => exact yields_noOverload owner _ _
    next => exact ⟨fun c hc => hs.isEntry_of_mem_callableConstructorsOf hc, by simp [howner]⟩

theorem yields_resolveMemberAsMethod? (hs : s.WellKinded) (howner : s.IsEntry .namedType owner)
    (hresult : s.resolveMemberAsMethod? owner name list = some result) :
    result.Yields (s.IsEntry .method) (s.IsEntry .namedType) := by
  unfold resolveMemberAsMethod? at hresult
  split at hresult
  next =>
    obtain rfl := Option.some.inj hresult
    exact hs.yields_resolveConstructor howner
  next =>
    simp only [] at hresult
    split at hresult
    next accessor haccessor =>
      obtain rfl := Option.some.inj hresult
      obtain ⟨property, -, hfound⟩ := List.exists_of_findSome?_eq_some haccessor
      split at hfound
      next => exact hs.isEntry_of_accessorOf? hfound
      next => simp at hfound
    next =>
      have hmethods : ∀ m ∈ (s.membersNamed owner name).filter
          (fun m => m.kind == .method && !m.isImplicit), s.IsEntry .method m := by
        intro m hm
        obtain ⟨hmember, hkind⟩ := List.mem_filter.mp hm
        simp only [Bool.and_eq_true, beq_iff_eq] at hkind
        exact ⟨hs.holds_of_mem_membersNamed hmember, hkind.1⟩
      split at hresult
      next => simp at hresult
      next =>
        split at hresult
        next chosen hchosen =>
          obtain rfl := Option.some.inj hresult
          exact hmethods chosen (mem_of_choose? hchosen)
        next =>
          obtain rfl := Option.some.inj hresult
          split
          next => exact yields_noOverload owner _ _
          next => exact ⟨hmethods, by simp [howner]⟩

theorem yields_resolveMethodName (hs : s.WellKinded) (target : String) :
    (s.resolveMethodName target).Yields (s.IsEntry .method) (s.IsEntry .namedType) := by
  unfold resolveMethodName
  simp only []
  split
  next type htype => exact hs.yields_resolveTypeAsMethod (hs.isEntry_of_typeNamed? htype)
  next =>
    apply yields_getD
    · intro r hr
      simp only [ownerAndName?, Option.bind_eq_bind, Option.bind_eq_some_iff, Option.pure_def,
        Option.some.injEq] at hr
      obtain ⟨_, ⟨_, -, owner, howner, rfl⟩, hmember⟩ := hr
      exact hs.yields_resolveMemberAsMethod? (hs.isEntry_of_typeNamed? howner) hmember
    · exact hs.yields_resolveDeclaration.mono fun x hx => ⟨hx.1, hx.2 rfl⟩

theorem yields_symbolAsMethod? (hs : s.WellKinded) (hx : Holds s.tables.symbols x)
    {accessors : Bool} (hresult : s.symbolAsMethod? x accessors = some result) :
    result.Yields (s.IsEntry .method) (s.IsEntry .namedType) := by
  unfold symbolAsMethod? at hresult
  split at hresult
  next hkind =>
    obtain rfl := Option.some.inj hresult
    exact ⟨hx, hkind⟩
  next =>
    split at hresult
    next =>
      obtain ⟨accessor, haccessor, rfl⟩ := Option.map_eq_some_iff.mp hresult
      exact hs.isEntry_of_accessorOf? haccessor
    next => simp at hresult
  next hkind =>
    obtain rfl := Option.some.inj hresult
    exact hs.yields_resolveTypeAsMethod ⟨hx, hkind⟩
  next => simp at hresult

theorem yields_resolveMethodAt (hs : s.WellKinded) (accessors : Bool) (shown : String) :
    (s.resolveMethodAt file p accessors shown).Yields (s.IsEntry .method)
      (s.IsEntry .namedType) := by
  unfold resolveMethodAt
  simp only []
  split
  next result hresult =>
    obtain ⟨symbol, hsymbol, hmethod⟩ := Option.bind_eq_some_iff.mp hresult
    exact hs.yields_symbolAsMethod? (hs.holds_of_symbolAt? hsymbol) hmethod
  next =>
    split
    next method hmethod =>
      split
      next hkind => exact ⟨hs.holds_of_enclosing? hmethod, beq_iff_eq.mp hkind⟩
      next => trivial
    next => trivial

/-! ## Types -/

/-- Going outwards ends with an entry for a type, if with anything. -/
theorem isEntry_of_climbs (hs : s.WellKinded) {start found : Option Symbol}
    (hclimbs : s.Climbs start found) (hstart : ∀ x ∈ start, Holds s.tables.symbols x) :
    ∀ type ∈ found, s.IsEntry .namedType type := by
  induction hclimbs with
  | outside => simp
  | type hkind =>
      rintro type hfound
      obtain rfl := Option.some.inj hfound
      exact ⟨hstart _ rfl, hkind⟩
  | outwards _ _ ih =>
      refine ih fun container hcontainer => ?_
      obtain ⟨id, -, hid⟩ := Option.bind_eq_some_iff.mp hcontainer
      exact hs.holds_of_symbol? hid

/-- In tables that were read no way outwards comes back, so that a type is found or nothing. -/
theorem isEntry_of_enclosingType? (hs : s.WellKinded) (hx : Holds s.tables.symbols x)
    (htype : s.enclosingType? x = some type) : s.IsEntry .namedType type := by
  have hclimbs : s.Climbs (some x) (s.enclosingType? x) :=
    climbs_enclosingTypeFrom hs.closed hs.owned.wellFounded x _ fun _ _ => rfl
  refine hs.isEntry_of_climbs hclimbs ?_ type htype
  rintro _ hsome
  obtain rfl := Option.some.inj hsome
  exact hx

theorem yields_typeOfResolution (hs : s.WellKinded)
    (hresult : result.Yields (Holds s.tables.symbols) (s.IsEntry .namedType)) :
    (s.typeOfResolution name result).Yields (s.IsEntry .namedType) (s.IsEntry .namedType) := by
  unfold typeOfResolution
  split
  next => trivial
  next symbol =>
    split
    next type htype => exact hs.isEntry_of_enclosingType? hresult htype
    next => trivial
  next owner => exact hresult.2 owner rfl
  next candidates =>
    have htypes : ∀ type ∈ distinctSymbols (candidates.filterMap s.enclosingType?),
        s.IsEntry .namedType type := by
      intro type hmem
      rw [mem_distinctSymbols_iff, List.mem_filterMap] at hmem
      obtain ⟨candidate, hcandidate, htype⟩ := hmem
      exact hs.isEntry_of_enclosingType? (hresult.1 candidate hcandidate) htype
    split
    next => trivial
    next type hone => exact htypes type (by simp [hone])
    next => exact ⟨fun type hmem => htypes type (List.mem_mergeSort.mp hmem), by simp⟩

theorem yields_resolveTypeOf (hs : s.WellKinded) (target : String) :
    (s.resolveTypeOf target).Yields (s.IsEntry .namedType) (s.IsEntry .namedType) := by
  unfold resolveTypeOf
  split
  next type htype => exact hs.isEntry_of_typeNamed? htype
  next => exact hs.yields_typeOfResolution (hs.yields_resolveName target)

theorem yields_resolveTypeAt (hs : s.WellKinded) (shown : String) :
    (s.resolveTypeAt file p shown).Yields (s.IsEntry .namedType) (s.IsEntry .namedType) := by
  unfold resolveTypeAt
  split
  next type htype =>
    obtain ⟨symbol, hsymbol, henclosing⟩ := Option.bind_eq_some_iff.mp htype
    exact hs.isEntry_of_enclosingType? (hs.holds_of_symbolAt? hsymbol) henclosing
  next => trivial

end WellKinded

/-! ## Targets -/

/-- A position is resolved in a file, if it is resolved. -/
theorem exists_file {α : Type} {file : Value} {f : String → α} {r : α}
    (hr : (fileOfTarget file).map f = .ok r) : ∃ name, file = .text name ∧ r = f name := by
  cases file with
  | text name => exact ⟨name, rfl, (Except.ok.inj hr).symm⟩
  | _ => cases hr

theorem WellKinded.yields_resolve (hs : s.WellKinded) {target : Target} {accessors : Bool}
    (hresult : s.resolve target accessors = .ok result) :
    result.Yields (Holds s.tables.symbols) (s.IsEntry .namedType) := by
  cases target with
  | named name =>
      obtain rfl := Except.ok.inj hresult
      exact hs.yields_resolveName name
  | «at» file p =>
      obtain ⟨name, -, rfl⟩ := exists_file hresult
      exact (hs.yields_resolveAt accessors _).mono fun x hx => hx.1

theorem WellKinded.yields_resolve_at (hs : s.WellKinded) {file : Value}
    (hresult : s.resolve (.at file p) false = .ok result) :
    result.Yields (fun x => x.isAccessor = false) (s.IsEntry .namedType) := by
  obtain ⟨name, -, rfl⟩ := exists_file hresult
  exact (hs.yields_resolveAt false _).mono fun x hx => hx.2 rfl

theorem WellKinded.yields_resolveMethod (hs : s.WellKinded) {target : Target} {accessors : Bool}
    (hresult : s.resolveMethod target accessors = .ok result) :
    result.Yields (s.IsEntry .method) (s.IsEntry .namedType) := by
  cases target with
  | named name =>
      obtain rfl := Except.ok.inj hresult
      exact hs.yields_resolveMethodName name
  | «at» file p =>
      obtain ⟨name, -, rfl⟩ := exists_file hresult
      exact hs.yields_resolveMethodAt accessors _

theorem WellKinded.yields_resolveType (hs : s.WellKinded) {target : Target}
    (hresult : s.resolveType target = .ok result) :
    result.Yields (s.IsEntry .namedType) (s.IsEntry .namedType) := by
  cases target with
  | named name =>
      obtain rfl := Except.ok.inj hresult
      exact hs.yields_resolveTypeOf name
  | «at» file p =>
      obtain ⟨name, -, rfl⟩ := exists_file hresult
      exact hs.yields_resolveTypeAt _

/-- In every loaded document a target resolves to entries of the kind that is wanted, and a position
to no accessor where accessors are not wanted. -/
theorem resolution_kinds {disk : Disk} {data : Value} {root : String} {sourcePath : Option String}
    (hs : ofDocument disk data root sourcePath = .ok s) (target : Target) (accessors : Bool) :
    (∀ r, s.resolveMethod target accessors = .ok r →
        r.Yields (s.IsEntry .method) (s.IsEntry .namedType)) ∧
      (∀ r, s.resolveType target = .ok r →
        r.Yields (s.IsEntry .namedType) (s.IsEntry .namedType)) ∧
      (∀ file p r, s.resolve (.at file p) false = .ok r →
        r.Yields (fun x => x.isAccessor = false) (s.IsEntry .namedType)) ∧
      ∀ r, s.resolve target accessors = .ok r →
        r.Yields (Holds s.tables.symbols) (s.IsEntry .namedType) := by
  have hwell := wellKinded_of_ofDocument hs
  exact ⟨fun _ => hwell.yields_resolveMethod, fun _ => hwell.yields_resolveType,
    fun _ _ _ => hwell.yields_resolve_at, fun _ => hwell.yields_resolve⟩

/-- A basket with a property that has a getter on a line of its own. -/
def basketDocument : Value :=
  let getter := .mapping [(.text "line", .int 4)]
  let total := .mapping [(.text "kind", .text "property"), (.text "name", .text "Total"),
    (.text "line", .int 3), (.text "end_line", .int 5), (.text "get", getter)]
  .mapping [(.text "types", .list [.mapping [(.text "name", .text "Shop.Basket"),
    (.text "file", .text "Basket.cs"), (.text "members", .list [total])]])]

theorem resolution_kinds_basket : ∃ s getter type property,
    ofDocument .empty basketDocument "/work" none = .ok s ∧
      s.resolveMethod (.named "Shop.Basket.Total") false = .ok (.resolved getter) ∧
        s.IsEntry .method getter ∧
      s.resolveType (.named "Shop.Basket.Total") = .ok (.resolved type) ∧
        s.IsEntry .namedType type ∧
      s.resolve (.at (.text "Basket.cs") ⟨.whole 4, .whole 2⟩) false = .ok (.resolved property) ∧
        property.isAccessor = false ∧ Holds s.tables.symbols property := by
  have hfacts : (ofDocument .empty basketDocument "/work" none).toOption.any (fun s =>
      (s.symbol? "M:Shop.Basket.get_Total").any fun getter =>
      (s.symbol? "T:Shop.Basket").any fun type =>
      (s.symbol? "P:Shop.Basket.Total").any fun property => decide (
        (s.resolveMethod (.named "Shop.Basket.Total") false).toOption = some (.resolved getter) ∧
        (s.resolveType (.named "Shop.Basket.Total")).toOption = some (.resolved type) ∧
        (s.resolve (.at (.text "Basket.cs") ⟨.whole 4, .whole 2⟩) false).toOption =
          some (.resolved property))) = true := by
    decide +kernel
  obtain ⟨s, hs, hfacts⟩ := Attempt.exists_ok_of_any hfacts
  obtain ⟨getter, -, hfacts⟩ := (Option.any_eq_true _ _).mp hfacts
  obtain ⟨type, -, hfacts⟩ := (Option.any_eq_true _ _).mp hfacts
  obtain ⟨property, -, hfacts⟩ := (Option.any_eq_true _ _).mp hfacts
  obtain ⟨hmethod, htype, hposition⟩ := of_decide_eq_true hfacts
  have hok : ∀ {r : Attempt Resolution} {x : Symbol}, r.toOption = some (.resolved x) →
      r = .ok (.resolved x) := by
    intro r x hr
    cases r with
    | error => simp [Except.toOption] at hr
    | ok => simpa [Except.toOption] using hr
  have hgetter := (resolution_kinds hs (.named "Shop.Basket.Total") false).1 _ (hok hmethod)
  have howner := (resolution_kinds hs (.named "Shop.Basket.Total") false).2.1 _ (hok htype)
  obtain ⟨-, -, hplain, hheld⟩ :=
    resolution_kinds hs (.at (.text "Basket.cs") ⟨.whole 4, .whole 2⟩) false
  exact ⟨s, getter, type, property, hs, hok hmethod, hgetter, hok htype, howner, hok hposition,
    hplain _ _ _ (hok hposition), hheld _ (hok hposition)⟩

end Snapshot
end SymbolAtlas
