import SymbolAtlas.Proofs.Index.Title
import SymbolAtlas.Proofs.Name.Signature
import SymbolAtlas.Proofs.Snapshot.Hierarchy
import SymbolAtlas.Resolution
import Mathlib.Tactic

/-!
# Methods are found under what they are shown as

A method is shown with its type, its name and the types of its parameters, and read as a target this
stands for the same method again.  Any other method of the type with the same name has parameters
of other canonical types, since the two would have the same id otherwise.  Constructors are named by
their type or by `.ctor`, and both of these stand for static constructors as well, so that one of
those with the same parameters hides a constructor that is declared behind it.
-/

namespace SymbolAtlas

open Tables

namespace Resolution

variable {methods : List Symbol} {m : Symbol}

/-- The types of a method's own parameters choose it, unless another method that they match comes
before it. -/
theorem choose?_own (htypes : ∀ type ∈ m.parameterTypes, Signature.Listable type)
    (hm : m ∈ methods)
    (hfirst : ∀ x, [x, m].Sublist methods →
      Signature.typesMatch m.parameterTypes x.parameterTypes = true → x = m) :
    choose? methods (some (", ".intercalate m.parameterTypes)) = some m := by
  unfold choose?
  simp only [Signature.parameters_intercalate_blank htypes]
  -- the first of those that match is the method itself or comes before it
  have hfound : (methods.find? fun x =>
      Signature.typesMatch m.parameterTypes x.parameterTypes).isSome = true :=
    List.find?_isSome.mpr ⟨m, hm, Signature.typesMatch_refl _⟩
  obtain ⟨x, hx⟩ := Option.isSome_iff_exists.mp hfound
  obtain ⟨hmatch, before, after, rfl, hbefore⟩ := List.find?_eq_some_iff_append.mp hx
  rw [hx]
  rcases List.mem_append.mp hm with hearly | hlate
  · have hnot := hbefore m hearly
    rw [Signature.typesMatch_refl] at hnot
    cases hnot
  · rcases List.mem_cons.mp hlate with rfl | hlater
    · rfl
    · have hpair : [x, m].Sublist (x :: after) :=
        (List.singleton_sublist.mpr hlater).cons_cons x
      have hsame := hfirst x (hpair.trans (List.sublist_append_right before _)) hmatch
      rw [hsame]

/-- What is chosen is chosen from something. -/
theorem exists_cons_of_choose? {list : String} (hchosen : choose? methods (some list) = some m) :
    ∃ first rest, methods = first :: rest := by
  cases methods with
  | nil => cases hchosen
  | cons first rest => exact ⟨first, rest, rfl⟩

end Resolution

/-- A method whose name is one segment of a path, and whose parameter types can be listed. -/
structure Symbol.Spellable (m : Symbol) : Prop where
  bare : '(' ∉ m.name.toList
  trimmed : Text.trim m.name = m.name
  undotted : '.' ∉ m.name.toList
  listable : ∀ type ∈ m.parameterTypes, Signature.Listable type

namespace Snapshot

open Resolution

variable {s : Snapshot} {type m x : Symbol} {name : String} {types : List String}

/-! ## Methods of a type -/

/-- Methods are called by the types that list them. -/
structure WellTitled (s : Snapshot) : Prop where
  closed : s.tables.Closed
  owned : s.tables.Owned
  titled : s.tables.AllTitled

theorem wellTitled_of_ofDocument {disk : Disk} {data : Value} {root : String}
    {sourcePath : Option String} (hs : ofDocument disk data root sourcePath = .ok s) :
    s.WellTitled := by
  have ht := tables_of_ofDocument hs
  exact ⟨Index.closed_of_tables ht, (Index.owned_of_tables ht).1, Index.allTitled_of_tables ht⟩

theorem WellTitled.titled_of_mem (hs : s.WellTitled) (hm : m ∈ s.membersOf type)
    (hplain : m.IsPlainMethod) : s.tables.Titled type.id m := by
  obtain ⟨id, hid, hget⟩ := mem_symbolsOf.mp hm
  exact hs.titled type.id id hid m hget hplain

theorem WellTitled.isMethodOf (hs : s.WellTitled) (htype : Holds s.tables.symbols type)
    (hm : m ∈ s.membersOf type) (hplain : m.IsPlainMethod) : m.IsMethodOf type := by
  obtain ⟨owner, -, howner, hcalled, -⟩ := hs.titled_of_mem hm hplain
  have htype : s.tables.symbols.get? type.id = some type := htype
  obtain rfl := Option.some.inj (howner.symm.trans htype)
  exact hcalled

/-- Methods of one type with one name and the same canonical parameter types are one. -/
theorem eq_of_typesMatch (hs : s.tables.Closed) (hm : m ∈ s.membersOf type)
    (hx : x ∈ s.membersOf type) (hcalled : m.IsMethodOf type) (hother : x.IsMethodOf type)
    (hname : x.name = m.name)
    (hmatch : Signature.typesMatch m.parameterTypes x.parameterTypes = true) : x = m := by
  have htypes : m.parameters.map (fun p => TypeName.canonical p.type) =
      x.parameters.map fun p => TypeName.canonical p.type := by
    have hcanonical := Signature.typesMatch_iff.mp hmatch
    simpa [Symbol.parameterTypes, Function.comp_def] using hcanonical
  have hid : x.id = m.id := by
    rw [hother.id, hcalled.id, hname]
    unfold Entry.methodId
    rw [htypes]
  exact (holds_of_mem_symbolsOf hs.ids hx).eq_of_id (holds_of_mem_symbolsOf hs.ids hm) hid

/-- Among methods of one type the types of a method's own parameters choose it, if those before it
that they match as well have its name. -/
theorem WellTitled.choose?_own (hs : s.WellTitled) (htype : Holds s.tables.symbols type)
    {methods : List Symbol}
    (hmethods : ∀ x ∈ methods, x ∈ s.membersOf type ∧ x.IsPlainMethod)
    (htypes : ∀ t ∈ m.parameterTypes, Signature.Listable t) (hm : m ∈ methods)
    (hfirst : ∀ x, [x, m].Sublist methods →
      Signature.typesMatch m.parameterTypes x.parameterTypes = true → x.name = m.name) :
    choose? methods (some (", ".intercalate m.parameterTypes)) = some m := by
  have hcalled : ∀ x ∈ methods, x ∈ s.membersOf type ∧ x.IsMethodOf type := by
    intro x hx
    obtain ⟨hmember, hplain⟩ := hmethods x hx
    exact ⟨hmember, hs.isMethodOf htype hmember hplain⟩
  refine Resolution.choose?_own htypes hm ?_
  intro x hbefore hmatch
  obtain ⟨hmember, hself⟩ := hcalled m hm
  obtain ⟨hother, hcalledOther⟩ := hcalled x (hbefore.subset List.mem_cons_self)
  exact eq_of_typesMatch hs.closed hmember hother hself hcalledOther (hfirst x hbefore hmatch)
    hmatch

/-! ## Names put together -/

/-- A type that is found under its display, which is trimmed, opens no parameter list and does not
end in a dot. -/
structure Addressable (s : Snapshot) (type : Symbol) : Prop where
  registered : s.typeNamed? type.display = some type
  bare : '(' ∉ type.display.toList
  trimmed : Text.trim type.display = type.display
  undotted : type.display.toList.getLast? ≠ some '.'

namespace Addressable

theorem exists_id (ht : s.Addressable type) (hs : s.tables.Closed) :
    s.tables.typeNames.get? type.display = some type.id ∧ Holds s.tables.symbols type := by
  obtain ⟨id, hid, hget⟩ := Option.bind_eq_some_iff.mp ht.registered
  obtain rfl : type.id = id := hs.ids.get? hget
  exact ⟨hid, hget⟩

theorem holds (ht : s.Addressable type) (hs : s.tables.Closed) : Holds s.tables.symbols type :=
  (ht.exists_id hs).2

theorem of_registered (htype : Holds s.tables.symbols type) (hshown : type.display = name)
    (hregistered : s.tables.typeNames.get? name = some type.id) (hbare : '(' ∉ name.toList)
    (htrimmed : Text.trim name = name) (hundotted : name.toList.getLast? ≠ some '.') :
    s.Addressable type := by
  subst hshown
  refine ⟨?_, hbare, htrimmed, hundotted⟩
  unfold typeNamed?
  rw [hregistered, Option.bind_some]
  exact htype

/-- A type with methods is not shown as the empty text. -/
theorem display_ne_empty (ht : s.Addressable type) (hs : s.tables.Closed)
    (howned : s.tables.Owned) (htitled : s.tables.Titled type.id m) : type.display ≠ "" := by
  intro hempty
  have hlength := (howned.named _ _ (ht.exists_id hs).1).2
  have hmore := two_lt_length howned htitled
  rw [hlength, hempty, String.length_empty] at hmore
  omega

theorem split_type (ht : s.Addressable type) (htypes : ∀ t ∈ types, Signature.Listable t) :
    Signature.split (type.display ++ "(" ++ ", ".intercalate types ++ ")") =
      (type.display, some (", ".intercalate types)) := by
  rw [Signature.split_call ht.bare ht.trimmed, Signature.trim_intercalate htypes]

theorem split_member (ht : s.Addressable type) (hne : type.display ≠ "")
    (hbare : '(' ∉ name.toList) (htrimmed : Text.trim name = name)
    (htypes : ∀ t ∈ types, Signature.Listable t) :
    Signature.split (Entry.methodDisplay type.display name types) =
      (type.display ++ "." ++ name, some (", ".intercalate types)) := by
  have hopen := Signature.bare_dotted ht.bare hbare
  have hbase := Signature.trim_dotted hne ht.trimmed htrimmed
  have hlist := Signature.split_call hopen hbase (", ".intercalate types)
  rwa [Signature.trim_intercalate htypes] at hlist

end Addressable

/-- A name that no type has stands for no type. -/
theorem typeNamed?_eq_none (hfree : s.tables.typeNames.contains name = false) :
    s.typeNamed? name = none := by
  unfold typeNamed?
  rw [Table.get?_of_contains hfree, Option.bind_none]

theorem ownerAndName?_eq_some {base : String} (ht : s.Addressable type)
    (hparts : Signature.splitMember? base = some (type.display, name)) :
    s.ownerAndName? base = some (type, name) := by
  unfold ownerAndName?
  rw [hparts, Option.bind_eq_bind, Option.bind_some]
  simp only []
  rw [ht.registered]
  rfl

/-- Members that a list chooses from answer for their name. -/
theorem resolveMembers?_eq_some {list : String}
    (hchosen : choose? (s.membersCalled type name) (some list) = some m) :
    s.resolveMembers? type name (some list) = some (.resolved m) := by
  obtain ⟨first, rest, hmembers⟩ := exists_cons_of_choose? hchosen
  unfold resolveMembers?
  rw [hmembers] at hchosen ⊢
  simp only [hchosen]

/-- A target with a list names no type, but a member of one. -/
def NamesMember (s : Snapshot) (target : String) (type : Symbol) (name list : String) : Prop :=
  ∃ base, Signature.split target = (base, some list) ∧ s.typeNamed? base = none ∧
    s.ownerAndName? base = some (type, name)

theorem resolveName_of_namesMember {target list : String}
    (hmember : s.NamesMember target type name list)
    (hchosen : choose? (s.membersCalled type name) (some list) = some m) :
    s.resolveName target = .resolved m := by
  obtain ⟨base, hsplit, htype, howner⟩ := hmember
  unfold resolveName resolveTypeName?
  rw [hsplit]
  simp only []
  rw [htype, howner, Option.bind_eq_bind, Option.bind_eq_bind, Option.bind_none, Option.bind_some,
    resolveMembers?_eq_some hchosen]
  rfl

theorem resolveMethodName_of_namesMember {target list : String}
    (hmember : s.NamesMember target type name list)
    (hresolved : s.resolveMemberAsMethod? type name (some list) = some (.resolved m)) :
    s.resolveMethodName target = .resolved m := by
  obtain ⟨base, hsplit, htype, howner⟩ := hmember
  unfold resolveMethodName
  rw [hsplit]
  simp only []
  rw [htype, howner, Option.bind_eq_bind, Option.bind_some, hresolved]
  rfl

/-- A target stands for a symbol, whether any symbol or a method is wanted. -/
def Designates (s : Snapshot) (target : String) (m : Symbol) : Prop :=
  ∀ accessors, s.resolve (.named target) accessors = .ok (.resolved m) ∧
    s.resolveMethod (.named target) accessors = .ok (.resolved m)

theorem designates_of_resolved {target : String} (hany : s.resolveName target = .resolved m)
    (hmethod : s.resolveMethodName target = .resolved m) : s.Designates target m :=
  fun _ => ⟨congrArg Except.ok hany, congrArg Except.ok hmethod⟩

/-! ## Ordinary methods -/

/-- All members of a type that have a name are methods, and none of them is an accessor. -/
def NamesMethods (s : Snapshot) (type : Symbol) (name : String) : Prop :=
  ∀ x ∈ s.membersOf type, x.name = name → x.kind = .method ∧ x.isAccessor = false

theorem ne_constructorName (hundotted : '.' ∉ name.toList) : name ≠ Signature.constructorName := by
  rintro rfl
  exact hundotted (by decide)

theorem choose?_membersNamed (hs : s.WellTitled) (htype : Holds s.tables.symbols type)
    (hm : m ∈ s.membersOf type) (hnames : s.NamesMethods type m.name)
    (htypes : ∀ t ∈ m.parameterTypes, Signature.Listable t) {p : Symbol → Bool}
    (hp : p m = true) :
    choose? ((s.membersNamed type m.name).filter p) (some (", ".intercalate m.parameterTypes)) =
      some m := by
  have hnamed : ∀ x ∈ (s.membersNamed type m.name).filter p,
      x ∈ s.membersOf type ∧ x.name = m.name := by
    intro x hx
    simpa using List.mem_filter.mp (List.mem_of_mem_filter hx)
  refine hs.choose?_own htype ?_ htypes ?_ ?_
  · intro x hx
    obtain ⟨hmember, hname⟩ := hnamed x hx
    obtain ⟨hkind, hplain⟩ := hnames x hmember hname
    exact ⟨hmember, Or.inl hkind, hplain⟩
  · simpa [membersNamed, hp] using hm
  · intro x hbefore _
    exact (hnamed x (hbefore.subset List.mem_cons_self)).2

theorem resolveMemberAsMethod?_own (hs : s.WellTitled) (htype : Holds s.tables.symbols type)
    (hm : m ∈ s.membersOf type) (hspellable : m.Spellable) (hexplicit : m.isImplicit = false)
    (hnames : s.NamesMethods type m.name) :
    s.resolveMemberAsMethod? type m.name (some (", ".intercalate m.parameterTypes)) =
      some (.resolved m) := by
  have hkind : m.kind = .method := (hnames m hm rfl).1
  have haccessor : (s.membersNamed type m.name).findSome? (fun x =>
      if x.kind == .property then s.accessorOf? x else none) = none := by
    refine List.findSome?_eq_none_iff.mpr ?_
    intro x hx
    obtain ⟨hmember, hname⟩ : x ∈ s.membersOf type ∧ x.name = m.name := by
      simpa using List.mem_filter.mp hx
    simp [(hnames x hmember hname).1]
  have hchosen := choose?_membersNamed hs htype hm hnames hspellable.listable
    (p := fun x => x.kind == .method && !x.isImplicit) (by simp [hkind, hexplicit])
  obtain ⟨first, rest, hmethods⟩ := exists_cons_of_choose? hchosen
  unfold resolveMemberAsMethod?
  rw [if_neg (ne_constructorName hspellable.undotted)]
  rw [hmethods] at hchosen
  simp only [haccessor, hmethods, hchosen]

/-- What an ordinary method is shown as stands for the method, unless a type or a member of another
kind is called the same. -/
theorem designates_display {disk : Disk} {data : Value} {root : String} {sourcePath : Option String}
    (hs : ofDocument disk data root sourcePath = .ok s) (htype : s.Addressable type)
    (hm : m ∈ s.membersOf type) (hordinary : m.methodKind = some .ordinary)
    (hexplicit : m.isImplicit = false) (hspellable : m.Spellable)
    (hfree : s.tables.typeNames.contains (type.display ++ "." ++ m.name) = false)
    (hnames : s.NamesMethods type m.name) : s.Designates m.display m := by
  have hwell := wellTitled_of_ofDocument hs
  have hheld := htype.holds hwell.closed
  have hplain : m.IsPlainMethod := ⟨Or.inl (hnames m hm rfl).1, (hnames m hm rfl).2⟩
  have hne := htype.display_ne_empty hwell.closed hwell.owned (hwell.titled_of_mem hm hplain)
  have hdisplay : m.display =
      Entry.methodDisplay type.display m.name m.parameterTypes := by
    rw [(hwell.isMethodOf hheld hm hplain).display]
    simp [Symbol.isConstructor, hordinary]
  have hmember : s.NamesMember m.display type m.name (", ".intercalate m.parameterTypes) := by
    refine ⟨type.display ++ "." ++ m.name, ?_, typeNamed?_eq_none hfree, ?_⟩
    · rw [hdisplay]
      exact htype.split_member hne hspellable.bare hspellable.trimmed hspellable.listable
    · exact ownerAndName?_eq_some htype
        (Signature.splitMember?_dotted hne htype.undotted hspellable.undotted)
  have hchosen := choose?_membersNamed hwell hheld hm hnames hspellable.listable
    (p := fun _ => true) rfl
  refine designates_of_resolved (resolveName_of_namesMember hmember ?_)
    (resolveMethodName_of_namesMember hmember ?_)
  · unfold membersCalled
    rw [if_neg (ne_constructorName hspellable.undotted)]
    simpa using hchosen
  · exact resolveMemberAsMethod?_own hwell hheld hm hspellable hexplicit hnames

/-- A store that finds its goods by a price list, by a count, or by both. -/
def storeDocument : Value :=
  let find (types : List String) : Value :=
    .mapping [(.text "name", .text "Find"), (.text "parameters", .list (types.map .text))]
  .mapping [(.text "types", .list [.mapping [(.text "name", .text "Shop.Store"),
    (.text "members", .list [find ["int"],
      find ["System.Int32", "Map<string, int> prices"],
      find ["Map<string, int> prices", "int"]])]])]

theorem designates_display_store : ∃ s m, ofDocument .empty storeDocument "/work" none = .ok s ∧
    m.display = "Shop.Store.Find(Map<string, int>, int)" ∧ s.Designates m.display m := by
  have hfacts : (ofDocument .empty storeDocument "/work" none).toOption.any (fun s => decide (
      (s.symbol? "T:Shop.Store").any (fun type => type.display == "Shop.Store") = true ∧
      (s.symbol? "M:Shop.Store.Find(Map<System.String,System.Int32>,System.Int32)").any (fun m =>
        decide (m.name = "Find" ∧ m.parameterTypes = ["Map<string, int>", "int"] ∧
          m.display = "Shop.Store.Find(Map<string, int>, int)" ∧
          m.methodKind = some .ordinary ∧ m.isImplicit = false)) = true ∧
      s.tables.typeNames.get? "Shop.Store" = some "T:Shop.Store" ∧
      "M:Shop.Store.Find(Map<System.String,System.Int32>,System.Int32)" ∈
        s.tables.members.listAt "T:Shop.Store" ∧
      s.tables.typeNames.contains "Shop.Store.Find" = false ∧
      ∀ x ∈ s.tables.membersOf "T:Shop.Store",
        x.kind = .method ∧ x.isAccessor = false)) = true := by
    decide +kernel
  obtain ⟨s, hs, hfacts⟩ := Attempt.exists_ok_of_any hfacts
  obtain ⟨htype, hm, hregistered, hmember, hfree, hmethods⟩ := of_decide_eq_true hfacts
  have hwell := wellFormed_of_ofDocument hs
  obtain ⟨type, htype, htypeId, hshown⟩ := hwell.closed.exists_holds_of_any htype
  obtain ⟨m, hm, hmId, hfacts⟩ := hwell.closed.exists_holds_of_any hm
  obtain ⟨hname, htypes, hdisplay, hordinary, hexplicit⟩ := of_decide_eq_true hfacts
  obtain hshown : type.display = "Shop.Store" := beq_iff_eq.mp hshown
  rw [← htypeId] at hregistered
  have haddressable : s.Addressable type :=
    .of_registered htype hshown hregistered (by decide) (by decide) (by decide)
  have hspellable : m.Spellable := by
    constructor
    · rw [hname]
      decide
    · rw [hname]
      decide
    · rw [hname]
      decide
    · rw [htypes]
      intro t ht
      simp only [List.mem_cons, List.not_mem_nil, or_false] at ht
      rcases ht with rfl | rfl <;> constructor <;> decide
  have hmember : m ∈ s.membersOf type := by
    refine (mem_symbolsOf_iff hwell.closed hm).mpr ?_
    rw [hmId, htypeId]
    exact hmember
  have hfree : s.tables.typeNames.contains (type.display ++ "." ++ m.name) = false := by
    rw [hshown, hname]
    exact hfree
  have hnames : s.NamesMethods type m.name := by
    intro x hx _
    unfold membersOf at hx
    rw [htypeId] at hx
    exact hmethods x hx
  exact ⟨s, m, hs, hdisplay,
    designates_display hs haddressable hmember hordinary hexplicit hspellable hfree hnames⟩

/-! ## Constructors -/

/-- No static constructor that a constructor's parameter types match is listed before it. -/
def LeadsStatic (s : Snapshot) (type c : Symbol) : Prop :=
  ∀ x, [x, c].Sublist (s.membersOf type) → x.methodKind = some .staticConstructor →
    Signature.typesMatch c.parameterTypes x.parameterTypes = false

theorem mem_constructorsOf_iff :
    x ∈ s.constructorsOf type ↔ x ∈ s.membersOf type ∧
      (x.methodKind = some .constructor ∨ x.methodKind = some .staticConstructor) := by
  simp [constructorsOf, Symbol.isConstructor]

theorem isPlainMethod_of_constructor
    (hx : x.methodKind = some .constructor ∨ x.methodKind = some .staticConstructor) :
    x.IsPlainMethod := by
  rcases hx with hx | hx <;> simp [Symbol.IsPlainMethod, Symbol.isAccessor, hx]

variable {c : Symbol}

theorem choose?_constructorsOf (hs : s.WellTitled) (htype : Holds s.tables.symbols type)
    (hc : c ∈ s.membersOf type) (hkind : c.methodKind = some .constructor)
    (htypes : ∀ t ∈ c.parameterTypes, Signature.Listable t) (hleads : s.LeadsStatic type c)
    {p : Symbol → Bool} (hp : p c = true) :
    choose? ((s.constructorsOf type).filter p) (some (", ".intercalate c.parameterTypes)) =
      some c := by
  have hmember : ∀ x ∈ (s.constructorsOf type).filter p, x ∈ s.membersOf type ∧
      (x.methodKind = some .constructor ∨ x.methodKind = some .staticConstructor) :=
    fun x hx => mem_constructorsOf_iff.mp (List.mem_of_mem_filter hx)
  have hmethods : ∀ x ∈ (s.constructorsOf type).filter p,
      x ∈ s.membersOf type ∧ x.IsPlainMethod :=
    fun x hx => ⟨(hmember x hx).1, isPlainMethod_of_constructor (hmember x hx).2⟩
  refine hs.choose?_own htype hmethods htypes
    (List.mem_filter.mpr ⟨mem_constructorsOf_iff.mpr ⟨hc, Or.inl hkind⟩, hp⟩) ?_
  intro x hbefore hmatch
  have hx := hbefore.subset List.mem_cons_self
  obtain ⟨hlisted, hconstructor | hstatic⟩ := hmember x hx
  · have hname := (hs.isMethodOf htype hlisted (hmethods x hx).2).constructor hconstructor
    have hown := (hs.isMethodOf htype hc
      (isPlainMethod_of_constructor (Or.inl hkind))).constructor hkind
    rw [hname, hown]
  · have hbefore : [x, c].Sublist (s.membersOf type) :=
      hbefore.trans (List.filter_sublist.trans List.filter_sublist)
    rw [hleads x hbefore hstatic] at hmatch
    cases hmatch

/-- A type with a declared constructor is called by those alone. -/
theorem callableConstructorsOf_eq (hc : c ∈ s.constructorsOf type)
    (hexplicit : c.isImplicit = false) :
    s.callableConstructorsOf type = s.explicitConstructorsOf type := by
  have hmem : c ∈ s.explicitConstructorsOf type := List.mem_filter.mpr ⟨hc, by simp [hexplicit]⟩
  unfold callableConstructorsOf
  split
  next hnone =>
    rw [hnone] at hmem
    cases hmem
  next hsome => rfl

theorem resolveName_type {list : String} {target : String} (htype : s.Addressable type)
    (hsplit : Signature.split target = (type.display, some list))
    (hchosen : choose? (s.constructorsOf type) (some list) = some c) :
    s.resolveName target = .resolved c := by
  unfold resolveName resolveTypeName?
  rw [hsplit]
  simp only []
  rw [htype.registered, Option.bind_eq_bind, Option.bind_some, hchosen]
  rfl

theorem resolveMethodName_type {list : String} {target : String} (htype : s.Addressable type)
    (hsplit : Signature.split target = (type.display, some list))
    (hchosen : choose? (s.callableConstructorsOf type) (some list) = some c) :
    s.resolveMethodName target = .resolved c := by
  unfold resolveMethodName resolveTypeAsMethod
  rw [hsplit]
  simp only []
  rw [htype.registered]
  simp only [hchosen]

/-- Both names of a constructor with its parameter types stand for it, unless a static constructor
that they match is listed first. -/
theorem designates_constructor {disk : Disk} {data : Value} {root : String}
    {sourcePath : Option String} (hs : ofDocument disk data root sourcePath = .ok s)
    (htype : s.Addressable type) (hc : c ∈ s.membersOf type)
    (hkind : c.methodKind = some .constructor) (hexplicit : c.isImplicit = false)
    (htypes : ∀ t ∈ c.parameterTypes, Signature.Listable t) (hleads : s.LeadsStatic type c) :
    s.Designates (type.display ++ "(" ++ ", ".intercalate c.parameterTypes ++ ")") c ∧
      (s.tables.typeNames.contains (type.display ++ "." ++ ".ctor") = false →
        s.Designates (type.display ++ "." ++ ".ctor" ++
          "(" ++ ", ".intercalate c.parameterTypes ++ ")") c) := by
  have hwell := wellTitled_of_ofDocument hs
  have hheld := htype.holds hwell.closed
  have hall := choose?_constructorsOf hwell hheld hc hkind htypes hleads (p := fun _ => true) rfl
  rw [List.filter_true] at hall
  have hcallable : choose? (s.callableConstructorsOf type)
      (some (", ".intercalate c.parameterTypes)) = some c := by
    rw [callableConstructorsOf_eq (mem_constructorsOf_iff.mpr ⟨hc, Or.inl hkind⟩) hexplicit]
    exact choose?_constructorsOf hwell hheld hc hkind htypes hleads (by simp [hexplicit])
  constructor
  · have hsplit := htype.split_type htypes
    exact designates_of_resolved (resolveName_type htype hsplit hall)
      (resolveMethodName_type htype hsplit hcallable)
  · intro hfree
    have hne := htype.display_ne_empty hwell.closed hwell.owned
      (hwell.titled_of_mem hc (isPlainMethod_of_constructor (Or.inl hkind)))
    have hmember : s.NamesMember
        (type.display ++ "." ++ ".ctor" ++ "(" ++ ", ".intercalate c.parameterTypes ++ ")") type
        Signature.constructorName (", ".intercalate c.parameterTypes) :=
      ⟨type.display ++ "." ++ Signature.constructorName,
        htype.split_member hne (by decide) (by decide) htypes, typeNamed?_eq_none hfree,
        ownerAndName?_eq_some htype (Signature.splitMember?_constructor hne)⟩
    refine designates_of_resolved (resolveName_of_namesMember hmember ?_)
      (resolveMethodName_of_namesMember hmember ?_)
    · unfold membersCalled
      rw [if_pos rfl]
      exact hcallable
    · unfold resolveMemberAsMethod? resolveConstructor
      rw [if_pos rfl]
      simp only [hcallable]

/-- A cache with a static constructor and, behind it, one that takes parameters of some types. -/
def cacheDocument (types : List String) : Value :=
  let constructor : Value := .mapping [(.text "kind", .text "constructor"),
    (.text "parameters", .list (types.map .text))]
  .mapping [(.text "types", .list [.mapping [(.text "name", .text "Cache"),
    (.text "members", .list [.mapping [(.text "kind", .text "static_constructor")],
      constructor])]])]

theorem designates_constructor_cache : ∃ s c,
    ofDocument .empty (cacheDocument ["Map<string, int> sizes"]) "/work" none = .ok s ∧
      c.methodKind = some .constructor ∧ c.isImplicit = false ∧
      s.Designates "Cache(Map<string, int>)" c ∧
      s.Designates "Cache..ctor(Map<string, int>)" c := by
  have hfacts : (ofDocument .empty (cacheDocument ["Map<string, int> sizes"]) "/work"
      none).toOption.any (fun s => decide (
        (s.symbol? "T:Cache").any (fun type => type.display == "Cache") = true ∧
        (s.symbol? "M:Cache.#ctor(Map<System.String,System.Int32>)").any (fun c => decide (
          c.parameterTypes = ["Map<string, int>"] ∧ c.methodKind = some .constructor ∧
            c.isImplicit = false)) = true ∧
        s.tables.typeNames.get? "Cache" = some "T:Cache" ∧
        "M:Cache.#ctor(Map<System.String,System.Int32>)" ∈ s.tables.members.listAt "T:Cache" ∧
        s.tables.typeNames.contains "Cache..ctor" = false ∧
        ∀ x ∈ s.tables.membersOf "T:Cache", x.methodKind = some .staticConstructor →
          x.parameterTypes = [])) = true := by
    decide +kernel
  obtain ⟨s, hs, hfacts⟩ := Attempt.exists_ok_of_any hfacts
  obtain ⟨htype, hc, hregistered, hlisted, hfree, hstatic⟩ := of_decide_eq_true hfacts
  have hwell := wellFormed_of_ofDocument hs
  obtain ⟨type, htype, htypeId, hshown⟩ := hwell.closed.exists_holds_of_any htype
  obtain ⟨c, hc, hcId, hfacts⟩ := hwell.closed.exists_holds_of_any hc
  obtain ⟨htypes, hkind, hexplicit⟩ := of_decide_eq_true hfacts
  obtain hshown : type.display = "Cache" := beq_iff_eq.mp hshown
  rw [← htypeId] at hregistered hlisted
  rw [← hcId] at hlisted
  have haddressable : s.Addressable type :=
    .of_registered htype hshown hregistered (by decide) (by decide) (by decide)
  have hlistable : ∀ t ∈ c.parameterTypes, Signature.Listable t := by
    rw [htypes]
    intro t ht
    rw [List.mem_singleton.mp ht]
    constructor <;> decide
  have hleads : s.LeadsStatic type c := by
    intro x hbefore hkind
    have hx := hbefore.subset List.mem_cons_self
    unfold membersOf at hx
    rw [htypeId] at hx
    rw [hstatic x hx hkind, htypes]
    rfl
  have hcalls := designates_constructor hs haddressable
    ((mem_symbolsOf_iff hwell.closed hc).mpr hlisted) hkind hexplicit hlistable hleads
  rw [hshown, htypes] at hcalls
  exact ⟨s, c, hs, hkind, hexplicit, hcalls.1, hcalls.2 hfree⟩

/-- A static constructor without parameters hides the constructor without parameters behind it. -/
theorem hidden_by_static_constructor : ∃ s type static c,
    ofDocument .empty (cacheDocument []) "/work" none = .ok s ∧
      s.Addressable type ∧ type.display = "Cache" ∧
      Symbol.methodKind static = some .staticConstructor ∧
      c ∈ s.membersOf type ∧ c.methodKind = some .constructor ∧ c.isImplicit = false ∧
      c.parameterTypes = [] ∧ ∀ target ∈ ["Cache()", "Cache..ctor()"],
        s.Designates target static ∧ ¬ s.Designates target c := by
  have hfacts : (ofDocument .empty (cacheDocument []) "/work" none).toOption.any (fun s => decide (
      (s.symbol? "T:Cache").any (fun type => type.display == "Cache") = true ∧
      (s.symbol? "M:Cache.#cctor()").any (fun static => decide (
        static.methodKind = some .staticConstructor ∧
          ∀ target ∈ ["Cache()", "Cache..ctor()"], s.resolveName target = .resolved static ∧
            s.resolveMethodName target = .resolved static)) = true ∧
      (s.symbol? "M:Cache.#ctor()").any (fun c => decide (
        c.methodKind = some .constructor ∧ c.isImplicit = false ∧ c.parameterTypes = [])) = true ∧
      s.tables.typeNames.get? "Cache" = some "T:Cache" ∧
      "M:Cache.#ctor()" ∈ s.tables.members.listAt "T:Cache")) = true := by
    decide +kernel
  obtain ⟨s, hs, hfacts⟩ := Attempt.exists_ok_of_any hfacts
  obtain ⟨htype, hstatic, hc, hregistered, hlisted⟩ := of_decide_eq_true hfacts
  have hwell := wellFormed_of_ofDocument hs
  obtain ⟨type, htype, htypeId, hshown⟩ := hwell.closed.exists_holds_of_any htype
  obtain ⟨static, -, -, hstatic⟩ := hwell.closed.exists_holds_of_any hstatic
  obtain ⟨hstaticKind, htargets⟩ := of_decide_eq_true hstatic
  obtain ⟨c, hc, hcId, hfacts⟩ := hwell.closed.exists_holds_of_any hc
  obtain ⟨hkind, hexplicit, htypes⟩ := of_decide_eq_true hfacts
  obtain hshown : type.display = "Cache" := beq_iff_eq.mp hshown
  rw [← htypeId] at hregistered hlisted
  rw [← hcId] at hlisted
  refine ⟨s, type, static, c, hs,
    .of_registered htype hshown hregistered (by decide) (by decide) (by decide), hshown,
    hstaticKind, (mem_symbolsOf_iff hwell.closed hc).mpr hlisted, hkind, hexplicit, htypes, ?_⟩
  intro target htarget
  obtain ⟨hany, hmethod⟩ := htargets target htarget
  refine ⟨designates_of_resolved hany hmethod, ?_⟩
  intro hdesignates
  have hresolved : Resolution.resolved static = .resolved c :=
    hany.symm.trans (Except.ok.inj (hdesignates true).1)
  obtain rfl := Resolution.resolved.inj hresolved
  rw [hkind] at hstaticKind
  cases hstaticKind

end Snapshot
end SymbolAtlas
