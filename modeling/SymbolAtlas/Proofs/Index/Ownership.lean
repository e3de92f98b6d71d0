import SymbolAtlas.Proofs.Index.Advance
import SymbolAtlas.Proofs.Text.Cut
import Mathlib.Tactic

/-!
# Ownership of members

Every member is listed once by one type and lies in it, an accessor lies in a property of that type,
and a type lies in types with shorter ids only.  Each change of a draft keeps this, whether it comes
with the first pass or with metadata later on, and so no way outwards is endless.
-/

namespace SymbolAtlas
namespace Tables

open Draft

/-- Members are listed by their types, and lie where they belong. -/
structure Owned (t : Tables) : Prop where
  listed : ∀ id s, t.symbols.get? id = some s → s.kind ≠ .namedType →
    ∃ type, id ∈ t.members.listAt type
  lists : ∀ type, ∀ id ∈ t.members.listAt type,
    KnownAs t.symbols .namedType type ∧ KnownMember t.symbols id
  once : ∀ type, (t.members.listAt type).Nodup
  sole : ∀ type other id, id ∈ t.members.listAt type → id ∈ t.members.listAt other → type = other
  plain : ∀ type, ∀ id ∈ t.members.listAt type, ∀ s, t.symbols.get? id = some s →
    s.isAccessor = false → t.containing.get? id = some type
  accessor : ∀ type, ∀ id ∈ t.members.listAt type, ∀ s, t.symbols.get? id = some s →
    s.isAccessor = true → s.kind = .method ∧ ∃ property ∈ t.members.listAt type,
      t.containing.get? id = some property ∧ KnownAs t.symbols .property property
  contained : ∀ id container, t.containing.get? id = some container →
    Known t.symbols id ∧ Known t.symbols container
  named : ∀ name id, t.typeNames.get? name = some id →
    KnownAs t.symbols .namedType id ∧ id.length = name.length + 2
  nested : ∀ id container, KnownAs t.symbols .namedType id →
    t.containing.get? id = some container →
      KnownAs t.symbols .namedType container ∧ container.length < id.length

/-- The symbol of the id is an accessor of the kind in the property. -/
def HasAccessor (t : Tables) (property : String) (kind : MethodKind) (id : String) : Prop :=
  t.containing.get? id = some property ∧
    ∃ s, t.symbols.get? id = some s ∧ s.kind = .method ∧ s.methodKind = some kind

/-- Properties and nothing else have entries for accessors, which name just those that lie in
them. -/
structure Equipped (t : Tables) : Prop where
  properties : ∀ property pair, t.accessors.get? property = some pair →
    KnownAs t.symbols .property property
  sides : ∀ property, KnownAs t.symbols .property property →
    ∃ getter setter, t.accessors.get? property = some (getter, setter) ∧
      (∀ id, getter = some id ↔ t.HasAccessor property .propertyGet id) ∧
        ∀ id, setter = some id ↔ t.HasAccessor property .propertySet id

variable {t t' : Tables} {symbols : Table Symbol} {s s' : Symbol} {id : String}

/-! ## New symbols beside old ones -/

theorem not_known_of_new (hnew : symbols.get? id = none) : ¬ Known symbols id := by
  rintro ⟨found, hfound⟩
  rw [hnew] at hfound
  cases hfound

theorem get?_insert_of_known (hnew : symbols.get? s.id = none) (hid : Known symbols id) :
    (symbols.insert s.id s).get? id = symbols.get? id := by
  obtain ⟨old, hold⟩ := hid
  rw [kept_insert hnew id old hold, hold]

theorem knownAs_insert_iff (hnew : symbols.get? s.id = none) {kind : SymbolKind} :
    KnownAs (symbols.insert s.id s) kind id ↔
      KnownAs symbols kind id ∨ s.id = id ∧ s.kind = kind := by
  constructor
  · rintro ⟨found, hfound, hkind⟩
    rcases get?_insert_cases hfound with ⟨hid, rfl⟩ | hold
    · exact Or.inr ⟨hid, hkind⟩
    · exact Or.inl ⟨found, hold, hkind⟩
  · rintro (hold | ⟨rfl, hkind⟩)
    · exact hold.mono (kept_insert hnew)
    · exact ⟨s, get?_insert_self symbols s, hkind⟩

/-! ## Changes keep ownership -/

theorem Owned.empty : Draft.empty.Owned := by
  constructor <;> simp [Draft.empty, KnownAs, Table.listAt]

theorem Owned.of_same (h : t.Owned) (hsymbols : t'.symbols = t.symbols)
    (hnames : t'.typeNames = t.typeNames) (hmembers : t'.members = t.members)
    (hcontaining : t'.containing = t.containing) : t'.Owned := by
  constructor
  · rw [hsymbols, hmembers]
    exact h.listed
  · rw [hsymbols, hmembers]
    exact h.lists
  · rw [hmembers]
    exact h.once
  · rw [hmembers]
    exact h.sole
  · rw [hsymbols, hmembers, hcontaining]
    exact h.plain
  · rw [hsymbols, hmembers, hcontaining]
    exact h.accessor
  · rw [hsymbols, hcontaining]
    exact h.contained
  · rw [hsymbols, hnames]
    exact h.named
  · rw [hsymbols, hcontaining]
    exact h.nested

theorem Owned.not_mem_of_new (h : t.Owned) (hnew : t.symbols.get? id = none) (type : String) :
    id ∉ t.members.listAt type := by
  intro hid
  exact not_known_of_new hnew (h.lists type id hid).2.known

/-- A member comes in, listed by a type and in a container. -/
structure Gains (t : Tables) (type container : String) (s : Symbol) (t' : Tables) : Prop where
  symbols : t'.symbols = t.symbols.insert s.id s
  typeNames : t'.typeNames = t.typeNames
  members : t'.members = t.members.append type s.id
  containing : ∀ id, t'.containing.get? id =
    if s.id = id then some container else t.containing.get? id
  accessors : t'.accessors = t.accessors

variable {type container : String}

theorem Gains.kept (hgains : Gains t type container s t') (hnew : t.symbols.get? s.id = none) :
    Kept t.symbols t'.symbols := by
  rw [hgains.symbols]
  exact kept_insert hnew

theorem Gains.self (hgains : Gains t type container s t') : t'.symbols.get? s.id = some s := by
  rw [hgains.symbols]
  exact get?_insert_self _ _

theorem Gains.mem_listAt_iff (hgains : Gains t type container s t') (other : String) :
    id ∈ t'.members.listAt other ↔ id ∈ t.members.listAt other ∨ type = other ∧ id = s.id := by
  rw [hgains.members]
  exact Table.mem_listAt_append

/-- Old ids are not the new one, so that nothing changes for them. -/
theorem Gains.old (hgains : Gains t type container s t') (hnew : t.symbols.get? s.id = none)
    (hid : Known t.symbols id) :
    t'.symbols.get? id = t.symbols.get? id ∧ t'.containing.get? id = t.containing.get? id := by
  have hne : s.id ≠ id := by
    rintro rfl
    exact not_known_of_new hnew hid
  rw [hgains.symbols, hgains.containing, if_neg hne]
  exact ⟨get?_insert_of_known hnew hid, rfl⟩

/-- Whatever a type lists is old and has not changed, or it is the new member. -/
theorem Gains.listed_cases (hgains : Gains t type container s t') (h : t.Owned)
    (hnew : t.symbols.get? s.id = none) {other : String} (hid : id ∈ t'.members.listAt other) :
    (id ∈ t.members.listAt other ∧ t'.symbols.get? id = t.symbols.get? id ∧
      t'.containing.get? id = t.containing.get? id) ∨
    (type = other ∧ id = s.id ∧ t'.symbols.get? id = some s ∧
      t'.containing.get? id = some container) := by
  rcases (hgains.mem_listAt_iff other).mp hid with hlisted | ⟨htype, rfl⟩
  · exact Or.inl ⟨hlisted, hgains.old hnew (h.lists other id hlisted).2.known⟩
  · refine Or.inr ⟨htype, rfl, hgains.self, ?_⟩
    rw [hgains.containing, if_pos rfl]

/-- Where a new member belongs: in its type, or if it is an accessor in a property of that type. -/
inductive Belongs (t : Tables) (type : String) (s : Symbol) : String → Prop where
  | plain (haccessor : s.isAccessor = false) : Belongs t type s type
  | accessor {property : String} (haccessor : s.isAccessor = true) (hmethod : s.kind = .method)
      (hlisted : property ∈ t.members.listAt type)
      (hproperty : KnownAs t.symbols .property property) : Belongs t type s property

theorem Belongs.known (hbelongs : t.Belongs type s container)
    (htype : KnownAs t.symbols .namedType type) : Known t.symbols container := by
  cases hbelongs with
  | plain => exact htype.known
  | accessor _ _ _ hproperty => exact hproperty.known

theorem Owned.listed_of_gains (h : t.Owned) (hgains : Gains t type container s t')
    (hid : t'.symbols.get? id = some s') (hmember : s'.kind ≠ .namedType) :
    ∃ other, id ∈ t'.members.listAt other := by
  rw [hgains.symbols] at hid
  rcases get?_insert_cases hid with ⟨rfl, -⟩ | hthere
  · exact ⟨type, (hgains.mem_listAt_iff type).mpr (Or.inr ⟨rfl, rfl⟩)⟩
  · obtain ⟨other, hother⟩ := h.listed id s' hthere hmember
    exact ⟨other, (hgains.mem_listAt_iff other).mpr (Or.inl hother)⟩

theorem Owned.sole_of_gains (h : t.Owned) (hgains : Gains t type container s t')
    (hnew : t.symbols.get? s.id = none) {first second : String}
    (hfirst : id ∈ t'.members.listAt first) (hsecond : id ∈ t'.members.listAt second) :
    first = second := by
  rcases (hgains.mem_listAt_iff first).mp hfirst with hlisted | ⟨rfl, rfl⟩
  · rcases (hgains.mem_listAt_iff second).mp hsecond with hother | ⟨rfl, rfl⟩
    · exact h.sole first second id hlisted hother
    · exact absurd hlisted (h.not_mem_of_new hnew first)
  · rcases (hgains.mem_listAt_iff second).mp hsecond with hother | ⟨hsame, -⟩
    · exact absurd hother (h.not_mem_of_new hnew second)
    · exact hsame

theorem Owned.plain_of_gains (h : t.Owned) (hgains : Gains t type container s t')
    (hnew : t.symbols.get? s.id = none) (hbelongs : t.Belongs type s container) {other : String}
    (hid : id ∈ t'.members.listAt other) (hfound : t'.symbols.get? id = some s')
    (hplain : s'.isAccessor = false) : t'.containing.get? id = some other := by
  rcases hgains.listed_cases h hnew hid with ⟨hlisted, hsame, hlies⟩ | ⟨rfl, -, hsame, hlies⟩
  · rw [hlies]
    exact h.plain other id hlisted s' (hsame ▸ hfound) hplain
  · rw [hlies]
    obtain rfl := Option.some.inj (hsame.symm.trans hfound)
    cases hbelongs with
    | plain => rfl
    | accessor haccessor =>
        rw [haccessor] at hplain
        cases hplain

theorem Owned.accessor_of_gains (h : t.Owned) (hgains : Gains t type container s t')
    (hnew : t.symbols.get? s.id = none) (hbelongs : t.Belongs type s container) {other : String}
    (hid : id ∈ t'.members.listAt other) (hfound : t'.symbols.get? id = some s')
    (haccessor : s'.isAccessor = true) :
    s'.kind = .method ∧ ∃ property ∈ t'.members.listAt other,
      t'.containing.get? id = some property ∧ KnownAs t'.symbols .property property := by
  have hkept := hgains.kept hnew
  rcases hgains.listed_cases h hnew hid with ⟨hlisted, hsame, hlies⟩ | ⟨rfl, -, hsame, hlies⟩
  · obtain ⟨hmethod, property, hproperty, hin, hknown⟩ :=
      h.accessor other id hlisted s' (hsame ▸ hfound) haccessor
    exact ⟨hmethod, property, (hgains.mem_listAt_iff other).mpr (Or.inl hproperty),
      hlies.trans hin, hknown.mono hkept⟩
  · obtain rfl := Option.some.inj (hsame.symm.trans hfound)
    cases hbelongs with
    | plain hplain =>
        rw [haccessor] at hplain
        cases hplain
    | accessor _ hmethod hlisted hproperty =>
        exact ⟨hmethod, container, (hgains.mem_listAt_iff type).mpr (Or.inl hlisted), hlies,
          hproperty.mono hkept⟩

/-- A member that comes in where it belongs leaves everything else where it was. -/
theorem Owned.gains (h : t.Owned) (hgains : Gains t type container s t')
    (hnew : t.symbols.get? s.id = none) (htype : KnownAs t.symbols .namedType type)
    (hkind : s.kind ≠ .namedType) (hbelongs : t.Belongs type s container) : t'.Owned := by
  have hkept := hgains.kept hnew
  constructor
  · exact fun _ _ hid hmember => h.listed_of_gains hgains hid hmember
  · intro other id hid
    rcases (hgains.mem_listAt_iff other).mp hid with hlisted | ⟨rfl, rfl⟩
    · exact ⟨(h.lists other id hlisted).1.mono hkept, (h.lists other id hlisted).2.mono hkept⟩
    · exact ⟨htype.mono hkept, s, hgains.self, hkind⟩
  · intro other
    rw [hgains.members, Table.append, Table.listAt_insert]
    split
    next => exact List.concat_eq_append ▸ (h.once type).concat (h.not_mem_of_new hnew type)
    next => exact h.once other
  · exact fun _ _ _ hfirst hsecond => h.sole_of_gains hgains hnew hfirst hsecond
  · exact fun _ _ hid _ hfound hplain => h.plain_of_gains hgains hnew hbelongs hid hfound hplain
  · exact fun _ _ hid _ hfound haccessor =>
      h.accessor_of_gains hgains hnew hbelongs hid hfound haccessor
  · intro id around haround
    rw [hgains.containing] at haround
    split at haround
    next hid =>
      subst hid
      cases haround
      exact ⟨⟨s, hgains.self⟩, (hbelongs.known htype).mono hkept⟩
    next =>
      obtain ⟨hid, hknown⟩ := h.contained id around haround
      exact ⟨hid.mono hkept, hknown.mono hkept⟩
  · intro name id hname
    rw [hgains.typeNames] at hname
    exact ⟨(h.named name id hname).1.mono hkept, (h.named name id hname).2⟩
  · intro id around hid haround
    rw [hgains.symbols, knownAs_insert_iff hnew] at hid
    rcases hid with hid | ⟨-, hnamed⟩
    · rw [(hgains.old hnew hid.known).2] at haround
      obtain ⟨hknown, hshorter⟩ := h.nested id around hid haround
      exact ⟨hknown.mono hkept, hshorter⟩
    · exact absurd hnamed hkind

/-! ## Changes of a draft -/

variable {d d' : Draft}

/-- A type is found under its own name, and under one that is as long. -/
theorem get?_registerTypeName_cases {name other id found : String}
    (hfound : (d.registerTypeName name id).typeNames.get? other = some found) :
    found = id ∧ other.length = name.length ∨ d.typeNames.get? other = some found := by
  have hinsert : (d.typeNames.insert name id).get? other = some found →
      found = id ∧ other.length = name.length ∨ d.typeNames.get? other = some found := by
    intro hnamed
    rw [Table.get?_insert] at hnamed
    split at hnamed
    next hname =>
      subst hname
      cases hnamed
      exact Or.inl ⟨rfl, rfl⟩
    next => exact Or.inr hnamed
  unfold registerTypeName at hfound
  simp only [] at hfound
  split at hfound
  next =>
    rw [Table.get?_insertNew, Option.or_eq_some_iff] at hfound
    rcases hfound with hnamed | ⟨-, halias⟩
    · exact hinsert hnamed
    · split at halias
      next hname =>
        subst hname
        cases halias
        exact Or.inl ⟨rfl, by simp [Text.exchange, String.length]⟩
      next => cases halias
  next => exact hinsert hfound

/-- A new type has no members yet, as none were listed under its id before. -/
theorem Owned.listAt_putType (h : d.Owned) (name : String) (hnew : d.symbols.get? s.id = none)
    (isMetadata : Bool) (type : String) :
    (d.putType name s isMetadata).members.listAt type = d.members.listAt type := by
  refine (Table.listAt_insert d.members s.id type []).trans ?_
  split
  next heq =>
    subst heq
    symm
    rw [List.eq_nil_iff_forall_not_mem]
    intro id hid
    exact not_known_of_new hnew (h.lists s.id id hid).1.known
  next => rfl

theorem Owned.putType (h : d.Owned) {name : String} {s : Symbol}
    (hnew : d.symbols.get? s.id = none) (hid : s.id = "T:" ++ name) (hkind : s.kind = .namedType)
    (isMetadata : Bool) : (d.putType name s isMetadata).Owned := by
  have hkept : Kept d.symbols (d.symbols.insert s.id s) := kept_insert hnew
  have hmembers := h.listAt_putType name hnew isMetadata
  have hold : ∀ {type id}, id ∈ d.members.listAt type →
      (d.putType name s isMetadata).symbols.get? id = d.symbols.get? id :=
    fun hid => get?_insert_of_known hnew (h.lists _ _ hid).2.known
  constructor
  · intro id found hfound hmember
    rcases get?_insert_cases hfound with ⟨-, rfl⟩ | hthere
    · exact absurd hkind hmember
    · obtain ⟨type, htype⟩ := h.listed id found hthere hmember
      exact ⟨type, hmembers type ▸ htype⟩
  · intro type id hmem
    rw [hmembers] at hmem
    exact ⟨(h.lists type id hmem).1.mono hkept, (h.lists type id hmem).2.mono hkept⟩
  · intro type
    rw [hmembers]
    exact h.once type
  · intro type other id
    rw [hmembers, hmembers]
    exact h.sole type other id
  · intro type id hmem found hfound hplain
    rw [hmembers] at hmem
    rw [hold hmem] at hfound
    exact h.plain type id hmem found hfound hplain
  · intro type id hmem found hfound haccessor
    rw [hmembers] at hmem ⊢
    rw [hold hmem] at hfound
    obtain ⟨hmethod, property, hproperty, hlies, hknown⟩ :=
      h.accessor type id hmem found hfound haccessor
    exact ⟨hmethod, property, hproperty, hlies, hknown.mono hkept⟩
  · intro id container hcontainer
    obtain ⟨hfirst, hsecond⟩ := h.contained id container hcontainer
    exact ⟨hfirst.mono hkept, hsecond.mono hkept⟩
  · intro other id hnamed
    rcases get?_registerTypeName_cases hnamed with ⟨rfl, hlength⟩ | hthere
    · refine ⟨⟨s, get?_insert_self _ _, hkind⟩, ?_⟩
      rw [hid, String.length_append, hlength, Nat.add_comm]
      rfl
    · exact ⟨(h.named other id hthere).1.mono hkept, (h.named other id hthere).2⟩
  · intro id container htype hcontainer
    rcases (knownAs_insert_iff hnew).mp htype with hthere | ⟨rfl, -⟩
    · obtain ⟨hknown, hshorter⟩ := h.nested id container hthere hcontainer
      exact ⟨hknown.mono hkept, hshorter⟩
    · exact absurd (h.contained s.id container hcontainer).1 (not_known_of_new hnew)

theorem length_outerName_lt {qualified : String} (hnested : '+' ∈ qualified.toList) :
    (Declaration.outerName qualified).length < qualified.length := by
  obtain ⟨before, after, hcut⟩ := Text.exists_cutAtLast? hnested
  have hlength := congrArg List.length (Text.eq_append_of_cutAtLast? hcut)
  rw [Declaration.outerName, hcut]
  simp only [List.length_append, List.length_cons, String.length_toList] at hlength
  simp only [String.length_ofList]
  omega

theorem Owned.putNested (h : d.Owned) {qualified outer : String}
    (hnested : '+' ∈ qualified.toList) (htype : KnownAs d.symbols .namedType ("T:" ++ qualified))
    (houter : d.typeNames.get? (Declaration.outerName qualified) = some outer) :
    (d.putContaining ("T:" ++ qualified) outer).Owned := by
  obtain ⟨hknown, hlength⟩ := h.named _ outer houter
  have hshorter : outer.length < ("T:" ++ qualified).length := by
    have hname := length_outerName_lt hnested
    rw [hlength, String.length_append, Nat.add_comm]
    exact Nat.add_lt_add_left hname 2
  have hmember : ∀ {type id}, id ∈ d.members.listAt type → "T:" ++ qualified ≠ id := by
    rintro type id hid rfl
    obtain ⟨found, hfound, hkind⟩ := htype
    obtain ⟨other, hother, hno⟩ := (h.lists type _ hid).2
    rw [hfound, Option.some.injEq] at hother
    exact hno (hother ▸ hkind)
  have hold : ∀ {type id}, id ∈ d.members.listAt type →
      (d.putContaining ("T:" ++ qualified) outer).containing.get? id = d.containing.get? id := by
    intro type id hid
    exact (Table.get?_insert _ _ _ _).trans (if_neg (hmember hid))
  refine ⟨h.listed, h.lists, h.once, h.sole, ?_, ?_, ?_, h.named, ?_⟩
  · intro type id hid found hfound hplain
    rw [hold hid]
    exact h.plain type id hid found hfound hplain
  · intro type id hid found hfound haccessor
    rw [hold hid]
    exact h.accessor type id hid found hfound haccessor
  · intro id container hcontainer
    have hcontainer := (Table.get?_insert _ _ _ _).symm.trans hcontainer
    split at hcontainer
    next hid =>
      cases hcontainer
      exact ⟨hid ▸ htype.known, hknown.known⟩
    next => exact h.contained id container hcontainer
  · intro id container hid hcontainer
    have hcontainer := (Table.get?_insert _ _ _ _).symm.trans hcontainer
    split at hcontainer
    next heq =>
      cases hcontainer
      exact ⟨hknown, heq ▸ hshorter⟩
    next => exact h.nested id container hid hcontainer

theorem Owned.same (h : d.Owned) (hsame : SameDeclarations d d') : d'.Owned :=
  h.of_same hsame.symbols hsame.typeNames hsame.members hsame.containing

theorem gains_putMember (d : Draft) (type : String) (s : Symbol) (span : Option Span) :
    d.toTables.Gains type type s (d.putMember type s span).toTables := by
  have hspan := same_putSpan { d with
    symbols := d.symbols.insert s.id s
    members := d.members.append type s.id
    containing := d.containing.insert s.id type } s.id span
  refine ⟨hspan.symbols, hspan.typeNames, hspan.members, ?_, hspan.accessors⟩
  intro id
  exact (congrArg (·.get? id) hspan.containing).trans (Table.get?_insert _ _ _ _)

theorem gains_accessor {property : String} {a : Symbol} {span : Option Span}
    (hsame : SameDeclarations ((d.putMember type a span).putContaining a.id property) d') :
    d.toTables.Gains type property a d'.toTables := by
  have hput := gains_putMember d type a span
  refine ⟨hsame.symbols.trans hput.symbols, hsame.typeNames.trans hput.typeNames,
    hsame.members.trans hput.members, ?_, hsame.accessors.trans hput.accessors⟩
  intro id
  rw [hsame.containing]
  refine (Table.get?_insert _ _ _ _).trans ?_
  by_cases hid : a.id = id
  · rw [if_pos hid, if_pos hid]
  · rw [if_neg hid, if_neg hid]
    exact (hput.containing id).trans (if_neg hid)

/-- A property is there and its type lists it. -/
structure PropertyIn (t : Tables) (type property : String) : Prop where
  owner : KnownAs t.symbols .namedType type
  listed : property ∈ t.members.listAt type
  known : KnownAs t.symbols .property property

theorem Gains.propertyIn (hgains : Gains t type container s t')
    (hnew : t.symbols.get? s.id = none) (htype : KnownAs t.symbols .namedType type)
    (hkind : s.kind = .property) : t'.PropertyIn type s.id :=
  ⟨htype.mono (hgains.kept hnew), (hgains.mem_listAt_iff type).mpr (Or.inr ⟨rfl, rfl⟩),
    s, hgains.self, hkind⟩

theorem Owned.addsAccessor (h : d.Owned) {property : String}
    (hproperty : d.PropertyIn type property) {kind : MethodKind}
    (hkind : kind = .propertyGet ∨ kind = .propertySet) {id : Option String}
    (hadds : AddsAccessor type property kind d id d') :
    d'.Owned ∧ d'.PropertyIn type property := by
  cases hadds with
  | none => exact ⟨h, hproperty⟩
  | @some a span _ hnew hmethod haccessor hsame =>
      have haccessor : a.isAccessor = true := by
        unfold Symbol.isAccessor
        rcases hkind with rfl | rfl <;> simp [haccessor]
      have hgains := gains_accessor hsame
      have hkept := hgains.kept hnew
      refine ⟨h.gains hgains hnew hproperty.owner (by simp [hmethod])
        (.accessor haccessor hmethod hproperty.listed hproperty.known), ?_⟩
      exact ⟨hproperty.owner.mono hkept,
        (hgains.mem_listAt_iff type).mpr (Or.inl hproperty.listed), hproperty.known.mono hkept⟩

/-- Every change keeps ownership. -/
theorem Owned.change (h : d.Owned) (hchange : Change d d') : d'.Owned := by
  cases hchange with
  | type isMetadata hnew hname hid hkind => exact h.putType hnew hid hkind isMetadata
  | nested hnested htype houter => exact h.putNested hnested htype houter
  | member span hnew htype hkind hproperty haccessor =>
      exact h.gains (gains_putMember d _ _ span) hnew htype hkind (.plain haccessor)
  | @property type p span _ _ _ _ hnew htype hkind hmethod hget hset =>
      have hplain : p.isAccessor = false := by
        simp [Symbol.isAccessor, hmethod]
      have hgains := gains_putMember d type p span
      have hadded := h.gains hgains hnew htype (by simp [hkind]) (.plain hplain)
      have hthere := hgains.propertyIn hnew htype hkind
      obtain ⟨hgot, hthere⟩ := hadded.addsAccessor hthere (Or.inl rfl) hget
      obtain ⟨hdone, -⟩ := hgot.addsAccessor hthere (Or.inr rfl) hset
      exact hdone.of_same rfl rfl rfl rfl
  | other hsame => exact h.same hsame

/-! ## Changes keep accessors with their properties -/

theorem Equipped.empty : Draft.empty.Equipped := by
  constructor <;> simp [Draft.empty, KnownAs]

/-- What the entries for accessors say depends on properties and their accessors alone. -/
theorem Equipped.of_same (h : t.Equipped) (haccessors : t'.accessors = t.accessors)
    (hproperties : ∀ id, KnownAs t'.symbols .property id ↔ KnownAs t.symbols .property id)
    (hsame : ∀ property kind id, kind = .propertyGet ∨ kind = .propertySet →
      (t'.HasAccessor property kind id ↔ t.HasAccessor property kind id)) : t'.Equipped := by
  constructor
  · intro property pair hpair
    rw [haccessors] at hpair
    exact (hproperties property).mpr (h.properties property pair hpair)
  · intro property hproperty
    obtain ⟨getter, setter, hpair, hget, hset⟩ :=
      h.sides property ((hproperties property).mp hproperty)
    refine ⟨getter, setter, haccessors ▸ hpair, ?_, ?_⟩
    · intro id
      rw [hget, hsame _ _ _ (Or.inl rfl)]
    · intro id
      rw [hset, hsame _ _ _ (Or.inr rfl)]

theorem Equipped.same (h : d.Equipped) (hsame : SameDeclarations d d') : d'.Equipped := by
  refine h.of_same hsame.accessors ?_ ?_
  · intro id
    rw [hsame.symbols]
  · intro property kind id _
    unfold HasAccessor
    rw [hsame.symbols, hsame.containing]

theorem Gains.hasAccessor_iff (hgains : Gains t type container s t')
    (hnew : t.symbols.get? s.id = none) {property : String} {kind : MethodKind} :
    t'.HasAccessor property kind id ↔ t.HasAccessor property kind id ∨
      s.id = id ∧ container = property ∧ s.kind = .method ∧ s.methodKind = some kind := by
  unfold HasAccessor
  by_cases hid : s.id = id
  · subst hid
    rw [hgains.containing, if_pos rfl, hgains.self, hnew]
    simp
  · rw [hgains.containing, if_neg hid, hgains.symbols, Table.get?_insert, if_neg hid]
    simp [hid]

theorem Gains.knownAs_property_iff (hgains : Gains t type container s t')
    (hnew : t.symbols.get? s.id = none) :
    KnownAs t'.symbols .property id ↔
      KnownAs t.symbols .property id ∨ s.id = id ∧ s.kind = .property := by
  rw [hgains.symbols]
  exact knownAs_insert_iff hnew

theorem hasAccessor_iff_of_adds {property : String} {kind : MethodKind}
    {added : Option String} (hadds : AddsAccessor type property kind d added d')
    {other : String} {otherKind : MethodKind} :
    d'.HasAccessor other otherKind id ↔
      d.HasAccessor other otherKind id ∨ property = other ∧ kind = otherKind ∧ added = some id := by
  cases hadds with
  | none => simp
  | @some a span _ hnew hmethod haccessor hsame =>
      rw [(gains_accessor hsame).hasAccessor_iff hnew, hmethod, haccessor]
      simp only [Option.some.injEq, true_and]
      tauto

theorem knownAs_property_iff_of_adds {property : String} {kind : MethodKind}
    {added : Option String} (hadds : AddsAccessor type property kind d added d') :
    KnownAs d'.symbols .property id ↔ KnownAs d.symbols .property id := by
  cases hadds with
  | none => rfl
  | @some a span _ hnew hmethod haccessor hsame =>
      rw [(gains_accessor hsame).knownAs_property_iff hnew, hmethod]
      simp

theorem accessors_eq_of_adds {property : String} {kind : MethodKind}
    {added : Option String} (hadds : AddsAccessor type property kind d added d') :
    d'.accessors = d.accessors := by
  cases hadds with
  | none => rfl
  | some hnew hmethod haccessor hsame => exact (gains_accessor hsame).accessors

theorem Equipped.member (h : t.Equipped) (hgains : Gains t type container s t')
    (hnew : t.symbols.get? s.id = none) (hproperty : s.kind ≠ .property)
    (haccessor : s.isAccessor = false) : t'.Equipped := by
  refine h.of_same hgains.accessors ?_ ?_
  · intro id
    rw [hgains.knownAs_property_iff hnew]
    simp [hproperty]
  · intro property kind id hkind
    rw [hgains.hasAccessor_iff hnew]
    have hother : s.methodKind ≠ some kind := by
      intro heq
      rcases hkind with rfl | rfl <;> simp [Symbol.isAccessor, heq] at haccessor
    simp [hother]

section

variable {p : Symbol} {span : Option Span} {getter setter : Option String} {d₁ d₂ : Draft}

theorem hasAccessor_iff_of_property (hnew : d.symbols.get? p.id = none) (hkind : p.kind = .property)
    (hget : AddsAccessor type p.id .propertyGet (d.putMember type p span) getter d₁)
    (hset : AddsAccessor type p.id .propertySet d₁ setter d₂) {other : String}
    {kind : MethodKind} :
    d₂.HasAccessor other kind id ↔
      (d.HasAccessor other kind id ∨ p.id = other ∧ .propertyGet = kind ∧ getter = some id) ∨
        p.id = other ∧ .propertySet = kind ∧ setter = some id := by
  rw [hasAccessor_iff_of_adds hset, hasAccessor_iff_of_adds hget,
    (gains_putMember d type p span).hasAccessor_iff hnew]
  simp [hkind]

theorem knownAs_property_iff_of_property (hnew : d.symbols.get? p.id = none)
    (hkind : p.kind = .property)
    (hget : AddsAccessor type p.id .propertyGet (d.putMember type p span) getter d₁)
    (hset : AddsAccessor type p.id .propertySet d₁ setter d₂) :
    KnownAs d₂.symbols .property id ↔ KnownAs d.symbols .property id ∨ p.id = id := by
  rw [knownAs_property_iff_of_adds hset, knownAs_property_iff_of_adds hget,
    (gains_putMember d type p span).knownAs_property_iff hnew]
  simp [hkind]

theorem accessors_eq_of_property
    (hget : AddsAccessor type p.id .propertyGet (d.putMember type p span) getter d₁)
    (hset : AddsAccessor type p.id .propertySet d₁ setter d₂) :
    (d₂.putAccessors p.id getter setter).accessors = d.accessors.insert p.id (getter, setter) := by
  unfold putAccessors
  rw [accessors_eq_of_adds hset, accessors_eq_of_adds hget,
    (gains_putMember d type p span).accessors]

/-- A property comes in with its accessors and an entry for them. -/
theorem Equipped.property (howned : d.Owned) (h : d.Equipped) (hnew : d.symbols.get? p.id = none)
    (hkind : p.kind = .property)
    (hget : AddsAccessor type p.id .propertyGet (d.putMember type p span) getter d₁)
    (hset : AddsAccessor type p.id .propertySet d₁ setter d₂) :
    (d₂.putAccessors p.id getter setter).Equipped := by
  -- the entry for its accessors changes neither where anything lies nor what is a property
  have haccessor : ∀ other kind id,
      (d₂.putAccessors p.id getter setter).HasAccessor other kind id ↔
        (d.HasAccessor other kind id ∨ p.id = other ∧ .propertyGet = kind ∧ getter = some id) ∨
          p.id = other ∧ .propertySet = kind ∧ setter = some id :=
    fun _ _ _ => hasAccessor_iff_of_property hnew hkind hget hset
  have hproperty : ∀ id, KnownAs (d₂.putAccessors p.id getter setter).symbols .property id ↔
      KnownAs d.symbols .property id ∨ p.id = id := by
    intro id
    have hknown : KnownAs d₂.symbols .property id ↔ _ :=
      knownAs_property_iff_of_property hnew hkind hget hset
    exact hknown
  have hpairs := accessors_eq_of_property hget hset
  -- nothing lay in the property before it came in
  have hbare : ∀ kind id, ¬ d.HasAccessor p.id kind id := by
    rintro kind id ⟨hcontainer, -⟩
    exact not_known_of_new hnew (howned.contained id p.id hcontainer).2
  constructor
  · intro property pair hpair
    rw [hpairs, Table.get?_insert] at hpair
    split at hpair
    next hid => exact (hproperty property).mpr (Or.inr hid)
    next => exact (hproperty property).mpr (Or.inl (h.properties property pair hpair))
  · intro property hknown
    rw [hpairs, Table.get?_insert]
    by_cases hid : p.id = property
    · subst hid
      refine ⟨getter, setter, if_pos rfl, ?_, ?_⟩
      · intro id
        rw [haccessor]
        simp [hbare]
      · intro id
        rw [haccessor]
        simp [hbare]
    · rw [if_neg hid]
      have hold := ((hproperty property).mp hknown).resolve_right hid
      obtain ⟨oldGetter, oldSetter, hpair, holdGet, holdSet⟩ := h.sides property hold
      refine ⟨oldGetter, oldSetter, hpair, ?_, ?_⟩
      · intro id
        rw [haccessor, holdGet]
        simp [hid]
      · intro id
        rw [haccessor, holdSet]
        simp [hid]

end

/-- Every change keeps accessors with their properties. -/
theorem Equipped.change (howned : d.Owned) (h : d.Equipped) (hchange : Change d d') :
    d'.Equipped := by
  cases hchange with
  | @type name s isMetadata hnew hname hid hkind =>
      refine h.of_same rfl ?_ ?_
      · intro id
        refine (knownAs_insert_iff hnew).trans ?_
        simp [hkind]
      · intro property kind id _
        unfold HasAccessor
        refine and_congr_right ?_
        intro hcontainer
        have hid := (howned.contained id property hcontainer).1
        rw [show (d.putType name s isMetadata).symbols.get? id = d.symbols.get? id from
          get?_insert_of_known hnew hid]
  | @nested qualified outer hnested htype houter =>
      refine h.of_same rfl (fun _ => Iff.rfl) ?_
      intro property kind id _
      by_cases hid : "T:" ++ qualified = id
      · subst hid
        obtain ⟨found, hfound, hkind⟩ := htype
        have hno : ∀ t : Tables, t.symbols = d.symbols →
            ¬ t.HasAccessor property kind ("T:" ++ qualified) := by
          rintro t hsymbols ⟨-, other, hother, hmethod, -⟩
          rw [hsymbols, hfound, Option.some.injEq] at hother
          rw [← hother, hkind] at hmethod
          cases hmethod
        exact iff_of_false (hno _ rfl) (hno _ rfl)
      · unfold HasAccessor
        rw [show (d.putContaining ("T:" ++ qualified) outer).containing.get? id =
          d.containing.get? id from (Table.get?_insert _ _ _ _).trans (if_neg hid)]
        rfl
  | member span hnew htype hkind hproperty haccessor =>
      exact h.member (gains_putMember d _ _ span) hnew hproperty haccessor
  | property hnew htype hkind hmethod hget hset =>
      exact Equipped.property howned h hnew hkind hget hset
  | other hsame => exact h.same hsame

/-! ## Accessors of properties -/

/-- The entry of a property names just its accessors. -/
theorem Equipped.hasAccessor_iff (h : t.Equipped) {property : String}
    {getter setter : Option String}
    (hpair : t.accessors.get? property = some (getter, setter)) (id : String) :
    (getter = some id ↔ t.HasAccessor property .propertyGet id) ∧
      (setter = some id ↔ t.HasAccessor property .propertySet id) := by
  obtain ⟨getter', setter', hpair', hget, hset⟩ :=
    h.sides property (h.properties property _ hpair)
  obtain ⟨rfl, rfl⟩ := Prod.mk.inj (Option.some.inj (hpair.symm.trans hpair'))
  exact ⟨hget id, hset id⟩

/-- An accessor is a getter or a setter, but not both. -/
theorem HasAccessor.kind_eq {property other : String} {kind kind' : MethodKind}
    (h : t.HasAccessor property kind id) (hother : t.HasAccessor other kind' id) :
    kind = kind' := by
  obtain ⟨-, s, hs, -, hside⟩ := h
  obtain ⟨-, s', hs', -, hside'⟩ := hother
  obtain rfl : s = s' := Option.some.inj (hs.symm.trans hs')
  exact Option.some.inj (hside.symm.trans hside')

/-- Only properties have accessors. -/
theorem Owned.property_of_hasAccessor (h : t.Owned) {property : String} {kind : MethodKind}
    (hkind : kind = .propertyGet ∨ kind = .propertySet) (hid : t.HasAccessor property kind id) :
    KnownAs t.symbols .property property := by
  obtain ⟨hlies, s, hs, hmethod, hside⟩ := hid
  obtain ⟨type, hlisted⟩ := h.listed id s hs (by simp [hmethod])
  have haccessor : s.isAccessor = true := by
    obtain rfl | rfl := hkind <;> simp [Symbol.isAccessor, hside]
  obtain ⟨-, other, -, hother, hproperty⟩ := h.accessor type id hlisted s hs haccessor
  obtain rfl : property = other := Option.some.inj (hlies.symm.trans hother)
  exact hproperty

/-! ## Ways outwards -/

/-- One id lies in another. -/
def LiesIn (t : Tables) (id container : String) : Prop :=
  t.containing.get? id = some container

theorem Owned.acc_of_type (h : t.Owned) (hid : KnownAs t.symbols .namedType id) :
    Acc (fun container id => t.LiesIn id container) id := by
  induction hlength : id.length using Nat.strong_induction_on generalizing id with
  | _ length ih =>
      constructor
      intro container hcontainer
      obtain ⟨hknown, hshorter⟩ := h.nested id container hid hcontainer
      exact ih container.length (hlength ▸ hshorter) hknown rfl

theorem Owned.isAccessor_eq_false (h : t.Owned) {p : Symbol} (hp : t.symbols.get? id = some p)
    (hkind : p.kind = .property) : p.isAccessor = false := by
  obtain ⟨type, hlisted⟩ := h.listed id p hp (by simp [hkind])
  rw [← Bool.not_eq_true]
  intro haccessor
  have hmethod := (h.accessor type id hlisted p hp haccessor).1
  rw [hkind] at hmethod
  cases hmethod

theorem Owned.acc_of_member (h : t.Owned) (hs : t.symbols.get? id = some s)
    (hkind : s.kind ≠ .namedType) (hplain : s.isAccessor = false) :
    Acc (fun container id => t.LiesIn id container) id := by
  obtain ⟨type, hlisted⟩ := h.listed id s hs hkind
  constructor
  intro container hcontainer
  have hown := h.plain type id hlisted s hs hplain
  rw [LiesIn, hown, Option.some.injEq] at hcontainer
  exact hcontainer ▸ h.acc_of_type (h.lists type id hlisted).1

/-- No way outwards is endless. -/
theorem Owned.wellFounded (h : t.Owned) :
    WellFounded fun container id => t.LiesIn id container := by
  refine ⟨fun id => Acc.intro id ?_⟩
  intro container hcontainer
  obtain ⟨-, s, hs⟩ := h.contained id container hcontainer
  by_cases hkind : s.kind = .namedType
  · exact h.acc_of_type ⟨s, hs, hkind⟩
  cases haccessor : s.isAccessor with
  | false => exact h.acc_of_member hs hkind haccessor
  | true =>
      obtain ⟨type, hlisted⟩ := h.listed container s hs hkind
      obtain ⟨-, property, -, hlies, p, hp, hproperty⟩ :=
        h.accessor type container hlisted s hs haccessor
      constructor
      intro around haround
      rw [LiesIn, hlies, Option.some.injEq] at haround
      subst haround
      exact h.acc_of_member hp (by simp [hproperty]) (h.isAccessor_eq_false hp hproperty)

/-- A member lies in its type, perhaps by way of a property. -/
theorem Owned.transGen_liesIn (h : t.Owned) (hs : t.symbols.get? id = some s)
    (hlisted : id ∈ t.members.listAt type) : Relation.TransGen t.LiesIn id type := by
  cases haccessor : s.isAccessor with
  | false => exact .single (h.plain type id hlisted s hs haccessor)
  | true =>
      obtain ⟨-, property, hproperty, hlies, p, hp, hkind⟩ :=
        h.accessor type id hlisted s hs haccessor
      have hplain := h.isAccessor_eq_false hp hkind
      exact .tail (.single hlies) (h.plain type property hproperty p hp hplain)

end Tables

namespace Draft

open Tables

variable {d e : Draft}

/-- Everything lies where it belongs, and properties have their accessors. -/
structure Ordered (d : Draft) : Prop where
  owned : d.Owned
  equipped : d.Equipped

theorem Ordered.empty : Draft.empty.Ordered :=
  ⟨Owned.empty, Equipped.empty⟩

theorem Ordered.change (h : d.Ordered) (hchange : Change d e) : e.Ordered :=
  ⟨h.owned.change hchange, h.equipped.change h.owned hchange⟩

theorem Ordered.grows (h : d.Ordered) (hgrows : d.Grows e) : e.Ordered :=
  hgrows.keeps (P := Ordered) Ordered.change h

end Draft

namespace Index

open Tables

/-- The tables of a document list every member once and say where everything lies. -/
theorem owned_of_tables {disk : Disk} {root : String} {data : Value} {t : Tables}
    (ht : tables disk root data = .ok t) : t.Owned ∧ t.Equipped := by
  obtain ⟨d, hrun, rfl⟩ := exists_run_of_tables ht
  have hordered : d.Ordered := by
    refine readDocument_keeps (P := Draft.Ordered) Draft.Ordered.empty
      (fun h hchange => h.change hchange) ?_ disk root data () d hrun
    rintro d id locations ⟨howned, hequipped⟩
    exact ⟨howned.of_same rfl rfl rfl rfl,
      hequipped.of_same rfl (fun _ => Iff.rfl) fun _ _ _ _ => Iff.rfl⟩
  exact ⟨hordered.owned, hordered.equipped⟩

end Index
end SymbolAtlas
