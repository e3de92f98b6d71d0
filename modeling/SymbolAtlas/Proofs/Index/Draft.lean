import SymbolAtlas.Proofs.Index.Closed
import Mathlib.Tactic

/-!
# Changes of a draft

Every change of a sound draft leads to a sound one that has all symbols it had before.  Types and
members come in under new ids only; every other change writes into one table, and what it writes
refers to known symbols.
-/

namespace SymbolAtlas
namespace Draft

open Tables

/-- The id begins unlike those of types. -/
def Apart (id : String) : Prop :=
  ∃ first rest, id.toList = first :: rest ∧ first ≠ 'T'

/-- What holds of a draft while a document is read. -/
structure Sound (d : Draft) : Prop where
  unique : d.symbols.keys.Nodup
  ids : d.symbols.Each fun id s => s.id = id
  refers : d.toTables.RefersTo d.symbols
  named : d.typeNames.Each fun _ id => KnownAs d.symbols .namedType id
  types : ∀ id s, d.symbols.get? id = some s → s.kind = .namedType →
    ∃ name, id = "T:" ++ name ∧ d.typeNames.get? name = some id
  apart : ∀ id s, d.symbols.get? id = some s → s.kind ≠ .namedType → Apart id
  bases : d.baseTypes.Each fun type base =>
    KnownAs d.symbols .namedType type ∧ KnownAs d.symbols .namedType base
  interfaces : d.declaredInterfaces.Each fun type ids =>
    KnownAs d.symbols .namedType type ∧ ∀ id ∈ ids, KnownAs d.symbols .namedType id
  links : ∀ pending ∈ d.pendingLinks, KnownAs d.symbols .namedType pending.1
  members : ∀ pending ∈ d.pendingMembers, KnownMember d.symbols pending.1
  bodies : ∀ pending ∈ d.pendingBodies, KnownAs d.symbols .method pending.method
  keyed : d.toTables.Keyed

/-- The second draft is sound and has all symbols of the first. -/
structure Becomes (d d' : Draft) : Prop where
  sound : d'.Sound
  kept : Kept d.symbols d'.symbols

variable {d d' d'' : Draft}

theorem Sound.becomes (hd : d.Sound) : d.Becomes d :=
  ⟨hd, Kept.refl d.symbols⟩

theorem Becomes.trans (hfirst : d.Becomes d') (hsecond : d'.Becomes d'') : d.Becomes d'' :=
  ⟨hsecond.sound, hfirst.kept.trans hsecond.kept⟩

theorem Apart.append {start : String} (h : Apart start) (more : String) :
    Apart (start ++ more) := by
  rcases h with ⟨first, rest, hstart, hfirst⟩
  refine ⟨first, rest ++ more.toList, ?_, hfirst⟩
  rw [String.toList_append, hstart, List.cons_append]

theorem Apart.ne_typeId {id : String} (h : Apart id) (name : String) : id ≠ "T:" ++ name := by
  rcases h with ⟨first, rest, hid, hfirst⟩
  intro heq
  rw [heq, String.toList_append] at hid
  exact hfirst (List.cons.inj hid).1.symm

theorem Sound.exists_member (hd : d.Sound) {id : String} (hid : KnownMember d.symbols id) :
    ∃ member, d.symbols.get? id = some member ∧ member.kind ≠ .namedType ∧
      Known d.symbols member.id := by
  obtain ⟨member, hmember, hkind⟩ := hid
  refine ⟨member, hmember, hkind, member, ?_⟩
  rw [hd.ids.get? hmember]
  exact hmember

/-- A type whose name is not taken has an id that is not taken. -/
theorem Sound.typeId_new (hd : d.Sound) {name : String}
    (hname : d.typeNames.contains name = false) :
    d.symbols.get? ("T:" ++ name) = none := by
  cases hget : d.symbols.get? ("T:" ++ name) with
  | none => rfl
  | some s =>
      exfalso
      by_cases hkind : s.kind = .namedType
      · rcases hd.types _ s hget hkind with ⟨other, heq, hother⟩
        have hsame : name = other := (String.append_right_inj "T:").mp heq
        rw [hsame, Table.contains, hother] at hname
        cases hname
      · exact (hd.apart _ s hget hkind).ne_typeId name rfl

theorem Sound.empty : Draft.empty.Sound := by
  have hnone : ∀ id s, Draft.empty.symbols.get? id = some s → False := by
    intro id s hs
    cases hs
  constructor
  · exact List.nodup_nil
  · exact Table.each_empty _
  · constructor <;> exact Table.each_empty _
  · exact Table.each_empty _
  · intro id s hs
    exact (hnone id s hs).elim
  · intro id s hs
    exact (hnone id s hs).elim
  · exact Table.each_empty _
  · exact Table.each_empty _
  · simp [Draft.empty]
  · simp [Draft.empty]
  · simp [Draft.empty]
  · constructor <;> exact List.nodup_nil

/-! ## New symbols -/

theorem kept_insert {symbols : Table Symbol} {s : Symbol} (hnew : symbols.get? s.id = none) :
    Kept symbols (symbols.insert s.id s) := by
  intro id old hold
  rw [Table.get?_insert]
  by_cases hid : s.id = id
  · rw [← hid, hnew] at hold
    cases hold
  · rw [if_neg hid]
    exact hold

theorem get?_insert_self (symbols : Table Symbol) (s : Symbol) :
    (symbols.insert s.id s).get? s.id = some s := by
  rw [Table.get?_insert, if_pos rfl]

/-- A symbol after one has been added is that one or was there before. -/
theorem get?_insert_cases {symbols : Table Symbol} {s t : Symbol} {id : String}
    (ht : (symbols.insert s.id s).get? id = some t) :
    s.id = id ∧ s = t ∨ symbols.get? id = some t := by
  rw [Table.get?_insert] at ht
  by_cases hid : s.id = id
  · rw [if_pos hid, Option.some.injEq] at ht
    exact Or.inl ⟨hid, ht⟩
  · rw [if_neg hid] at ht
    exact Or.inr ht

theorem get?_registerTypeName (d : Draft) {name : String} {id other : String} {found : String}
    (hname : d.typeNames.contains name = false) (hfound : d.typeNames.get? other = some found) :
    (d.registerTypeName name id).typeNames.get? other = some found := by
  have hne : name ≠ other := by
    intro heq
    rw [heq, Table.contains, hfound] at hname
    cases hname
  have hinsert : (d.typeNames.insert name id).get? other = some found := by
    rw [Table.get?_insert, if_neg hne]
    exact hfound
  unfold registerTypeName
  split
  next => rw [Table.get?_insertNew, hinsert, Option.some_or]
  next => exact hinsert

theorem get?_registerTypeName_self (d : Draft) (name id : String) :
    (d.registerTypeName name id).typeNames.get? name = some id := by
  have hinsert : (d.typeNames.insert name id).get? name = some id := by
    rw [Table.get?_insert, if_pos rfl]
  unfold registerTypeName
  split
  next => rw [Table.get?_insertNew, hinsert, Option.some_or]
  next => exact hinsert

theorem each_registerTypeName {p : String → String → Prop} (hnames : d.typeNames.Each p)
    {name id : String} (hp : ∀ other, p other id) :
    (d.registerTypeName name id).typeNames.Each p := by
  have hinsert : (d.typeNames.insert name id).Each p := hnames.insert (hp name)
  unfold registerTypeName
  split
  next => exact hinsert.insertNew (hp _)
  next => exact hinsert

theorem nodup_keys_registerTypeName (hnames : d.typeNames.keys.Nodup) (name id : String) :
    (d.registerTypeName name id).typeNames.keys.Nodup := by
  have hinsert := Table.nodup_keys_insert hnames name id
  unfold registerTypeName
  split
  next => exact Table.nodup_keys_insertNew hinsert _ id
  next => exact hinsert

theorem Sound.bases_mono (hd : d.Sound) {after : Table Symbol} (hkept : Kept d.symbols after) :
    d.baseTypes.Each fun type base =>
      KnownAs after .namedType type ∧ KnownAs after .namedType base :=
  hd.bases.mono fun _ _ ⟨htype, hbase⟩ => ⟨htype.mono hkept, hbase.mono hkept⟩

theorem Sound.interfaces_mono (hd : d.Sound) {after : Table Symbol}
    (hkept : Kept d.symbols after) : d.declaredInterfaces.Each fun type ids =>
      KnownAs after .namedType type ∧ ∀ id ∈ ids, KnownAs after .namedType id :=
  hd.interfaces.mono fun _ _ ⟨htype, hids⟩ =>
    ⟨htype.mono hkept, fun id hid => (hids id hid).mono hkept⟩

theorem Sound.links_mono (hd : d.Sound) {after : Table Symbol} (hkept : Kept d.symbols after) :
    ∀ pending ∈ d.pendingLinks, KnownAs after .namedType pending.1 :=
  fun pending hpending => (hd.links pending hpending).mono hkept

theorem Sound.members_mono (hd : d.Sound) {after : Table Symbol} (hkept : Kept d.symbols after) :
    ∀ pending ∈ d.pendingMembers, KnownMember after pending.1 :=
  fun pending hpending => (hd.members pending hpending).mono hkept

theorem Sound.bodies_mono (hd : d.Sound) {after : Table Symbol} (hkept : Kept d.symbols after) :
    ∀ pending ∈ d.pendingBodies, KnownAs after .method pending.method :=
  fun pending hpending => (hd.bodies pending hpending).mono hkept

theorem Sound.putType (hd : d.Sound) {name : String} {s : Symbol}
    (hname : d.typeNames.contains name = false) (hid : s.id = "T:" ++ name)
    (hkind : s.kind = .namedType) (isMetadata : Bool) :
    d.Becomes (d.putType name s isMetadata) ∧
      KnownAs (d.putType name s isMetadata).symbols .namedType s.id := by
  have hnew : d.symbols.get? s.id = none := by
    rw [hid]
    exact hd.typeId_new hname
  have hkept : Kept d.symbols (d.symbols.insert s.id s) := kept_insert hnew
  have hself := get?_insert_self d.symbols s
  have hs : KnownAs (d.symbols.insert s.id s) .namedType s.id := ⟨s, hself, hkind⟩
  have hrefers := hd.refers.mono hkept
  refine ⟨⟨?_, hkept⟩, hs⟩
  constructor
  · exact Table.nodup_keys_insert hd.unique s.id s
  · exact hd.ids.insert rfl
  · exact { hrefers with members := hrefers.members.insert ⟨hs.known, by simp⟩ }
  · apply each_registerTypeName
    · exact hd.named.mono fun _ _ h => h.mono hkept
    · intro _
      exact hs
  · intro id t ht htype
    rcases get?_insert_cases ht with ⟨rfl, -⟩ | hold
    · exact ⟨name, hid, get?_registerTypeName_self _ name s.id⟩
    · rcases hd.types id t hold htype with ⟨other, hother, hfound⟩
      exact ⟨other, hother, get?_registerTypeName _ hname hfound⟩
  · intro id t ht hmember
    rcases get?_insert_cases ht with ⟨-, rfl⟩ | hold
    · exact absurd hkind hmember
    · exact hd.apart id t hold hmember
  · exact hd.bases_mono hkept
  · exact hd.interfaces_mono hkept
  · exact hd.links_mono hkept
  · exact hd.members_mono hkept
  · exact hd.bodies_mono hkept
  · exact { hd.keyed with
      typeNames := nodup_keys_registerTypeName hd.keyed.typeNames name s.id
      members := Table.nodup_keys_insert hd.keyed.members s.id [] }

theorem Sound.putSpan (hd : d.Sound) {id : String} (hid : Known d.symbols id)
    (span : Option Span) : d.Becomes (d.putSpan id span) := by
  unfold Draft.putSpan
  cases span with
  | none => exact hd.becomes
  | some span =>
      refine ⟨?_, Kept.refl _⟩
      exact { hd with
        refers := { hd.refers with spans := hd.refers.spans.insert hid }
        keyed := { hd.keyed with spans := Table.nodup_keys_insert hd.keyed.spans id span } }

theorem Sound.putMember (hd : d.Sound) {type : String} {s : Symbol}
    (hnew : d.symbols.get? s.id = none) (htype : Known d.symbols type)
    (hkind : s.kind ≠ .namedType) (hapart : Apart s.id) (span : Option Span) :
    d.Becomes (d.putMember type s span) ∧ Holds (d.putMember type s span).symbols s := by
  have hkept : Kept d.symbols (d.symbols.insert s.id s) := kept_insert hnew
  have hself := get?_insert_self d.symbols s
  have hs : Known (d.symbols.insert s.id s) s.id := ⟨s, hself⟩
  have hrefers := hd.refers.mono hkept
  have htype := htype.mono hkept
  have hmember : Sound
      { d with
        symbols := d.symbols.insert s.id s
        members := d.members.append type s.id
        containing := d.containing.insert s.id type } := by
    constructor
    · exact Table.nodup_keys_insert hd.unique s.id s
    · exact hd.ids.insert rfl
    · have hids : ∀ id ∈ d.members.listAt type ++ [s.id],
          Known (d.symbols.insert s.id s) id := by
        intro id hid
        rcases List.mem_append.mp hid with hold | hlast
        · exact (hrefers.members.mono fun _ _ h => h.2).listAt type id hold
        · rw [List.mem_singleton.mp hlast]
          exact hs
      exact { hrefers with
        members := hrefers.members.insert ⟨htype, hids⟩
        containing := hrefers.containing.insert ⟨hs, htype⟩ }
    · exact hd.named.mono fun _ _ h => h.mono hkept
    · intro id t ht hnamed
      rcases get?_insert_cases ht with ⟨-, rfl⟩ | hold
      · exact absurd hnamed hkind
      · exact hd.types id t hold hnamed
    · intro id t ht hother
      rcases get?_insert_cases ht with ⟨rfl, -⟩ | hold
      · exact hapart
      · exact hd.apart id t hold hother
    · exact hd.bases_mono hkept
    · exact hd.interfaces_mono hkept
    · exact hd.links_mono hkept
    · exact hd.members_mono hkept
    · exact hd.bodies_mono hkept
    · exact { hd.keyed with
        members := Table.nodup_keys_insert hd.keyed.members type _
        containing := Table.nodup_keys_insert hd.keyed.containing s.id type }
  have hspan := hmember.putSpan hs span
  exact ⟨⟨hspan.sound, hkept.trans hspan.kept⟩, hspan.kept s.id s hself⟩

/-! ## References between known symbols -/

theorem Sound.putContaining (hd : d.Sound) {id container : String} (hid : Known d.symbols id)
    (hcontainer : Known d.symbols container) : d.Becomes (d.putContaining id container) := by
  have hcontaining := hd.refers.containing.insert (And.intro hid hcontainer)
  have hkeys := Table.nodup_keys_insert hd.keyed.containing id container
  exact ⟨{ hd with
    refers := { hd.refers with containing := hcontaining }
    keyed := { hd.keyed with containing := hkeys } }, Kept.refl _⟩

theorem Sound.putAccessors (hd : d.Sound) {property : String} {getter setter : Option String}
    (hproperty : Known d.symbols property) (hgetter : ∀ id ∈ getter, Known d.symbols id)
    (hsetter : ∀ id ∈ setter, Known d.symbols id) :
    d.Becomes (d.putAccessors property getter setter) := by
  have hrefers := hd.refers
  have hkeys := Table.nodup_keys_insert hd.keyed.accessors property (getter, setter)
  exact ⟨{ hd with
    refers := { hrefers with
      accessors := hrefers.accessors.insert ⟨hproperty, hgetter, hsetter⟩ }
    keyed := { hd.keyed with accessors := hkeys } }, Kept.refl _⟩

theorem Sound.putBase (hd : d.Sound) {type base : String}
    (htype : KnownAs d.symbols .namedType type) (hbase : KnownAs d.symbols .namedType base) :
    d.Becomes (d.putBase type base) := by
  have hbases := hd.refers.baseTypes.insert (And.intro htype.known hbase.known)
  have hkeys := Table.nodup_keys_insert hd.keyed.baseTypes type base
  exact ⟨{ hd with
    refers := { hd.refers with baseTypes := hbases }
    bases := hd.bases.insert (And.intro htype hbase)
    keyed := { hd.keyed with baseTypes := hkeys } }, Kept.refl _⟩

theorem Sound.putInterfaces (hd : d.Sound) {type : String} {interfaces : List String}
    (htype : KnownAs d.symbols .namedType type)
    (hinterfaces : ∀ id ∈ interfaces, KnownAs d.symbols .namedType id) :
    d.Becomes (d.putInterfaces type interfaces) := by
  have hdeclared := hd.refers.declaredInterfaces.insert
    (And.intro htype.known fun id hid => (hinterfaces id hid).known)
  have hkeys := Table.nodup_keys_insert hd.keyed.declaredInterfaces type interfaces
  exact ⟨{ hd with
    refers := { hd.refers with declaredInterfaces := hdeclared }
    interfaces := hd.interfaces.insert (And.intro htype hinterfaces)
    keyed := { hd.keyed with declaredInterfaces := hkeys } }, Kept.refl _⟩

theorem Sound.putSourceDefinition (hd : d.Sound) {type source : String}
    (htype : Known d.symbols type) (hsource : Known d.symbols source) :
    d.Becomes (d.putSourceDefinition type source) := by
  have hsources := hd.refers.sourceDefinitions.insert (And.intro htype hsource)
  have hkeys := Table.nodup_keys_insert hd.keyed.sourceDefinitions type source
  exact ⟨{ hd with
    refers := { hd.refers with sourceDefinitions := hsources }
    keyed := { hd.keyed with sourceDefinitions := hkeys } }, Kept.refl _⟩

theorem Sound.putOverridden (hd : d.Sound) {member target : String}
    (hmember : Known d.symbols member) (htarget : Known d.symbols target) :
    d.Becomes (d.putOverridden member target) := by
  have hoverridden := hd.refers.overridden.insert (And.intro hmember htarget)
  have hkeys := Table.nodup_keys_insert hd.keyed.overridden member target
  exact ⟨{ hd with
    refers := { hd.refers with overridden := hoverridden }
    keyed := { hd.keyed with overridden := hkeys } }, Kept.refl _⟩

theorem Sound.putImplementations (hd : d.Sound) {member : String} {targets : List String}
    (hmember : Known d.symbols member) (htargets : ∀ id ∈ targets, Known d.symbols id) :
    d.Becomes (d.putImplementations member targets) := by
  have hexplicit := hd.refers.explicitImplementations.insert (And.intro hmember htargets)
  have hkeys := Table.nodup_keys_insert hd.keyed.explicitImplementations member targets
  exact ⟨{ hd with
    refers := { hd.refers with explicitImplementations := hexplicit }
    keyed := { hd.keyed with explicitImplementations := hkeys } }, Kept.refl _⟩

theorem Sound.putBody (hd : d.Sound) {method : String} {body : Operation}
    (hmethod : KnownAs d.symbols .method method) (hbody : Settled d.symbols body) :
    d.Becomes (d.putBody method body) := by
  have hbodies := hd.refers.bodies.insert (And.intro hmethod hbody)
  have hkeys := Table.nodup_keys_insert hd.keyed.bodies method body
  exact ⟨{ hd with
    refers := { hd.refers with bodies := hbodies }
    keyed := { hd.keyed with bodies := hkeys } }, Kept.refl _⟩

theorem Sound.putReferences (hd : d.Sound) {id : String} (hid : Known d.symbols id)
    (locations : List Location) : d.Becomes (d.putReferences id locations) := by
  have hrefers := hd.refers
  have hkeys := Table.nodup_keys_insert hd.keyed.explicitReferences id
    (d.explicitReferences.listAt id ++ locations)
  exact ⟨{ hd with
    refers := { hrefers with explicitReferences := hrefers.explicitReferences.insert hid }
    keyed := { hd.keyed with explicitReferences := hkeys } }, Kept.refl _⟩

theorem Sound.putSourceLines (hd : d.Sound) (file : String) (lines : List String) :
    d.Becomes (d.putSourceLines file lines) := by
  have hkeys := Table.nodup_keys_insert hd.keyed.sourceLines file lines
  exact ⟨{ hd with
    refers := { hd.refers with }
    keyed := { hd.keyed with sourceLines := hkeys } }, Kept.refl _⟩

/-! ## What is put off -/

theorem Sound.deferLink (hd : d.Sound) {type : String}
    (htype : KnownAs d.symbols .namedType type) (data : Value) :
    d.Becomes (d.deferLink type data) := by
  refine ⟨{ hd with refers := { hd.refers with }, links := ?_, keyed := { hd.keyed with } },
    Kept.refl _⟩
  intro pending hpending
  rcases List.mem_append.mp hpending with hold | hlast
  · exact hd.links pending hold
  · rw [List.mem_singleton.mp hlast]
    exact htype

theorem Sound.deferMember (hd : d.Sound) {member : String} (hmember : KnownMember d.symbols member)
    (data : Value) : d.Becomes (d.deferMember member data) := by
  refine ⟨{ hd with refers := { hd.refers with }, members := ?_, keyed := { hd.keyed with } },
    Kept.refl _⟩
  intro pending hpending
  rcases List.mem_append.mp hpending with hold | hlast
  · exact hd.members pending hold
  · rw [List.mem_singleton.mp hlast]
    exact hmember

theorem Sound.deferBody (hd : d.Sound) {method : String}
    (hmethod : KnownAs d.symbols .method method) (file : Option String) (data : Value) :
    d.Becomes (d.deferBody method file data) := by
  unfold Draft.deferBody
  by_cases hnull : (data.field "body").isNull = true
  · rw [if_pos hnull]
    exact hd.becomes
  · rw [if_neg hnull]
    refine ⟨{ hd with refers := { hd.refers with }, bodies := ?_, keyed := { hd.keyed with } },
      Kept.refl _⟩
    intro pending hpending
    rcases List.mem_append.mp hpending with hold | hlast
    · exact hd.bodies pending hold
    · rw [List.mem_singleton.mp hlast]
      exact hmethod

end Draft
end SymbolAtlas
