import SymbolAtlas.Index.Draft
import SymbolAtlas.Proofs.Operation.Path
import SymbolAtlas.Proofs.Table
import Mathlib.Tactic

/-!
# Closed tables

The tables of a workspace refer to symbols by their ids, and operations carry whole symbols.  They
are closed if every id leads to a symbol and every carried symbol is the one under its id, and they
are keyed if none of them has two entries under one key.  While a document is read its draft is
sound: its tables are closed and keyed, what has been put off refers to known symbols, and the ids
of types begin unlike those of members, so that neither ever takes the place of the other.
-/

namespace SymbolAtlas

/-- The symbol that an operation carries. -/
def Operation.Names (op : Operation) (s : Symbol) : Prop :=
  op.member? = some s ∨ op.callee? = some s

namespace Tables

/-- Some symbol has the id. -/
def Known (symbols : Table Symbol) (id : String) : Prop :=
  ∃ s, symbols.get? id = some s

/-- Some symbol of the kind has the id. -/
def KnownAs (symbols : Table Symbol) (kind : SymbolKind) (id : String) : Prop :=
  ∃ s, symbols.get? id = some s ∧ s.kind = kind

/-- Some symbol other than a type has the id. -/
def KnownMember (symbols : Table Symbol) (id : String) : Prop :=
  ∃ s, symbols.get? id = some s ∧ s.kind ≠ .namedType

/-- The symbol is the one under its id. -/
def Holds (symbols : Table Symbol) (s : Symbol) : Prop :=
  symbols.get? s.id = some s

/-- All symbols that a tree carries are those under their ids. -/
def Settled (symbols : Table Symbol) (body : Operation) : Prop :=
  ∀ op ∈ body.walk, ∀ s, op.Names s → Holds symbols s

/-- All that some tables refer to is among the symbols. -/
structure RefersTo (t : Tables) (symbols : Table Symbol) : Prop where
  members : t.members.Each fun type ids => Known symbols type ∧ ∀ id ∈ ids, Known symbols id
  containing : t.containing.Each fun id container => Known symbols id ∧ Known symbols container
  baseTypes : t.baseTypes.Each fun type base => Known symbols type ∧ Known symbols base
  declaredInterfaces : t.declaredInterfaces.Each fun type interfaces =>
    Known symbols type ∧ ∀ id ∈ interfaces, Known symbols id
  accessors : t.accessors.Each fun property pair =>
    Known symbols property ∧ (∀ id ∈ pair.1, Known symbols id) ∧ ∀ id ∈ pair.2, Known symbols id
  overridden : t.overridden.Each fun member target => Known symbols member ∧ Known symbols target
  explicitImplementations : t.explicitImplementations.Each fun member targets =>
    Known symbols member ∧ ∀ id ∈ targets, Known symbols id
  bodies : t.bodies.Each fun method body => KnownAs symbols .method method ∧ Settled symbols body
  spans : t.spans.Each fun id _ => Known symbols id
  explicitReferences : t.explicitReferences.Each fun id _ => Known symbols id
  sourceDefinitions : t.sourceDefinitions.Each fun type source =>
    Known symbols type ∧ Known symbols source

/-- Every id leads to its symbol, and type names lead to the types and to nothing else. -/
structure Closed (t : Tables) : Prop where
  unique : t.symbols.keys.Nodup
  ids : t.symbols.Each fun id s => s.id = id
  refers : t.RefersTo t.symbols
  typeNames : ∀ id, id ∈ t.typeNames.values ↔
    ∃ s ∈ t.symbols.values, s.kind = .namedType ∧ s.id = id

/-- No table beside that of the symbols has two entries under one key. -/
structure Keyed (t : Tables) : Prop where
  typeNames : t.typeNames.keys.Nodup
  members : t.members.keys.Nodup
  containing : t.containing.keys.Nodup
  baseTypes : t.baseTypes.keys.Nodup
  declaredInterfaces : t.declaredInterfaces.keys.Nodup
  accessors : t.accessors.keys.Nodup
  overridden : t.overridden.keys.Nodup
  explicitImplementations : t.explicitImplementations.keys.Nodup
  bodies : t.bodies.keys.Nodup
  spans : t.spans.keys.Nodup
  explicitReferences : t.explicitReferences.keys.Nodup
  sourceDefinitions : t.sourceDefinitions.keys.Nodup
  sourceLines : t.sourceLines.keys.Nodup

/-- Tables in which every id leads to its symbol and every key to its one entry. -/
structure WellFormed (t : Tables) : Prop where
  closed : t.Closed
  keyed : t.Keyed

/-- Bases and interfaces link types to types. -/
structure LinksTypes (t : Tables) : Prop where
  bases : t.baseTypes.Each fun type base =>
    KnownAs t.symbols .namedType type ∧ KnownAs t.symbols .namedType base
  interfaces : t.declaredInterfaces.Each fun type ids =>
    KnownAs t.symbols .namedType type ∧ ∀ id ∈ ids, KnownAs t.symbols .namedType id

/-- Symbols stay under their ids. -/
def Kept (before after : Table Symbol) : Prop :=
  ∀ id s, before.get? id = some s → after.get? id = some s

variable {before middle after symbols : Table Symbol} {id : String} {kind : SymbolKind}

theorem Kept.refl (symbols : Table Symbol) : Kept symbols symbols :=
  fun _ _ h => h

theorem Kept.trans (hfirst : Kept before middle) (hsecond : Kept middle after) :
    Kept before after :=
  fun id s h => hsecond id s (hfirst id s h)

theorem KnownAs.known (h : KnownAs symbols kind id) : Known symbols id := by
  obtain ⟨s, hs, -⟩ := h
  exact ⟨s, hs⟩

theorem KnownAs.kind_eq {s : Symbol} (h : KnownAs symbols kind s.id) (hs : Holds symbols s) :
    s.kind = kind := by
  obtain ⟨found, hfound, hkind⟩ := h
  obtain rfl := Option.some.inj (Eq.trans (Eq.symm hs) hfound)
  exact hkind

theorem KnownMember.known (h : KnownMember symbols id) : Known symbols id := by
  obtain ⟨s, hs, -⟩ := h
  exact ⟨s, hs⟩

theorem Holds.known {s : Symbol} (h : Holds symbols s) : Known symbols s.id :=
  ⟨s, h⟩

theorem Known.mono (hkept : Kept before after) (h : Known before id) : Known after id := by
  obtain ⟨s, hs⟩ := h
  exact ⟨s, hkept id s hs⟩

theorem KnownAs.mono (hkept : Kept before after) (h : KnownAs before kind id) :
    KnownAs after kind id := by
  obtain ⟨s, hs, hkind⟩ := h
  exact ⟨s, hkept id s hs, hkind⟩

theorem KnownMember.mono (hkept : Kept before after) (h : KnownMember before id) :
    KnownMember after id := by
  obtain ⟨s, hs, hkind⟩ := h
  exact ⟨s, hkept id s hs, hkind⟩

theorem Holds.mono (hkept : Kept before after) {s : Symbol} (h : Holds before s) :
    Holds after s :=
  hkept s.id s h

theorem Settled.mono (hkept : Kept before after) {body : Operation} (h : Settled before body) :
    Settled after body :=
  fun op hop s hs => (h op hop s hs).mono hkept

theorem settled_iff (body : Operation) :
    Settled symbols body ↔
      (∀ s, body.Names s → Holds symbols s) ∧ ∀ child ∈ body.children, Settled symbols child :=
  body.forall_walk_iff fun op => ∀ s, op.Names s → Holds symbols s

theorem RefersTo.mono {t : Tables} (hkept : Kept before after) (h : t.RefersTo before) :
    t.RefersTo after where
  members := h.members.mono fun _ _ ⟨htype, hids⟩ =>
    ⟨htype.mono hkept, fun id hid => (hids id hid).mono hkept⟩
  containing := h.containing.mono fun _ _ ⟨hid, hcontainer⟩ =>
    ⟨hid.mono hkept, hcontainer.mono hkept⟩
  baseTypes := h.baseTypes.mono fun _ _ ⟨htype, hbase⟩ => ⟨htype.mono hkept, hbase.mono hkept⟩
  declaredInterfaces := h.declaredInterfaces.mono fun _ _ ⟨htype, hids⟩ =>
    ⟨htype.mono hkept, fun id hid => (hids id hid).mono hkept⟩
  accessors := h.accessors.mono fun _ _ ⟨hproperty, hgetter, hsetter⟩ =>
    ⟨hproperty.mono hkept, fun id hid => (hgetter id hid).mono hkept,
      fun id hid => (hsetter id hid).mono hkept⟩
  overridden := h.overridden.mono fun _ _ ⟨hmember, htarget⟩ =>
    ⟨hmember.mono hkept, htarget.mono hkept⟩
  explicitImplementations := h.explicitImplementations.mono fun _ _ ⟨hmember, hids⟩ =>
    ⟨hmember.mono hkept, fun id hid => (hids id hid).mono hkept⟩
  bodies := h.bodies.mono fun _ _ ⟨hmethod, hbody⟩ => ⟨hmethod.mono hkept, hbody.mono hkept⟩
  spans := h.spans.mono fun _ _ hid => hid.mono hkept
  explicitReferences := h.explicitReferences.mono fun _ _ hid => hid.mono hkept
  sourceDefinitions := h.sourceDefinitions.mono fun _ _ ⟨htype, hsource⟩ =>
    ⟨htype.mono hkept, hsource.mono hkept⟩

end Tables
end SymbolAtlas
