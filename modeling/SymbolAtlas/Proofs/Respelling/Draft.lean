import SymbolAtlas.Index.Build
import SymbolAtlas.Proofs.Name.Signature
import SymbolAtlas.Proofs.Operation.Walk
import SymbolAtlas.Proofs.Respelling.Document
import SymbolAtlas.Snapshot.Basic
import Mathlib.Tactic

/-!
# Drafts that resemble each other

Symbols resemble each other if they differ at most in how they are shown, and drafts do if they hold
the same ids in the same tables, with symbols that resemble each other and bodies that make the same
calls.  Each operation on drafts takes drafts that resemble each other to such drafts again.
-/

namespace SymbolAtlas

/-- What tells symbols apart apart from how they are shown: parameter types count in their
canonical form. -/
structure Symbol.Resembles (s s' : Symbol) : Prop where
  id : s'.id = s.id
  name : s'.name = s.name
  kind : s'.kind = s.kind
  typeKind : s'.typeKind = s.typeKind
  methodKind : s'.methodKind = s.methodKind
  isOverride : s'.isOverride = s.isOverride
  parameters : List.Forall₂ Parameter.Resembles s.parameters s'.parameters

/-- Two trees make the same calls at the same places in the same order. -/
def Operation.SameCalls (op op' : Operation) : Prop :=
  ∀ method, op'.walk.flatMap (Tables.callsIn method) = op.walk.flatMap (Tables.callsIn method)

/-! ## Related lists -/

section Related

variable {α β γ : Type} {R : α → β → Prop} {items : List α} {others : List β} {f : α → γ}
  {g : β → γ}

theorem map_eq_of_rel (h : List.Forall₂ R items others) (hfg : ∀ a b, R a b → g b = f a) :
    others.map g = items.map f := by
  have hmap : List.Forall₂ Eq (items.map f) (others.map g) :=
    List.rel_map (fun a b hab => (hfg a b hab).symm) h
  rw [List.forall₂_eq_eq_eq] at hmap
  exact hmap.symm

/-- Searches of related lists find related items. -/
theorem map_find?_eq_of_rel (h : List.Forall₂ R items others) {p : α → Bool} {q : β → Bool}
    (hpq : ∀ a b, R a b → q b = p a) (hfg : ∀ a b, R a b → g b = f a) :
    (others.find? q).map g = (items.find? p).map f := by
  induction h with
  | nil => rfl
  | @cons a b _ _ hfirst _ ih =>
      rw [List.find?_cons, List.find?_cons, hpq a b hfirst]
      cases p a with
      | true => exact congrArg some (hfg a b hfirst)
      | false => exact ih

end Related

namespace Table

variable {α : Type} {R : α → α → Prop} {t t' : Table α}

/-- The same keys in the same order, with related values. -/
def Alike (R : α → α → Prop) (t t' : Table α) : Prop :=
  List.Forall₂ (fun e e' => e.1 = e'.1 ∧ R e.2 e'.2) t.entries t'.entries

theorem find?_rel {entries others : List (String × α)}
    (h : List.Forall₂ (fun e e' => e.1 = e'.1 ∧ R e.2 e'.2) entries others) (key : String) :
    Option.Rel R (find? key entries) (find? key others) := by
  induction h with
  | nil => exact .none
  | @cons e e' _ _ hfirst _ ih =>
      obtain ⟨hkey, hvalue⟩ := hfirst
      unfold find?
      rw [← hkey]
      by_cases hfound : e.1 = key
      · rw [if_pos hfound, if_pos hfound]
        exact .some hvalue
      · rw [if_neg hfound, if_neg hfound]
        exact ih

theorem put_rel {entries others : List (String × α)}
    (h : List.Forall₂ (fun e e' => e.1 = e'.1 ∧ R e.2 e'.2) entries others) (key : String)
    {a a' : α} (hvalue : R a a') :
    List.Forall₂ (fun e e' => e.1 = e'.1 ∧ R e.2 e'.2) (put key a entries)
      (put key a' others) := by
  induction h with
  | nil => exact .cons ⟨rfl, hvalue⟩ .nil
  | @cons e e' _ _ hfirst hrest ih =>
      obtain ⟨hkey, hold⟩ := hfirst
      unfold put
      rw [← hkey]
      by_cases hfound : e.1 = key
      · rw [if_pos hfound, if_pos hfound]
        exact .cons ⟨rfl, hvalue⟩ hrest
      · rw [if_neg hfound, if_neg hfound]
        exact .cons ⟨rfl, hold⟩ ih

/-- A key is in neither table, or in both with related values. -/
theorem Alike.get?_cases (h : Alike R t t') (key : String) :
    (t.get? key = none ∧ t'.get? key = none) ∨
      ∃ a a', t.get? key = some a ∧ t'.get? key = some a' ∧ R a a' := by
  have hfound := find?_rel h key
  unfold Table.get?
  generalize find? key t.entries = found at hfound
  generalize find? key t'.entries = found' at hfound
  cases hfound with
  | none => exact Or.inl ⟨rfl, rfl⟩
  | some hvalue => exact Or.inr ⟨_, _, rfl, rfl, hvalue⟩

theorem Alike.insert (h : Alike R t t') (key : String) {a a' : α} (hvalue : R a a') :
    Alike R (t.insert key a) (t'.insert key a') :=
  put_rel h key hvalue

theorem Alike.contains (h : Alike R t t') (key : String) : t'.contains key = t.contains key := by
  unfold Table.contains
  rcases h.get?_cases key with ⟨hnone, hnone'⟩ | ⟨a, a', hsome, hsome', -⟩
  · rw [hnone, hnone']
  · rw [hsome, hsome']
    rfl

theorem Alike.keys (h : Alike R t t') : t'.keys = t.keys :=
  map_eq_of_rel h fun _ _ hentry => hentry.1.symm

end Table

/-- What can be asked of the tables without looking at how symbols are shown is the same. -/
structure Tables.Resembles (t t' : Tables) : Prop where
  symbols : t.symbols.Alike Symbol.Resembles t'.symbols
  typeNames : t'.typeNames = t.typeNames
  members : t'.members = t.members
  containing : t'.containing = t.containing
  baseTypes : t'.baseTypes = t.baseTypes
  declaredInterfaces : t'.declaredInterfaces = t.declaredInterfaces
  accessors : t'.accessors = t.accessors
  overridden : t'.overridden = t.overridden
  explicitImplementations : t'.explicitImplementations = t.explicitImplementations
  bodies : t.bodies.Alike Operation.SameCalls t'.bodies

/-- The same has been put off, with data that agree. -/
def SimilarPending : String × Value → String × Value → Prop :=
  fun p p' => p'.1 = p.1 ∧ Entry.Similar p.2 p'.2

structure Draft.Resembles (d d' : Draft) : Prop extends
    Tables.Resembles d.toTables d'.toTables where
  metadataTypes : d'.metadataTypes = d.metadataTypes
  pendingLinks : List.Forall₂ SimilarPending d.pendingLinks d'.pendingLinks
  pendingMembers : List.Forall₂ SimilarPending d.pendingMembers d'.pendingMembers
  pendingBodies : d'.pendingBodies = d.pendingBodies

/-! ## Symbols -/

namespace Symbol.Resembles

variable {s s' m m' : Symbol}

theorem refl (s : Symbol) : s.Resembles s :=
  ⟨rfl, rfl, rfl, rfl, rfl, rfl, List.forall₂_same.mpr fun _ _ => ⟨rfl, rfl⟩⟩

theorem canonicals (h : s.Resembles s') :
    s'.parameterTypes.map TypeName.canonical = s.parameterTypes.map TypeName.canonical := by
  unfold parameterTypes
  rw [List.map_map, List.map_map]
  exact map_eq_of_rel h.parameters fun _ _ hparameter => hparameter.canonical

end Symbol.Resembles

namespace Tables.Resembles

variable {t t' : Tables}

theorem symbolsOf (h : t.Resembles t') (ids : List String) :
    List.Forall₂ Symbol.Resembles (t.symbolsOf ids) (t'.symbolsOf ids) := by
  unfold Tables.symbolsOf
  refine List.rel_filterMap (R := Eq) ?_ (List.forall₂_same.mpr fun _ _ => rfl)
  rintro id _ rfl
  exact Table.find?_rel h.symbols id

theorem membersOf (h : t.Resembles t') (type : String) :
    List.Forall₂ Symbol.Resembles (t.membersOf type) (t'.membersOf type) := by
  unfold Tables.membersOf
  rw [h.members]
  exact h.symbolsOf _

end Tables.Resembles

/-! ## Calls -/

namespace Operation

theorem SameCalls.flatMap {ops ops' : List Operation} (h : List.Forall₂ SameCalls ops ops')
    (method : String) :
    (ops'.flatMap walk).flatMap (Tables.callsIn method) =
      (ops.flatMap walk).flatMap (Tables.callsIn method) := by
  induction h with
  | nil => rfl
  | cons hfirst _ ih =>
      rw [List.flatMap_cons, List.flatMap_cons, List.flatMap_append, List.flatMap_append, ih,
        hfirst method]

/-- Operations that make the same calls themselves and have such children. -/
theorem SameCalls.of_children {op op' : Operation}
    (hown : ∀ method, Tables.callsIn method op' = Tables.callsIn method op)
    (hchildren : List.Forall₂ SameCalls op.children op'.children) : SameCalls op op' := by
  intro method
  rw [walk_eq, walk_eq, List.flatMap_cons, List.flatMap_cons, hown method,
    SameCalls.flatMap hchildren method]

end Operation

/-! ## Operations on drafts -/

namespace Draft.Resembles

variable {d d' : Draft}

theorem empty : Draft.empty.Resembles Draft.empty := by
  constructor
  · constructor <;> first | rfl | exact .nil
  · rfl
  · exact .nil
  · exact .nil
  · rfl

theorem putType (h : d.Resembles d') (qualified : String) (symbol : Symbol) (isMetadata : Bool) :
    (d.putType qualified symbol isMetadata).Resembles
      (d'.putType qualified symbol isMetadata) := by
  unfold Draft.putType Draft.registerTypeName
  simp only [h.typeNames, h.members, h.metadataTypes]
  exact { h with
    symbols := h.symbols.insert symbol.id (.refl symbol)
    typeNames := rfl
    members := rfl
    metadataTypes := rfl }

theorem putSpan (h : d.Resembles d') (id : String) (span span' : Option Span) :
    (d.putSpan id span).Resembles (d'.putSpan id span') := by
  cases span <;> cases span' <;> exact { h with }

theorem putMember (h : d.Resembles d') (type : String) {s s' : Symbol} (hs : s.Resembles s')
    (span span' : Option Span) : (d.putMember type s span).Resembles (d'.putMember type s' span') := by
  unfold Draft.putMember
  simp only [hs.id, h.members, h.containing]
  apply Resembles.putSpan
  exact { h with
    symbols := h.symbols.insert s.id hs
    members := rfl
    containing := rfl }

theorem putContaining (h : d.Resembles d') (id container : String) :
    (d.putContaining id container).Resembles (d'.putContaining id container) := by
  unfold Draft.putContaining
  rw [h.containing]
  exact { h with containing := rfl }

theorem putAccessors (h : d.Resembles d') (property : String) (getter setter : Option String) :
    (d.putAccessors property getter setter).Resembles
      (d'.putAccessors property getter setter) := by
  unfold Draft.putAccessors
  rw [h.accessors]
  exact { h with accessors := rfl }

theorem putBase (h : d.Resembles d') (type base : String) :
    (d.putBase type base).Resembles (d'.putBase type base) := by
  unfold Draft.putBase
  rw [h.baseTypes]
  exact { h with baseTypes := rfl }

theorem putInterfaces (h : d.Resembles d') (type : String) (interfaces : List String) :
    (d.putInterfaces type interfaces).Resembles (d'.putInterfaces type interfaces) := by
  unfold Draft.putInterfaces
  rw [h.declaredInterfaces]
  exact { h with declaredInterfaces := rfl }

theorem putSourceDefinition (h : d.Resembles d') (type source : String) :
    (d.putSourceDefinition type source).Resembles (d'.putSourceDefinition type source) :=
  { h with }

theorem putOverridden (h : d.Resembles d') (member target : String) :
    (d.putOverridden member target).Resembles (d'.putOverridden member target) := by
  unfold Draft.putOverridden
  rw [h.overridden]
  exact { h with overridden := rfl }

theorem putImplementations (h : d.Resembles d') (member : String) (targets : List String) :
    (d.putImplementations member targets).Resembles (d'.putImplementations member targets) := by
  unfold Draft.putImplementations
  rw [h.explicitImplementations]
  exact { h with explicitImplementations := rfl }

theorem putBody (h : d.Resembles d') (method : String) {body body' : Operation}
    (hbody : body.SameCalls body') :
    (d.putBody method body).Resembles (d'.putBody method body') :=
  { h with bodies := h.bodies.insert method hbody }

theorem putReferences (h : d.Resembles d') (id : String) (locations : List Location) :
    (d.putReferences id locations).Resembles (d'.putReferences id locations) :=
  { h with }

theorem deferLink (h : d.Resembles d') (type : String) {data data' : Value}
    (hdata : Entry.Similar data data') :
    (d.deferLink type data).Resembles (d'.deferLink type data') :=
  { h with pendingLinks := List.rel_append h.pendingLinks (.cons ⟨rfl, hdata⟩ .nil) }

theorem deferMember (h : d.Resembles d') (member : String) {data data' : Value}
    (hdata : Entry.Similar data data') :
    (d.deferMember member data).Resembles (d'.deferMember member data') :=
  { h with pendingMembers := List.rel_append h.pendingMembers (.cons ⟨rfl, hdata⟩ .nil) }

theorem deferBody (h : d.Resembles d') (method : String) (file : Option String)
    {data data' : Value} (hdata : Entry.Similar data data') :
    (d.deferBody method file data).Resembles (d'.deferBody method file data') := by
  unfold Draft.deferBody
  rw [hdata.field_eq (by decide) (by decide), h.pendingBodies]
  simp only []
  split
  next => exact h
  next => exact { h with pendingBodies := rfl }

/-- The lines of source files make no difference. -/
theorem withSourceLines (h : d.Resembles d') (lines lines' : Table (List String)) :
    Resembles { d with sourceLines := lines } { d' with sourceLines := lines' } :=
  { h with }

end Draft.Resembles
end SymbolAtlas
