import SymbolAtlas.Proofs.Index.Ownership
import Mathlib.Tactic

/-!
# Kinds of methods

Only methods have a kind of method: types, properties, fields and events are no constructors and no
accessors, however a draft has grown.
-/

namespace SymbolAtlas
namespace Tables

open Draft

/-- Nothing but a method has a kind of method. -/
def KindsMethods (t : Tables) : Prop :=
  t.symbols.Each fun _ s => s.methodKind.isSome = true → s.kind = .method

variable {t t' : Tables} {type container : String} {s : Symbol} {d d' : Draft}

theorem KindsMethods.insert (h : t.KindsMethods)
    (hs : s.methodKind.isSome = true → s.kind = .method)
    (hsymbols : t'.symbols = t.symbols.insert s.id s) : t'.KindsMethods := by
  unfold KindsMethods at h ⊢
  rw [hsymbols]
  exact h.insert hs

theorem KindsMethods.same (h : t.KindsMethods) (hsymbols : t'.symbols = t.symbols) :
    t'.KindsMethods := by
  unfold KindsMethods at h ⊢
  rw [hsymbols]
  exact h

theorem KindsMethods.addsAccessor {property : String} {kind : MethodKind} {id : Option String}
    (h : d.KindsMethods) (hadds : AddsAccessor type property kind d id d') : d'.KindsMethods := by
  cases hadds with
  | none => exact h
  | some hnew hkind hmethod hsame =>
      exact h.insert (fun _ => hkind) (gains_accessor hsame).symbols

theorem KindsMethods.change (h : d.KindsMethods) (hchange : Change d d') : d'.KindsMethods := by
  cases hchange with
  | @type name s isMetadata hnew hname hid hkind hmethod =>
      apply h.insert _ rfl
      simp [hmethod]
  | nested => exact h.same rfl
  | @member type s span hnew htype hkind hproperty haccessor htitled =>
      apply h.insert _ (gains_putMember d type s span).symbols
      intro hmethod
      obtain ⟨owner, name, howner, hcalled, hname⟩ := htitled ⟨.inr hmethod, haccessor⟩
      exact hcalled.kind
  | @property type p span _ _ _ _ hnew htype hkind hmethod hget hset =>
      have hput : (d.putMember type p span).KindsMethods := by
        apply h.insert _ (gains_putMember d type p span).symbols
        simp [hmethod]
      exact ((hput.addsAccessor hget).addsAccessor hset).same rfl
  | other hsame => exact h.same hsame.symbols

end Tables

namespace Index

open Tables

theorem kindsMethods_of_tables {disk : Disk} {root : String} {data : Value} {t : Tables}
    (ht : tables disk root data = .ok t) : t.KindsMethods := by
  obtain ⟨d, hrun, rfl⟩ := exists_run_of_tables ht
  have hempty : Draft.empty.KindsMethods := by
    exact Table.each_empty _
  exact readDocument_keeps (P := fun d => d.KindsMethods) hempty (fun h => h.change)
    (fun _ _ h => h.same rfl) disk root data () d hrun

end Index
end SymbolAtlas
