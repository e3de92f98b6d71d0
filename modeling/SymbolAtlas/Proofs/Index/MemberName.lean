import SymbolAtlas.Index.MemberName
import SymbolAtlas.Proofs.Index.Declaration
import Mathlib.Tactic

/-!
# Members found by name

A name stands for a member that is among the symbols, or for one that is added to a metadata type
on the way.  Either way the symbol that comes back is the one under its id.
-/

namespace SymbolAtlas

namespace Tables

theorem mem_symbolsOf {t : Tables} {ids : List String} {s : Symbol} :
    s ∈ t.symbolsOf ids ↔ ∃ id ∈ ids, t.symbols.get? id = some s := by
  unfold symbolsOf
  exact List.mem_filterMap

theorem holds_of_mem_symbolsOf {t : Tables} (hids : t.symbols.Each fun id s => s.id = id)
    {ids : List String} {s : Symbol} (hs : s ∈ t.symbolsOf ids) : Holds t.symbols s := by
  rcases mem_symbolsOf.mp hs with ⟨id, -, hget⟩
  have hid : s.id = id := hids.get? hget
  unfold Holds
  rw [hid]
  exact hget

end Tables

namespace MemberName

open Building Draft Tables

variable {d : Draft}

theorem mem_of_mem_candidates {members : List Symbol} {name : String} {kind : Option SymbolKind}
    {list : Option String} {arguments : Option Nat} {s : Symbol}
    (hs : s ∈ candidates members name kind list arguments) : s ∈ members := by
  unfold candidates at hs
  simp only [] at hs
  split at hs
  next => exact List.mem_of_mem_filter (List.mem_of_mem_filter hs)
  next =>
    split at hs
    next => exact List.mem_of_mem_filter (List.mem_of_mem_filter hs)
    next => exact List.mem_of_mem_filter hs
  next => exact List.mem_of_mem_filter hs

theorem apart_kindLetter {kind : SymbolKind} (hkind : kind ≠ .namedType) :
    Apart (kindLetter kind) := by
  cases kind with
  | namedType => exact absurd rfl hkind
  | method => exact ⟨'M', [], rfl, by decide⟩
  | property => exact ⟨'P', [], rfl, by decide⟩
  | field => exact ⟨'F', [], rfl, by decide⟩
  | event => exact ⟨'E', [], rfl, by decide⟩

theorem apart_metadataVariable {kind : SymbolKind} (hkind : kind ≠ .namedType) (type : Symbol)
    (qualified name : String) : Apart (metadataVariable type qualified name kind).id := by
  unfold metadataVariable metadataSymbol
  exact ((((apart_kindLetter hkind).append ":").append qualified).append ".").append name

theorem apart_metadataMethod (type : Symbol) (qualified name : String) (list : Option String)
    (arguments : Option Nat) : Apart (metadataMethod type qualified name list arguments).id := by
  unfold metadataMethod metadataSymbol
  exact Declaration.apart_methodId qualified name _

theorem apart_metadataAccessor (type : Symbol) (qualified name keyword : String)
    (kind : MethodKind) : Apart (metadataAccessor type qualified name keyword kind).id := by
  have hletter : Apart "M:" := ⟨'M', [':'], rfl, by decide⟩
  unfold metadataAccessor metadataSymbol
  exact ((((hletter.append qualified).append ".").append keyword).append "_").append name

theorem addMetadataAccessor_ensures (hd : d.Sound) {type property accessor : Symbol}
    (htype : Known d.symbols type.id) (hproperty : Known d.symbols property.id)
    (hkind : accessor.kind ≠ .namedType) (hapart : Apart accessor.id) :
    Ensures (addMetadataAccessor type property accessor) d fun _ d' =>
      d.Becomes d' ∧ Known d'.symbols accessor.id := by
  unfold addMetadataAccessor
  simp only [ensures_bind, ensures_modify]
  refine (addMember_ensures hd htype hkind hapart none).imp ?_
  intro _ d' hadded
  rcases hadded with ⟨hadded, haccessor⟩
  have hcontaining := hadded.sound.putContaining haccessor.known (hproperty.mono hadded.kept)
  exact ⟨hadded.trans hcontaining, haccessor.known.mono hcontaining.kept⟩

theorem addMetadataAccessors_ensures (hd : d.Sound) {type property : Symbol}
    (htype : Known d.symbols type.id) (hproperty : Known d.symbols property.id)
    (qualified : String) :
    Ensures (addMetadataAccessors type property qualified) d fun _ d' => d.Becomes d' := by
  unfold addMetadataAccessors
  simp only [ensures_bind, ensures_modify]
  have hmember : ∀ keyword kind,
      (metadataAccessor type qualified property.name keyword kind).kind ≠ .namedType := by
    intro keyword kind hkind
    cases hkind
  refine (addMetadataAccessor_ensures hd htype hproperty (hmember _ _)
    (apart_metadataAccessor type qualified property.name _ _)).imp ?_
  intro _ d₁ hget
  rcases hget with ⟨hgot, hgetter⟩
  refine (addMetadataAccessor_ensures hgot.sound (htype.mono hgot.kept)
    (hproperty.mono hgot.kept) (hmember _ _)
    (apart_metadataAccessor type qualified property.name _ _)).imp ?_
  intro _ d₂ hset
  rcases hset with ⟨hset, hsetter⟩
  have hboth := hgot.trans hset
  refine hboth.trans (hset.sound.putAccessors (hproperty.mono hboth.kept) ?_ ?_)
  · intro id hid
    cases hid
    exact hgetter.mono hset.kept
  · intro id hid
    cases hid
    exact hsetter

theorem declareMetadata_ensures (hd : d.Sound) {type : Symbol} (htype : Known d.symbols type.id)
    (qualified name : String) (list : Option String) {kind : SymbolKind}
    (hkind : kind ≠ .namedType) (arguments : Option Nat) :
    Ensures (declareMetadata type qualified name list kind arguments) d fun s d' =>
      d.Becomes d' ∧ Holds d'.symbols s := by
  unfold declareMetadata
  split
  next =>
    simp only [ensures_bind, ensures_pure]
    have hmember : (metadataMethod type qualified name list arguments).kind ≠ .namedType := by
      intro hnamed
      cases hnamed
    exact addMember_ensures hd htype hmember
      (apart_metadataMethod type qualified name list arguments) none
  next kind _ =>
    simp only []
    refine (addMember_ensures hd htype hkind
      (apart_metadataVariable hkind type qualified name) none).bind ?_
    intro _ d' hadded
    rcases hadded with ⟨hadded, hvariable⟩
    rw [ensures_ite]
    constructor
    · intro _
      refine (addMetadataAccessors_ensures hadded.sound (htype.mono hadded.kept)
        hvariable.known qualified).bind ?_
      intro _ d'' haccessors
      rw [ensures_pure]
      exact ⟨hadded.trans haccessors, hvariable.mono haccessors.kept⟩
    · intro _
      rw [ensures_pure]
      exact ⟨hadded, hvariable⟩

/-- A name that is resolved stands for the symbol under its id. -/
theorem resolve_ensures (hd : d.Sound) (reference place : String) {kind : Option SymbolKind}
    (hkind : kind ≠ some .namedType) (arguments : Option Nat) :
    Ensures (resolve reference place kind arguments) d fun s d' =>
      d.Becomes d' ∧ Holds d'.symbols s := by
  unfold resolve
  simp only []
  split
  next => exact ensures_lift_refuse
  next typeName name _ =>
    refine (Declaration.ensureType_ensures hd typeName .classType).bind ?_
    intro type d₁ htype
    rcases htype with ⟨hbecomes, htype⟩
    simp only [ensures_bind, ensures_get]
    split
    next found hfound =>
      rw [ensures_pure]
      have hmem : found ∈ d₁.membersOf type :=
        mem_of_mem_candidates (hfound ▸ List.mem_singleton_self found)
      exact ⟨hbecomes, holds_of_mem_symbolsOf hbecomes.sound.ids hmem⟩
    next => exact ensures_lift_refuse
    next =>
      split
      next =>
        split
        next symbol hsymbol =>
          have hid : symbol.id = type := hbecomes.sound.ids.get? hsymbol
          have hknown : Known d₁.symbols symbol.id := ⟨symbol, by rw [hid]; exact hsymbol⟩
          have hmember : kind.getD .method ≠ .namedType := by
            cases kind with
            | none =>
                intro hnamed
                cases hnamed
            | some kind =>
                intro hnamed
                exact hkind (congrArg some hnamed)
          refine (declareMetadata_ensures hbecomes.sound hknown _ name _ hmember arguments).imp ?_
          intro s d₂ hdeclared
          exact ⟨hbecomes.trans hdeclared.1, hdeclared.2⟩
        next => simp only [ensures_throw]
      next => exact ensures_lift_refuse

end MemberName
end SymbolAtlas
