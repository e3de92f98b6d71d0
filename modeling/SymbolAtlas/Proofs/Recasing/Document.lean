import SymbolAtlas.Proofs.Index.Metadata
import SymbolAtlas.Proofs.Recasing.Declaration
import Mathlib.Tactic

/-!
# Reading documents with other bodies

The passes behind the first take up what waits, and nothing else of the types in the document.
Documents whose bodies are read alike are therefore read into the same tables, or are refused for
the same reason.
-/

namespace SymbolAtlas
namespace Index

open Building Draft Value Declaration

variable {B : Value → Value → Prop} {data other : Value}

theorem readEnd_eq (h : SameAt ["references", "files"] data other) (disk : Disk) (root : String) :
    readEnd disk root other = readEnd disk root data := by
  unfold readEnd readSources readFiles
  rw [h.field_eq (by decide), h.field_eq (by decide)]

/-- The later passes do the same if what waits for them does. -/
theorem readRest_agree (h : SameAt ["references", "files"] data other) (disk : Disk)
    (root : String) : Agree (readRest disk root data) (readRest disk root other) := by
  unfold readRest
  apply agree_get.bind
  rintro d₁ _ ⟨w₁, rfl, hw₁⟩
  refine AgreeOn.bind_same (forEach_agree ?_ hw₁.links) ?_
  · rintro ⟨id, data⟩ ⟨id', data'⟩ hlink
    change Agree (Link.linkType id data) (Link.linkType id' data')
    rw [hlink]
    exact (Link.linkType_oblivious id data).agree
  intro _
  apply agree_get.bind
  rintro d₂ _ ⟨w₂, rfl, hw₂⟩
  refine AgreeOn.bind_same (forEach_agree ?_ hw₂.members) ?_
  · rintro ⟨id, data⟩ ⟨id', data'⟩ hlink
    change Agree (Link.linkMember id data) (Link.linkMember id' data')
    rw [hlink]
    exact (Link.linkMember_oblivious id data).agree
  intro _
  apply agree_get.bind
  rintro d₃ _ ⟨w₃, rfl, hw₃⟩
  refine AgreeOn.bind_same (forEach_agree ?_ hw₃.bodies) ?_
  · rintro pending pending' hread
    rw [hread]
    exact (readBody_oblivious root pending).agree
  intro _
  rw [readEnd_eq h]
  exact (readEnd_oblivious disk root data).agree

theorem readDocument_agree (hB : ∀ v w, B v w → Body.ReadAlike v w)
    (h : RebodiedDocument B data other) (disk : Disk) (root : String) :
    Agree (readDocument disk root data) (readDocument disk root other) := by
  rw [readDocument_eq_rest, readDocument_eq_rest]
  apply (agree_lift (typesOf_agree h.agreeEach_field fun type => .same type)).bind
  intro types types' htypes
  refine AgreeOn.bind_same (forEach_agree ?_ htypes) ?_
  · intro type type' htype
    exact declareType_agree hB root htype
  intro _
  exact readRest_agree (h.sameAt (by decide)) disk root

/-- Documents whose bodies are read alike have the same tables or the same fault. -/
theorem tables_eq_of_rebodied (hB : ∀ v w, B v w → Body.ReadAlike v w)
    (h : RebodiedDocument B data other) (disk : Disk) (root : String) :
    tables disk root other = tables disk root data := by
  have hstart : HoldsRelated Deferred.Matches Draft.empty Draft.empty :=
    ⟨Draft.empty.deferred, rfl, .nil, .nil, .nil⟩
  unfold tables
  rw [h.isMapping]
  split
  next =>
    have hruns := readDocument_agree hB h disk root _ _ hstart
    generalize readDocument disk root data Draft.empty = run at hruns
    generalize readDocument disk root other Draft.empty = run' at hruns
    cases hruns with
    | error fault => rfl
    | @ok p q hresult =>
        obtain ⟨-, w, hholds, -⟩ := hresult
        change Except.ok q.2.toTables = Except.ok p.2.toTables
        rw [hholds]
        rfl
  next => rfl

end Index
end SymbolAtlas
