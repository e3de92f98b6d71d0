import SymbolAtlas.Index.Declaration
import SymbolAtlas.Proofs.Index.Building
import SymbolAtlas.Proofs.Value.Text
import Mathlib.Tactic

/-!
# Entries of types taken apart

An entry of a document says what its type is called, of what kind it is and where it lies.  It
declares the type if that name is new, and then all that belongs to the type: whatever a declared
entry does to a draft is what its body does to the draft that has the type.
-/

namespace SymbolAtlas
namespace Index

/-- The name that an entry gives its type. -/
def typeName (entry : Value) : String :=
  (entry.field "name").plain

/-- The id under which an entry's type comes in. -/
def typeId (entry : Value) : String :=
  "T:" ++ typeName entry

/-- The entry calls its type metadata. -/
def isMetadata (entry : Value) : Bool :=
  (entry.field "metadata").isPresent

end Index

namespace Declaration

open Building Draft Index

/-- The file that the type of an entry lies in, none for metadata. -/
def typeFile (root : String) (entry : Value) : Option String :=
  let given := entry.field "file"
  if isMetadata entry || !given.isPresent then none else some (Entry.pathFrom root given.plain)

/-- What an entry says about its type, apart from what belongs to the type. -/
structure Heads (root : String) (entry : Value) (kind : TypeKind) (location : Option Location)
    (modifiers : List String) : Prop where
  mapping : entry.isMapping = true
  name : Entry.required entry "name" "type declaration" = .ok (entry.field "name")
  writable : (entry.field "name").isWritable = true ∧
    (entry.fieldOr "kind" (.text "class")).isWritable = true ∧
      Value.isWritable (if isMetadata entry then .null else entry.field "file") = true ∧
        (Entry.access entry).isWritable = true
  kind : typeKindNamed? (Text.lower (entry.fieldOr "kind" (.text "class")).plain) = some kind
  location : locate (isMetadata entry) root entry (typeFile root entry)
    ("type " ++ typeName entry) = .ok location
  modifiers : Entry.modifiers entry = .ok modifiers

/-- What belongs to the type of an entry comes in over a draft that has the type. -/
def declareBody (root : String) (entry : Value) (kind : TypeKind) (location : Option Location)
    (modifiers : List String) : Building Unit :=
  let symbol := declaredType (typeName entry) kind location modifiers entry
  declareContents ⟨symbol, typeName entry, typeFile root entry, root, isMetadata entry⟩ entry
    location (kind.isConcrete && !modifiers.contains "static")

/-- A draft with the type of an entry. -/
def headed (entry : Value) (kind : TypeKind) (location : Option Location)
    (modifiers : List String) (d : Draft) : Draft :=
  d.putType (typeName entry) (declaredType (typeName entry) kind location modifiers entry)
    (isMetadata entry)

/-- An entry is declared just when it says what a type needs, its name is new and its body is
declared over the draft that has the type. -/
theorem declareType_eq_ok {root : String} {entry : Value} {d e : Draft} :
    declareType root entry d = .ok ((), e) ↔ ∃ kind location modifiers,
      Heads root entry kind location modifiers ∧ d.typeNames.get? (typeName entry) = none ∧
        declareBody root entry kind location modifiers (headed entry kind location modifiers d) =
          .ok ((), e) := by
  constructor
  · have hforward : Ensures (declareType root entry) d fun _ e => ∃ kind location modifiers,
        Heads root entry kind location modifiers ∧ d.typeNames.get? (typeName entry) = none ∧
          declareBody root entry kind location modifiers
            (headed entry kind location modifiers d) = .ok ((), e) := by
      unfold declareType
      simp only [ensures_bind, ensures_refuseIf, ensures_lift, ensures_get]
      intro hmapping name hname _ hwritten hnew _ hkinds
      obtain rfl := Entry.eq_field_of_required hname
      split
      next => exact ensures_lift_refuse
      next kind hkind =>
        unfold declareNewType
        simp only [ensures_bind, ensures_lift, ensures_modify]
        intro _ hfile location hlocation modifiers hmodifiers _ haccess _ e hrun
        have hheads : Heads root entry kind location modifiers :=
          ⟨by simpa using hmapping, hname,
            ⟨Entry.mustWrite_eq_ok.mp hwritten, Entry.mustWrite_eq_ok.mp hkinds,
              Entry.mustWrite_eq_ok.mp hfile, Entry.mustWrite_eq_ok.mp haccess⟩,
            hkind, hlocation, hmodifiers⟩
        exact ⟨kind, location, modifiers, hheads, Table.get?_of_contains hnew, hrun⟩
    exact hforward () e
  · rintro ⟨kind, location, modifiers, hheads, hnew, hrun⟩
    have hcontains : d.typeNames.contains (typeName entry) = false := Table.contains_of_get? hnew
    have hwrites {v : Value} (hv : v.isWritable = true) :
        (liftM (Entry.mustWrite v) : Building Unit) d = .ok ((), d) := by
      rw [Entry.mustWrite_eq_ok.mpr hv]
      rfl
    obtain ⟨hname, hkind, hfile, haccess⟩ := hheads.writable
    unfold declareType
    refine bind_run_eq_ok.mpr ⟨(), d, by rw [hheads.mapping]; rfl, ?_⟩
    refine bind_run_eq_ok.mpr ⟨entry.field "name", d, by rw [hheads.name]; rfl, ?_⟩
    refine bind_run_eq_ok.mpr ⟨(), d, hwrites hname, ?_⟩
    refine bind_run_eq_ok.mpr ⟨d, d, rfl, bind_run_eq_ok.mpr ⟨(), d, ?_, ?_⟩⟩
    · change refuseIf (d.typeNames.contains (typeName entry)) _ d = _
      rw [hcontains]
      rfl
    refine bind_run_eq_ok.mpr ⟨(), d, hwrites hkind, ?_⟩
    rw [hheads.kind]
    refine bind_run_eq_ok.mpr ⟨(), d, hwrites hfile, ?_⟩
    refine bind_run_eq_ok.mpr ⟨location, d, ?_, ?_⟩
    · change (liftM (locate (isMetadata entry) root entry (typeFile root entry)
        ("type " ++ typeName entry)) : Building _) d = _
      rw [hheads.location]
      rfl
    refine bind_run_eq_ok.mpr ⟨modifiers, d, by rw [hheads.modifiers]; rfl, ?_⟩
    refine bind_run_eq_ok.mpr ⟨(), d, hwrites haccess, ?_⟩
    exact bind_run_eq_ok.mpr ⟨(), headed entry kind location modifiers d, rfl, hrun⟩

end Declaration
end SymbolAtlas
