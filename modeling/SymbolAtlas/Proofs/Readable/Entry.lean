import SymbolAtlas.Proofs.Readable.Refusal
import SymbolAtlas.Proofs.Value.Text
import Mathlib.Tactic

/-!
# Readable entries

An entry is readable if its fields have shapes that can be used the way reading uses them: what is
walked through has items, a path is a text, the number of a line or a column is finite, and what is
needed as a text holds no number with too many digits.  Reading a field of such an entry either
succeeds or says what is wrong with it.
-/

namespace SymbolAtlas

namespace Value

/-- The value can be walked through, and all its items pass a test. -/
def lists (p : Value → Bool) (v : Value) : Bool :=
  match v.itemsIfPresent with
  | .ok items => items.all p
  | .error _ => false

def isListing (v : Value) : Bool :=
  v.lists fun _ => true

/-- The value gives a whole number, or a message can say that it gives none. -/
def isCountable : Value → Bool
  | .int _ => true
  | .float (.infinite _) => false
  | v => v.isWritable

/-- What stands under the keys can be written. -/
def hasWritable (v : Value) (keys : List String) : Bool :=
  keys.all fun key => (v.field key).isWritable

/-- The value gives a path, or none. -/
def isPath (v : Value) : Bool :=
  !v.isPresent || v.text?.isSome

def isScalar (v : Value) : Bool :=
  !v.isList && !v.isMapping

theorem of_mem_items {v item : Value} {p : Value → Bool} {items : List Value}
    (hv : v.lists p = true) (hitems : allowing v.itemsIfPresent = .ok items)
    (hitem : item ∈ items) : p item = true := by
  unfold lists at hv
  split at hv
  next found hfound =>
    rw [hfound] at hitems
    cases hitems
    exact List.all_eq_true.mp hv item hitem
  next => cases hv

/-- What is true of a field, and of the value in its stead if it is missing. -/
theorem fieldOr_of_field {p : Value → Bool} {data missing : Value} {key : String}
    (hfield : p (data.field key) = true) (hmissing : p missing = true) :
    p (data.fieldOr key missing) = true := by
  unfold field at hfield
  unfold fieldOr
  cases hget : data.get? key with
  | none => exact hmissing
  | some v =>
      rw [hget] at hfield
      exact hfield

theorem isWritable_field {v : Value} {keys : List String} (hv : v.hasWritable keys = true)
    {key : String} (hkey : key ∈ keys) : (v.field key).isWritable = true :=
  List.all_eq_true.mp hv key hkey

end Value

namespace Entry

open Attempt

/-- What tells where an entry lies can be used. -/
def isLocatable (data : Value) : Bool :=
  (data.field "file").isPath && (data.field "line").isCountable &&
    (data.field "column").isCountable

/-- What tells how far an entry reaches can be used. -/
def hasExtent (data : Value) : Bool :=
  (data.field "end_line").isCountable && (data.field "end_column").isCountable

/-- The place and the extent of an entry can be used. -/
def isPlaced (data : Value) : Bool :=
  isLocatable data && hasExtent data

/-- A location that is an entry can be used, and one that is not can be written. -/
def locationIsReadable (v : Value) : Bool :=
  if v.isMapping then isLocatable v else v.isWritable

def parameterIsReadable (item : Value) : Bool :=
  if item.isMapping then item.hasWritable ["ref_kind", "name", "type"] else item.isWritable

theorem mustWrite_onlyRefuses {v : Value} (hv : v.isWritable = true) :
    (mustWrite v).OnlyRefuses := by
  unfold mustWrite
  rw [if_pos hv]
  exact onlyRefuses_ok ()

theorem required_onlyRefuses (data : Value) (key place : String) :
    (required data key place).OnlyRefuses := by
  unfold required
  split
  next => exact onlyRefuses_refuse _
  next =>
    split
    next => exact onlyRefuses_refuse _
    next => exact onlyRefuses_ok _
  next => exact onlyRefuses_ok _

theorem toInteger_ok_or_refused {v : Value}
    (hv : ∀ negative, v ≠ .float (.infinite negative)) :
    (∃ n, v.toInteger = .ok n) ∨ v.toInteger = .error .refused := by
  unfold Value.toInteger
  split
  next => exact Or.inl ⟨_, rfl⟩
  next => exact Or.inl ⟨_, rfl⟩
  next negative => exact absurd rfl (hv negative)
  next =>
    split
    next => exact Or.inl ⟨_, rfl⟩
    next => exact Or.inr rfl
  next =>
    split
    next => exact Or.inl ⟨_, rfl⟩
    next => exact Or.inr rfl
  next => exact Or.inr rfl

theorem toInteger_of_isCountable {v : Value} (hv : v.isCountable = true) :
    (∃ n, v.toInteger = .ok n) ∨ v.toInteger = .error .refused ∧ v.isWritable = true := by
  unfold Value.isCountable at hv
  split at hv
  next => exact Or.inl ⟨_, rfl⟩
  next => cases hv
  next v _ hinfinite =>
    refine (toInteger_ok_or_refused hinfinite).imp_right ?_
    exact fun hrefused => ⟨hrefused, hv⟩

theorem integer_onlyRefuses {v : Value} (hv : v.isCountable = true) (key place : String) :
    (integer v key place).OnlyRefuses := by
  unfold integer
  rcases toInteger_of_isCountable hv with ⟨n, hn⟩ | ⟨hrefused, hwritable⟩
  · rw [hn]
    exact onlyRefuses_ok n
  · rw [hrefused]
    exact (mustWrite_onlyRefuses hwritable).bind fun _ _ => onlyRefuses_refuse _

theorem fileOf_onlyRefuses {data : Value} (hdata : (data.field "file").isPath = true)
    (root : String) (around : Option String) : (fileOf root data around).OnlyRefuses := by
  unfold fileOf
  simp only []
  split
  next hpresent =>
    unfold Value.isPath at hdata
    rw [hpresent] at hdata
    cases hfile : data.field "file" with
    | text s => exact onlyRefuses_ok _
    | _ => simp [hfile, Value.text?] at hdata
  next => exact onlyRefuses_ok _

theorem location_onlyRefuses {data : Value} (hdata : isLocatable data = true) (root : String)
    (around : Option String) (place : String) :
    (location root data around place).OnlyRefuses := by
  simp only [isLocatable, Bool.and_eq_true] at hdata
  obtain ⟨⟨hfile, hline⟩, hcolumn⟩ := hdata
  unfold location
  refine (fileOf_onlyRefuses hfile root around).bind ?_
  intro file _
  split
  next => exact onlyRefuses_pure none
  next =>
    simp only []
    split
    next => exact onlyRefuses_pure none
    next =>
      refine (integer_onlyRefuses hline _ _).bind ?_
      intro line _
      refine (integer_onlyRefuses (Value.fieldOr_of_field hcolumn rfl) _ _).bind ?_
      intro column _
      exact onlyRefuses_pure _

theorem passing_onlyRefuses {v : Value} (hv : v.isWritable = true) (place : String) :
    (passing v place).OnlyRefuses := by
  unfold passing
  refine (mustWrite_onlyRefuses hv).bind ?_
  intro _ _
  split
  next => exact onlyRefuses_pure _
  next => exact onlyRefuses_refuse _

end Entry

namespace Building

variable {α : Type} {d : Draft} {data v : Value} {key : String}

end Building
end SymbolAtlas
