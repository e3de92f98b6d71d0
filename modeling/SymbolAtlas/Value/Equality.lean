import SymbolAtlas.Value.Basic

/-!
# Equality of values

Two values are equal when they have the same shape and equal parts.  The test walks both at once,
and deciding equality rests on the fact that it succeeds on equal values only.
-/

namespace SymbolAtlas
namespace Value

mutual

def same : Value → Value → Bool
  | .null, .null => true
  | .bool a, .bool b => a == b
  | .int a, .int b => a == b
  | .float a, .float b => a == b
  | .text a, .text b => a == b
  | .stamp a, .stamp b => a == b
  | .list a, .list b => sameItems a b
  | .mapping a, .mapping b => sameEntries a b
  | _, _ => false

def sameItems : List Value → List Value → Bool
  | [], [] => true
  | v :: a, w :: b => same v w && sameItems a b
  | _, _ => false

def sameEntries : List (Value × Value) → List (Value × Value) → Bool
  | [], [] => true
  | (k, v) :: a, (l, w) :: b => same k l && same v w && sameEntries a b
  | _, _ => false

end

mutual

theorem eq_of_same : ∀ {a b : Value}, same a b = true → a = b
  | .null, b, h => by cases b <;> simp_all [same]
  | .bool _, b, h => by cases b <;> simp_all [same]
  | .int _, b, h => by cases b <;> simp_all [same]
  | .float _, b, h => by cases b <;> simp_all [same]
  | .text _, b, h => by cases b <;> simp_all [same]
  | .stamp _, b, h => by cases b <;> simp_all [same]
  | .list items, b, h => by
      cases b with
      | list other => exact congrArg Value.list (eq_of_sameItems (by simpa [same] using h))
      | _ => simp [same] at h
  | .mapping entries, b, h => by
      cases b with
      | mapping other => exact congrArg Value.mapping (eq_of_sameEntries (by simpa [same] using h))
      | _ => simp [same] at h

theorem eq_of_sameItems : ∀ {a b : List Value}, sameItems a b = true → a = b
  | [], b, h => by cases b <;> simp_all [sameItems]
  | v :: a, b, h => by
      cases b with
      | nil => simp [sameItems] at h
      | cons w b =>
          simp only [sameItems, Bool.and_eq_true] at h
          rw [eq_of_same h.1, eq_of_sameItems h.2]

theorem eq_of_sameEntries : ∀ {a b : List (Value × Value)}, sameEntries a b = true → a = b
  | [], b, h => by cases b <;> simp_all [sameEntries]
  | (k, v) :: a, b, h => by
      cases b with
      | nil => simp [sameEntries] at h
      | cons entry b =>
          obtain ⟨l, w⟩ := entry
          simp only [sameEntries, Bool.and_eq_true] at h
          rw [eq_of_same h.1.1, eq_of_same h.1.2, eq_of_sameEntries h.2]

end

mutual

theorem same_refl : ∀ a : Value, same a a = true
  | .null => rfl
  | .bool _ => by simp [same]
  | .int _ => by simp [same]
  | .float _ => by simp [same]
  | .text _ => by simp [same]
  | .stamp _ => by simp [same]
  | .list items => by simpa [same] using sameItems_refl items
  | .mapping entries => by simpa [same] using sameEntries_refl entries

theorem sameItems_refl : ∀ a : List Value, sameItems a a = true
  | [] => rfl
  | v :: a => by simp [sameItems, same_refl v, sameItems_refl a]

theorem sameEntries_refl : ∀ a : List (Value × Value), sameEntries a a = true
  | [] => rfl
  | (k, v) :: a => by simp [sameEntries, same_refl k, same_refl v, sameEntries_refl a]

end

instance : DecidableEq Value := fun a b =>
  if h : same a b = true then isTrue (eq_of_same h)
  else isFalse fun e => h (e ▸ same_refl a)

end Value
end SymbolAtlas
