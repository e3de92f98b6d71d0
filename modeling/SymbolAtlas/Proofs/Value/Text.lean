import SymbolAtlas.Index.Entry
import SymbolAtlas.Proofs.Number.Digits
import SymbolAtlas.Value.Text
import Mathlib.Tactic

/-!
# Texts of values

Every value but the empty text itself has a text of at least one character: numbers have digits,
and lists and mappings their brackets.  So whatever a document gives for a required field names
something.  What cannot be written has a number of too many digits somewhere in it.
-/

namespace SymbolAtlas

theorem Binary64.layOut_ne_nil (digits : List Char) (point : Int) :
    layOut digits point ≠ [] := by
  unfold layOut
  simp only []
  split
  next =>
    split
    next => simp
    next => split <;> simp
  next => simp

theorem Binary64.text_ne_empty (x : Binary64) : x.text ≠ "" := by
  cases x with
  | notANumber => decide
  | infinite negative => cases negative <;> decide
  | finite negative mantissa exponent =>
      have hunsigned : (if mantissa = 0 then ['0', '.', '0'] else
          layOut (dropTrailingZeros (Number.naturalDigits (shortestDecimal mantissa exponent).1))
            ((Number.naturalDigits (shortestDecimal mantissa exponent).1).length +
              (shortestDecimal mantissa exponent).2)) ≠ [] := by
        split
        next => simp
        next => exact layOut_ne_nil _ _
      unfold text
      simp only []
      rw [Ne, String.ofList_eq_empty_iff]
      cases negative with
      | true => simp
      | false => exact hunsigned

theorem Number.wholeText_ne_empty (n : Int) : wholeText n ≠ "" := by
  unfold wholeText
  rw [Ne, String.ofList_eq_empty_iff]
  cases n with
  | ofNat n => exact naturalDigits_ne_nil n
  | negSucc n => simp [wholeDigits]

theorem Timestamp.text_ne_empty (t : Timestamp) : t.text ≠ "" := by
  unfold text
  simp only []
  split <;> simp

namespace Value

theorem plain_ne_empty {v : Value} (hv : v ≠ .text "") : v.plain ≠ "" := by
  cases v with
  | null => simp [plain, spelled]
  | bool b => cases b <;> simp [plain, spelled]
  | int n => simpa [plain, spelled] using Number.wholeText_ne_empty n
  | float x => simpa [plain, spelled] using x.text_ne_empty
  | text s => simpa [plain] using hv
  | stamp t => exact t.text_ne_empty
  | list items => simp [plain, spelled]
  | mapping entries => simp [plain, spelled]

end Value

theorem Entry.mustWrite_eq_ok {v : Value} {u : Unit} :
    mustWrite v = .ok u ↔ v.isWritable = true := by
  unfold mustWrite
  cases v.isWritable <;> simp [misused]

theorem Entry.eq_field_of_required {data v : Value} {key place : String}
    (hv : required data key place = .ok v) : v = data.field key := by
  unfold required at hv
  split at hv
  next => cases hv
  next s hs =>
    split at hv
    next => cases hv
    next =>
      cases hv
      exact hs.symm
  next =>
    cases hv
    rfl

/-- What a required field gives has a text. -/
theorem Entry.plain_ne_empty_of_required {data : Value} {key place : String} {v : Value}
    (h : required data key place = .ok v) : v.plain ≠ "" := by
  refine Value.plain_ne_empty ?_
  rintro rfl
  unfold required at h
  split at h
  next => cases h
  next s hs =>
    split at h
    next => cases h
    next hempty =>
      cases h
      exact hempty rfl
  next htext => exact htext "" (Except.ok.inj h)

end SymbolAtlas
