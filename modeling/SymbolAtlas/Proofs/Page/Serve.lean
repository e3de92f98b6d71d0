import SymbolAtlas.Page.Basic
import SymbolAtlas.Proofs.Attempt
import SymbolAtlas.Proofs.Number.Whole
import SymbolAtlas.Proofs.Page.Cursor
import Mathlib.Tactic

/-!
# The page that serves an offset

Whole numbers and cursors that carry an offset lead to a page without fail.  Served by pages of
some size, an offset lies on the page that begins at the last multiple of the size up to it, and
that page ends at the next multiple.
-/

namespace SymbolAtlas

@[simp] theorem Value.number?_ofNumber (n : Number) : (Value.ofNumber n).number? = some n := by
  cases n <;> rfl

@[simp] theorem Target.ordered_ofNumber (n : Number) :
    Target.ordered (Value.ofNumber n) = .ok n := by
  rw [Target.ordered, Value.number?_ofNumber]

namespace Page

variable {α : Type}

/-- A cursor that leads to an offset: none for the beginning, otherwise the one made from it. -/
def LeadsTo (cursor : Value) (offset : Nat) : Prop :=
  cursor = .null ∧ offset = 0 ∨
    cursor = .text (Cursor.encode offset) ∧ offset < 10 ^ Number.digitLimit

/-- The place at which the items of a page begin. -/
def start? (page : Page α) : Option Int := do
  let number ← page.number.whole?
  let size ← page.size.whole?
  return (number - 1) * size

/-- The offset that the cursor of a page carries, if the page has one. -/
def nextOffset? (page : Page α) : Option Nat :=
  page.nextCursor.bind Cursor.decode?

theorem encode_ne_empty (n : Nat) : (Cursor.encode n).isEmpty = false := by
  have hne : (Cursor.encode n).toList ≠ [] := by
    rw [Cursor.encode, String.toList_ofList, Cursor.payload_eq, List.map_cons, List.map_cons,
      List.cons_append, List.nil_append, List.map_cons, Base64.encode]
    simp
  by_contra hempty
  rw [Bool.not_eq_false, String.isEmpty_iff] at hempty
  simp [hempty] at hne

theorem numberOfOffset_of_whole {size : Number} {k : Nat} (hsize : size.whole? = some (k : Int))
    (hk : 0 < k) (offset : Nat) :
    numberOfOffset offset (.ofNumber size) = .ok (.whole (offset / k + 1 : Nat)) := by
  have hdiv : Int.fdiv offset k = (offset / k : Nat) := by
    rw [Int.fdiv_eq_ediv_of_nonneg _ (by omega)]
    rfl
  obtain ⟨k, rfl⟩ : ∃ j, k = j + 1 := ⟨k - 1, by omega⟩
  unfold numberOfOffset
  rw [Value.number?_ofNumber]
  cases size with
  | real x => simp [Number.whole?] at hsize
  | flag b =>
      simp only [hsize]
      rw [hdiv]
      rfl
  | whole n =>
      simp only [hsize]
      rw [hdiv]
      rfl

/-- The page number of a cursor is that of the last multiple of the size up to its offset. -/
theorem numberToServe_of_leadsTo {cursor : Value} {offset : Nat} (hcursor : LeadsTo cursor offset)
    {size : Number} {k : Nat} (hsize : size.whole? = some (k : Int)) (hk : 0 < k) :
    numberToServe (.int 1) cursor (.ofNumber size) = .ok (.whole (offset / k + 1 : Nat)) := by
  rcases hcursor with ⟨rfl, rfl⟩ | ⟨rfl, hoffset⟩
  · rw [Nat.zero_div]
    rfl
  · have hpresent : (Value.text (Cursor.encode offset)).isPresent = true := by
      simp [Value.isPresent, encode_ne_empty]
    simp only [numberToServe, hpresent, if_true, Cursor.decode?_encode hoffset]
    exact numberOfOffset_of_whole hsize hk offset

theorem place_natCast (position length : Nat) :
    place (position : Int) length = min position length := by
  simp [place]

theorem slice_natCast (items : List α) (start stop : Nat) :
    slice items (start : Int) (stop : Int) = (items.take stop).drop start := by
  rw [slice, place_natCast, place_natCast]
  by_cases hstart : start ≤ items.length
  · rw [min_eq_left hstart]
    rcases le_total stop items.length with hstop | hstop
    · rw [min_eq_left hstop]
    · rw [min_eq_right hstop, List.take_length, List.take_of_length_le hstop]
  · rw [List.drop_eq_nil_of_le (by simp; omega), List.drop_eq_nil_of_le (by simp; omega)]

/-- What a request for a number and a size gets, if the size is within the limit. -/
theorem serve_eq_ok (items : List α) (m : Nat) {size limit : Number} {k greatest : Nat}
    (hsize : size.whole? = some (k : Int)) (hlimit : limit.whole? = some (greatest : Int))
    (hk : 0 < k) (hle : k ≤ greatest) :
    ∃ page, serve items (.ofNumber (.whole (m + 1 : Nat))) (.ofNumber size) (.ofNumber limit) =
        .ok page ∧
      page.items = (items.take ((m + 1) * k)).drop (m * k) ∧
      page.number.whole? = some ((m + 1 : Nat) : Int) ∧
      page.size.whole? = some (k : Int) ∧
      page.total = items.length ∧
      page.nextCursor =
        if (m + 1) * k < items.length then some (Cursor.encode ((m + 1) * k : Nat)) else none := by
  have hone : (Number.whole 1).whole? = some 1 := rfl
  have hnumber : (Number.greater (.whole 1) (.whole (m + 1 : Nat))).whole? =
      some ((m + 1 : Nat) : Int) := by
    rw [Number.whole?_greater hone rfl, max_eq_right (by omega)]
  have hatLeast : (Number.greater (.whole 1) size).whole? = some (k : Int) := by
    rw [Number.whole?_greater hone hsize, max_eq_right (by omega)]
  have hatMost : (Number.lesser limit (Number.greater (.whole 1) size)).whole? =
      some (k : Int) := by
    rw [Number.whole?_lesser hlimit hatLeast, min_eq_right (by omega)]
  have hstart : (((m + 1 : Nat) : Int) - 1) * k = (m * k : Nat) := by
    push_cast
    ring
  have hstop : ((m + 1 : Nat) : Int) * k = ((m + 1) * k : Nat) := by
    push_cast
    ring
  refine ⟨⟨(items.take ((m + 1) * k)).drop (m * k), items.length, _, _, _⟩, ?_, rfl, hnumber,
    hatMost, rfl, rfl⟩
  simp only [serve, Target.ordered_ofNumber, Attempt.bind_eq_ok]
  refine ⟨_, rfl, _, rfl, _, rfl, ?_⟩
  simp only [hnumber, hatMost, cut, hstart, hstop, slice_natCast, Nat.cast_lt]
  rfl

end Page
end SymbolAtlas
