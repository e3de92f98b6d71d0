import SymbolAtlas.Number.Basic
import Mathlib.Tactic

/-!
# Order of whole numbers

Truth values and whole numbers are ordered as integers.  The greater and the lesser of two such
numbers are again whole, whichever of the two forms they keep.  A number of any form that is at
least one integer exceeds all smaller ones.
-/

namespace SymbolAtlas

theorem Binary64.den_pos_of_toQuotient? {x : Binary64} {n : Int} {d : Nat}
    (h : x.toQuotient? = some (n, d)) : 0 < d := by
  cases x with
  | notANumber => cases h
  | infinite negative => cases h
  | finite negative mantissa exponent =>
      have hscaled : 0 < (scaleByTwo mantissa 1 exponent).2 := by
        unfold scaleByTwo
        split <;> simp
      have hden := congrArg (Option.map Prod.snd) h
      obtain rfl := Option.some.inj hden
      exact hscaled

namespace Number

variable {a b : Number} {x y : Int}

theorem compare?_of_whole (ha : a.whole? = some x) (hb : b.whole? = some y) :
    a.compare? b = some (compare x y) := by
  cases a <;> cases b <;> simp_all [whole?, compare?]

theorem lt_of_whole (ha : a.whole? = some x) (hb : b.whole? = some y) :
    a.lt b = decide (x < y) := by
  rw [lt, compare?_of_whole ha hb]
  by_cases hlt : x < y <;> simp [hlt, compare_lt_iff_lt]

theorem le_of_whole (ha : a.whole? = some x) (hb : b.whole? = some y) :
    a.le b = decide (x ≤ y) := by
  rw [le, compare?_of_whole ha hb]
  by_cases hle : x ≤ y
  · cases hcompare : compare x y with
    | gt => exact absurd (compare_gt_iff_gt.mp hcompare) (not_lt.mpr hle)
    | lt => simp [hle]
    | eq => simp [hle]
  · simp [hle, compare_gt_iff_gt.mpr (not_le.mp hle)]

theorem eq_of_whole (ha : a.whole? = some x) (hb : b.whole? = some y) :
    a.eq b = decide (x = y) := by
  rw [eq, compare?_of_whole ha hb]
  by_cases heq : x = y <;> simp [heq]

theorem lt_whole (m n : Int) : (whole m).lt (whole n) = decide (m < n) :=
  lt_of_whole rfl rfl

theorem le_whole (m n : Int) : (whole m).le (whole n) = decide (m ≤ n) :=
  le_of_whole rfl rfl

theorem eq_whole (m n : Int) : (whole m).eq (whole n) = decide (m = n) :=
  eq_of_whole rfl rfl

theorem whole?_greater (ha : a.whole? = some x) (hb : b.whole? = some y) :
    (greater a b).whole? = some (max x y) := by
  rw [greater, lt_of_whole ha hb]
  by_cases hlt : x < y
  · simp [hlt, hb, hlt.le]
  · simp [hlt, ha, not_lt.mp hlt]

theorem whole?_lesser (ha : a.whole? = some x) (hb : b.whole? = some y) :
    (lesser a b).whole? = some (min x y) := by
  rw [lesser, lt_of_whole hb ha]
  by_cases hlt : y < x
  · simp [hlt, hb, hlt.le]
  · simp [hlt, ha, not_lt.mp hlt]

/-! ## Whole numbers and others -/

theorem compareReal_finite {x : Binary64} {p : Int} {d : Nat} (hx : x.toQuotient? = some (p, d))
    (n : Int) : compare?.compareReal x (some n) = some (compare p (n * d)) := by
  cases x with
  | notANumber => cases hx
  | infinite negative => cases hx
  | finite negative mantissa exponent =>
      unfold compare?.compareReal
      simp only [hx]

/-- Against whole numbers a number is no number, beyond all of them on one side, or a quotient. -/
theorem compare?_whole_cases (x : Number) :
    (∀ n, x.compare? (whole n) = none) ∨
      (∃ side, side ≠ .eq ∧ ∀ n, x.compare? (whole n) = some side) ∨
      ∃ p d : Int, 0 < d ∧ ∀ n, x.compare? (whole n) = some (compare p (n * d)) := by
  cases hwhole : x.whole? with
  | some y =>
      refine .inr (.inr ⟨y, 1, one_pos, fun n => ?_⟩)
      rw [compare?_of_whole hwhole rfl, mul_one]
  | none =>
      cases x with
      | flag b => cases hwhole
      | whole y => cases hwhole
      | real x =>
          cases hx : x.toQuotient? with
          | none =>
              cases x with
              | notANumber => exact .inl fun n => rfl
              | infinite negative =>
                  refine .inr (.inl ⟨if negative then .lt else .gt, ?_, fun n => rfl⟩)
                  cases negative <;> decide
              | finite negative mantissa exponent => cases hx
          | some quotient =>
              obtain ⟨p, d⟩ := quotient
              have hd : (0 : Int) < d := by exact_mod_cast Binary64.den_pos_of_toQuotient? hx
              exact .inr (.inr ⟨p, d, hd, compareReal_finite hx⟩)

theorem compare?_swap_whole (x : Number) (n : Int) :
    (whole n).compare? x = (x.compare? (whole n)).map Ordering.swap := by
  cases hwhole : x.whole? with
  | some y =>
      rw [compare?_of_whole rfl hwhole, compare?_of_whole hwhole rfl, Option.map_some]
      exact congrArg some Std.OrientedCmp.eq_swap
  | none =>
      cases x with
      | flag b => cases hwhole
      | whole y => cases hwhole
      | real x => rfl

/-- Whatever is at least one whole number exceeds the smaller ones. -/
theorem lt_of_whole_le {m n : Int} {x : Number} (hmn : m < n) (hle : (whole n).le x = true) :
    (whole m).lt x = true := by
  rw [le, compare?_swap_whole] at hle
  rw [lt, compare?_swap_whole]
  obtain hnone | ⟨side, hne, hside⟩ | ⟨p, d, hd, hquotient⟩ := compare?_whole_cases x
  · rw [hnone n] at hle
    cases hle
  · rw [hside n] at hle
    rw [hside m]
    cases side with
    | lt => cases hle
    | eq => exact absurd rfl hne
    | gt => rfl
  · rw [hquotient n] at hle
    have hn : n * d ≤ p := by
      by_contra hless
      rw [compare_lt_iff_lt.mpr (not_le.mp hless)] at hle
      cases hle
    have hm : m * d < p := (Int.mul_lt_mul_of_pos_right hmn hd).trans_le hn
    rw [hquotient m, compare_gt_iff_gt.mpr hm]
    rfl

/-- What lies between two whole numbers has them in order. -/
theorem le_of_between {m n : Int} {x : Number} (hstart : x.lt (whole m) = false)
    (hstop : x.le (whole n) = true) : m ≤ n := by
  by_contra hless
  rw [not_le] at hless
  rw [lt] at hstart
  rw [le] at hstop
  obtain hnone | ⟨side, hne, hside⟩ | ⟨p, d, hd, hquotient⟩ := compare?_whole_cases x
  · rw [hnone n] at hstop
    cases hstop
  · rw [hside n] at hstop
    rw [hside m] at hstart
    cases side with
    | lt => cases hstart
    | eq => exact hne rfl
    | gt => cases hstop
  · rw [hquotient n] at hstop
    rw [hquotient m] at hstart
    have hn : p ≤ n * d := by
      by_contra hmore
      rw [compare_gt_iff_gt.mpr (not_le.mp hmore)] at hstop
      cases hstop
    have hm : p < m * d := hn.trans_lt (Int.mul_lt_mul_of_pos_right hless hd)
    rw [compare_lt_iff_lt.mpr hm] at hstart
    cases hstart

theorem eq_iff_le_and_not_lt : a.eq b = true ↔ a.le b = true ∧ a.lt b = false := by
  unfold eq le lt
  cases a.compare? b with
  | none => simp
  | some side => cases side <;> simp

end Number
end SymbolAtlas
