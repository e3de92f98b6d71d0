import SymbolAtlas.Number.Digits
import Mathlib.Tactic

/-!
# Decimal digits of natural numbers

The digits of a natural number are ASCII digits without leading zeros, and reading them in any
script gives the number back.  Their count is bounded by the power of ten above the number.
-/

namespace SymbolAtlas
namespace Number

theorem isDigit_digitChar {d : Nat} (hd : d < 10) : (digitChar d).isDigit = true := by
  interval_cases d <;> decide

theorem toNat_digitChar_lt {d : Nat} (hd : d < 10) : (digitChar d).toNat < 128 := by
  interval_cases d <;> decide

theorem digitValue?_digitChar {d : Nat} (hd : d < 10) :
    Text.digitValue? (digitChar d) = some d := by
  interval_cases d <;> decide

theorem digitChar_eq_zero_iff {d : Nat} (hd : d < 10) : digitChar d = '0' ↔ d = 0 := by
  interval_cases d <;> decide

/-- The digits of a number are those of its tenth and then the last one. -/
theorem naturalDigits_of_ten_le {n : Nat} (hn : 10 ≤ n) :
    naturalDigits n = naturalDigits (n / 10) ++ [digitChar (n % 10)] := by
  rw [naturalDigits, if_neg (by omega)]

theorem naturalDigits_of_lt_ten {n : Nat} (hn : n < 10) : naturalDigits n = [digitChar n] := by
  rw [naturalDigits, if_pos hn]

@[elab_as_elim]
theorem digitInduction {motive : Nat → Prop}
    (last : ∀ n, n < 10 → motive n)
    (more : ∀ n, 10 ≤ n → motive (n / 10) → motive n)
    (n : Nat) :
    motive n := by
  induction n using Nat.strong_induction_on with
  | _ n ih =>
      by_cases hn : n < 10
      · exact last n hn
      · exact more n (by omega) (ih (n / 10) (by omega))

theorem exists_digit_of_mem_naturalDigits {n : Nat} {c : Char}
    (hmem : c ∈ naturalDigits n) :
    ∃ d < 10, c = digitChar d := by
  induction n using digitInduction with
  | last n hn =>
      rw [naturalDigits_of_lt_ten hn, List.mem_singleton] at hmem
      exact ⟨n, hn, hmem⟩
  | more n hn ih =>
      rw [naturalDigits_of_ten_le hn, List.mem_append, List.mem_singleton] at hmem
      rcases hmem with htenth | hlast
      · exact ih htenth
      · exact ⟨n % 10, Nat.mod_lt n (by omega), hlast⟩

theorem isDigit_of_mem_naturalDigits {n : Nat} {c : Char}
    (hmem : c ∈ naturalDigits n) : c.isDigit = true := by
  obtain ⟨d, hd, rfl⟩ := exists_digit_of_mem_naturalDigits hmem
  exact isDigit_digitChar hd

theorem toNat_lt_of_mem_naturalDigits {n : Nat} {c : Char}
    (hmem : c ∈ naturalDigits n) : c.toNat < 128 := by
  obtain ⟨d, hd, rfl⟩ := exists_digit_of_mem_naturalDigits hmem
  exact toNat_digitChar_lt hd

theorem naturalDigits_ne_nil (n : Nat) : naturalDigits n ≠ [] := by
  by_cases hn : n < 10
  · simp [naturalDigits_of_lt_ten hn]
  · simp [naturalDigits_of_ten_le (show 10 ≤ n by omega)]

theorem exists_naturalDigits_eq_cons (n : Nat) :
    ∃ d rest, d < 10 ∧ naturalDigits n = digitChar d :: rest := by
  obtain ⟨c, rest, hdigits⟩ := List.exists_cons_of_ne_nil (naturalDigits_ne_nil n)
  have hmem : c ∈ naturalDigits n := by simp [hdigits]
  obtain ⟨d, hd, rfl⟩ := exists_digit_of_mem_naturalDigits hmem
  exact ⟨d, rest, hd, hdigits⟩

/-- Zero is the only number whose digits begin with a zero. -/
theorem head?_naturalDigits_eq_zero_iff (n : Nat) :
    (naturalDigits n).head? = some '0' ↔ n = 0 := by
  induction n using digitInduction with
  | last n hn => simp [naturalDigits_of_lt_ten hn, digitChar_eq_zero_iff hn]
  | more n hn ih =>
      rw [naturalDigits_of_ten_le hn, List.head?_append_of_ne_nil _ (naturalDigits_ne_nil _), ih]
      omega

theorem length_naturalDigits_le {n k : Nat} (hk : 0 < k) (hn : n < 10 ^ k) :
    (naturalDigits n).length ≤ k := by
  induction n using digitInduction generalizing k with
  | last n hlt =>
      rw [naturalDigits_of_lt_ten hlt]
      exact hk
  | more n hge ih =>
      obtain ⟨k, rfl⟩ : ∃ j, k = j + 1 := ⟨k - 1, by omega⟩
      have hpos : 0 < k := by
        rcases Nat.eq_zero_or_pos k with rfl | hpos
        · omega
        · exact hpos
      have htenth : n / 10 < 10 ^ k := by
        rw [Nat.div_lt_iff_lt_mul (by omega), ← pow_succ]
        exact hn
      have hlength := ih hpos htenth
      rw [naturalDigits_of_ten_le hge, List.length_append, List.length_singleton]
      omega

theorem valueOfDigits?_append (value : Nat) (front back : List Char) :
    valueOfDigits? value (front ++ back) =
      (valueOfDigits? value front).bind fun value => valueOfDigits? value back := by
  induction front generalizing value with
  | nil => rfl
  | cons c rest ih =>
      rw [List.cons_append, valueOfDigits?, valueOfDigits?]
      cases Text.digitValue? c with
      | none => rfl
      | some d => exact ih (10 * value + d)

theorem valueOfDigits?_singleton {d : Nat} (hd : d < 10) (value : Nat) :
    valueOfDigits? value [digitChar d] = some (10 * value + d) := by
  simp [valueOfDigits?, digitValue?_digitChar hd]

/-- Reading the digits of a number gives the number. -/
theorem valueOfDigits?_naturalDigits (n : Nat) :
    valueOfDigits? 0 (naturalDigits n) = some n := by
  induction n using digitInduction with
  | last n hn =>
      rw [naturalDigits_of_lt_ten hn, valueOfDigits?_singleton hn]
      simp
  | more n hn ih =>
      rw [naturalDigits_of_ten_le hn, valueOfDigits?_append, ih, Option.bind_some,
        valueOfDigits?_singleton (Nat.mod_lt n (by omega)), Nat.div_add_mod]

end Number
end SymbolAtlas
