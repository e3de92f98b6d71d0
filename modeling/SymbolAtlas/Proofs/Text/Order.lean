import SymbolAtlas.Symbol
import SymbolAtlas.Text.CodePoint
import Mathlib.Tactic

/-!
# The order of texts and of locations

Texts are compared code point by code point, carriers of lone surrogates counting as what they stand
for.  No two characters stand for the same code point, so this is a linear order, and so is the
order of locations by file, line and column.
-/

namespace SymbolAtlas

namespace Text

theorem listPrecedes_total (a b : List Nat) :
    listPrecedes a b = true ∨ listPrecedes b a = true := by
  induction a generalizing b with
  | nil => exact Or.inl rfl
  | cons n as ih =>
      cases b with
      | nil => exact Or.inr rfl
      | cons m bs =>
          by_cases heq : n = m
          · simpa [listPrecedes, heq] using ih bs
          · simp only [listPrecedes, heq, Ne.symm heq, if_false, decide_eq_true_eq]
            omega

theorem listPrecedes_antisymm {a b : List Nat} (hab : listPrecedes a b = true)
    (hba : listPrecedes b a = true) : a = b := by
  induction a generalizing b with
  | nil =>
      cases b with
      | nil => rfl
      | cons m bs => cases hba
  | cons n as ih =>
      cases b with
      | nil => cases hab
      | cons m bs =>
          by_cases heq : n = m
          · subst heq
            have htail : as = bs := ih (by simpa [listPrecedes] using hab)
              (by simpa [listPrecedes] using hba)
            rw [htail]
          · have hlt : n < m := by simpa [listPrecedes, heq] using hab
            have hgt : m < n := by simpa [listPrecedes, Ne.symm heq] using hba
            omega

theorem listPrecedes_trans {a b c : List Nat} (hab : listPrecedes a b = true)
    (hbc : listPrecedes b c = true) : listPrecedes a c = true := by
  induction a generalizing b c with
  | nil => rfl
  | cons n as ih =>
      cases b with
      | nil => cases hab
      | cons m bs =>
          cases c with
          | nil => cases hbc
          | cons k cs =>
              unfold listPrecedes at hab hbc ⊢
              split at hab
              next hnm =>
                split at hbc
                next hmk =>
                  rw [if_pos (hnm.trans hmk)]
                  exact ih hab hbc
                next hmk =>
                  rw [if_neg (by omega), hnm]
                  exact hbc
              next hnm =>
                have hlt : n < m := of_decide_eq_true hab
                have hle : m ≤ k := by
                  split at hbc
                  next hmk => exact hmk.le
                  next => exact (of_decide_eq_true hbc).le
                rw [if_neg (by omega)]
                exact decide_eq_true (by omega)

theorem codePoint_injective : Function.Injective codePoint := by
  intro c d hcd
  have hc : c.toNat < 0xD800 ∨ 0xDFFF < c.toNat ∧ c.toNat < 0x110000 := c.valid
  have hd : d.toNat < 0xD800 ∨ 0xDFFF < d.toNat ∧ d.toNat < 0x110000 := d.valid
  have hsame : c.toNat = d.toNat := by
    unfold codePoint isCarrier carrierBase surrogateCount at hcd
    simp only [Bool.and_eq_true, decide_eq_true_eq] at hcd
    split at hcd <;> split at hcd <;> omega
  exact Char.toNat_inj.mp hsame

theorem orderKey_injective : Function.Injective orderKey := by
  intro a b hab
  exact String.toList_inj.mp (codePoint_injective.list_map hab)

theorem precedes_total (a b : String) : precedes a b = true ∨ precedes b a = true :=
  listPrecedes_total (orderKey a) (orderKey b)

theorem precedes_antisymm {a b : String} (hab : precedes a b = true) (hba : precedes b a = true) :
    a = b :=
  orderKey_injective (listPrecedes_antisymm hab hba)

theorem precedes_trans {a b c : String} (hab : precedes a b = true) (hbc : precedes b c = true) :
    precedes a c = true :=
  listPrecedes_trans hab hbc

end Text

namespace Location

theorem precedes_total (a b : Location) : a.precedes b = true ∨ b.precedes a = true := by
  unfold precedes
  by_cases hfile : a.file = b.file
  · by_cases hline : a.line = b.line
    · simpa [hfile, hline] using le_total a.column b.column
    · simp only [hfile, hline, Ne.symm hline, if_true, if_false, decide_eq_true_eq]
      omega
  · simpa [hfile, Ne.symm hfile] using Text.precedes_total a.file b.file

theorem precedes_trans {a b c : Location} (hab : a.precedes b = true) (hbc : b.precedes c = true) :
    a.precedes c = true := by
  unfold precedes at hab hbc ⊢
  by_cases hfirst : a.file = b.file
  · by_cases hlast : b.file = c.file
    · rw [if_pos hfirst] at hab
      rw [if_pos hlast] at hbc
      rw [if_pos (hfirst.trans hlast)]
      split at hab <;> split at hbc <;> simp only [decide_eq_true_eq] at hab hbc
      · rw [if_pos (by omega)]
        exact decide_eq_true (by omega)
      · rw [if_neg (by omega)]
        exact decide_eq_true (by omega)
      · rw [if_neg (by omega)]
        exact decide_eq_true (by omega)
      · rw [if_neg (by omega)]
        exact decide_eq_true (by omega)
    · rw [hfirst, if_neg hlast]
      rw [if_neg hlast] at hbc
      exact hbc
  · rw [if_neg hfirst] at hab
    by_cases hlast : b.file = c.file
    · rw [← hlast, if_neg hfirst]
      exact hab
    · rw [if_neg hlast] at hbc
      have hne : a.file ≠ c.file := by
        intro heq
        rw [← heq] at hbc
        exact hfirst (Text.precedes_antisymm hab hbc)
      rw [if_neg hne]
      exact Text.precedes_trans hab hbc

theorem pairwise_mergeSort (places : List Location) :
    (places.mergeSort precedes).Pairwise fun a b => a.precedes b = true := by
  refine List.pairwise_mergeSort ?_ ?_ places
  · intro a b c hab hbc
    exact precedes_trans hab hbc
  · intro a b
    rw [Bool.or_eq_true]
    exact precedes_total a b

/-- One location comes before another one by file, then line, then column. -/
def Before (a b : Location) : Prop :=
  a.file ≠ b.file ∧ Text.precedes a.file b.file = true ∨
    a.file = b.file ∧ (a.line < b.line ∨ a.line = b.line ∧ a.column < b.column)

theorem before_of_precedes {a b : Location} (hab : a.precedes b = true) (hne : a ≠ b) :
    a.Before b := by
  unfold precedes at hab
  by_cases hfile : a.file = b.file
  · rw [if_pos hfile] at hab
    refine Or.inr ⟨hfile, ?_⟩
    by_cases hline : a.line = b.line
    · rw [if_pos hline, decide_eq_true_eq] at hab
      have hcolumn : a.column ≠ b.column := by
        intro heq
        cases a
        cases b
        exact hne (by simp_all)
      exact Or.inr ⟨hline, by omega⟩
    · rw [if_neg hline, decide_eq_true_eq] at hab
      exact Or.inl hab
  · rw [if_neg hfile] at hab
    exact Or.inl ⟨hfile, hab⟩

/-- Distinct locations in order come one before the other. -/
theorem pairwise_before_mergeSort {places : List Location} (hnodup : places.Nodup) :
    (places.mergeSort precedes).Pairwise Before := by
  have hdistinct := (List.mergeSort_perm places precedes).nodup_iff.mpr hnodup
  refine ((pairwise_mergeSort places).and hdistinct).imp ?_
  rintro a b ⟨hab, hne⟩
  exact before_of_precedes hab hne

end Location
end SymbolAtlas
