import SymbolAtlas.Text.LetterCase
import Mathlib.Tactic

/-!
# Letter case within ASCII

A capital of ASCII and its small letter have the same lower form and the same say in where a sigma
ends a word.  Texts that differ in the case of such letters alone therefore have the same lower
form.
-/

namespace SymbolAtlas
namespace Text

/-- Two texts are the same but for the case of letters of ASCII. -/
def SameLetters (s t : String) : Prop :=
  s.toList.map Char.toLower = t.toList.map Char.toLower

instance (s t : String) : Decidable (SameLetters s t) :=
  inferInstanceAs (Decidable (_ = _))

/-- The letters that have a small form within ASCII. -/
def capitals : List Char :=
  "ABCDEFGHIJKLMNOPQRSTUVWXYZ".toList

theorem toLower_eq_or_mem_capitals (c : Char) : c.toLower = c ∨ c ∈ capitals := by
  by_cases hupper : 65 ≤ c.toNat ∧ c.toNat ≤ 90
  · right
    obtain ⟨hlow, hhigh⟩ := hupper
    have hc : c = Char.ofNat c.toNat := (Char.ofNat_toNat c).symm
    rw [hc]
    generalize c.toNat = n at hlow hhigh
    interval_cases n <;> decide
  · left
    unfold Char.toLower
    rw [dif_neg]
    exact hupper

/-- What is the same for a capital and its small letter is the same for every character and its
small letter. -/
theorem apply_toLower {α : Type} [DecidableEq α] {f : Char → α}
    (h : capitals.all (fun c => f c.toLower = f c) = true) (c : Char) : f c.toLower = f c := by
  obtain hsame | hcapital := toLower_eq_or_mem_capitals c
  · rw [hsame]
  · exact of_decide_eq_true (List.all_eq_true.mp h c hcapital)

theorem lowerForm_toLower (c : Char) : lowerForm c.toLower = lowerForm c :=
  apply_toLower (by decide) c

theorem isCased_toLower (c : Char) : isCased c.toLower = isCased c :=
  apply_toLower (by decide) c

theorem isCaseIgnorable_toLower (c : Char) : isCaseIgnorable c.toLower = isCaseIgnorable c :=
  apply_toLower (by decide +kernel) c

theorem isSigma_toLower (c : Char) : decide (c.toLower = 'Σ') = decide (c = 'Σ') :=
  apply_toLower (f := fun c => decide (c = 'Σ')) (by decide) c

theorem meetsCased_map_toLower (neighbours : List Char) :
    meetsCased (neighbours.map Char.toLower) = meetsCased neighbours := by
  induction neighbours with
  | nil => rfl
  | cons c rest ih =>
      unfold meetsCased at ih ⊢
      rw [List.map_cons, List.dropWhile_cons, List.dropWhile_cons, isCaseIgnorable_toLower]
      cases isCaseIgnorable c with
      | true => exact ih
      | false => exact isCased_toLower c

theorem lowerAfter_map_toLower (before cs : List Char) :
    lowerAfter (before.map Char.toLower) (cs.map Char.toLower) = lowerAfter before cs := by
  induction cs generalizing before with
  | nil => rfl
  | cons c rest ih =>
      have hends : endsWord (before.map Char.toLower) (rest.map Char.toLower) =
          endsWord before rest := by
        unfold endsWord
        rw [meetsCased_map_toLower, meetsCased_map_toLower]
      have hsigma : c.toLower = 'Σ' ↔ c = 'Σ' := by
        simpa using isSigma_toLower c
      rw [List.map_cons, lowerAfter, lowerAfter, ← List.map_cons, ih (c :: before), hends,
        lowerForm_toLower]
      simp only [hsigma]

theorem SameLetters.lower_eq {s t : String} (h : SameLetters s t) : lower s = lower t := by
  unfold lower
  rw [← lowerAfter_map_toLower [] s.toList, ← lowerAfter_map_toLower [] t.toList, h]

end Text
end SymbolAtlas
