import SymbolAtlas.Text.Blank
import Mathlib.Data.List.DropRight
import Mathlib.Tactic

/-!
# Trimmed texts

Trimming leaves a text alone exactly if it neither begins nor ends with a blank, and what it takes
off are blanks around what it leaves.  A text put together from others is trimmed as soon as the
first begins and the last ends so.
-/

namespace SymbolAtlas
namespace Text

variable {cs before after : List Char}

theorem trimChars_eq_rdropWhile (cs : List Char) :
    trimChars cs = (cs.dropWhile isBlank).rdropWhile isBlank :=
  rfl

theorem trimChars_eq_self_iff :
    trimChars cs = cs ↔
      (∀ c ∈ cs.head?, isBlank c = false) ∧ ∀ c ∈ cs.getLast?, isBlank c = false := by
  have hstart : cs.dropWhile isBlank = cs ↔ ∀ c ∈ cs.head?, isBlank c = false := by
    cases cs <;> simp [List.dropWhile_eq_self_iff]
  have hending : cs.rdropWhile isBlank = cs ↔ ∀ c ∈ cs.getLast?, isBlank c = false := by
    rw [List.rdropWhile_eq_self_iff]
    cases cs <;> simp [List.getLast?_eq_some_getLast]
  rw [trimChars_eq_rdropWhile]
  constructor
  · intro h
    -- what is trimmed at its end only cannot be longer than what is left of its start
    have hdropped : cs.dropWhile isBlank = cs := by
      refine (List.dropWhile_suffix isBlank).eq_of_length_le ?_
      calc
        cs.length = ((cs.dropWhile isBlank).rdropWhile isBlank).length := by rw [h]
        _ ≤ (cs.dropWhile isBlank).length := (List.rdropWhile_prefix isBlank _).length_le
    rw [hdropped] at h
    exact ⟨hstart.mp hdropped, hending.mp h⟩
  · rintro ⟨hfirst, hlast⟩
    rw [hstart.mpr hfirst, hending.mpr hlast]

theorem trimChars_cons {c : Char} (hc : isBlank c = false) (h : trimChars cs = cs) :
    trimChars (c :: cs) = c :: cs := by
  refine trimChars_eq_self_iff.mpr ⟨by simpa using hc, ?_⟩
  cases cs with
  | nil => simpa using hc
  | cons d rest => exact (trimChars_eq_self_iff.mp h).2

/-- Only the ends of a text count. -/
theorem trimChars_append (hbefore : trimChars before = before) (hne : before ≠ [])
    (middle : List Char) (hafter : trimChars after = after) (hne' : after ≠ []) :
    trimChars (before ++ (middle ++ after)) = before ++ (middle ++ after) := by
  have hends : middle ++ after ≠ [] := by simp [hne']
  refine trimChars_eq_self_iff.mpr ⟨?_, ?_⟩
  · rw [List.head?_append_of_ne_nil before hne]
    exact (trimChars_eq_self_iff.mp hbefore).1
  · rw [List.getLast?_append_of_ne_nil before hends, List.getLast?_append_of_ne_nil middle hne']
    exact (trimChars_eq_self_iff.mp hafter).2

theorem trimStart_append (hbefore : ∀ c ∈ before, isBlank c = true) (h : trimChars cs = cs) :
    trimStart isBlank (before ++ cs) = cs := by
  unfold trimStart
  rw [List.dropWhile_append_of_pos hbefore]
  cases cs with
  | nil => rfl
  | cons c rest =>
      have hc : isBlank c = false := (trimChars_eq_self_iff.mp h).1 c rfl
      simp [hc]

/-- Blanks around a text do not count. -/
theorem trimChars_between (hbefore : ∀ c ∈ before, isBlank c = true)
    (hafter : ∀ c ∈ after, isBlank c = true) (cs : List Char) :
    trimChars (before ++ (cs ++ after)) = trimChars cs := by
  have hreversed : ∀ c ∈ after.reverse, isBlank c = true := by simpa using hafter
  rw [trimChars_eq_rdropWhile, trimChars_eq_rdropWhile, List.dropWhile_append_of_pos hbefore,
    List.dropWhile_append]
  split
  next hnothing =>
    have hblank : cs.dropWhile isBlank = [] := List.isEmpty_iff.mp hnothing
    rw [hblank, List.dropWhile_eq_nil_iff.mpr hafter]
  next =>
    unfold List.rdropWhile
    rw [List.reverse_append, List.dropWhile_append_of_pos hreversed]

/-- What trimming takes off a text are blanks around what it leaves. -/
theorem exists_eq_between (cs : List Char) :
    ∃ before after, (∀ c ∈ before, isBlank c = true) ∧ (∀ c ∈ after, isBlank c = true) ∧
      cs = before ++ (trimChars cs ++ after) := by
  refine ⟨cs.takeWhile isBlank, (cs.dropWhile isBlank).rtakeWhile isBlank, ?_, ?_, ?_⟩
  · exact fun c hc => List.mem_takeWhile_imp hc
  · exact fun c hc => List.mem_rtakeWhile_imp hc
  · rw [trimChars_eq_rdropWhile, List.rdropWhile_append_rtakeWhile, List.takeWhile_append_dropWhile]

theorem trim_eq_self_iff {s : String} : trim s = s ↔ trimChars s.toList = s.toList := by
  unfold trim
  constructor
  · intro h
    have hchars := congrArg String.toList h
    rwa [String.toList_ofList] at hchars
  · intro h
    rw [h, String.ofList_toList]

end Text
end SymbolAtlas
