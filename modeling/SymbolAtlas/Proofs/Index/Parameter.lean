import SymbolAtlas.Index.Entry
import SymbolAtlas.Proofs.Attempt
import SymbolAtlas.Proofs.Name.Signature
import SymbolAtlas.Proofs.Text.Cut
import Mathlib.Tactic

/-!
# Parameters written as text

A parameter may be written as a text: a passing mode, a type and a name with spaces between them,
where the mode and the name may be left out.  Such a text is never refused, and its mode is always
read right.  The last of several words is taken for the name, so that a type with spaces inside of
its brackets is only read as a whole if a name stands behind it.
-/

namespace SymbolAtlas

/-- The word that stands for a passing mode in front of a type, none for the usual one. -/
def Passing.word? : Passing → Option String
  | .byValue => none
  | mode => some mode.text

namespace Entry

open Signature (depthThrough)

/-- The blanks of a text are single spaces, and each of them stands inside of brackets. -/
def Spaced : Int → List Char → Prop
  | _, [] => True
  | depth, c :: rest =>
      (Text.isBlank c = true → c = ' ' ∧ 0 < depth ∧ rest.head?.any Text.isBlank = false) ∧
      Spaced (Signature.depthAfter depth c) rest

instance decidableSpaced : (depth : Int) → (cs : List Char) → Decidable (Spaced depth cs)
  | _, [] => inferInstanceAs (Decidable True)
  | depth, c :: rest =>
      have := decidableSpaced (Signature.depthAfter depth c) rest
      inferInstanceAs (Decidable ((Text.isBlank c = true →
        c = ' ' ∧ 0 < depth ∧ rest.head?.any Text.isBlank = false) ∧
        Spaced (Signature.depthAfter depth c) rest))

/-- A text that can stand for a type: it closes the brackets that it opens, its blanks are single
spaces inside of them, and it is no passing mode. -/
structure IsTypeText (type : String) : Prop where
  nonempty : type ≠ ""
  balanced : depthThrough 0 type.toList = 0
  spaced : Spaced 0 type.toList
  unlikeMode : ∀ mode : Passing, mode.word? ≠ some type

/-- A text that can stand for a parameter's name. -/
structure IsNameText (name : String) : Prop where
  nonempty : name ≠ ""
  unbroken : name.toList.any Text.isBlank = false

/-- A parameter as it is written in one text. -/
def spelled (mode : Passing) (type : String) (name : Option String) : String :=
  " ".intercalate (mode.word?.toList ++ type :: name.toList)

/-! ## Types as words -/

theorem Spaced.blank {depth : Int} {before after : List Char} {c : Char}
    (h : Spaced depth (before ++ c :: after)) (hc : Text.isBlank c = true) :
    c = ' ' ∧ 0 < depthThrough depth before ∧ after.head?.any Text.isBlank = false := by
  induction before generalizing depth with
  | nil => exact h.1 hc
  | cons first before ih => exact ih h.2

namespace IsTypeText

variable {type : String}

theorem blank (h : IsTypeText type) {before after : List Char} {c : Char}
    (htype : type.toList = before ++ c :: after) (hc : Text.isBlank c = true) :
    c = ' ' ∧ 0 < depthThrough 0 before ∧ after.head?.any Text.isBlank = false := by
  have hspaced := h.spaced
  rw [htype] at hspaced
  exact hspaced.blank hc

theorem begins (h : IsTypeText type) : ∃ c ∈ type.toList.head?, Text.isBlank c = false := by
  have hchars : type.toList ≠ [] := by simpa using h.nonempty
  obtain ⟨c, rest, htype⟩ := List.exists_cons_of_ne_nil hchars
  refine ⟨c, by rw [htype]; rfl, ?_⟩
  by_contra hblank
  have hstart : type.toList = [] ++ c :: rest := htype
  have hdepth := (h.blank hstart (by simpa using hblank)).2.1
  exact absurd hdepth (by decide)

/-- A blank never ends a type, for the brackets around it are still to be closed. -/
theorem continues (h : IsTypeText type) {before after : List Char} {c : Char}
    (htype : type.toList = before ++ c :: after) (hc : Text.isBlank c = true) :
    ∃ next ∈ after.head?, Text.isBlank next = false := by
  obtain ⟨-, hdepth, hnext⟩ := h.blank htype hc
  cases after with
  | nil =>
      have hbalanced := h.balanced
      rw [htype, Signature.depthThrough_append] at hbalanced
      have hsame : depthThrough (depthThrough 0 before) [c] = depthThrough 0 before :=
        Signature.depthAfter_blank hc _
      omega
  | cons next rest => exact ⟨next, rfl, hnext⟩

theorem intercalate_words (h : IsTypeText type) : " ".intercalate (Text.words type) = type := by
  refine Text.intercalate_words (fun c hc hblank => ?_)
    (Text.nil_not_mem_splitWhere h.begins fun _ _ _ => h.continues)
  obtain ⟨before, after, htype⟩ := List.append_of_mem hc
  exact (h.blank htype hblank).1

theorem words_ne_nil (h : IsTypeText type) : Text.words type ≠ [] := by
  intro hnone
  have htype := h.intercalate_words
  rw [hnone] at htype
  exact h.nonempty htype.symm

theorem eq_of_words (h : IsTypeText type) {word : String} (hword : Text.words type = [word]) :
    word = type := by
  have htype := h.intercalate_words
  rwa [hword, String.intercalate_singleton] at htype

/-- The first of several words has opened a bracket that it does not close. -/
theorem depthThrough_first (h : IsTypeText type) {first second : String} {rest : List String}
    (hwords : Text.words type = first :: second :: rest) : 0 < depthThrough 0 first.toList := by
  have htype := h.intercalate_words
  rw [hwords, String.intercalate_cons_cons] at htype
  have hchars : type.toList = first.toList ++ ' ' :: (" ".intercalate (second :: rest)).toList := by
    rw [← htype]
    simp
  exact (h.blank hchars (by decide)).2.1

/-- No type is taken for one that a passing mode stands in front of. -/
theorem word?_ne_first (h : IsTypeText type) {first : String} {rest : List String}
    (hwords : Text.words type = first :: rest) (mode : Passing) : mode.word? ≠ some first := by
  intro hmode
  cases rest with
  | nil => exact h.unlikeMode mode (h.eq_of_words hwords ▸ hmode)
  | cons second rest =>
      have hdepth := h.depthThrough_first hwords
      cases mode with
      | byValue => cases hmode
      | byRef | out | input =>
          cases hmode
          exact absurd hdepth (by decide)

theorem words_eq_singleton_iff (h : IsTypeText type) :
    Text.words type = [type] ↔ ' ' ∉ type.toList := by
  constructor
  · intro hwords hspace
    have hword : type ∈ Text.words type := by rw [hwords]; exact List.mem_singleton_self type
    exact absurd (Text.isBlank_of_mem_words hword ' ' hspace) (by decide)
  · intro hspace
    refine Text.words_eq_singleton h.nonempty fun c hc => ?_
    by_contra hblank
    obtain ⟨before, after, htype⟩ := List.append_of_mem hc
    obtain ⟨rfl, -⟩ := h.blank htype (by simpa using hblank)
    exact hspace hc

end IsTypeText

theorem words_spelled (mode : Passing) (type : String) {name : Option String}
    (hname : ∀ n ∈ name, IsNameText n) :
    Text.words (spelled mode type name) =
      mode.word?.toList ++ (Text.words type ++ name.toList) := by
  have hmode : mode.word?.toList.flatMap Text.words = mode.word?.toList := by
    cases mode <;> decide
  have hlast : name.toList.flatMap Text.words = name.toList := by
    cases name with
    | none => rfl
    | some n =>
        have hunbroken := (hname n rfl).unbroken
        simp only [List.any_eq_false, Bool.not_eq_true] at hunbroken
        simp [Text.words_eq_singleton (hname n rfl).nonempty hunbroken]
  rw [spelled, Text.words_intercalate, List.flatMap_append, List.flatMap_cons, hmode, hlast]

/-! ## Words as parameters -/

/-- The parameter that the words behind a passing mode make. -/
def ofWords (i : Nat) (mode : Passing) : List String → Parameter
  | [type] => ⟨positionalName i, type, mode⟩
  | words => ⟨words.getLastD "", " ".intercalate words.dropLast, mode⟩

theorem ofWords_append {words : List String} (hwords : words ≠ []) (i : Nat) (mode : Passing)
    (name : String) : ofWords i mode (words ++ [name]) = ⟨name, " ".intercalate words, mode⟩ := by
  obtain ⟨first, rest, rfl⟩ := List.exists_cons_of_ne_nil hwords
  obtain ⟨second, others, hcons⟩ :=
    List.exists_cons_of_ne_nil (show rest ++ [name] ≠ [] by simp)
  have hlast : (first :: (rest ++ [name])).getLastD "" = name := by
    rw [← List.cons_append, List.getLastD_concat]
  have hfront : (first :: (rest ++ [name])).dropLast = first :: rest := by
    rw [← List.cons_append, List.dropLast_concat]
  rw [List.cons_append]
  rw [hcons] at hlast hfront ⊢
  rw [ofWords, hlast, hfront]
  simp

theorem ofWords_passing (i : Nat) (mode : Passing) (words : List String) :
    (ofWords i mode words).passing = mode := by
  unfold ofWords
  split <;> rfl

/-- Without a name, the words of a type make the type just when it is a single word. -/
theorem IsTypeText.ofWords_eq_iff {type : String} (h : IsTypeText type) (i : Nat)
    (mode : Passing) :
    ofWords i mode (Text.words type) = ⟨positionalName i, type, mode⟩ ↔ ' ' ∉ type.toList := by
  rw [← h.words_eq_singleton_iff]
  constructor
  · intro hread
    rcases List.eq_nil_or_concat (Text.words type) with hnone | ⟨front, last, hwords⟩
    · exact absurd hnone h.words_ne_nil
    · rw [List.concat_eq_append] at hwords
      by_cases hfront : front = []
      · subst hfront
        rw [List.nil_append] at hwords
        rw [hwords, h.eq_of_words hwords]
      · -- the words in front of the last one would already make the whole type
        rw [hwords, ofWords_append hfront] at hread
        have hshort : " ".intercalate front = type := congrArg Parameter.type hread
        have htype := h.intercalate_words
        rw [hwords, String.intercalate_append_of_ne_nil hfront (List.cons_ne_nil last []),
          hshort] at htype
        have hlength := congrArg String.length htype
        simp only [String.length_append] at hlength
        have hspace : " ".length = 1 := rfl
        omega
  · intro hwords
    rw [hwords, ofWords]

theorem writtenParameter_eq {i : Nat} {text : String} {mode : Passing} {first : String}
    {rest : List String} (hwords : Text.words text = mode.word?.toList ++ first :: rest)
    (hfirst : ∀ other : Passing, other.word? ≠ some first) (place : String) :
    writtenParameter i text place = .ok (ofWords i mode (first :: rest)) := by
  unfold writtenParameter
  rw [hwords]
  cases mode with
  | byValue =>
      have href : first ≠ "ref" := fun h => hfirst .byRef (h ▸ rfl)
      have hout : first ≠ "out" := fun h => hfirst .out (h ▸ rfl)
      have hin : first ≠ "in" := fun h => hfirst .input (h ▸ rfl)
      cases rest <;> simp [Passing.word?, ofWords, href, hout, hin]
  | byRef | out | input => cases rest <;> rfl

theorem ofWords_words_append_eq_iff {type : String} (h : IsTypeText type) (i : Nat)
    (mode : Passing) (name : Option String) :
    ofWords i mode (Text.words type ++ name.toList) =
        ⟨name.getD (positionalName i), type, mode⟩ ↔ name.isSome = true ∨ ' ' ∉ type.toList := by
  cases name with
  | none => simpa using h.ofWords_eq_iff i mode
  | some n =>
      rw [Option.toList_some, ofWords_append h.words_ne_nil, h.intercalate_words]
      simp

/-- A parameter written in one text is never refused and has the mode that stands in front of it.
It has the type and the name of the text just when the text gives a name or a type without
spaces. -/
theorem exists_parameter_spelled {type : String} (htype : IsTypeText type) (mode : Passing)
    {name : Option String} (hname : ∀ n ∈ name, IsNameText n) (i : Nat) :
    ∃ p, (∀ place, parameter i (.text (spelled mode type name)) place = .ok p) ∧
      p.passing = mode ∧ (p = ⟨name.getD (positionalName i), type, mode⟩ ↔
        name.isSome = true ∨ ' ' ∉ type.toList) := by
  obtain ⟨first, rest, hwords⟩ := List.exists_cons_of_ne_nil htype.words_ne_nil
  have hspelled := words_spelled mode type hname
  rw [hwords, List.cons_append] at hspelled
  have hparameter : ∀ place, parameter i (.text (spelled mode type name)) place =
      .ok (ofWords i mode (Text.words type ++ name.toList)) := by
    intro place
    rw [hwords, List.cons_append]
    exact writtenParameter_eq hspelled (htype.word?_ne_first hwords) place
  exact ⟨_, hparameter, ofWords_passing i mode _, ofWords_words_append_eq_iff htype i mode name⟩

/-! ## Lists of parameters -/

theorem parametersFrom_eq_ok {place : String} {start : Nat} {items : List Value}
    {ps : List Parameter} (h : parametersFrom place start items = .ok ps) {i : Nat} {item : Value}
    (hitem : items[i]? = some item) :
    ∃ p, ps[i]? = some p ∧ parameter (start + i) item place = .ok p := by
  induction items generalizing start ps i with
  | nil => cases hitem
  | cons first rest ih =>
      unfold parametersFrom at h
      obtain ⟨p, hp, h⟩ := Attempt.bind_eq_ok.mp h
      obtain ⟨others, hothers, h⟩ := Attempt.bind_eq_ok.mp h
      cases h
      cases i with
      | zero =>
          cases hitem
          exact ⟨p, rfl, hp⟩
      | succ i =>
          obtain ⟨q, hq, hparameter⟩ := ih hothers hitem
          exact ⟨q, hq, by rwa [Nat.add_right_comm] at hparameter⟩

theorem parameters_eq_ok {v : Value} {items : List Value} (hitems : v.itemsIfPresent = .ok items)
    {place : String} {ps : List Parameter} (h : parameters v place = .ok ps) {i : Nat}
    {item : Value} (hitem : items[i]? = some item) :
    ∃ p, ps[i]? = some p ∧ parameter i item place = .ok p := by
  unfold parameters at h
  rw [hitems] at h
  obtain ⟨p, hp, hparameter⟩ := parametersFrom_eq_ok h hitem
  exact ⟨p, hp, by rwa [Nat.zero_add] at hparameter⟩

end Entry
end SymbolAtlas
