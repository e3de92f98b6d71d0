import SymbolAtlas.Text.Blank
import SymbolAtlas.Text.Cut
import Mathlib.Tactic

/-!
# Cuts put together again

A text is cut at a character if it has that character, and what stands before and after the cut
gives the text back.  The other way round, a text put together at a character is cut there, unless
the character stands on the side where the cut is looked for.  Pieces are cut off in the same way,
and of a word in front of a text nothing is left where the word is erased.
-/

namespace SymbolAtlas
namespace Text

variable {mark : Char} {cs before after : List Char}

theorem eq_append_of_cutAtFirst? (h : cutAtFirst? mark cs = some (before, after)) :
    cs = before ++ mark :: after := by
  induction cs generalizing before with
  | nil => cases h
  | cons c rest ih =>
      unfold cutAtFirst? at h
      split at h
      next hc =>
        cases h
        rw [hc, List.nil_append]
      next =>
        obtain ⟨⟨start, ending⟩, hcut, heq⟩ := Option.map_eq_some_iff.mp h
        cases heq
        rw [ih hcut, List.cons_append]

theorem exists_cutAtFirst? (h : mark ∈ cs) :
    ∃ before after, cutAtFirst? mark cs = some (before, after) := by
  induction cs with
  | nil => cases h
  | cons c rest ih =>
      unfold cutAtFirst?
      by_cases hc : c = mark
      · exact ⟨[], rest, if_pos hc⟩
      · rw [if_neg hc]
        have hrest := (List.mem_cons.mp h).resolve_left (Ne.symm hc)
        obtain ⟨before, after, hcut⟩ := ih hrest
        exact ⟨c :: before, after, by rw [hcut, Option.map_some]⟩

/-- Where the character is missing, nothing is cut. -/
theorem cutAtFirst?_eq_none (h : mark ∉ cs) : cutAtFirst? mark cs = none := by
  rw [Option.eq_none_iff_forall_ne_some]
  rintro ⟨before, after⟩ hcut
  rw [eq_append_of_cutAtFirst? hcut] at h
  exact h (by simp)

theorem eq_append_of_cutAtLast? (h : cutAtLast? mark cs = some (before, after)) :
    cs = before ++ mark :: after := by
  obtain ⟨⟨start, ending⟩, hcut, heq⟩ := Option.map_eq_some_iff.mp h
  cases heq
  have hreversed := congrArg List.reverse (eq_append_of_cutAtFirst? hcut)
  simpa using hreversed

theorem exists_cutAtLast? (h : mark ∈ cs) :
    ∃ before after, cutAtLast? mark cs = some (before, after) := by
  obtain ⟨before, after, hcut⟩ := exists_cutAtFirst? (List.mem_reverse.mpr h)
  exact ⟨after.reverse, before.reverse, by rw [cutAtLast?, hcut, Option.map_some]⟩

theorem not_mem_of_cutAtFirst? (h : cutAtFirst? mark cs = some (before, after)) :
    mark ∉ before := by
  induction cs generalizing before with
  | nil => cases h
  | cons c rest ih =>
      unfold cutAtFirst? at h
      split at h
      next =>
        cases h
        exact List.not_mem_nil
      next hc =>
        obtain ⟨⟨start, ending⟩, hcut, heq⟩ := Option.map_eq_some_iff.mp h
        cases heq
        exact List.not_mem_cons_of_ne_of_not_mem (Ne.symm hc) (ih hcut)

theorem not_mem_of_cutAtLast? (h : cutAtLast? mark cs = some (before, after)) :
    mark ∉ after := by
  obtain ⟨⟨start, ending⟩, hcut, heq⟩ := Option.map_eq_some_iff.mp h
  cases heq
  simpa using not_mem_of_cutAtFirst? hcut

theorem cutAtFirst?_append (h : mark ∉ before) :
    cutAtFirst? mark (before ++ mark :: after) = some (before, after) := by
  induction before with
  | nil => exact if_pos rfl
  | cons c rest ih =>
      have hne : c ≠ mark := fun hc => h (hc ▸ List.mem_cons_self)
      have hrest : mark ∉ rest := fun hmem => h (List.mem_cons_of_mem c hmem)
      rw [List.cons_append, cutAtFirst?, if_neg hne, ih hrest, Option.map_some]

theorem cutAtLast?_append (h : mark ∉ after) :
    cutAtLast? mark (before ++ mark :: after) = some (before, after) := by
  have hreversed : (before ++ mark :: after).reverse =
      after.reverse ++ mark :: before.reverse := by
    simp
  have hnot : mark ∉ after.reverse := fun hmem => h (List.mem_reverse.mp hmem)
  rw [cutAtLast?, hreversed, cutAtFirst?_append hnot]
  simp

/-! ## Pieces -/

section Pieces

variable {p : Char → Bool} {piece rest : List Char}

theorem splitWhere_eq_singleton (h : ∀ c ∈ piece, p c = false) : splitWhere p piece = [piece] := by
  induction piece with
  | nil => rfl
  | cons c piece ih =>
      have ⟨hc, hpiece⟩ := List.forall_mem_cons.mp h
      simp [splitWhere, hc, ih hpiece]

theorem splitWhere_ne_nil (p : Char → Bool) (cs : List Char) : splitWhere p cs ≠ [] := by
  cases cs with
  | nil => simp [splitWhere]
  | cons c rest =>
      unfold splitWhere
      split
      next => simp
      next => split <;> simp

/-- A mark parts the pieces in front of it from those behind it. -/
theorem splitWhere_append_mark (hmark : p mark = true) (front rest : List Char) :
    splitWhere p (front ++ mark :: rest) = splitWhere p front ++ splitWhere p rest := by
  induction front with
  | nil => simp [splitWhere, hmark]
  | cons c front ih =>
      cases hc : p c with
      | true => simp [splitWhere, hc, ih]
      | false =>
          cases hpieces : splitWhere p front with
          | nil => exact absurd hpieces (splitWhere_ne_nil p front)
          | cons piece pieces => simp [splitWhere, hc, ih, hpieces]

theorem splitWhere_append (h : ∀ c ∈ piece, p c = false) (hmark : p mark = true) :
    splitWhere p (piece ++ mark :: rest) = piece :: splitWhere p rest := by
  rw [splitWhere_append_mark hmark, splitWhere_eq_singleton h, List.singleton_append]

/-- Marks written as others are cut at the same places. -/
theorem splitWhere_map {q : Char → Bool} {f : Char → Char} (hmarks : ∀ c, p (f c) = q c)
    (hothers : ∀ c, q c = false → f c = c) (cs : List Char) :
    splitWhere p (cs.map f) = splitWhere q cs := by
  induction cs with
  | nil => rfl
  | cons c rest ih =>
      cases hc : q c with
      | true => simp [splitWhere, hmarks, hc, ih]
      | false =>
          have hkept : p c = false := by rw [← hothers c hc, hmarks, hc]
          simp [splitWhere, hkept, hc, ih, hothers c hc]

/-- The pieces of a text put together at the character are what it was put together from. -/
theorem splitWhere_intercalate (hmark : p mark = true) {first : List Char}
    {others : List (List Char)} (h : ∀ piece ∈ first :: others, ∀ c ∈ piece, p c = false) :
    splitWhere p ([mark].intercalate (first :: others)) = first :: others := by
  induction others generalizing first with
  | nil =>
      rw [List.intercalate_singleton]
      exact splitWhere_eq_singleton (h first List.mem_cons_self)
  | cons second others ih =>
      obtain ⟨hfirst, hothers⟩ := List.forall_mem_cons.mp h
      rw [List.intercalate_cons_cons, List.append_assoc, List.singleton_append,
        splitWhere_append hfirst hmark, ih hothers]

theorem of_mem_splitWhere (h : piece ∈ splitWhere p cs) : ∀ c ∈ piece, p c = false := by
  induction cs generalizing piece with
  | nil =>
      rw [List.mem_singleton.mp h]
      simp
  | cons c rest ih =>
      unfold splitWhere at h
      split at h
      next =>
        rcases List.mem_cons.mp h with rfl | hrest
        · simp
        · exact ih hrest
      next hc =>
        have hc : p c = false := by simpa using hc
        split at h
        next =>
          rw [List.mem_singleton.mp h]
          simpa using hc
        next first pieces hpieces =>
          rw [hpieces] at ih
          rcases List.mem_cons.mp h with rfl | hrest
          · exact List.forall_mem_cons.mpr ⟨hc, ih List.mem_cons_self⟩
          · exact ih (List.mem_cons_of_mem first hrest)

/-- A character that is no mark goes with the piece behind it. -/
theorem exists_splitWhere_cons {c : Char} (hc : p c = false) (rest : List Char) :
    ∃ piece pieces, splitWhere p rest = piece :: pieces ∧
      splitWhere p (c :: rest) = (c :: piece) :: pieces := by
  obtain ⟨piece, pieces, hpieces⟩ := List.exists_cons_of_ne_nil (splitWhere_ne_nil p rest)
  exact ⟨piece, pieces, hpieces, by simp [splitWhere, hc, hpieces]⟩

/-- Pieces joined by the only mark that occurs give the text back. -/
theorem intercalate_splitWhere (hmark : ∀ c ∈ cs, p c = true → c = mark) :
    [mark].intercalate (splitWhere p cs) = cs := by
  induction cs with
  | nil => rfl
  | cons c rest ih =>
      obtain ⟨hc, hrest⟩ := List.forall_mem_cons.mp hmark
      have ih := ih hrest
      cases hp : p c with
      | true =>
          obtain ⟨piece, pieces, hpieces⟩ := List.exists_cons_of_ne_nil (splitWhere_ne_nil p rest)
          rw [hpieces] at ih
          rw [splitWhere, if_pos hp, hpieces, List.intercalate_cons_cons, ih, hc hp]
          rfl
      | false =>
          obtain ⟨piece, pieces, hpieces, hcons⟩ := exists_splitWhere_cons hp rest
          rw [hpieces] at ih
          rw [hcons, ← ih]
          cases pieces <;> simp [List.intercalate_cons_cons]

/-- Where something other than a mark follows on every mark, only the first piece may be empty. -/
theorem nil_not_mem_tail (hmarks : ∀ before m after, cs = before ++ m :: after → p m = true →
    ∃ c ∈ after.head?, p c = false) : [] ∉ (splitWhere p cs).tail := by
  induction cs with
  | nil => simp [splitWhere]
  | cons c rest ih =>
      have ih := ih fun before m after hrest => hmarks (c :: before) m after (by simp [hrest])
      cases hp : p c with
      | true =>
          obtain ⟨d, hd, hother⟩ := hmarks [] c rest rfl hp
          obtain ⟨others, rfl⟩ := List.head?_eq_some_iff.mp hd
          obtain ⟨piece, pieces, -, hcons⟩ := exists_splitWhere_cons hother others
          rw [splitWhere, if_pos hp, List.tail_cons]
          rw [hcons] at ih ⊢
          simpa using ih
      | false =>
          obtain ⟨piece, pieces, hpieces, hcons⟩ := exists_splitWhere_cons hp rest
          rw [hpieces] at ih
          rwa [hcons]

/-- If it does not begin with a mark either, no piece is empty. -/
theorem nil_not_mem_splitWhere (hfirst : ∃ c ∈ cs.head?, p c = false)
    (hmarks : ∀ before m after, cs = before ++ m :: after → p m = true →
      ∃ c ∈ after.head?, p c = false) : [] ∉ splitWhere p cs := by
  have htail := nil_not_mem_tail hmarks
  obtain ⟨c, hc, hother⟩ := hfirst
  obtain ⟨rest, rfl⟩ := List.head?_eq_some_iff.mp hc
  obtain ⟨piece, pieces, -, hcons⟩ := exists_splitWhere_cons hother rest
  rw [hcons] at htail ⊢
  simpa using htail

end Pieces

/-! ## Words -/

section Words

variable {s : String}

/-- A blank parts the words in front of it from those behind it. -/
theorem words_append_blank (front rest : String) :
    words (front ++ " " ++ rest) = words front ++ words rest := by
  have hchars : (front ++ " " ++ rest).toList = front.toList ++ ' ' :: rest.toList := by simp
  unfold words
  rw [hchars, splitWhere_append_mark (by decide), List.filter_append, List.map_append]

theorem words_intercalate (texts : List String) :
    words (" ".intercalate texts) = texts.flatMap words := by
  induction texts with
  | nil => rfl
  | cons first others ih =>
      cases others with
      | nil => simp
      | cons second rest =>
          rw [String.intercalate_cons_cons, words_append_blank, ih]
          exact List.flatMap_cons.symm

theorem isBlank_of_mem_words {word : String} (h : word ∈ words s) :
    ∀ c ∈ word.toList, isBlank c = false := by
  obtain ⟨piece, hpiece, rfl⟩ := List.mem_map.mp h
  rw [String.toList_ofList]
  exact of_mem_splitWhere (List.mem_filter.mp hpiece).1

theorem words_eq_singleton (hne : s ≠ "") (h : ∀ c ∈ s.toList, isBlank c = false) :
    words s = [s] := by
  have hchars : s.toList ≠ [] := by simpa using hne
  unfold words
  rw [splitWhere_eq_singleton h]
  simp [hchars]

/-- A text whose blanks are single spaces inside of it is its words with spaces between them. -/
theorem intercalate_words (hspaces : ∀ c ∈ s.toList, isBlank c = true → c = ' ')
    (hpieces : [] ∉ splitWhere isBlank s.toList) : " ".intercalate (words s) = s := by
  have hall : (splitWhere isBlank s.toList).filter (!·.isEmpty) = splitWhere isBlank s.toList := by
    refine List.filter_eq_self.mpr fun piece hpiece => ?_
    have hne : piece ≠ [] := fun hempty => hpieces (hempty ▸ hpiece)
    simpa using hne
  unfold words
  rw [hall, ← String.toList_inj, String.toList_intercalate, List.map_map]
  simpa [Function.comp_def] using intercalate_splitWhere hspaces

end Words

/-! ## Starts and endings -/

variable {start rest ending : List Char}

theorem afterStart?_eq_some_iff : afterStart? start cs = some rest ↔ cs = start ++ rest := by
  induction start generalizing cs with
  | nil => simp [afterStart?]
  | cons s start ih =>
      cases cs with
      | nil => simp [afterStart?]
      | cons c cs =>
          by_cases hc : s = c
          · simp [afterStart?, hc, ih]
          · simp [afterStart?, hc, Ne.symm hc]

theorem beforeEnding?_eq_some_iff :
    beforeEnding? ending cs = some before ↔ cs = before ++ ending := by
  unfold beforeEnding?
  constructor
  · intro h
    obtain ⟨start, hstart, hbefore⟩ := Option.map_eq_some_iff.mp h
    have hreversed := congrArg List.reverse (afterStart?_eq_some_iff.mp hstart)
    rw [← hbefore]
    simpa using hreversed
  · intro h
    have hstart : afterStart? ending.reverse cs.reverse = some before.reverse :=
      afterStart?_eq_some_iff.mpr (by rw [h, List.reverse_append])
    rw [hstart, Option.map_some, List.reverse_reverse]

/-! ## Words erased -/

theorem eraseWordFrom_length (word skipped rest : List Char) :
    eraseWordFrom word skipped.length (skipped ++ rest) = eraseWordFrom word 0 rest := by
  induction skipped with
  | nil => rfl
  | cons c skipped ih => exact ih

theorem eraseWord_append {word : List Char} (h : word ≠ []) (rest : List Char) :
    eraseWord word (word ++ rest) = eraseWord word rest := by
  obtain ⟨c, behind, rfl⟩ := List.exists_cons_of_ne_nil h
  have hfound : afterStart? (c :: behind) (c :: (behind ++ rest)) = some rest :=
    afterStart?_eq_some_iff.mpr rfl
  unfold eraseWord
  rw [List.cons_append, eraseWordFrom, hfound, Option.isSome_some, if_pos rfl]
  exact eraseWordFrom_length (c :: behind) behind rest

theorem eraseWord_cons {word : List Char} {c : Char} (h : afterStart? word (c :: cs) = none) :
    eraseWord word (c :: cs) = c :: eraseWord word cs := by
  unfold eraseWord
  rw [eraseWordFrom, h]
  rfl

theorem eraseWord_of_not_isInfix {word : List Char} (h : ¬ word <:+: cs) :
    eraseWord word cs = cs := by
  induction cs with
  | nil => rfl
  | cons c rest ih =>
      have hnone : afterStart? word (c :: rest) = none := by
        rw [Option.eq_none_iff_forall_ne_some]
        intro after hafter
        exact h ⟨[], after, (afterStart?_eq_some_iff.mp hafter).symm⟩
      rw [eraseWord_cons hnone, ih fun hheld => h (hheld.trans (List.suffix_cons c rest).isInfix)]

/-- Of a word that occurs, the first occurrence is erased, and all further ones behind it. -/
theorem exists_eraseWord {word : List Char} (hne : word ≠ []) (h : word <:+: cs) :
    ∃ before after, cs = before ++ (word ++ after) ∧
      eraseWord word cs = before ++ eraseWord word after := by
  induction cs with
  | nil => exact absurd (List.infix_nil.mp h) hne
  | cons c rest ih =>
      cases hstart : afterStart? word (c :: rest) with
      | some after =>
          have hcut := afterStart?_eq_some_iff.mp hstart
          refine ⟨[], after, hcut, ?_⟩
          rw [hcut, eraseWord_append hne]
          rfl
      | none =>
          have hbehind : word <:+: rest := by
            refine (List.infix_cons_iff.mp h).resolve_left ?_
            rintro ⟨after, hafter⟩
            rw [afterStart?_eq_some_iff.mpr hafter.symm] at hstart
            cases hstart
          obtain ⟨before, after, hcut, herased⟩ := ih hbehind
          refine ⟨c :: before, after, by rw [hcut, List.cons_append], ?_⟩
          rw [eraseWord_cons hstart, herased, List.cons_append]

theorem eraseWordFrom_sublist (word : List Char) (skipped : Nat) (cs : List Char) :
    (eraseWordFrom word skipped cs).Sublist cs := by
  induction cs generalizing skipped with
  | nil => cases skipped <;> exact List.Sublist.refl _
  | cons c rest ih =>
      cases skipped with
      | succ skipped => exact (ih skipped).cons c
      | zero =>
          unfold eraseWordFrom
          split
          next => exact (ih _).cons c
          next => exact (ih 0).cons_cons c

theorem eraseWord_sublist (word cs : List Char) : (eraseWord word cs).Sublist cs :=
  eraseWordFrom_sublist word 0 cs

/-! ## Characters exchanged -/

theorem exchange_of_not_mem {old : Char} {s : String} (new : Char) (h : old ∉ s.toList) :
    exchange old new s = s := by
  have hmap : s.toList.map (fun c => if c = old then new else c) = s.toList.map id := by
    refine List.map_congr_left ?_
    rintro c hc
    refine if_neg ?_
    rintro rfl
    exact h hc
  unfold exchange
  rw [hmap, List.map_id, String.ofList_toList]

theorem exchange_exchange {old new : Char} (hne : new ≠ old) (s : String) :
    exchange old new (exchange old new s) = exchange old new s := by
  refine exchange_of_not_mem new ?_
  unfold exchange
  rw [String.toList_ofList, List.mem_map]
  rintro ⟨c, -, hc⟩
  split at hc
  next => exact hne hc
  next hother => exact hother hc

end Text
end SymbolAtlas
