import SymbolAtlas.Proofs.Json.Reader
import Mathlib.Tactic

/-!
# What reading consumes

Every reader takes what it reads from the front of a text and leaves the end.  A mapping that was
read therefore has its closing brace in the text, and a text that was cut off before any closing
brace is no mapping.
-/

namespace SymbolAtlas
namespace Json

/-- The reader leaves an end of every text from which it reads anything. -/
def Consumes {α : Type} (read : List Char → Option (α × List Char)) : Prop :=
  ∀ cs value rest, read cs = some (value, rest) → rest <:+ cs

/-- A part that may be missing is read from the text, or leaves the text as it is. -/
theorem Consumes.suffix_getD {α : Type} {read : List Char → Option (α × List Char)}
    (hread : Consumes read) (default : α) (cs : List Char) :
    ((read cs).getD (default, cs)).2 <:+ cs := by
  cases hfound : read cs with
  | none => exact List.suffix_refl cs
  | some found => exact hread cs found.1 found.2 hfound

theorem suffix_skipSpace (cs : List Char) : skipSpace cs <:+ cs :=
  List.dropWhile_suffix isSpace

/-! ## Strings -/

theorem consumes_readUnit? : Consumes readUnit? := by
  intro cs unit rest hread
  unfold readUnit? at hread
  split at hread
  next a b c d more =>
    simp only [Option.bind_eq_bind, Option.bind_eq_some_iff, Option.pure_def, Option.some.injEq,
      Prod.mk.injEq] at hread
    obtain ⟨-, -, -, -, -, -, -, -, -, rfl⟩ := hread
    exact List.suffix_append [a, b, c, d] more
  next => simp at hread

theorem consumes_readCodePoint? : Consumes readCodePoint? := by
  intro cs c rest hread
  unfold readCodePoint? at hread
  simp only [Option.bind_eq_bind, Option.bind_eq_some_iff, Prod.exists] at hread
  obtain ⟨unit, more, hunit, hread⟩ := hread
  have hmore : more <:+ cs := consumes_readUnit? cs unit more hunit
  have hpoint : ∀ point after, after <:+ more →
      (Text.ofCodePoint? point).map (fun c => (c, after)) = some (c, rest) → rest <:+ cs := by
    intro point after hafter hfound
    simp only [Option.map_eq_some_iff, Prod.mk.injEq] at hfound
    obtain ⟨-, -, -, rfl⟩ := hfound
    exact hafter.trans hmore
  have hsingle := hpoint unit more (List.suffix_refl more)
  split at hread
  next =>
    split at hread
    next text =>
      split at hread
      next low after hlow =>
        split at hread
        next =>
          have hafter : after <:+ text := consumes_readUnit? text low after hlow
          exact hpoint _ after (hafter.trans (List.suffix_append ['\\', 'u'] text)) hread
        next => exact hsingle hread
      next => exact hsingle hread
    next => exact hsingle hread
  next => exact hsingle hread

theorem consumes_readStringFrom? (done : List Char) (fuel : Nat) :
    Consumes (readStringFrom? done fuel) := by
  intro cs s rest hread
  fun_induction readStringFrom? done fuel cs with
  | case1 => simp at hread
  | case2 => simp at hread
  | case3 done fuel text =>
      simp only [Option.some.injEq, Prod.mk.injEq] at hread
      rw [← hread.2]
      exact List.suffix_cons '"' text
  | case4 done fuel text c after hchar ih =>
      have hafter : after <:+ text := consumes_readCodePoint? text c after hchar
      exact (ih hread).trans (hafter.trans (List.suffix_append ['\\', 'u'] text))
  | case5 => simp at hread
  | case6 done fuel e text hother c hchar ih =>
      exact (ih hread).trans (List.suffix_append ['\\', e] text)
  | case7 => simp at hread
  | case8 => simp at hread
  | case9 done fuel c text hquote hcode hescape hplain ih =>
      exact (ih hread).trans (List.suffix_cons c text)

/-! ## Numbers and names -/

theorem suffix_spanDigits (cs : List Char) : (spanDigits cs).2 <:+ cs := by
  unfold spanDigits
  rw [List.span_eq_takeWhile_dropWhile]
  exact List.dropWhile_suffix Char.isDigit

theorem suffix_spanWhole (cs : List Char) : (spanWhole cs).2 <:+ cs := by
  unfold spanWhole
  split
  next more => exact List.suffix_cons '0' more
  next => exact suffix_spanDigits cs

theorem consumes_readFraction : Consumes readFraction := by
  intro cs digits rest hread
  unfold readFraction at hread
  split at hread
  next more =>
    have hmore := suffix_spanDigits more
    split at hread
    next => simp at hread
    next =>
      rw [Option.some.injEq] at hread
      rw [hread] at hmore
      exact hmore.trans (List.suffix_cons '.' more)
  next => simp at hread

theorem consumes_readExponent : Consumes readExponent := by
  intro cs power rest hread
  unfold readExponent at hread
  cases cs with
  | nil => simp at hread
  | cons e more =>
      dsimp only at hread
      split at hread
      next =>
        split at hread
        next => simp at hread
        next digits after hdigits hspan =>
          have hafter : after <:+ more := by
            have hspanned : (digits, after).2 <:+ _ := hspan ▸ suffix_spanDigits _
            apply hspanned.trans
            split
            · exact List.suffix_cons _ _
            · exact List.suffix_cons _ _
            · exact List.suffix_refl _
          simp only [Option.map_eq_some_iff, Prod.mk.injEq] at hread
          obtain ⟨-, -, -, rfl⟩ := hread
          exact hafter.trans (List.suffix_cons e more)
      next => simp at hread

theorem consumes_readUnsigned? (negative : Bool) : Consumes (readUnsigned? negative) := by
  intro cs value rest hread
  unfold readUnsigned? at hread
  simp only [Option.pure_def, Option.bind_eq_bind, Option.bind_none] at hread
  have hwhole := suffix_spanWhole cs
  generalize spanWhole cs = whole at hread hwhole
  have hfraction := (consumes_readFraction.suffix_getD [] whole.2).trans hwhole
  generalize (readFraction whole.2).getD ([], whole.2) = fraction at hread hfraction
  have hexponent := (consumes_readExponent.suffix_getD 0 fraction.2).trans hfraction
  generalize (readExponent fraction.2).getD (0, fraction.2) = exponent at hread hexponent
  split at hread
  next => simp at hread
  next =>
    split at hread
    next =>
      split at hread
      next => simp at hread
      next =>
        simp only [Option.bind_eq_some_iff, Option.some.injEq, Prod.mk.injEq] at hread
        obtain ⟨-, -, -, rfl⟩ := hread
        exact hexponent
    next =>
      simp only [Option.bind_eq_some_iff, Option.some.injEq, Prod.mk.injEq] at hread
      obtain ⟨-, -, -, rfl⟩ := hread
      exact hexponent

theorem consumes_readName? : Consumes readName? := by
  intro cs value rest hread
  unfold readName? at hread
  obtain ⟨⟨name, named⟩, -, hname⟩ := List.exists_of_findSome?_eq_some hread
  unfold afterName? at hname
  dsimp only at hname
  split at hname
  next =>
    simp only [Option.map_some, Option.some.injEq, Prod.mk.injEq] at hname
    rw [← hname.2]
    exact List.drop_suffix name.toList.length cs
  next => simp at hname

/-! ## Values -/

variable {fuel : Nat}

theorem consumes_readValue?_succ (hitems : ∀ done, Consumes (readItems? fuel done))
    (hentries : ∀ done, Consumes (readEntries? fuel done)) : Consumes (readValue? (fuel + 1)) := by
  intro cs value rest hread
  unfold readValue? at hread
  split at hread
  next text =>
    simp only [Option.map_eq_some_iff, Prod.mk.injEq, Prod.exists] at hread
    obtain ⟨s, after, hstring, -, rfl⟩ := hread
    have hafter : after <:+ text := consumes_readStringFrom? _ _ _ _ _ hstring
    exact hafter.trans (List.suffix_cons '"' text)
  next text =>
    apply List.IsSuffix.trans _ (List.suffix_cons '[' text)
    apply List.IsSuffix.trans _ (suffix_skipSpace text)
    split at hread
    next after hafter =>
      rw [Option.some.injEq, Prod.mk.injEq] at hread
      rw [hafter, ← hread.2]
      exact List.suffix_cons ']' after
    next => exact hitems _ _ _ _ hread
  next text =>
    apply List.IsSuffix.trans _ (List.suffix_cons '\x7b' text)
    apply List.IsSuffix.trans _ (suffix_skipSpace text)
    split at hread
    next after hafter =>
      rw [Option.some.injEq, Prod.mk.injEq] at hread
      rw [hafter, ← hread.2]
      exact List.suffix_cons '\x7d' after
    next => exact hentries _ _ _ _ hread
  next =>
    split at hread
    next found hfound =>
      rw [Option.some.injEq] at hread
      rw [hread] at hfound
      exact consumes_readName? _ _ _ hfound
    next =>
      split at hread
      next text _ _ _ _ =>
        exact (consumes_readUnsigned? true _ _ _ hread).trans (List.suffix_cons '-' _)
      next => exact consumes_readUnsigned? false _ _ _ hread

theorem consumes_readItems?_succ (hvalue : Consumes (readValue? fuel))
    (hitems : ∀ done, Consumes (readItems? fuel done)) (done : List Value) :
    Consumes (readItems? (fuel + 1) done) := by
  intro cs value rest hread
  unfold readItems? at hread
  split at hread
  next => simp at hread
  next item more hitem =>
    have hmore : more <:+ cs := (hvalue _ _ _ hitem).trans (suffix_skipSpace cs)
    apply List.IsSuffix.trans _ ((suffix_skipSpace more).trans hmore)
    split at hread
    next after hafter =>
      rw [Option.some.injEq, Prod.mk.injEq] at hread
      rw [hafter, ← hread.2]
      exact List.suffix_cons ']' after
    next after hafter =>
      rw [hafter]
      exact (hitems _ _ _ _ hread).trans (List.suffix_cons ',' after)
    next => simp at hread

/-- Behind an entry stands the brace that closes the mapping, or a comma and the other entries. -/
theorem readEntries?_cases (hvalue : Consumes (readValue? fuel)) {done : List (Value × Value)}
    {cs : List Char} {value : Value} {rest : List Char}
    (hread : readEntries? (fuel + 1) done cs = some (value, rest)) :
    '\x7d' :: rest <:+ cs ∨
      ∃ entries after, ',' :: after <:+ cs ∧
        readEntries? fuel entries after = some (value, rest) := by
  unfold readEntries? at hread
  split at hread
  next text htext =>
    have hfront : text <:+ cs :=
      (List.suffix_cons '"' text).trans (htext ▸ suffix_skipSpace cs)
    split at hread
    next => simp at hread
    next key behind hkey =>
      have hbehind : behind <:+ cs := (consumes_readStringFrom? _ _ _ _ _ hkey).trans hfront
      split at hread
      next named hnamed =>
        have hcolon : named <:+ cs := by
          apply (List.suffix_cons ':' named).trans
          rw [← hnamed]
          exact (suffix_skipSpace behind).trans hbehind
        split at hread
        next => simp at hread
        next found more hfound =>
          have hmore : skipSpace more <:+ cs := by
            apply (suffix_skipSpace more).trans
            apply (hvalue _ _ _ hfound).trans
            exact (suffix_skipSpace named).trans hcolon
          split at hread
          next after hafter =>
            rw [Option.some.injEq, Prod.mk.injEq] at hread
            rw [hafter, hread.2] at hmore
            exact .inl hmore
          next after hafter =>
            rw [hafter] at hmore
            exact .inr ⟨_, after, hmore, hread⟩
          next => simp at hread
      next => simp at hread
  next => simp at hread

theorem consumes_readEntries?_succ (hvalue : Consumes (readValue? fuel))
    (hentries : ∀ done, Consumes (readEntries? fuel done)) (done : List (Value × Value)) :
    Consumes (readEntries? (fuel + 1) done) := by
  intro cs value rest hread
  rcases readEntries?_cases hvalue hread with hclosed | ⟨entries, after, hafter, hmore⟩
  · exact (List.suffix_cons '\x7d' rest).trans hclosed
  · exact (hentries _ _ _ _ hmore).trans ((List.suffix_cons ',' after).trans hafter)

/-- The readers of values, items and entries consume, which one amount of fuel passes on to the
next for all three at once. -/
theorem consumes_read (fuel : Nat) :
    Consumes (readValue? fuel) ∧ (∀ done, Consumes (readItems? fuel done)) ∧
      ∀ done, Consumes (readEntries? fuel done) := by
  induction fuel with
  | zero => simp [Consumes, readValue?, readItems?, readEntries?]
  | succ fuel ih =>
      obtain ⟨hvalue, hitems, hentries⟩ := ih
      exact ⟨consumes_readValue?_succ hitems hentries, consumes_readItems?_succ hvalue hitems,
        consumes_readEntries?_succ hvalue hentries⟩

/-! ## Mappings are closed -/

theorem brace_mem_of_readEntries? {done : List (Value × Value)} {cs : List Char} {value : Value}
    {rest : List Char} (hread : readEntries? fuel done cs = some (value, rest)) : '\x7d' ∈ cs := by
  induction fuel generalizing done cs with
  | zero => simp [readEntries?] at hread
  | succ fuel ih =>
      obtain hclosed | ⟨_, after, hafter, hmore⟩ :=
        readEntries?_cases (consumes_read fuel).1 hread
      · exact hclosed.subset List.mem_cons_self
      · exact hafter.subset (List.mem_cons_of_mem ',' (ih hmore))

/-- What begins with an opening brace and is read has a closing one. -/
theorem brace_mem_of_readValue? {text : List Char} {value : Value} {rest : List Char}
    (hread : readValue? fuel ('\x7b' :: text) = some (value, rest)) : '\x7d' ∈ text := by
  cases fuel with
  | zero => simp [readValue?] at hread
  | succ fuel =>
      apply (suffix_skipSpace text).subset
      rw [readValue?] at hread
      split at hread
      next after hafter => simp [hafter]
      next => exact brace_mem_of_readEntries? hread

end Json
end SymbolAtlas
