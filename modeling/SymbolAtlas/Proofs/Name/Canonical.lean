import SymbolAtlas.Proofs.Name.Rendering
import SymbolAtlas.Proofs.Text.Cut
import Mathlib.Tactic

/-!
# Canonical names made canonical again

Qualifiers are dropped first, then passing words, blanks and aliases.  None of the last three is
left in a canonical name, so that making it canonical once more can drop nothing but a qualifier:
one that came together only when something inside it had been dropped.  The canonical name is its
own canonical name exactly if there is no such qualifier in it.
-/

namespace SymbolAtlas
namespace TypeName

variable {cs path rest : List Char} {c : Char}

/-! ## Paths -/

/-- What reads as one dotted path: a character that starts an identifier, and others behind it. -/
structure IsPath (path : List Char) : Prop where
  starts : ∃ c ∈ path.head?, startsIdentifier c = true
  continues : ∀ c ∈ path, continuesPath c = true

theorem isPath_iff : IsPath path ↔
    path.head?.any startsIdentifier = true ∧ path.all continuesPath = true := by
  rw [Option.any_eq_true, List.all_eq_true]
  exact ⟨fun h => ⟨h.starts, h.continues⟩, fun h => ⟨h.1, h.2⟩⟩

instance : DecidablePred IsPath :=
  fun _ => decidable_of_iff _ isPath_iff.symm

theorem continuesPath_of_starts (h : startsIdentifier c = true) : continuesPath c = true :=
  continuesPath_of_isIdentifierChar (isIdentifierChar_of_starts h)

theorem isPath_singleton (h : startsIdentifier c = true) : IsPath [c] :=
  ⟨⟨c, rfl, h⟩, List.forall_mem_singleton.mpr (continuesPath_of_starts h)⟩

theorem IsPath.concat (h : IsPath path) (hc : continuesPath c = true) : IsPath (path ++ [c]) := by
  obtain ⟨first, hfirst, hstarts⟩ := h.starts
  refine ⟨⟨first, ?_, hstarts⟩, ?_⟩
  · rw [List.head?_append_of_ne_nil path (by rintro rfl; cases hfirst)]
    exact hfirst
  · exact List.forall_mem_append.mpr ⟨h.continues, List.forall_mem_singleton.mpr hc⟩

theorem canonicalPath_cases (path : List Char) :
    canonicalPath path = path ∨ ∃ entry ∈ aliases, canonicalPath path = entry.2.toList := by
  unfold canonicalPath
  cases hname : aliases.lookup (String.ofList path) with
  | none => exact Or.inl rfl
  | some name =>
      obtain ⟨before, behind, haliases, -⟩ := List.lookup_eq_some_iff.mp hname
      exact Or.inr ⟨(String.ofList path, name), by simp [haliases], rfl⟩

theorem IsPath.canonical (h : IsPath path) : IsPath (canonicalPath path) := by
  have htable : ∀ entry ∈ aliases, IsPath entry.2.toList := by decide +kernel
  obtain hsame | ⟨entry, hentry, hname⟩ := canonicalPath_cases path
  · rwa [hsame]
  · rw [hname]
    exact htable entry hentry

/-- No runtime name is an alias again. -/
theorem canonicalPath_canonicalPath (path : List Char) :
    canonicalPath (canonicalPath path) = canonicalPath path := by
  have htable : ∀ entry ∈ aliases, canonicalPath entry.2.toList = entry.2.toList := by
    decide +kernel
  obtain hsame | ⟨entry, hentry, hname⟩ := canonicalPath_cases path
  · rw [hsame, hsame]
  · rw [hname, htable entry hentry]

/-! ## Aliases -/

theorem replaceAliases_isPath (h : IsPath path) (hrest : EndsRun continuesPath rest) :
    replaceAliases none (path ++ rest) = canonicalPath path ++ replaceAliases none rest := by
  obtain ⟨first, hfirst, hstarts⟩ := h.starts
  obtain ⟨others, rfl⟩ := List.head?_eq_some_iff.mp hfirst
  rw [List.cons_append, replaceAliases, if_pos hstarts,
    replaceAliases_open hrest others [first] fun c hc => h.continues c (List.mem_cons_of_mem _ hc)]
  rfl

/-- What is made of a text, read from its front with a path open or none. -/
inductive Replaced : List Char → List Char → Prop where
  | nil : Replaced [] []
  | char {cs ds : List Char} (c : Char) : startsIdentifier c = false → Replaced cs ds →
      Replaced (c :: cs) (c :: ds)
  | path {cs ds path : List Char} : IsPath path → EndsRun continuesPath cs → Replaced cs ds →
      Replaced (path ++ cs) (canonicalPath path ++ ds)

theorem replaced_replaceAliases (cs : List Char) :
    Replaced cs (replaceAliases none cs) ∧ ∀ read, IsPath read.reverse →
      Replaced (read.reverse ++ cs) (replaceAliases (some read) cs) := by
  induction cs with
  | nil =>
      refine ⟨.nil, fun read hread => ?_⟩
      simpa [replaceAliases] using Replaced.path hread endsRun_nil .nil
  | cons c rest ih =>
      obtain ⟨hnone, hopen⟩ := ih
      constructor
      · unfold replaceAliases
        split
        next hstarts => simpa using hopen [c] (by simpa using isPath_singleton hstarts)
        next hother => exact .char c (by simpa using hother) hnone
      · intro read hread
        unfold replaceAliases
        split
        next hc =>
          have hlonger : IsPath (c :: read).reverse := by
            rw [List.reverse_cons]
            exact hread.concat hc
          simpa using hopen (c :: read) hlonger
        next hc =>
          have hends : continuesPath c = false := by simpa using hc
          have hother := startsIdentifier_eq_false hends
          exact .path hread (by simpa [EndsRun] using hends) (.char c hother hnone)

namespace Replaced

variable {ds : List Char}

theorem endsRun (h : Replaced cs ds) (hcs : EndsRun continuesPath cs) :
    EndsRun continuesPath ds := by
  cases h with
  | nil => exact hcs
  | char c _ _ => exact hcs
  | path hpath _ _ =>
      -- a path goes on with itself, so that it cannot stand where a run has ended
      obtain ⟨first, hfirst, hstarts⟩ := hpath.starts
      obtain ⟨others, rfl⟩ := List.head?_eq_some_iff.mp hfirst
      have hends := hcs first rfl
      rw [continuesPath_of_starts hstarts] at hends
      cases hends

theorem again (h : Replaced cs ds) : replaceAliases none ds = ds := by
  induction h with
  | nil => rfl
  | char c hc _ ih => simp [replaceAliases, hc, ih]
  | path hpath hends hrest ih =>
      rw [replaceAliases_isPath hpath.canonical (hrest.endsRun hends), canonicalPath_canonicalPath,
        ih]

theorem forall_mem {p : Char → Prop} (h : Replaced cs ds) (hcs : ∀ c ∈ cs, p c)
    (hpaths : ∀ c, continuesPath c = true → p c) : ∀ c ∈ ds, p c := by
  induction h with
  | nil => exact hcs
  | char c _ _ ih =>
      obtain ⟨hc, hrest⟩ := List.forall_mem_cons.mp hcs
      exact List.forall_mem_cons.mpr ⟨hc, ih hrest⟩
  | path hpath _ _ ih =>
      obtain ⟨-, hrest⟩ := List.forall_mem_append.mp hcs
      refine List.forall_mem_append.mpr ⟨fun c hc => ?_, ih hrest⟩
      exact hpaths c (hpath.canonical.continues c hc)

/-- What belongs to no path is kept. -/
theorem count_eq (h : Replaced cs ds) (hc : continuesPath c = false) :
    ds.count c = cs.count c := by
  have hpaths : ∀ {path}, IsPath path → path.count c = 0 := by
    intro path hpath
    refine List.count_eq_zero.mpr fun hmem => ?_
    rw [hpath.continues c hmem] at hc
    cases hc
  induction h with
  | nil => rfl
  | char d _ _ ih => rw [List.count_cons, List.count_cons, ih]
  | path hpath _ _ ih =>
      rw [List.count_append, List.count_append, hpaths hpath, hpaths hpath.canonical, ih]

end Replaced

theorem replaceAliases_replaceAliases (cs : List Char) :
    replaceAliases none (replaceAliases none cs) = replaceAliases none cs :=
  (replaced_replaceAliases cs).1.again

/-! ## Canonical names -/

/-- A text without blanks. -/
def Unbroken (cs : List Char) : Prop :=
  ∀ c ∈ cs, Text.isBlank c = false

theorem continuesPath_of_isBlank (h : Text.isBlank c = true) : continuesPath c = false := by
  by_cases hascii : c.toNat < 128
  · by_contra hcontinues
    rw [Bool.not_eq_false, continuesPath, Text.isWordChar, if_pos hascii] at hcontinues
    obtain hletter | hdot := Bool.or_eq_true_iff.mp hcontinues
    · rw [isBlank_of_isIdentifierChar hletter] at h
      cases h
    · obtain rfl := beq_iff_eq.mp hdot
      cases h
  · have hnumber : c.toNat ∈ [0x85, 0xA0, 0x1680] ++ List.range' 0x2000 11 ++
        [0x2028, 0x2029, 0x202F, 0x205F, 0x3000] := by
      simp [Text.isBlank] at h
      simp
      omega
    have htable : ∀ n ∈ [0x85, 0xA0, 0x1680] ++ List.range' 0x2000 11 ++
        [0x2028, 0x2029, 0x202F, 0x205F, 0x3000], Text.inRanges Text.wordRanges n = false := by
      decide +kernel
    have hdot : c ≠ '.' := by
      rintro rfl
      cases h
    simp [continuesPath, Text.isWordChar, hascii, htable c.toNat hnumber, hdot]

theorem unbroken_canonicalChars (cs : List Char) : Unbroken (canonicalChars cs) := by
  unfold canonicalChars
  refine (replaced_replaceAliases _).1.forall_mem ?_ ?_
  · intro c hc
    simpa using (List.mem_filter.mp hc).2
  · intro c hc
    by_contra hblank
    rw [continuesPath_of_isBlank (Bool.eq_true_of_not_eq_false hblank)] at hc
    cases hc

theorem afterPassingWord?_eq_none (h : Unbroken cs) : afterPassingWord? cs = none := by
  have hspace : ∀ word ∈ passingWords, ' ' ∈ word := by decide
  refine List.findSome?_eq_none_iff.mpr fun word hword => ?_
  rw [Option.eq_none_iff_forall_ne_some]
  intro rest hrest
  have hblank : ' ' ∈ cs := by
    rw [Text.afterStart?_eq_some_iff.mp hrest]
    exact List.mem_append_left rest (hspace word hword)
  exact absurd (h ' ' hblank) (by decide)

theorem dropPassingWords_unbroken (h : Unbroken cs) (steps : Nat) :
    dropPassingWords steps cs = cs := by
  cases steps with
  | zero => rfl
  | succ steps => rw [dropPassingWords, afterPassingWord?_eq_none h]

/-- Of a text without blanks, the qualifiers are dropped and the aliases replaced. -/
theorem canonicalChars_unbroken (h : Unbroken cs) :
    canonicalChars cs = replaceAliases none (Text.eraseWord globalMark cs) := by
  have htrimmed : Text.trimChars cs = cs := Text.trimChars_eq_self_iff.mpr
    ⟨fun c hc => h c (List.mem_of_mem_head? hc), fun c hc => h c (List.mem_of_getLast? hc)⟩
  have herased : Unbroken (Text.eraseWord globalMark cs) := fun c hc =>
    h c ((Text.eraseWord_sublist globalMark cs).subset hc)
  have hall : (Text.eraseWord globalMark cs).filter (fun c => !Text.isBlank c) =
      Text.eraseWord globalMark cs := by
    refine List.filter_eq_self.mpr fun c hc => ?_
    rw [herased c hc]
    rfl
  unfold canonicalChars
  simp only [htrimmed, dropPassingWords_unbroken herased, hall]

theorem replaceAliases_canonicalChars (cs : List Char) :
    replaceAliases none (canonicalChars cs) = canonicalChars cs :=
  replaceAliases_replaceAliases _

theorem canonicalChars_canonicalChars_iff (cs : List Char) :
    canonicalChars (canonicalChars cs) = canonicalChars cs ↔
      ¬ globalMark <:+: canonicalChars cs := by
  rw [canonicalChars_unbroken (unbroken_canonicalChars cs)]
  constructor
  · intro hsame hheld
    -- every qualifier takes two colons with it, which aliases do not give back
    obtain ⟨before, after, hcut, herased⟩ := Text.exists_eraseWord (by decide) hheld
    have hcount := congrArg (List.count ':') hsame
    rw [(replaced_replaceAliases _).1.count_eq (by decide), herased, hcut] at hcount
    have hafter := (Text.eraseWord_sublist globalMark after).count_le ':'
    have hmark : globalMark.count ':' = 2 := by decide
    simp only [List.count_append, hmark] at hcount
    omega
  · intro hheld
    rw [Text.eraseWord_of_not_isInfix hheld, replaceAliases_canonicalChars]

theorem dropPassingWords_suffix (steps : Nat) (cs : List Char) :
    dropPassingWords steps cs <:+ cs := by
  induction steps generalizing cs with
  | zero => exact List.suffix_refl cs
  | succ steps ih =>
      unfold dropPassingWords
      split
      next rest hrest =>
        obtain ⟨word, -, hword⟩ := List.exists_of_findSome?_eq_some hrest
        have hbehind : rest <:+ cs := ⟨word, (Text.afterStart?_eq_some_iff.mp hword).symm⟩
        exact (ih _).trans ((List.dropWhile_suffix Text.isBlank).trans hbehind)
      next => exact List.suffix_refl cs

/-- A character of no path is in a canonical name only if it is left where the qualifiers are. -/
theorem not_mem_canonicalChars (hc : continuesPath c = false)
    (h : c ∉ Text.eraseWord globalMark (Text.trimChars cs)) : c ∉ canonicalChars cs := by
  unfold canonicalChars
  intro hmem
  refine (replaced_replaceAliases _).1.forall_mem (p := (· ≠ c)) ?_ ?_ c hmem rfl
  · rintro d hd rfl
    exact h ((dropPassingWords_suffix _ _).subset (List.mem_of_mem_filter hd))
  · rintro d hd rfl
    rw [hc] at hd
    cases hd

/-- Making a canonical name canonical once more drops the qualifiers in it and does nothing else, so
that the name stays as it is exactly if it has none.  It has none if every colon of what it was made
from belongs to a qualifier. -/
theorem canonical_twice (s : String) :
    canonical (canonical s) =
        String.ofList (replaceAliases none (Text.eraseWord globalMark (canonical s).toList)) ∧
      (canonical (canonical s) = canonical s ↔ ¬ globalMark <:+: (canonical s).toList) ∧
      (':' ∉ Text.eraseWord globalMark (Text.trimChars s.toList) →
        canonical (canonical s) = canonical s) := by
  have hchars : (canonical s).toList = canonicalChars s.toList := String.toList_ofList
  have hagain : canonical (canonical s) = canonical s ↔ ¬ globalMark <:+: (canonical s).toList := by
    rw [canonical, hchars, ← canonicalChars_canonicalChars_iff, canonical, String.ofList_inj]
  refine ⟨?_, hagain, fun hcolon => hagain.mpr fun hheld => ?_⟩
  · rw [canonical, hchars, canonicalChars_unbroken (unbroken_canonicalChars _)]
  · have hmark : ':' ∈ globalMark := by decide
    rw [hchars] at hheld
    exact not_mem_canonicalChars (by decide) hcolon (hheld.subset hmark)

theorem canonical_twice_list :
    ':' ∉ Text.eraseWord globalMark (Text.trimChars " ref global::List< int >[]".toList) ∧
      canonical (canonical " ref global::List< int >[]") =
        canonical " ref global::List< int >[]" := by
  have hcolon : ':' ∉ Text.eraseWord globalMark
      (Text.trimChars " ref global::List< int >[]".toList) := by
    decide +kernel
  exact ⟨hcolon, (canonical_twice " ref global::List< int >[]").2.2 hcolon⟩

/-- A qualifier with a blank inside is put together by the first run and dropped by the second. -/
theorem canonical_spaced_qualifier :
    canonical (canonical "global ::Foo") ≠ canonical "global ::Foo" := by
  decide +kernel

end TypeName
end SymbolAtlas
