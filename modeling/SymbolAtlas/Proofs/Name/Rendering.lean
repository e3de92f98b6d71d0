import SymbolAtlas.Proofs.Name.TypeExpression
import SymbolAtlas.Proofs.Text.Blank
import Mathlib.Tactic

/-!
# Renderings of a type expression

A type expression can be written in many ways: with blanks between its tokens, with the global
qualifier in front of its paths, with an alias for a runtime name or the other way round, and
behind words that say how an argument is passed.  The canonical name forgets all of this and
nothing else: two renderings have one canonical name exactly if their expressions agree up to
aliases.
-/

namespace SymbolAtlas
namespace TypeName

/-! ## Spellings of a path -/

namespace TypePath

/-- The path is one of the two names of an entry of the alias table. -/
def NamedBy (p : TypePath) (entry : String × String) : Prop :=
  p.chars = entry.1.toList ∨ p.chars = entry.2.toList

/-- A path is written as it is, or by either name of its entry of the alias table. -/
def SpelledAs (p q : TypePath) : Prop :=
  q = p ∨ ∃ entry ∈ aliases, p.NamedBy entry ∧ q.NamedBy entry

theorem chars_runtime_of_namedBy {p : TypePath} {entry : String × String} (hmem : entry ∈ aliases)
    (h : p.NamedBy entry) : p.runtime.chars = entry.2.toList := by
  have htable : ∀ entry ∈ aliases, canonicalPath entry.1.toList = entry.2.toList ∧
      canonicalPath entry.2.toList = entry.2.toList := by decide +kernel
  rw [chars_runtime]
  rcases h with h | h
  · rw [h, (htable entry hmem).1]
  · rw [h, (htable entry hmem).2]

theorem SpelledAs.runtime_eq {p q : TypePath} (h : p.SpelledAs q) : q.runtime = p.runtime := by
  rcases h with rfl | ⟨entry, hmem, hp, hq⟩
  · rfl
  · refine chars_injective ?_
    rw [chars_runtime_of_namedBy hmem hp, chars_runtime_of_namedBy hmem hq]

end TypePath

/-- A path as it is written at one place. -/
structure WrittenPath where
  path : TypePath
  spelling : TypePath
  isGlobal : Bool
  spelled : path.SpelledAs spelling

namespace WrittenPath

def mark (w : WrittenPath) : List Char :=
  if w.isGlobal then globalMark else []

def tokens (w : WrittenPath) : List Token :=
  (w.mark ++ w.spelling.head.chars) :: w.spelling.tailTokens

end WrittenPath

/-! ## Renderings -/

/-- A text of tokens with any number of blanks between them. -/
inductive Spaced : List Token → List Char → Prop where
  | single (token : Token) : Spaced [token] token
  | cons {tokens : List Token} {text : List Char} (token : Token) (blanks : List Char) :
      (∀ c ∈ blanks, Text.isBlank c = true) → Spaced tokens text →
      Spaced (token :: tokens) (token ++ (blanks ++ text))

/-- A word that says how an argument is passed, with its space and perhaps more blanks. -/
structure Passing where
  word : List Char
  blanks : List Char
  isModifier : word ∈ passingModifiers
  areBlank : ∀ c ∈ blanks, Text.isBlank c = true

def Passing.chars (passing : Passing) : List Char :=
  passing.word ++ ' ' :: passing.blanks

/-- One way to write a type expression, with blanks around and between what is written. -/
structure Rendering where
  written : TypeTree WrittenPath
  passings : List Passing
  body : List Char
  before : List Char
  after : List Char
  spaced : Spaced (written.tokens WrittenPath.tokens) body
  blankBefore : ∀ c ∈ before, Text.isBlank c = true
  blankAfter : ∀ c ∈ after, Text.isBlank c = true

namespace Rendering

/-- The type expression that is rendered. -/
def expression (r : Rendering) : TypeExpression :=
  r.written.map WrittenPath.path

def string (r : Rendering) : String :=
  String.ofList (r.before ++ (r.passings.flatMap Passing.chars ++ r.body ++ r.after))

end Rendering

/-! ## The global mark -/

/-- The mark behind its first letter, which it has only once. -/
def markEnding : List Char :=
  "lobal::".toList

theorem globalMark_eq : globalMark = 'g' :: markEnding :=
  rfl

/-- A text, and what is left of it without the global marks that were put into it. -/
inductive Marked : List Char → List Char → Prop where
  | nil : Marked [] []
  | char {cs ds : List Char} (c : Char) : c ≠ ':' → Marked cs ds → Marked (c :: cs) (c :: ds)
  | mark {cs ds : List Char} : Marked cs ds → Marked (globalMark ++ cs) ds

namespace Marked

variable {cs ds cs' ds' : List Char}

theorem refl (h : ':' ∉ cs) : Marked cs cs := by
  induction cs with
  | nil => exact .nil
  | cons c cs ih =>
      have ⟨hc, hcs⟩ := List.ne_and_not_mem_of_not_mem_cons h
      exact .char c hc.symm (ih hcs)

theorem append (h : Marked cs ds) (h' : Marked cs' ds') : Marked (cs ++ cs') (ds ++ ds') := by
  induction h with
  | nil => exact h'
  | char c hc _ ih => exact .char c hc ih
  | mark _ ih => exact .mark ih

/-- A text does not begin with the end of a mark: its first colon belongs to a whole mark, which has
its first letter too. -/
theorem afterStart?_eq_none {ending : List Char} (h : Marked cs ds) (hletter : 'g' ∉ ending)
    (hcolon : ':' ∈ ending) : Text.afterStart? ending cs = none := by
  induction h generalizing ending with
  | nil =>
      cases ending with
      | nil => cases hcolon
      | cons e ending => rfl
  | char c hc _ ih =>
      cases ending with
      | nil => cases hcolon
      | cons e ending =>
          by_cases he : e = c
          · have hrest : ':' ∈ ending :=
              (List.mem_cons.mp hcolon).resolve_left (by simp [he, hc.symm])
            simp [Text.afterStart?, he, ih (List.not_mem_of_not_mem_cons hletter) hrest]
          · simp [Text.afterStart?, he]
  | mark _ _ =>
      cases ending with
      | nil => cases hcolon
      | cons e ending =>
          have he : e ≠ 'g' := (List.ne_and_not_mem_of_not_mem_cons hletter).1.symm
          rw [globalMark_eq, List.cons_append, Text.afterStart?, if_neg he]

theorem eraseWord (h : Marked cs ds) : Text.eraseWord globalMark cs = ds := by
  induction h with
  | nil => rfl
  | @char cs ds c _ hcs ih =>
      have hnone : Text.afterStart? globalMark (c :: cs) = none := by
        have hending : Text.afterStart? markEnding cs = none :=
          hcs.afterStart?_eq_none (by decide) (by decide)
        rw [globalMark_eq, Text.afterStart?, hending, ite_self]
      rw [Text.eraseWord_cons hnone, ih]
  | mark _ ih => rw [Text.eraseWord_append (by decide), ih]

end Marked

/-! ## Tokens -/

def Solid (token : Token) : Prop :=
  token ≠ [] ∧ ∀ c ∈ token, Text.isBlank c = false

theorem Solid.trimChars {token : Token} (h : Solid token) : Text.trimChars token = token := by
  refine Text.trimChars_eq_self_iff.mpr ⟨?_, ?_⟩
  · intro c hc
    exact h.2 c (List.mem_of_mem_head? hc)
  · intro c hc
    exact h.2 c (List.mem_of_getLast? hc)

theorem solid_globalMark : Solid globalMark := by
  have hall : globalMark.all (fun c => !Text.isBlank c) = true := by decide
  exact ⟨by decide, by simpa using hall⟩

theorem Solid.append {token token' : Token} (h : Solid token) (h' : Solid token') :
    Solid (token ++ token') :=
  ⟨by simp [h.1], List.forall_mem_append.mpr ⟨h.2, h'.2⟩⟩

namespace Spaced

variable {tokens : List Token} {text : List Char}

theorem exists_append (h : Spaced tokens text) :
    ∃ token rest, tokens.head? = some token ∧ text = token ++ rest := by
  cases h with
  | single => exact ⟨text, [], rfl, by simp⟩
  | cons token _ _ _ => exact ⟨token, _, rfl, rfl⟩

theorem trimChars (h : Spaced tokens text) (hsolid : ∀ token ∈ tokens, Solid token) :
    Text.trimChars text = text ∧ text ≠ [] := by
  induction h with
  | single token =>
      have htoken := hsolid token List.mem_cons_self
      exact ⟨htoken.trimChars, htoken.1⟩
  | cons token blanks _ _ ih =>
      have ⟨htoken, hothers⟩ := List.forall_mem_cons.mp hsolid
      obtain ⟨htext, hne⟩ := ih hothers
      exact ⟨Text.trimChars_append htoken.trimChars htoken.1 blanks htext hne, by simp [htoken.1]⟩

theorem filter (h : Spaced tokens text) (hsolid : ∀ token ∈ tokens, Solid token) :
    text.filter (fun c => !Text.isBlank c) = tokens.flatten := by
  have htoken : ∀ token, Solid token → token.filter (fun c => !Text.isBlank c) = token := by
    intro token h
    simpa [List.filter_eq_self] using h.2
  induction h with
  | single token => simpa using htoken token (hsolid token List.mem_cons_self)
  | cons token blanks hblanks _ ih =>
      have ⟨hfirst, hothers⟩ := List.forall_mem_cons.mp hsolid
      have hnone : blanks.filter (fun c => !Text.isBlank c) = [] := by
        simpa [List.filter_eq_nil_iff] using hblanks
      rw [List.filter_append, List.filter_append, htoken token hfirst, hnone, ih hothers]
      rfl

end Spaced

/-- A token as it is written, and without its mark. -/
structure Written (token bare : Token) : Prop where
  marked : Marked token bare
  solid : Solid token
  solidBare : Solid bare

theorem Written.refl {token : Token} (h : Solid token) (hcolon : ':' ∉ token) :
    Written token token :=
  ⟨Marked.refl hcolon, h, h⟩

theorem written_of_isIdentifierChar {token : Token} (hne : token ≠ [])
    (h : ∀ c ∈ token, isIdentifierChar c = true) : Written token token := by
  refine Written.refl ⟨hne, ?_⟩ ?_
  · intro c hc
    exact isBlank_of_isIdentifierChar (h c hc)
  · intro hc
    exact absurd (h ':' hc) (by decide)

theorem written_chars (i : Identifier) : Written i.chars i.chars :=
  written_of_isIdentifierChar (by simp [Identifier.chars]) i.isIdentifierChar_of_mem

theorem written_mark {c : Char} (h : c ∈ marks) : Written [c] [c] := by
  have ⟨hblank, hcolon⟩ : Text.isBlank c = false ∧ c ≠ ':' :=
    forall_mem_marks (p := fun c => Text.isBlank c = false ∧ c ≠ ':') (by decide) c h
  exact Written.refl ⟨by simp, by simpa using hblank⟩ (by simpa using hcolon.symm)

theorem forall₂_tailTokens (p : TypePath) : List.Forall₂ Written p.tailTokens p.tailTokens := by
  refine List.forall₂_same.mpr ?_
  intro token htoken
  obtain ⟨segment, -, hsegment⟩ := List.mem_flatMap.mp htoken
  rcases List.mem_pair.mp hsegment with rfl | rfl
  · exact Written.refl ⟨by decide, by simp [Text.isBlank]⟩ (by decide)
  · exact written_chars segment

theorem forall₂_writtenPath (w : WrittenPath) :
    List.Forall₂ Written w.tokens w.spelling.tokens := by
  refine .cons ?_ (forall₂_tailTokens w.spelling)
  have hhead := written_chars w.spelling.head
  unfold WrittenPath.mark
  split
  · exact ⟨.mark hhead.marked, solid_globalMark.append hhead.solid, hhead.solid⟩
  · exact hhead

/-- The tokens of a rendering are those of the spelled expression, some of them marked. -/
theorem Rendering.forall₂_tokens (r : Rendering) :
    List.Forall₂ Written (r.written.tokens WrittenPath.tokens)
      ((r.written.map WrittenPath.spelling).tokens TypePath.tokens) :=
  TypeTree.forall₂_tokens (fun _ => written_mark) forall₂_writtenPath r.written

theorem solid_of_written {tokens bare : List Token} (h : List.Forall₂ Written tokens bare) :
    (∀ token ∈ tokens, Solid token) ∧ ∀ token ∈ bare, Solid token := by
  induction h with
  | nil => simp
  | cons htoken _ ih =>
      exact ⟨List.forall_mem_cons.mpr ⟨htoken.solid, ih.1⟩,
        List.forall_mem_cons.mpr ⟨htoken.solidBare, ih.2⟩⟩

theorem Spaced.exists_bare {tokens bare : List Token} {text : List Char} (h : Spaced tokens text)
    (hwritten : List.Forall₂ Written tokens bare) :
    ∃ bareText, Spaced bare bareText ∧ Marked text bareText := by
  induction h generalizing bare with
  | single token =>
      cases hwritten with
      | @cons _ bareToken _ _ htoken hnone =>
          cases hnone
          exact ⟨bareToken, .single bareToken, htoken.marked⟩
  | cons token blanks hblanks _ ih =>
      cases hwritten with
      | @cons _ bareToken _ _ htoken hothers =>
          obtain ⟨bareText, hspaced, hmarked⟩ := ih hothers
          have hcolon : ':' ∉ blanks := fun hc => absurd (hblanks ':' hc) (by decide)
          exact ⟨_, .cons bareToken blanks hblanks hspaced,
            htoken.marked.append ((Marked.refl hcolon).append hmarked)⟩

/-! ## Passing words -/

theorem passingWords_eq : passingWords = passingModifiers.map (· ++ [' ']) :=
  rfl

theorem isIdentifierChar_of_mem_passingModifiers {word : List Char}
    (h : word ∈ passingModifiers) : ∀ c ∈ word, isIdentifierChar c = true := by
  have hall : ∀ word ∈ passingModifiers, word.all isIdentifierChar = true := by decide
  exact List.all_eq_true.mp (hall word h)

theorem written_of_mem_passingModifiers {word : List Char} (h : word ∈ passingModifiers) :
    Written word word := by
  have hne : ∀ word ∈ passingModifiers, word ≠ [] := by decide
  exact written_of_isIdentifierChar (hne word h) (isIdentifierChar_of_mem_passingModifiers h)

theorem afterPassingWord?_word {word : List Char} (h : word ∈ passingModifiers)
    (rest : List Char) : afterPassingWord? (word ++ ' ' :: rest) = some rest := by
  simp only [passingModifiers, List.mem_cons, List.not_mem_nil, or_false] at h
  rcases h with rfl | rfl | rfl | rfl | rfl <;> rfl

/-- A text that begins with an unreserved identifier begins with no passing word: the identifier
ends where the word does. -/
theorem afterPassingWord?_identifier (i : Identifier) {rest : List Char}
    (h : EndsRun isIdentifierChar rest) : afterPassingWord? (i.chars ++ rest) = none := by
  refine List.findSome?_eq_none_iff.mpr ?_
  intro passingWord hmem
  rw [passingWords_eq] at hmem
  obtain ⟨word, hword, rfl⟩ := List.mem_map.mp hmem
  rw [Option.eq_none_iff_forall_ne_some]
  intro behind hbehind
  have heq : i.chars ++ rest = word ++ ' ' :: behind := by
    rw [Text.afterStart?_eq_some_iff.mp hbehind, List.append_assoc]
    rfl
  have hspace : EndsRun isIdentifierChar (' ' :: behind) := by
    rintro c ⟨⟩
    rfl
  have hsame := (run_append_inj i.isIdentifierChar_of_mem
    (isIdentifierChar_of_mem_passingModifiers hword) h hspace heq).1
  refine i.unreserved ?_
  change i.chars ∈ reservedWords
  rw [hsame]
  exact List.mem_cons_of_mem _ hword

theorem endsRun_blanks {blanks : List Char} (h : ∀ c ∈ blanks, Text.isBlank c = true) :
    EndsRun isIdentifierChar blanks := by
  intro c hc
  by_contra hidentifier
  have hblank := isBlank_of_isIdentifierChar (Bool.eq_true_of_not_eq_false hidentifier)
  rw [h c (List.mem_of_mem_head? hc)] at hblank
  cases hblank

/-- A type expression with its blanks begins with no passing word. -/
theorem Spaced.afterPassingWord?_eq_none {e : TypeExpression} {text : List Char}
    (h : Spaced (e.tokens TypePath.tokens) text) : afterPassingWord? text = none := by
  have hmarks : ∀ c ∈ '.' :: marks, isIdentifierChar c = false :=
    List.forall_mem_cons.mpr ⟨rfl, forall_mem_marks (by decide)⟩
  obtain ⟨i, behind, htokens, hbehind⟩ := e.exists_tokens_eq
  rw [htokens] at h
  cases h with
  | single =>
      have hnone := afterPassingWord?_identifier i endsRun_nil
      rwa [List.append_nil] at hnone
  | cons _ blanks hblanks hspaced =>
      -- the identifier ends at a blank or, if there is none, at the dot or mark of the next token
      refine afterPassingWord?_identifier i ((endsRun_blanks hblanks).append ?_)
      obtain ⟨token, rest, hhead, rfl⟩ := hspaced.exists_append
      obtain ⟨c, hc, rfl⟩ := hbehind token hhead
      rintro d ⟨⟩
      exact hmarks c hc

theorem trimChars_passings (passings : List Passing) {text : List Char}
    (htext : Text.trimChars text = text) (hne : text ≠ []) :
    Text.trimChars (passings.flatMap Passing.chars ++ text) =
      passings.flatMap Passing.chars ++ text := by
  induction passings with
  | nil => exact htext
  | cons passing passings ih =>
      have hword := (written_of_mem_passingModifiers passing.isModifier).solid
      have hrest := Text.trimChars_append hword.trimChars hword.1 (' ' :: passing.blanks) ih
        (by simp [hne])
      simpa [Passing.chars] using hrest

theorem dropPassingWords_passings (passings : List Passing) {text : List Char}
    (htext : Text.trimChars text = text) (hne : text ≠ []) (hnone : afterPassingWord? text = none) :
    ∀ steps, (passings.flatMap Passing.chars).length ≤ steps →
      dropPassingWords steps (passings.flatMap Passing.chars ++ text) = text := by
  induction passings with
  | nil =>
      intro steps _
      cases steps <;> simp [dropPassingWords, hnone]
  | cons passing passings ih =>
      intro steps hsteps
      have hlength : passing.chars.length = passing.word.length + passing.blanks.length + 1 := by
        simp [Passing.chars, Nat.add_assoc]
      rw [List.flatMap_cons, List.length_append] at hsteps
      -- the space behind the word alone pays for this step
      obtain ⟨left, rfl⟩ : ∃ left, steps = left + 1 :=
        Nat.exists_eq_add_one.mpr (by omega)
      have hword := afterPassingWord?_word passing.isModifier
        (passing.blanks ++ (passings.flatMap Passing.chars ++ text))
      have htrimmed := Text.trimStart_append passing.areBlank
        (trimChars_passings passings htext hne)
      rw [List.flatMap_cons, Passing.chars, List.append_assoc, List.append_assoc,
        List.cons_append, dropPassingWords, hword]
      simp only [htrimmed]
      exact ih left (by omega)

theorem marked_passings (passings : List Passing) :
    Marked (passings.flatMap Passing.chars) (passings.flatMap Passing.chars) := by
  induction passings with
  | nil => exact .nil
  | cons passing passings ih =>
      have hword := (written_of_mem_passingModifiers passing.isModifier).marked
      have hcolon : ':' ∉ passing.blanks := fun hc => absurd (passing.areBlank ':' hc) (by decide)
      have hspace : Marked (' ' :: passing.blanks) (' ' :: passing.blanks) :=
        .char ' ' (by decide) (Marked.refl hcolon)
      exact (hword.append hspace).append ih

/-! ## Aliases -/

theorem replaceAliases_open {rest : List Char} (hrest : EndsRun continuesPath rest) :
    ∀ (cs read : List Char), (∀ c ∈ cs, continuesPath c = true) →
      replaceAliases (some read) (cs ++ rest) =
        canonicalPath (read.reverse ++ cs) ++ replaceAliases none rest := by
  intro cs
  induction cs with
  | nil =>
      intro read _
      cases rest with
      | nil => simp [replaceAliases]
      | cons c rest =>
          have hc : continuesPath c = false := hrest c rfl
          have hstart := startsIdentifier_eq_false hc
          simp [replaceAliases, hc, hstart]
  | cons c cs ih =>
      intro read hcs
      have ⟨hc, hothers⟩ := List.forall_mem_cons.mp hcs
      simp [replaceAliases, hc, ih (c :: read) hothers]

theorem replaceAliases_path (p : TypePath) {rest : List Char}
    (hrest : EndsRun continuesPath rest) :
    replaceAliases none (p.chars ++ rest) = p.runtime.chars ++ replaceAliases none rest := by
  obtain ⟨first, others, hchars, hstarts⟩ :
      ∃ first others, p.chars = first :: others ∧ startsIdentifier first = true :=
    ⟨p.head.first, _, rfl, p.head.starts⟩
  have hothers : ∀ c ∈ others, continuesPath c = true := fun c hc =>
    p.continuesPath_of_mem c (hchars ▸ List.mem_cons_of_mem first hc)
  rw [TypePath.chars_runtime, hchars, List.cons_append, replaceAliases, if_pos hstarts,
    replaceAliases_open hrest others [first] hothers]
  rfl

theorem replaceAliases_suffixChars (suffixes : List Suffix) (rest : List Char) :
    replaceAliases none (suffixChars suffixes ++ rest) =
      suffixChars suffixes ++ replaceAliases none rest := by
  have hmarks : ∀ c ∈ marks, startsIdentifier c = false := forall_mem_marks (by decide)
  have hplain : ∀ cs : List Char, (∀ c ∈ cs, startsIdentifier c = false) →
      replaceAliases none (cs ++ rest) = cs ++ replaceAliases none rest := by
    intro cs hcs
    induction cs with
    | nil => rfl
    | cons c cs ih =>
        have ⟨hc, hothers⟩ := List.forall_mem_cons.mp hcs
        simp [replaceAliases, hc, ih hothers]
  exact hplain _ fun c hc => hmarks c (mem_marks_of_mem_suffixChars hc)

namespace TypeTree

mutual

theorem replaceAliases_chars (e : TypeExpression) {rest : List Char} (hrest : Follows rest) :
    replaceAliases none (e.chars ++ rest) =
      (e.map TypePath.runtime).chars ++ replaceAliases none rest := by
  cases e with
  | mk path arguments suffixes =>
      rw [map, chars_mk, chars_mk, List.append_assoc, List.append_assoc,
        replaceAliases_path path (endsRun_behind_path arguments suffixes hrest),
        replaceAliases_charsEnclosed arguments, replaceAliases_suffixChars]
      simp only [List.append_assoc]

theorem replaceAliases_charsEnclosed (arguments : List TypeExpression) (rest : List Char) :
    replaceAliases none (charsEnclosed arguments ++ rest) =
      charsEnclosed (mapAll TypePath.runtime arguments) ++ replaceAliases none rest := by
  cases arguments with
  | nil => rfl
  | cons e arguments =>
      have hargument := replaceAliases_chars e (follows_charsBehind arguments rest)
      have hopen : startsIdentifier '<' = false := by decide
      simp only [charsEnclosed_cons, mapAll, List.cons_append, List.append_assoc, List.nil_append,
        replaceAliases, hopen, hargument, replaceAliases_charsBehind arguments rest]
      rfl

theorem replaceAliases_charsBehind (arguments : List TypeExpression) (rest : List Char) :
    replaceAliases none (charsBehind arguments ++ '>' :: rest) =
      charsBehind (mapAll TypePath.runtime arguments) ++ '>' :: replaceAliases none rest := by
  cases arguments with
  | nil => rfl
  | cons e arguments =>
      have hargument := replaceAliases_chars e (follows_charsBehind arguments rest)
      have hcomma : startsIdentifier ',' = false := by decide
      simp only [charsBehind_cons, mapAll, List.cons_append, List.append_assoc,
        replaceAliases, hcomma, hargument, replaceAliases_charsBehind arguments rest]
      rfl

end

theorem replaceAliases_eq (e : TypeExpression) :
    replaceAliases none e.chars = (e.map TypePath.runtime).chars := by
  have hreplaced := replaceAliases_chars e follows_nil
  rwa [replaceAliases, List.append_nil, List.append_nil] at hreplaced

end TypeTree

/-! ## Canonical names -/

namespace Rendering

theorem map_spelling_runtime (tree : TypeTree WrittenPath) :
    (tree.map WrittenPath.spelling).map TypePath.runtime =
      (tree.map WrittenPath.path).map TypePath.runtime := by
  rw [TypeTree.map_map, TypeTree.map_map]
  congr 1
  funext w
  exact w.spelled.runtime_eq

/-- The canonical name of a rendering is the plain text of its expression with runtime names. -/
theorem canonicalChars_string (r : Rendering) :
    canonicalChars r.string.toList = (r.expression.map TypePath.runtime).chars := by
  obtain ⟨bare, hspaced, hmarked⟩ := r.spaced.exists_bare r.forall₂_tokens
  obtain ⟨hsolid, hsolidBare⟩ := solid_of_written r.forall₂_tokens
  obtain ⟨hbody, hbodyNe⟩ := r.spaced.trimChars hsolid
  obtain ⟨hbare, hbareNe⟩ := hspaced.trimChars hsolidBare
  have htrimmed : Text.trimChars r.string.toList = r.passings.flatMap Passing.chars ++ r.body := by
    rw [string, String.toList_ofList]
    exact (Text.trimChars_between r.blankBefore r.blankAfter _).trans
      (trimChars_passings r.passings hbody hbodyNe)
  have herased : Text.eraseWord globalMark (r.passings.flatMap Passing.chars ++ r.body) =
      r.passings.flatMap Passing.chars ++ bare :=
    ((marked_passings r.passings).append hmarked).eraseWord
  have hdropped := dropPassingWords_passings r.passings hbare hbareNe
    hspaced.afterPassingWord?_eq_none (r.passings.flatMap Passing.chars ++ bare).length (by simp)
  calc
    canonicalChars r.string.toList
        = replaceAliases none (bare.filter fun c => !Text.isBlank c) := by
          rw [canonicalChars, htrimmed, herased]
          simp only [hdropped]
    _ = replaceAliases none (r.written.map WrittenPath.spelling).chars := by
          rw [hspaced.filter hsolidBare]
          rfl
    _ = ((r.written.map WrittenPath.spelling).map TypePath.runtime).chars :=
          TypeTree.replaceAliases_eq _
    _ = (r.expression.map TypePath.runtime).chars := by
          rw [map_spelling_runtime]
          rfl

/-- Canonical names decide whether type expressions are equal up to aliases. -/
theorem canonical_eq_iff (r r' : Rendering) :
    canonical r.string = canonical r'.string ↔
      r.expression.map TypePath.runtime = r'.expression.map TypePath.runtime := by
  unfold canonical
  rw [canonicalChars_string, canonicalChars_string, String.ofList_inj]
  exact TypeTree.chars_injective.eq_iff

/-- A list of integers can be written with its alias, a passing word and the global mark. -/
example : ∃ r : Rendering, r.string = " out global::List< int >[]" := by
  let list : TypePath := ⟨⟨'L', "ist".toList, by decide, by decide, by decide⟩, []⟩
  let int : TypePath := ⟨⟨'i', "nt".toList, by decide, by decide, by decide⟩, []⟩
  have hspace : ∀ c ∈ [' '], Text.isBlank c = true := List.forall_mem_singleton.mpr rfl
  have hnone : ∀ c ∈ ([] : List Char), Text.isBlank c = true := List.forall_mem_nil _
  exact
    ⟨{ written := .mk ⟨list, list, true, .inl rfl⟩ [.mk ⟨int, int, false, .inl rfl⟩ [] []] [.array]
       passings := [⟨"out".toList, [], by decide, hnone⟩]
       body := "global::List< int >[]".toList
       before := [' ']
       after := []
       spaced := .cons "global::List".toList [] hnone
         (.cons ['<'] [' '] hspace (.cons "int".toList [' '] hspace (.cons ['>'] [] hnone
           (.cons ['['] [] hnone (.single [']'])))))
       blankBefore := hspace
       blankAfter := hnone }, rfl⟩

end Rendering
end TypeName
end SymbolAtlas
