import SymbolAtlas.Name.TypeName
import SymbolAtlas.Proofs.Text.Cut
import Mathlib.Tactic

/-!
# Type expressions

A type expression is a dotted path of identifiers, perhaps with type expressions as its generic
arguments, and any number of suffixes for arrays, nullable types and pointers.  Its text is put
together from tokens, and it can be read back from it in one way only: a path ends at the first
character that cannot continue it, and brackets, commas and suffixes tell themselves apart by the
character that they begin with.
-/

namespace SymbolAtlas
namespace TypeName

/-! ## Identifiers -/

/-- The words in front of a type that say how an argument is passed. -/
def passingModifiers : List (List Char) :=
  ["ref".toList, "out".toList, "in".toList, "params".toList, "this".toList]

/-- The words that are no segment of a path. -/
def reservedWords : List (List Char) :=
  "global".toList :: passingModifiers

def isIdentifierChar (c : Char) : Bool :=
  c.isAlphanum || c == '_'

/-- An identifier of ASCII characters that is no reserved word. -/
structure Identifier where
  first : Char
  rest : List Char
  starts : startsIdentifier first = true
  continues : rest.all isIdentifierChar = true
  unreserved : first :: rest ∉ reservedWords
  deriving DecidableEq

theorem isIdentifierChar_of_starts {c : Char} (h : startsIdentifier c = true) :
    isIdentifierChar c = true := by
  simp only [startsIdentifier, isIdentifierChar, Char.isAlphanum, Bool.or_eq_true] at h ⊢
  tauto

theorem toNat_of_isIdentifierChar {c : Char} (h : isIdentifierChar c = true) :
    48 ≤ c.toNat ∧ c.toNat < 123 := by
  simp only [isIdentifierChar, Bool.or_eq_true, beq_iff_eq] at h
  rcases h with h | rfl
  · delta Char.isAlphanum Char.isAlpha Char.isUpper Char.isLower Char.isDigit at h
    simp [UInt32.le_iff_toNat_le] at h
    omega
  · decide

theorem isBlank_of_isIdentifierChar {c : Char} (h : isIdentifierChar c = true) :
    Text.isBlank c = false := by
  have hn := toNat_of_isIdentifierChar h
  simp [Text.isBlank]
  omega

theorem continuesPath_of_isIdentifierChar {c : Char} (h : isIdentifierChar c = true) :
    continuesPath c = true := by
  have hascii : c.toNat < 128 := by
    have hn := toNat_of_isIdentifierChar h
    omega
  unfold continuesPath Text.isWordChar
  rw [if_pos hascii]
  exact Bool.or_eq_true_iff.mpr (Or.inl h)

theorem startsIdentifier_eq_false {c : Char} (h : continuesPath c = false) :
    startsIdentifier c = false := by
  by_contra hstarts
  have hcontinues := continuesPath_of_isIdentifierChar
    (isIdentifierChar_of_starts (Bool.eq_true_of_not_eq_false hstarts))
  rw [h] at hcontinues
  cases hcontinues

namespace Identifier

def chars (i : Identifier) : List Char :=
  i.first :: i.rest

def ofChars? : List Char → Option Identifier
  | [] => none
  | first :: rest =>
      if h : startsIdentifier first = true ∧ rest.all isIdentifierChar = true ∧
          first :: rest ∉ reservedWords then
        some ⟨first, rest, h.1, h.2.1, h.2.2⟩
      else none

theorem ofChars?_chars (i : Identifier) : ofChars? i.chars = some i :=
  dif_pos ⟨i.starts, i.continues, i.unreserved⟩

theorem isIdentifierChar_of_mem (i : Identifier) :
    ∀ c ∈ i.chars, isIdentifierChar c = true :=
  List.forall_mem_cons.mpr
    ⟨isIdentifierChar_of_starts i.starts, List.all_eq_true.mp i.continues⟩

end Identifier

/-! ## Paths -/

/-- A dotted path; it has at least one segment. -/
structure TypePath where
  head : Identifier
  tail : List Identifier
  deriving DecidableEq

abbrev Token := List Char

namespace TypePath

def chars (p : TypePath) : List Char :=
  p.head.chars ++ p.tail.flatMap fun segment => '.' :: segment.chars

/-- The dots and segments behind the head. -/
def tailTokens (p : TypePath) : List Token :=
  p.tail.flatMap fun segment => [['.'], segment.chars]

def tokens (p : TypePath) : List Token :=
  p.head.chars :: p.tailTokens

def ofChars? (cs : List Char) : Option TypePath :=
  match (Text.splitWhere (· == '.') cs).mapM Identifier.ofChars? with
  | some (head :: tail) => some ⟨head, tail⟩
  | _ => none

theorem flatten_tokens (p : TypePath) : p.tokens.flatten = p.chars := by
  have htail : ∀ tail : List Identifier,
      (tail.flatMap fun segment => [['.'], segment.chars]).flatten =
        tail.flatMap fun segment => '.' :: segment.chars := by
    intro tail
    induction tail with
    | nil => rfl
    | cons segment tail ih => simp [ih]
  simp [tokens, tailTokens, chars, htail]

theorem splitWhere_chars (p : TypePath) :
    Text.splitWhere (· == '.') p.chars = p.head.chars :: p.tail.map Identifier.chars := by
  have hsegment : ∀ i : Identifier, ∀ c ∈ i.chars, (c == '.') = false := by
    intro i c hc
    refine beq_false_of_ne ?_
    rintro rfl
    exact absurd (i.isIdentifierChar_of_mem '.' hc) (by decide)
  obtain ⟨head, tail⟩ := p
  induction tail generalizing head with
  | nil => simpa [chars] using Text.splitWhere_eq_singleton (hsegment head)
  | cons segment tail ih =>
      calc
        Text.splitWhere (· == '.') (chars ⟨head, segment :: tail⟩)
            = Text.splitWhere (· == '.') (head.chars ++ '.' :: chars ⟨segment, tail⟩) := by
              simp [chars]
        _ = head.chars :: Text.splitWhere (· == '.') (chars ⟨segment, tail⟩) :=
              Text.splitWhere_append (hsegment head) rfl
        _ = head.chars :: (segment :: tail).map Identifier.chars := by
              rw [ih segment, List.map_cons]

theorem ofChars?_chars (p : TypePath) : ofChars? p.chars = some p := by
  have hmapM : ∀ segments : List Identifier,
      (segments.map Identifier.chars).mapM Identifier.ofChars? = some segments := by
    intro segments
    induction segments with
    | nil => rfl
    | cons segment segments ih =>
        simp [ih, Identifier.ofChars?_chars]
  have hsplit := hmapM (p.head :: p.tail)
  rw [List.map_cons] at hsplit
  rw [ofChars?, splitWhere_chars, hsplit]

theorem chars_injective : Function.Injective chars := by
  intro p q h
  have hread := congrArg ofChars? h
  rw [ofChars?_chars, ofChars?_chars] at hread
  exact Option.some.inj hread

theorem continuesPath_of_mem (p : TypePath) : ∀ c ∈ p.chars, continuesPath c = true := by
  have hsegment : ∀ i : Identifier, ∀ c ∈ i.chars, continuesPath c = true := fun i c hc =>
    continuesPath_of_isIdentifierChar (i.isIdentifierChar_of_mem c hc)
  intro c hc
  rcases List.mem_append.mp hc with hhead | htail
  · exact hsegment p.head c hhead
  · obtain ⟨segment, -, hc⟩ := List.mem_flatMap.mp htail
    rcases List.mem_cons.mp hc with rfl | hc
    · rfl
    · exact hsegment segment c hc

/-- The runtime name of a path that is a keyword alias; any other path is its own. -/
def runtime (p : TypePath) : TypePath :=
  match aliases.lookup (String.ofList p.chars) with
  | some name => (ofChars? name.toList).getD p
  | none => p

/-- Every runtime name of the table is itself the text of a path. -/
theorem chars_runtime (p : TypePath) : p.runtime.chars = canonicalPath p.chars := by
  have htable : ∀ pair ∈ aliases,
      (ofChars? pair.2.toList).map chars = some pair.2.toList := by decide +kernel
  unfold runtime canonicalPath
  cases hname : aliases.lookup (String.ofList p.chars) with
  | none => rfl
  | some name =>
      have hmem : (String.ofList p.chars, name) ∈ aliases := by
        obtain ⟨before, behind, haliases, -⟩ := List.lookup_eq_some_iff.mp hname
        simp [haliases]
      obtain ⟨q, hq, hchars⟩ := Option.map_eq_some_iff.mp (htable _ hmem)
      simp only [hq, Option.getD_some]
      exact hchars

end TypePath

/-! ## Trees -/

inductive Suffix where
  | array
  | grid
  | nullable
  | pointer
  deriving DecidableEq

def Suffix.tokens : Suffix → List Token
  | .array => [['['], [']']]
  | .grid => [['['], [','], [']']]
  | .nullable => [['?']]
  | .pointer => [['*']]

/-- The characters that stand between and behind paths. -/
def marks : List Char :=
  ['<', '>', ',', '[', ']', '?', '*']

theorem forall_mem_marks {p : Char → Prop}
    (h : p '<' ∧ p '>' ∧ p ',' ∧ p '[' ∧ p ']' ∧ p '?' ∧ p '*') : ∀ c ∈ marks, p c := by
  simpa [marks] using h

theorem Suffix.exists_mark (suffix : Suffix) :
    ∀ token ∈ suffix.tokens, ∃ c ∈ marks, token = [c] := by
  cases suffix <;> simp [Suffix.tokens, marks]

theorem exists_mark_of_mem_suffixes {suffixes : List Suffix} {token : Token}
    (h : token ∈ suffixes.flatMap Suffix.tokens) : ∃ c ∈ marks, token = [c] := by
  obtain ⟨suffix, -, hsuffix⟩ := List.mem_flatMap.mp h
  exact suffix.exists_mark token hsuffix

/-- Paths with generic arguments and suffixes. -/
inductive TypeTree (α : Type) where
  | mk (path : α) (arguments : List (TypeTree α)) (suffixes : List Suffix)

abbrev TypeExpression := TypeTree TypePath

namespace TypeTree

variable {α β γ : Type}

mutual

def map (f : α → β) : TypeTree α → TypeTree β
  | .mk path arguments suffixes => .mk (f path) (mapAll f arguments) suffixes

def mapAll (f : α → β) : List (TypeTree α) → List (TypeTree β)
  | [] => []
  | tree :: rest => map f tree :: mapAll f rest

end

mutual

theorem map_map (f : α → β) (g : β → γ) (tree : TypeTree α) :
    (tree.map f).map g = tree.map (g ∘ f) := by
  cases tree with
  | mk path arguments suffixes => rw [map, map, map, mapAll_mapAll f g arguments, Function.comp]

theorem mapAll_mapAll (f : α → β) (g : β → γ) (trees : List (TypeTree α)) :
    mapAll g (mapAll f trees) = mapAll (g ∘ f) trees := by
  cases trees with
  | nil => rfl
  | cons tree rest => rw [mapAll, mapAll, mapAll, map_map f g tree, mapAll_mapAll f g rest]

end

mutual

/-- The tokens of a tree, given those of its paths. -/
def tokens (f : α → List Token) : TypeTree α → List Token
  | .mk path arguments suffixes =>
      f path ++ (tokensEnclosed f arguments ++ suffixes.flatMap Suffix.tokens)

/-- Generic arguments in their brackets; without arguments there are no brackets. -/
def tokensEnclosed (f : α → List Token) : List (TypeTree α) → List Token
  | [] => []
  | tree :: rest => ['<'] :: (tokens f tree ++ (tokensBehind f rest ++ [['>']]))

/-- The arguments behind the first, each with its comma. -/
def tokensBehind (f : α → List Token) : List (TypeTree α) → List Token
  | [] => []
  | tree :: rest => [','] :: (tokens f tree ++ tokensBehind f rest)

end

section Pairs

variable {R : Token → Token → Prop} {f : α → List Token} {g : β → List Token} {h : α → β}

theorem forall₂_suffixes (hmark : ∀ c ∈ marks, R [c] [c]) (suffixes : List Suffix) :
    List.Forall₂ R (suffixes.flatMap Suffix.tokens) (suffixes.flatMap Suffix.tokens) := by
  refine List.forall₂_same.mpr ?_
  intro token htoken
  obtain ⟨c, hc, rfl⟩ := exists_mark_of_mem_suffixes htoken
  exact hmark c hc

mutual

/-- Two readings of a tree agree token by token if those of its paths do. -/
theorem forall₂_tokens (hmark : ∀ c ∈ marks, R [c] [c])
    (hpath : ∀ path, List.Forall₂ R (f path) (g (h path))) (tree : TypeTree α) :
    List.Forall₂ R (tree.tokens f) ((tree.map h).tokens g) := by
  cases tree with
  | mk path arguments suffixes =>
      have hends := List.rel_append (forall₂_tokensEnclosed hmark hpath arguments)
        (forall₂_suffixes hmark suffixes)
      exact List.rel_append (hpath path) hends

theorem forall₂_tokensEnclosed (hmark : ∀ c ∈ marks, R [c] [c])
    (hpath : ∀ path, List.Forall₂ R (f path) (g (h path))) (trees : List (TypeTree α)) :
    List.Forall₂ R (tokensEnclosed f trees) (tokensEnclosed g (mapAll h trees)) := by
  cases trees with
  | nil => exact .nil
  | cons tree rest =>
      have hclosed : List.Forall₂ R [['>']] [['>']] :=
        .cons (hmark '>' (by decide)) .nil
      have hends := List.rel_append (forall₂_tokensBehind hmark hpath rest) hclosed
      exact .cons (hmark '<' (by decide))
        (List.rel_append (forall₂_tokens hmark hpath tree) hends)

theorem forall₂_tokensBehind (hmark : ∀ c ∈ marks, R [c] [c])
    (hpath : ∀ path, List.Forall₂ R (f path) (g (h path))) (trees : List (TypeTree α)) :
    List.Forall₂ R (tokensBehind f trees) (tokensBehind g (mapAll h trees)) := by
  cases trees with
  | nil => exact .nil
  | cons tree rest =>
      exact .cons (hmark ',' (by decide))
        (List.rel_append (forall₂_tokens hmark hpath tree) (forall₂_tokensBehind hmark hpath rest))

end

end Pairs

/-- A type expression begins with an identifier, and the token behind it is a dot or a mark. -/
theorem exists_tokens_eq (e : TypeExpression) :
    ∃ i behind, e.tokens TypePath.tokens = Identifier.chars i :: behind ∧
      ∀ token ∈ behind.head?, ∃ c ∈ '.' :: marks, token = [c] := by
  obtain ⟨path, arguments, suffixes⟩ := e
  refine ⟨path.head, _, rfl, ?_⟩
  obtain ⟨head, tail⟩ := path
  cases tail with
  | cons segment tail => exact fun token h => ⟨'.', by decide, by cases h; rfl⟩
  | nil =>
      cases arguments with
      | cons e arguments => exact fun token h => ⟨'<', by decide, by cases h; rfl⟩
      | nil =>
          intro token htoken
          obtain ⟨c, hc, rfl⟩ := exists_mark_of_mem_suffixes (List.mem_of_mem_head? htoken)
          exact ⟨c, List.mem_cons_of_mem _ hc, rfl⟩

end TypeTree

/-! ## Reading back -/

/-- A text that does not go on with a character of the class. -/
def EndsRun (p : Char → Bool) (rest : List Char) : Prop :=
  ∀ c ∈ rest.head?, p c = false

section Runs

variable {p : Char → Bool} {run run' rest rest' : List Char}

theorem endsRun_nil : EndsRun p [] := by
  simp [EndsRun]

theorem EndsRun.append (h : EndsRun p rest) (h' : EndsRun p rest') : EndsRun p (rest ++ rest') := by
  cases rest with
  | nil => exact h'
  | cons c rest => exact h

theorem takeWhile_append_of_endsRun (hrun : ∀ c ∈ run, p c = true) (h : EndsRun p rest) :
    (run ++ rest).takeWhile p = run := by
  rw [List.takeWhile_append_of_pos hrun]
  cases rest with
  | nil => simp
  | cons c rest =>
      have hc : p c = false := h c rfl
      simp [hc]

theorem run_append_inj (hrun : ∀ c ∈ run, p c = true) (hrun' : ∀ c ∈ run', p c = true)
    (hends : EndsRun p rest) (hends' : EndsRun p rest') (h : run ++ rest = run' ++ rest') :
    run = run' ∧ rest = rest' := by
  have hsame : run = run' := by
    rw [← takeWhile_append_of_endsRun hrun hends, h, takeWhile_append_of_endsRun hrun' hends']
  rw [hsame] at h
  exact ⟨hsame, List.append_cancel_left h⟩

end Runs

/-- What may stand behind an argument: a comma, a closing bracket or nothing. -/
def Follows (rest : List Char) : Prop :=
  ∀ c ∈ rest.head?, c = ',' ∨ c = '>'

theorem follows_nil : Follows [] := by
  simp [Follows]

theorem Follows.endsRun {p : Char → Bool} {rest : List Char} (h : Follows rest)
    (hcomma : p ',' = false) (hclose : p '>' = false) : EndsRun p rest := by
  intro c hc
  rcases h c hc with rfl | rfl
  · exact hcomma
  · exact hclose

def suffixChars (suffixes : List Suffix) : List Char :=
  (suffixes.flatMap Suffix.tokens).flatten

theorem endsRun_suffixChars {p : Char → Bool} (hmark : ∀ c ∈ marks, c ≠ '<' → p c = false)
    (suffixes : List Suffix) : EndsRun p (suffixChars suffixes) := by
  cases suffixes with
  | nil => exact endsRun_nil
  | cons suffix suffixes =>
      cases suffix <;> simp [suffixChars, Suffix.tokens, EndsRun] <;>
        exact hmark _ (by decide) (by decide)

theorem suffixChars_append_inj {suffixes suffixes' : List Suffix} {rest rest' : List Char}
    (hrest : Follows rest) (hrest' : Follows rest')
    (h : suffixChars suffixes ++ rest = suffixChars suffixes' ++ rest') :
    suffixes = suffixes' ∧ rest = rest' := by
  unfold suffixChars at h
  induction suffixes generalizing suffixes' with
  | nil =>
      cases suffixes' with
      | nil => exact ⟨rfl, h⟩
      | cons suffix suffixes' =>
          cases suffix <;> simp [Suffix.tokens] at h <;> simp [h, Follows] at hrest
  | cons suffix suffixes ih =>
      cases suffixes' with
      | nil =>
          cases suffix <;> simp [Suffix.tokens] at h <;> simp [← h, Follows] at hrest'
      | cons suffix' suffixes' =>
          cases suffix <;> cases suffix' <;> simp [Suffix.tokens] at h <;> simpa using ih h

theorem mem_marks_of_mem_suffixChars {suffixes : List Suffix} {c : Char}
    (h : c ∈ suffixChars suffixes) : c ∈ marks := by
  obtain ⟨token, htoken, hc⟩ := List.mem_flatten.mp h
  obtain ⟨mark, hmark, rfl⟩ := exists_mark_of_mem_suffixes htoken
  rwa [List.mem_singleton.mp hc]

namespace TypeTree

def chars (e : TypeExpression) : List Char :=
  (e.tokens TypePath.tokens).flatten

def charsEnclosed (arguments : List TypeExpression) : List Char :=
  (tokensEnclosed TypePath.tokens arguments).flatten

def charsBehind (arguments : List TypeExpression) : List Char :=
  (tokensBehind TypePath.tokens arguments).flatten

theorem chars_mk (path : TypePath) (arguments : List TypeExpression) (suffixes : List Suffix) :
    chars (.mk path arguments suffixes) =
      path.chars ++ (charsEnclosed arguments ++ suffixChars suffixes) := by
  simp [chars, charsEnclosed, suffixChars, tokens, TypePath.flatten_tokens]

theorem charsEnclosed_cons (e : TypeExpression) (rest : List TypeExpression) :
    charsEnclosed (e :: rest) = '<' :: (e.chars ++ (charsBehind rest ++ ['>'])) := by
  simp [chars, charsEnclosed, charsBehind, tokensEnclosed]

theorem charsBehind_nil : charsBehind [] = [] :=
  rfl

theorem charsBehind_cons (e : TypeExpression) (rest : List TypeExpression) :
    charsBehind (e :: rest) = ',' :: (e.chars ++ charsBehind rest) := by
  simp [chars, charsBehind, tokensBehind]

theorem follows_charsBehind (arguments : List TypeExpression) (rest : List Char) :
    Follows (charsBehind arguments ++ '>' :: rest) := by
  cases arguments with
  | nil => simp [charsBehind_nil, Follows]
  | cons e arguments => simp [charsBehind_cons, Follows]

theorem ne_charsEnclosed {rest : List Char} (h : EndsRun (· == '<') rest) (e : TypeExpression)
    (arguments : List TypeExpression) (rest' : List Char) :
    rest ≠ charsEnclosed (e :: arguments) ++ rest' := by
  rintro rfl
  simp [charsEnclosed_cons, EndsRun] at h

/-- What stands behind a path does not continue it. -/
theorem endsRun_behind_path (arguments : List TypeExpression) (suffixes : List Suffix)
    {rest : List Char} (h : Follows rest) :
    EndsRun continuesPath (charsEnclosed arguments ++ (suffixChars suffixes ++ rest)) := by
  have hsuffixes : EndsRun continuesPath (suffixChars suffixes) :=
    endsRun_suffixChars (forall_mem_marks (by decide)) suffixes
  refine EndsRun.append ?_ (hsuffixes.append (h.endsRun rfl rfl))
  cases arguments with
  | nil => exact endsRun_nil
  | cons e arguments =>
      rw [charsEnclosed_cons]
      rintro c ⟨⟩
      rfl

/-! What stands behind a text is kept along: it tells where the text ends, and it is what the next
part of an enclosing expression is read from. -/

mutual

theorem chars_append_inj (e e' : TypeExpression) {rest rest' : List Char}
    (hrest : Follows rest) (hrest' : Follows rest') (h : e.chars ++ rest = e'.chars ++ rest') :
    e = e' ∧ rest = rest' := by
  cases e with
  | mk path arguments suffixes =>
  cases e' with
  | mk path' arguments' suffixes' =>
    have hopen : ∀ (suffixes : List Suffix) {rest : List Char}, Follows rest →
        EndsRun (· == '<') (suffixChars suffixes ++ rest) := fun suffixes _ hrest =>
      (endsRun_suffixChars (forall_mem_marks (by decide)) suffixes).append (hrest.endsRun rfl rfl)
    simp only [chars_mk, List.append_assoc] at h
    obtain ⟨hpath, hbehind⟩ :=
      run_append_inj path.continuesPath_of_mem path'.continuesPath_of_mem
        (endsRun_behind_path arguments suffixes hrest)
        (endsRun_behind_path arguments' suffixes' hrest') h
    obtain ⟨harguments, hsuffixes⟩ :=
      charsEnclosed_append_inj arguments arguments' (hopen suffixes hrest)
        (hopen suffixes' hrest') hbehind
    obtain ⟨rfl, hsame⟩ := suffixChars_append_inj hrest hrest' hsuffixes
    rw [TypePath.chars_injective hpath, harguments]
    exact ⟨rfl, hsame⟩

theorem charsEnclosed_append_inj (arguments arguments' : List TypeExpression)
    {rest rest' : List Char} (hrest : EndsRun (· == '<') rest) (hrest' : EndsRun (· == '<') rest')
    (h : charsEnclosed arguments ++ rest = charsEnclosed arguments' ++ rest') :
    arguments = arguments' ∧ rest = rest' := by
  cases arguments with
  | nil =>
      cases arguments' with
      | nil => exact ⟨rfl, h⟩
      | cons e' arguments' => exact absurd h (ne_charsEnclosed hrest e' arguments' rest')
  | cons e arguments =>
      cases arguments' with
      | nil => exact absurd h.symm (ne_charsEnclosed hrest' e arguments rest)
      | cons e' arguments' =>
          simp only [charsEnclosed_cons, List.cons_append, List.append_assoc, List.nil_append] at h
          obtain ⟨hfirst, hbehind⟩ := chars_append_inj e e' (follows_charsBehind arguments rest)
            (follows_charsBehind arguments' rest') (List.cons.inj h).2
          obtain ⟨hothers, hsame⟩ := charsBehind_append_inj arguments arguments' hbehind
          rw [hfirst, hothers]
          exact ⟨rfl, hsame⟩

theorem charsBehind_append_inj (arguments arguments' : List TypeExpression)
    {rest rest' : List Char}
    (h : charsBehind arguments ++ '>' :: rest = charsBehind arguments' ++ '>' :: rest') :
    arguments = arguments' ∧ rest = rest' := by
  cases arguments with
  | nil =>
      cases arguments' with
      | nil => exact ⟨rfl, (List.cons.inj h).2⟩
      | cons e' arguments' => simp [charsBehind_nil, charsBehind_cons] at h
  | cons e arguments =>
      cases arguments' with
      | nil => simp [charsBehind_nil, charsBehind_cons] at h
      | cons e' arguments' =>
          simp only [charsBehind_cons, List.cons_append, List.append_assoc] at h
          obtain ⟨hfirst, hbehind⟩ := chars_append_inj e e' (follows_charsBehind arguments rest)
            (follows_charsBehind arguments' rest') (List.cons.inj h).2
          obtain ⟨hothers, hsame⟩ := charsBehind_append_inj arguments arguments' hbehind
          rw [hfirst, hothers]
          exact ⟨rfl, hsame⟩

end

/-- A type expression can be read back from its text. -/
theorem chars_injective : Function.Injective chars := by
  intro e e' h
  refine (chars_append_inj e e' follows_nil follows_nil ?_).1
  rw [h]

end TypeTree
end TypeName
end SymbolAtlas
