import SymbolAtlas.Json.Reader
import SymbolAtlas.Proofs.Number.Digits
import Mathlib.Tactic

/-!
# What the reader makes of plain JSON

A string without quotes, escapes and control characters is read as it stands, and the digits of a
natural number are read as that number, up to the greatest number of digits.  Both leave exactly
the text behind them.
-/

namespace SymbolAtlas
namespace Json

/-- A character that stands for itself in a string. -/
def IsPlain (c : Char) : Prop :=
  c ≠ '"' ∧ c ≠ '\\' ∧ 32 ≤ c.toNat

instance (c : Char) : Decidable (IsPlain c) :=
  inferInstanceAs (Decidable (_ ∧ _ ∧ _))

theorem readStringFrom?_plain {c : Char} (hplain : IsPlain c) (done : List Char) (fuel : Nat)
    (rest : List Char) :
    readStringFrom? done (fuel + 1) (c :: rest) = readStringFrom? (c :: done) fuel rest := by
  obtain ⟨hquote, hescape, hvisible⟩ := hplain
  rw [readStringFrom?]
  · rw [if_neg]
    rintro (hc | hc)
    · exact hescape hc
    · omega
  · exact hquote
  · intro _ hc
    exact absurd hc hescape
  · intro _ _ hc
    exact absurd hc hescape

/-- A plain text up to its closing quote is read as it stands. -/
theorem readStringFrom?_closed {text : List Char} (hplain : ∀ c ∈ text, IsPlain c)
    (done : List Char) {fuel : Nat} (hfuel : text.length < fuel) (rest : List Char) :
    readStringFrom? done fuel (text ++ '"' :: rest) =
      some (String.ofList (done.reverse ++ text), rest) := by
  induction text generalizing done fuel with
  | nil =>
      obtain ⟨fuel, rfl⟩ : ∃ k, fuel = k + 1 := ⟨fuel - 1, by simp at hfuel; omega⟩
      simp [readStringFrom?]
  | cons c text ih =>
      obtain ⟨fuel, rfl⟩ : ∃ k, fuel = k + 1 := ⟨fuel - 1, by simp at hfuel; omega⟩
      rw [List.cons_append, readStringFrom?_plain (hplain c List.mem_cons_self),
        ih (fun d hd => hplain d (List.mem_cons_of_mem c hd)) _ (by simp at hfuel; omega)]
      simp

/-- A text that a run of digits may end at. -/
def EndsDigits (rest : List Char) : Prop :=
  ∀ c ∈ rest.head?, c.isDigit = false ∧ c ≠ '.' ∧ c ≠ 'e' ∧ c ≠ 'E'

theorem spanDigits_append {digits rest : List Char} (hdigits : ∀ c ∈ digits, c.isDigit = true)
    (hrest : EndsDigits rest) : spanDigits (digits ++ rest) = (digits, rest) := by
  unfold spanDigits
  rw [List.span_eq_takeWhile_dropWhile, List.takeWhile_append_of_pos hdigits,
    List.dropWhile_append_of_pos hdigits]
  cases rest with
  | nil => simp
  | cons c rest =>
      have hc : c.isDigit = false := (hrest c rfl).1
      simp [hc]

theorem readFraction_eq_none {rest : List Char} (hrest : EndsDigits rest) :
    readFraction rest = none := by
  cases rest with
  | nil => rfl
  | cons c rest =>
      obtain ⟨-, hpoint, -⟩ := hrest c rfl
      unfold readFraction
      split
      next heq => exact absurd (List.cons.inj heq).1 hpoint
      next => rfl

theorem readExponent_eq_none {rest : List Char} (hrest : EndsDigits rest) :
    readExponent rest = none := by
  cases rest with
  | nil => rfl
  | cons c rest =>
      obtain ⟨-, -, hlower, hupper⟩ := hrest c rfl
      simp [readExponent, hlower, hupper]

theorem spanWhole_naturalDigits (n : Nat) {rest : List Char} (hrest : EndsDigits rest) :
    spanWhole (Number.naturalDigits n ++ rest) = (Number.naturalDigits n, rest) := by
  by_cases hn : n = 0
  · subst n
    rw [Number.naturalDigits_of_lt_ten (by omega)]
    rfl
  · have hspan := spanDigits_append
      (fun c hc => Number.isDigit_of_mem_naturalDigits (n := n) hc) hrest
    unfold spanWhole
    split
    next more heq =>
      have hhead : (Number.naturalDigits n).head? = some '0' := by
        have happend : (Number.naturalDigits n ++ rest).head? = (Number.naturalDigits n).head? :=
          List.head?_append_of_ne_nil (Number.naturalDigits n) (Number.naturalDigits_ne_nil n)
        rw [← happend, heq]
        rfl
      exact absurd ((Number.head?_naturalDigits_eq_zero_iff n).mp hhead) hn
    next => exact hspan

theorem readUnsigned?_digits (negative : Bool) (n : Nat) {rest : List Char}
    (hrest : EndsDigits rest) :
    readUnsigned? negative (Number.naturalDigits n ++ rest) =
      if Number.digitLimit < (Number.naturalDigits n).length then none
      else some (.int (if negative then -(n : Int) else n), rest) := by
  have hempty : (Number.naturalDigits n).isEmpty = false := by
    simp [Number.naturalDigits_ne_nil n]
  unfold readUnsigned?
  rw [spanWhole_naturalDigits n hrest]
  simp [hempty, readFraction_eq_none hrest, readExponent_eq_none hrest,
    Number.valueOfDigits?_naturalDigits]

theorem readUnsigned?_naturalDigits {n : Nat} (hn : n < 10 ^ Number.digitLimit)
    {rest : List Char} (hrest : EndsDigits rest) :
    readUnsigned? false (Number.naturalDigits n ++ rest) = some (.int n, rest) := by
  have hlength : ¬ Number.digitLimit < (Number.naturalDigits n).length := by
    have hle := Number.length_naturalDigits_le (by decide : 0 < Number.digitLimit) hn
    omega
  simp [readUnsigned?_digits false n hrest, hlength]

theorem readValue?_digitChar {d : Nat} (hd : d < 10) (fuel : Nat) (rest : List Char) :
    readValue? (fuel + 1) (Number.digitChar d :: rest) =
      readUnsigned? false (Number.digitChar d :: rest) := by
  interval_cases d <;> rfl

theorem readValue?_naturalDigits {n : Nat} (hn : n < 10 ^ Number.digitLimit) (fuel : Nat)
    {rest : List Char} (hrest : EndsDigits rest) :
    readValue? (fuel + 1) (Number.naturalDigits n ++ rest) = some (.int n, rest) := by
  rw [← readUnsigned?_naturalDigits hn hrest]
  obtain ⟨d, digits, hd, hdigits⟩ := Number.exists_naturalDigits_eq_cons n
  rw [hdigits]
  exact readValue?_digitChar hd fuel (digits ++ rest)

theorem readName?_minus {cs : List Char} (hcs : cs.head? ≠ some 'I') :
    readName? ('-' :: cs) = none := by
  have hletters : afterName? "-Infinity" ('-' :: cs) = none := by
    apply if_neg
    cases cs with
    | nil => decide
    | cons c cs =>
        have hc : c ≠ 'I' := by simpa using hcs
        have hfirst : ('I' == c) = false := by simpa using hc.symm
        change ¬ (('-' == '-' && ('I' == c && "nfinity".toList.isPrefixOf cs)) = true)
        simp [hfirst]
  unfold readName?
  simp only [List.findSome?_cons, hletters]
  rfl

/-- Behind a minus sign stands a number, unless a name does. -/
theorem readValue?_minus {cs : List Char} (hcs : cs.head? ≠ some 'I') (fuel : Nat) :
    readValue? (fuel + 1) ('-' :: cs) = readUnsigned? true cs := by
  rw [readValue?]
  simp [readName?_minus hcs]

theorem readValue?_negative (n fuel : Nat) {rest : List Char} (hrest : EndsDigits rest) :
    readValue? (fuel + 1) ('-' :: (Number.naturalDigits n ++ rest)) =
      if Number.digitLimit < (Number.naturalDigits n).length then none
      else some (.int (-(n : Int)), rest) := by
  have hhead : (Number.naturalDigits n ++ rest).head? ≠ some 'I' := by
    rw [List.head?_append_of_ne_nil _ (Number.naturalDigits_ne_nil n)]
    intro hhead
    have hdigit := Number.isDigit_of_mem_naturalDigits (List.mem_of_mem_head? hhead)
    exact absurd hdigit (by decide)
  rw [readValue?_minus hhead, readUnsigned?_digits true n hrest]
  rfl

/-! ## Entries with plain keys -/

theorem readStringFrom?_key {key : List Char} (hkey : ∀ c ∈ key, IsPlain c) (rest : List Char) :
    readStringFrom? [] ((key ++ '"' :: rest).length + 1) (key ++ '"' :: rest) =
      some (String.ofList key, rest) := by
  have hlength : key.length < (key ++ '"' :: rest).length + 1 := by
    rw [List.length_append]
    omega
  exact readStringFrom?_closed hkey [] hlength rest

theorem skipSpace_quote (text : List Char) : skipSpace ('"' :: text) = '"' :: text :=
  rfl

theorem skipSpace_colon (text : List Char) : skipSpace (':' :: text) = ':' :: text :=
  rfl

variable {key text after : List Char} {value : Value} {fuel : Nat}

theorem readEntries?_last (hkey : ∀ c ∈ key, IsPlain c) (done : List (Value × Value))
    (hvalue : readValue? fuel (skipSpace text) = some (value, '\x7d' :: after)) :
    readEntries? (fuel + 1) done ('"' :: (key ++ '"' :: ':' :: text)) =
      some (.mapping (Value.putEntry done (.text (String.ofList key)) value), after) := by
  rw [readEntries?, skipSpace_quote]
  simp only [readStringFrom?_key hkey, skipSpace_colon, hvalue]
  rfl

theorem readEntries?_eq_none (hkey : ∀ c ∈ key, IsPlain c) (done : List (Value × Value))
    (hvalue : readValue? fuel (skipSpace text) = none) :
    readEntries? (fuel + 1) done ('"' :: (key ++ '"' :: ':' :: text)) = none := by
  rw [readEntries?, skipSpace_quote]
  simp only [readStringFrom?_key hkey, skipSpace_colon, hvalue]

theorem readEntries?_more (hkey : ∀ c ∈ key, IsPlain c) (done : List (Value × Value))
    (hvalue : readValue? fuel (skipSpace text) = some (value, ',' :: after)) :
    readEntries? (fuel + 1) done ('"' :: (key ++ '"' :: ':' :: text)) =
      readEntries? fuel (Value.putEntry done (.text (String.ofList key)) value) after := by
  rw [readEntries?, skipSpace_quote]
  simp only [readStringFrom?_key hkey, skipSpace_colon, hvalue]
  rfl

end Json
end SymbolAtlas
