import SymbolAtlas.Page.Base64
import Mathlib.Tactic

/-!
# Base64 read back

Six bits have a character of their own, three bytes are four groups of six bits, and a shorter
rest is completed by padding.  Reading a text that was written from bytes therefore gives these
bytes, whichever of the two alphabets the reader knows besides.  A text that was cut off is read
only where the cut falls between two groups, and loses the bytes behind the cut.
-/

namespace SymbolAtlas
namespace Base64

theorem sextet?_sextetChar {n : Nat} (hn : n < 64) : sextet? (sextetChar n) = some n := by
  interval_cases n <;> decide

theorem sextetChar_ne_padding {n : Nat} (hn : n < 64) : sextetChar n ≠ '=' := by
  interval_cases n <;> decide

theorem toNat_sextetChar_lt {n : Nat} (hn : n < 64) : (sextetChar n).toNat < 128 := by
  interval_cases n <;> decide

theorem decodeFrom_sextetChar {n : Nat} (hn : n < 64) {group : List Nat}
    (hgroup : group.length < 3) (padding : Nat) (rest : List Char) :
    decodeFrom group padding (sextetChar n :: rest) = decodeFrom (group ++ [n]) 0 rest := by
  rw [decodeFrom, if_neg (sextetChar_ne_padding hn), sextet?_sextetChar hn]
  simp only [if_neg (show ¬ group.length = 3 by omega)]

/-- The fourth sextet completes a group. -/
theorem decodeFrom_fourth {n : Nat} (hn : n < 64) {group : List Nat}
    (hgroup : group.length = 3) (padding : Nat) (rest : List Char) :
    decodeFrom group padding (sextetChar n :: rest) =
      (decodeFrom [] 0 rest).map fun bytes => groupBytes (group ++ [n]) ++ bytes := by
  rw [decodeFrom, if_neg (sextetChar_ne_padding hn), sextet?_sextetChar hn]
  simp only [if_pos hgroup]

/-- Four characters stand for the bytes of their sextets. -/
theorem decodeFrom_group {a b c d : Nat} (ha : a < 64) (hb : b < 64) (hc : c < 64) (hd : d < 64)
    (rest : List Char) :
    decodeFrom [] 0 (sextetChar a :: sextetChar b :: sextetChar c :: sextetChar d :: rest) =
      (decodeFrom [] 0 rest).map fun bytes =>
        [a * 4 + b / 16, b % 16 * 16 + c / 4, c % 4 * 64 + d] ++ bytes := by
  rw [decodeFrom_sextetChar ha (by simp), decodeFrom_sextetChar hb (by simp),
    decodeFrom_sextetChar hc (by simp), decodeFrom_fourth hd (by simp)]
  rfl

/-- Two padding characters complete a group that stands for one byte. -/
theorem decodeFrom_two_padding {a b : Nat} (ha : a < 64) (hb : b < 64) :
    decodeFrom [] 0 [sextetChar a, sextetChar b, '=', '='] = some [a * 4 + b / 16] := by
  rw [decodeFrom_sextetChar ha (by simp), decodeFrom_sextetChar hb (by simp)]
  simp [decodeFrom, groupBytes]

/-- One padding character completes a group that stands for two bytes. -/
theorem decodeFrom_one_padding {a b c : Nat} (ha : a < 64) (hb : b < 64) (hc : c < 64) :
    decodeFrom [] 0 [sextetChar a, sextetChar b, sextetChar c, '='] =
      some [a * 4 + b / 16, b % 16 * 16 + c / 4] := by
  rw [decodeFrom_sextetChar ha (by simp), decodeFrom_sextetChar hb (by simp),
    decodeFrom_sextetChar hc (by simp)]
  simp [decodeFrom, groupBytes]

theorem decode_encode {bytes : List Nat} (hbytes : ∀ byte ∈ bytes, byte < 256) :
    decode (encode bytes) = some bytes := by
  unfold decode
  induction bytes using encode.induct with
  | case1 => simp [encode, decodeFrom]
  | case2 a =>
      have ha := hbytes a (by simp)
      rw [encode, decodeFrom_two_padding (by omega) (by omega)]
      simp only [Option.some.injEq, List.cons.injEq, and_true]
      omega
  | case3 a b =>
      have ha := hbytes a (by simp)
      have hb := hbytes b (by simp)
      rw [encode, decodeFrom_one_padding (by omega) (by omega) (by omega)]
      simp only [Option.some.injEq, List.cons.injEq, and_true]
      omega
  | case4 a b c rest ih =>
      have ha := hbytes a (by simp)
      have hb := hbytes b (by simp)
      have hc := hbytes c (by simp)
      have hrest : ∀ byte ∈ rest, byte < 256 := by
        intro byte hmem
        exact hbytes byte (by simp [hmem])
      rw [encode, decodeFrom_group (by omega) (by omega) (by omega) (by omega), ih hrest]
      simp only [Option.map_some, Option.some.injEq, List.cons_append, List.nil_append,
        List.cons.injEq, and_true]
      omega

theorem toNat_lt_of_mem_encode {bytes : List Nat} (hbytes : ∀ byte ∈ bytes, byte < 256)
    {c : Char} (hmem : c ∈ encode bytes) : c.toNat < 128 := by
  induction bytes using encode.induct with
  | case1 => simp [encode] at hmem
  | case2 a =>
      have ha := hbytes a (by simp)
      simp only [encode, List.mem_cons, List.not_mem_nil, or_false] at hmem
      rcases hmem with rfl | rfl | rfl | rfl
      · exact toNat_sextetChar_lt (by omega)
      · exact toNat_sextetChar_lt (by omega)
      · decide
      · decide
  | case3 a b =>
      have ha := hbytes a (by simp)
      have hb := hbytes b (by simp)
      simp only [encode, List.mem_cons, List.not_mem_nil, or_false] at hmem
      rcases hmem with rfl | rfl | rfl | rfl
      · exact toNat_sextetChar_lt (by omega)
      · exact toNat_sextetChar_lt (by omega)
      · exact toNat_sextetChar_lt (by omega)
      · decide
  | case4 a b c rest ih =>
      have ha := hbytes a (by simp)
      have hb := hbytes b (by simp)
      have hc := hbytes c (by simp)
      simp only [encode, List.mem_cons] at hmem
      rcases hmem with rfl | rfl | rfl | rfl | hrest
      · exact toNat_sextetChar_lt (by omega)
      · exact toNat_sextetChar_lt (by omega)
      · exact toNat_sextetChar_lt (by omega)
      · exact toNat_sextetChar_lt (by omega)
      · apply ih _ hrest
        intro byte hbyte
        exact hbytes byte (by simp [hbyte])

/-! ## Encodings that were cut off -/

section

variable {a b c : Nat}

theorem decode_nil : decode [] = some [] := by
  simp [decode, decodeFrom]

theorem decode_one (ha : a < 64) : decode [sextetChar a] = none := by
  rw [decode, decodeFrom_sextetChar ha (by simp)]
  simp [decodeFrom]

theorem decode_two (ha : a < 64) (hb : b < 64) : decode [sextetChar a, sextetChar b] = none := by
  rw [decode, decodeFrom_sextetChar ha (by simp), decodeFrom_sextetChar hb (by simp)]
  simp [decodeFrom]

theorem decode_half_padded (ha : a < 64) (hb : b < 64) :
    decode [sextetChar a, sextetChar b, '='] = none := by
  rw [decode, decodeFrom_sextetChar ha (by simp), decodeFrom_sextetChar hb (by simp)]
  simp [decodeFrom]

theorem decode_three (ha : a < 64) (hb : b < 64) (hc : c < 64) :
    decode [sextetChar a, sextetChar b, sextetChar c] = none := by
  rw [decode, decodeFrom_sextetChar ha (by simp), decodeFrom_sextetChar hb (by simp),
    decodeFrom_sextetChar hc (by simp)]
  simp [decodeFrom]

/-- Of a group that is not complete, nothing is read but an empty text. -/
theorem eq_nil_of_decode {p : List Char} {x : Char} {read : List Nat} (ha : a < 64) (hb : b < 64)
    (hx : x = '=' ∨ ∃ c < 64, x = sextetChar c) (hp : p <+: [sextetChar a, sextetChar b, x])
    (hread : decode p = some read) : read = [] := by
  simp only [List.prefix_cons_iff, List.prefix_nil] at hp
  rcases hp with rfl | ⟨_, rfl, rfl | ⟨_, rfl, rfl | ⟨_, rfl, rfl⟩⟩⟩
  · rw [decode_nil, Option.some.injEq] at hread
    exact hread.symm
  · simp [decode_one ha] at hread
  · simp [decode_two ha hb] at hread
  · obtain rfl | ⟨c, hc, rfl⟩ := hx
    · simp [decode_half_padded ha hb] at hread
    · simp [decode_three ha hb hc] at hread

end

/-- A cut encoding decodes, if at all, to the bytes of the groups in front of the cut. -/
theorem prefix_of_decode {bytes : List Nat} (hbytes : ∀ byte ∈ bytes, byte < 256) {p : List Char}
    (hp : p <+: encode bytes) (hcut : p ≠ encode bytes) {read : List Nat}
    (hread : decode p = some read) : read <+: bytes ∧ read ≠ bytes := by
  induction bytes using encode.induct generalizing p read with
  | case1 => exact absurd (List.prefix_nil.mp hp) hcut
  | case2 a =>
      have ha := hbytes a (by simp)
      have hopen : p <+: [sextetChar (a / 4), sextetChar (a % 4 * 16), '='] :=
        (List.prefix_concat_iff.mp hp).resolve_left hcut
      obtain rfl := eq_nil_of_decode (by omega) (by omega) (Or.inl rfl) hopen hread
      simp
  | case3 a b =>
      have ha := hbytes a (by simp)
      have hb := hbytes b (by simp)
      have hopen : p <+: [sextetChar (a / 4), sextetChar (a % 4 * 16 + b / 16),
          sextetChar (b % 16 * 4)] :=
        (List.prefix_concat_iff.mp hp).resolve_left hcut
      obtain rfl :=
        eq_nil_of_decode (by omega) (by omega) (Or.inr ⟨_, by omega, rfl⟩) hopen hread
      simp
  | case4 a b c rest ih =>
      have ha := hbytes a (by simp)
      have hb := hbytes b (by simp)
      have hc := hbytes c (by simp)
      have hfront : [sextetChar (a / 4), sextetChar (a % 4 * 16 + b / 16),
          sextetChar (b % 16 * 4 + c / 64), sextetChar (c % 64)] <+: encode (a :: b :: c :: rest) :=
        ⟨encode rest, rfl⟩
      by_cases hgroup : [sextetChar (a / 4), sextetChar (a % 4 * 16 + b / 16),
          sextetChar (b % 16 * 4 + c / 64), sextetChar (c % 64)] <+: p
      · obtain ⟨p, rfl⟩ := hgroup
        obtain ⟨more, hmore, rfl⟩ : ∃ more, decode p = some more ∧ [a, b, c] ++ more = read := by
          simp only [List.cons_append, List.nil_append, decode] at hread
          rw [decodeFrom_group (by omega) (by omega) (by omega) (by omega),
            Option.map_eq_some_iff] at hread
          obtain ⟨more, hmore, rfl⟩ := hread
          refine ⟨more, hmore, ?_⟩
          simp only [List.cons_append, List.nil_append, List.cons.injEq, and_true]
          omega
        have hrest : more <+: rest ∧ more ≠ rest := by
          refine ih ?_ ((List.prefix_append_right_inj _).mp hp) ?_ hmore
          · intro byte hbyte
            exact hbytes byte (by simp [hbyte])
          · rintro rfl
            exact hcut rfl
        simpa using hrest
      · have hopen := (List.prefix_or_prefix_of_prefix hp hfront).resolve_right hgroup
        have hshort : p <+: [sextetChar (a / 4), sextetChar (a % 4 * 16 + b / 16),
            sextetChar (b % 16 * 4 + c / 64)] :=
          (List.prefix_concat_iff.mp hopen).resolve_left fun h => hgroup ⟨[], by rw [h]; rfl⟩
        obtain rfl :=
          eq_nil_of_decode (by omega) (by omega) (Or.inr ⟨_, by omega, rfl⟩) hshort hread
        simp

end Base64
end SymbolAtlas
