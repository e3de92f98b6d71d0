import SymbolAtlas.Proofs.Json.Consumption
import SymbolAtlas.Proofs.Page.Cursor
import Mathlib.Tactic

/-!
# Cursors that were cut off

The only closing brace of a record is its last character.  A cut cursor decodes, if at all, to a
record that was cut off before the brace, and such a record is not read.  So a part of a cursor
never stands for a smaller offset than the whole, and neither does a cursor that was made from a
negative offset, since the reader finds that offset and refuses it.
-/

namespace SymbolAtlas
namespace Cursor

variable {offset : Int}

theorem brace_not_mem_of_cut {text : List Char} (htext : text <+: payload offset)
    (hcut : text ≠ payload offset) : '\x7d' ∉ text := by
  unfold payload at htext hcut
  rcases List.prefix_concat_iff.mp htext with rfl | hfront
  · exact absurd rfl hcut
  · intro hmem
    rcases List.mem_append.mp (hfront.subset hmem) with hkeys | hnumber
    · exact absurd hkeys (by decide)
    · rcases sign_or_digit_of_mem_wholeDigits hnumber with hsign | ⟨n, hdigit⟩
      · exact absurd hsign (by decide)
      · exact absurd (Number.isDigit_of_mem_naturalDigits hdigit) (by decide)

/-- A record that was cut off is not read. -/
theorem read?_of_cut {text : List Char} (htext : text <+: payload offset)
    (hcut : text ≠ payload offset) : Json.read? text = none := by
  have hbrace := brace_not_mem_of_cut htext hcut
  rw [payload_eq, List.prefix_cons_iff] at htext
  rcases htext with rfl | ⟨rest, rfl, -⟩
  · decide
  · have hspace : Json.skipSpace ('\x7b' :: rest) = '\x7b' :: rest := rfl
    rw [Json.read?, hspace]
    split
    next value after hread =>
      have hmem := Json.brace_mem_of_readValue? hread
      exact absurd (List.mem_cons_of_mem _ hmem) hbrace
    next => rfl

/-- A cut cursor is no cursor. -/
theorem decode?_of_cut {cursor : String} (hcursor : cursor.toList <+: (encode offset).toList)
    (hcut : cursor ≠ encode offset) : decode? cursor = none := by
  have hbytes : ∀ byte ∈ (payload offset).map Char.toNat, byte < 256 := by
    intro byte hmem
    obtain ⟨c, hc, rfl⟩ := List.mem_map.mp hmem
    have hlt := toNat_lt_of_mem_payload hc
    omega
  have hne : cursor.toList ≠ (encode offset).toList := by
    intro heq
    exact hcut (String.toList_inj.mp heq)
  rw [encode, String.toList_ofList] at hcursor hne
  unfold decode?
  dsimp only
  split
  next =>
    cases hread : Base64.decode cursor.toList with
    | none => rfl
    | some bytes =>
        obtain ⟨hfront, hlost⟩ := Base64.prefix_of_decode hbytes hcursor hne hread
        obtain ⟨text, htext, rfl⟩ :
            ∃ text, text <+: payload offset ∧ text.map Char.toNat = bytes := by
          use (payload offset).take bytes.length
          constructor
          · exact List.take_prefix bytes.length (payload offset)
          · rw [List.map_take]
            exact (List.prefix_iff_eq_take.mp hfront).symm
        have hshort : text ≠ payload offset := by
          rintro rfl
          exact hlost rfl
        have hascii : ∀ c ∈ text, c.toNat < 128 := by
          intro c hc
          exact toNat_lt_of_mem_payload (htext.subset hc)
        simp [decodeUtf8_ascii hascii, read?_of_cut htext hshort]
  next => rfl

/-- A negative offset is read as it was written, or has too many digits to be read. -/
theorem read?_payload_negSucc (n : Nat) :
    Json.read? (payload (.negSucc n)) =
      if Number.digitLimit < (Number.naturalDigits (n + 1)).length then none
      else some (.mapping [(.text "v", .int 1), (.text "offset", .int (-(n + 1 : Nat)))]) := by
  obtain ⟨fuel, hread⟩ := exists_read?_payload_eq (.negSucc n)
  have hnumber := Json.readValue?_negative (n + 1) fuel endsDigits_brace
  have hspace : Json.skipSpace (Number.wholeDigits (.negSucc n) ++ ['\x7d']) =
      '-' :: (Number.naturalDigits (n + 1) ++ ['\x7d']) := rfl
  rw [← hspace] at hnumber
  by_cases hlong : Number.digitLimit < (Number.naturalDigits (n + 1)).length
  · rw [if_pos hlong] at hnumber ⊢
    rw [hread, Json.readEntries?_eq_none isPlain_offset _ hnumber]
  · rw [if_neg hlong] at hnumber ⊢
    rw [hread, Json.readEntries?_last isPlain_offset _ hnumber]
    rfl

theorem offsetIn_negative (n : Nat) :
    offsetIn (.mapping [(.text "v", .int 1), (.text "offset", .int (-(n + 1 : Nat)))]) = none := by
  have hoffset : ((Value.mapping [(.text "v", .int 1),
      (.text "offset", .int (-(n + 1 : Nat)))]).field "offset") = .int (-(n + 1 : Nat)) := rfl
  have hsign : ¬ (0 : Int) ≤ -(n + 1 : Nat) := by omega
  simp only [offsetIn, hoffset, hsign, if_false, ite_self]

theorem decode?_encode_negative (hnegative : offset < 0) : decode? (encode offset) = none := by
  obtain ⟨n, rfl⟩ := Int.eq_negSucc_of_lt_zero hnegative
  rw [encode, decode?_ofList_encode fun c hc => toNat_lt_of_mem_payload hc,
    read?_payload_negSucc]
  split
  next => rfl
  next => exact offsetIn_negative n

/-- A cursor that was made from an offset carries that offset if it is not negative, and no part of
the cursor carries any. -/
theorem decode?_of_prefix (hlimit : offset < 10 ^ Number.digitLimit) {cursor : String}
    (hcursor : cursor.toList <+: (encode offset).toList) :
    decode? cursor = if 0 ≤ offset ∧ cursor = encode offset then some offset.toNat else none := by
  by_cases hcut : cursor = encode offset
  · subst cursor
    by_cases hsign : 0 ≤ offset
    · obtain ⟨n, rfl⟩ := Int.eq_ofNat_of_zero_le hsign
      have hn : n < 10 ^ Number.digitLimit := by exact_mod_cast hlimit
      simp [decode?_encode hn]
    · simp [hsign, decode?_encode_negative (not_le.mp hsign)]
  · simp [hcut, decode?_of_cut hcursor hcut]

theorem decode?_of_prefix_page :
    decode? (encode 400) = some 400 ∧
      decode? (String.ofList ((encode 400).toList.take 24)) = none ∧
        decode? (encode (-400)) = none := by
  have hlimit : (400 : Int) < 10 ^ Number.digitLimit := by
    apply lt_of_lt_of_le (show (400 : Int) < 10 ^ 3 by decide)
    exact pow_le_pow_right₀ (by decide) (by decide)
  have hnegative : (-400 : Int) < 10 ^ Number.digitLimit :=
    lt_trans (by decide) hlimit
  have hcut : (String.ofList ((encode 400).toList.take 24)).toList <+: (encode 400).toList := by
    rw [String.toList_ofList]
    exact List.take_prefix 24 (encode 400).toList
  have hshort : String.ofList ((encode 400).toList.take 24) ≠ encode 400 := by decide +kernel
  refine ⟨?_, ?_, ?_⟩
  · simpa using decode?_of_prefix hlimit (List.prefix_refl (encode 400).toList)
  · simpa [hshort] using decode?_of_prefix hlimit hcut
  · simpa using decode?_of_prefix hnegative (List.prefix_refl (encode (-400)).toList)

end Cursor
end SymbolAtlas
