import SymbolAtlas.Page.Cursor
import SymbolAtlas.Proofs.Json.Reader
import SymbolAtlas.Proofs.Page.Base64
import Mathlib.Tactic

/-!
# Cursors read back

The record of an offset is ASCII text, so that its characters are its bytes, and Base64 keeps
bytes.  What is left is that the reader of records finds the offset again, which it does for every
offset whose digits it accepts.
-/

namespace SymbolAtlas
namespace Cursor

theorem forall_of_all {p : Char → Prop} [DecidablePred p] {cs : List Char}
    (hall : (cs.all fun c => decide (p c)) = true) : ∀ c ∈ cs, p c := by
  intro c hc
  exact of_decide_eq_true (List.all_eq_true.mp hall c hc)

theorem decodeUtf8_ascii {cs : List Char} (hcs : ∀ c ∈ cs, c.toNat < 128) :
    decodeUtf8 (cs.map Char.toNat) = some cs := by
  induction cs with
  | nil => simp [decodeUtf8]
  | cons c rest ih =>
      have hc : c.toNat < 128 := hcs c List.mem_cons_self
      have hrest := ih fun d hd => hcs d (List.mem_cons_of_mem c hd)
      rw [List.map_cons, decodeUtf8.eq_def]
      simp only [if_pos hc, hrest, Option.map_some, Char.ofNat_toNat]

theorem wholeDigits_natCast (n : Nat) : Number.wholeDigits (n : Int) = Number.naturalDigits n :=
  rfl

theorem payload_eq (offset : Int) :
    payload offset = '\x7b' :: '"' :: (['v'] ++ '"' :: ':' :: '1' :: ',' :: '"' ::
      ("offset".toList ++ '"' :: ':' :: (Number.wholeDigits offset ++ ['\x7d']))) :=
  rfl

theorem sign_or_digit_of_mem_wholeDigits {offset : Int} {c : Char}
    (hmem : c ∈ Number.wholeDigits offset) : c = '-' ∨ ∃ n, c ∈ Number.naturalDigits n := by
  cases offset with
  | ofNat n => exact .inr ⟨n, hmem⟩
  | negSucc n =>
      rcases List.mem_cons.mp hmem with hsign | hdigit
      · exact .inl hsign
      · exact .inr ⟨n + 1, hdigit⟩

theorem toNat_lt_of_mem_payload {offset : Int} {c : Char} (hmem : c ∈ payload offset) :
    c.toNat < 128 := by
  have hfront : ∀ c ∈ "\x7b\"v\":1,\"offset\":".toList, c.toNat < 128 :=
    forall_of_all (by decide)
  unfold payload at hmem
  rw [List.mem_append, List.mem_append] at hmem
  rcases hmem with (hmem | hmem) | hmem
  · exact hfront c hmem
  · rcases sign_or_digit_of_mem_wholeDigits hmem with rfl | ⟨n, hdigit⟩
    · decide
    · exact Number.toNat_lt_of_mem_naturalDigits hdigit
  · rw [List.mem_singleton] at hmem
    subst c
    decide

theorem skipSpace_naturalDigits (n : Nat) (rest : List Char) :
    Json.skipSpace (Number.naturalDigits n ++ rest) = Number.naturalDigits n ++ rest := by
  obtain ⟨d, digits, hd, hdigits⟩ := Number.exists_naturalDigits_eq_cons n
  rw [hdigits]
  interval_cases d <;> rfl

theorem isPlain_offset : ∀ c ∈ "offset".toList, Json.IsPlain c :=
  forall_of_all (by decide)

theorem endsDigits_brace : Json.EndsDigits ['\x7d'] := by
  intro c hc
  obtain rfl : c = '\x7d' := by simpa using hc.symm
  decide

/-- The entry of the version is read whatever the offset is. -/
theorem readValue?_payload_eq (offset : Int) (fuel : Nat) :
    Json.readValue? (fuel + 4) (payload offset) =
      Json.readEntries? (fuel + 2) [(.text "v", .int 1)] ('"' ::
        ("offset".toList ++ '"' :: ':' :: (Number.wholeDigits offset ++ ['\x7d']))) := by
  have hplain : ∀ c ∈ ['v'], Json.IsPlain c := forall_of_all (by decide)
  have hversion : ∀ text, Json.readValue? (fuel + 2) (Json.skipSpace ('1' :: ',' :: text)) =
      some (.int 1, ',' :: text) := by
    intro text
    have hone : 1 < 10 ^ Number.digitLimit := Nat.one_lt_pow (by decide) (by decide)
    have hends : Json.EndsDigits (',' :: text) := by
      intro c hc
      obtain rfl : c = ',' := by simpa using hc.symm
      decide
    have hread := Json.readValue?_naturalDigits hone (fuel + 1) hends
    rw [Number.naturalDigits_of_lt_ten (by omega)] at hread
    exact hread
  rw [payload_eq]
  calc
    _ = Json.readEntries? (fuel + 3) [] ('"' :: (['v'] ++ '"' :: ':' :: '1' :: ',' :: '"' ::
          ("offset".toList ++ '"' :: ':' :: (Number.wholeDigits offset ++ ['\x7d'])))) := rfl
    _ = _ := by
      rw [Json.readEntries?_more hplain [] (hversion _)]
      rfl

/-- A text with the record of an offset is read with enough fuel for its two entries. -/
theorem exists_read?_payload_eq (offset : Int) :
    ∃ fuel, Json.read? (payload offset) =
      match Json.readEntries? (fuel + 2) [(.text "v", .int 1)] ('"' ::
        ("offset".toList ++ '"' :: ':' :: (Number.wholeDigits offset ++ ['\x7d']))) with
      | some (record, rest) => if (Json.skipSpace rest).isEmpty then some record else none
      | none => none := by
  have hspace : Json.skipSpace (payload offset) = payload offset := rfl
  have hlength : 3 ≤ (payload offset).length := by
    rw [payload_eq]
    simp
  have hfuel : (payload offset).length + 1 = (payload offset).length - 3 + 4 := by
    omega
  use (payload offset).length - 3
  rewrite [Json.read?, hspace, hfuel, readValue?_payload_eq]
  rfl

/-- The record of an offset is read as its version and the offset. -/
theorem read?_payload {n : Nat} (hn : n < 10 ^ Number.digitLimit) :
    Json.read? (payload n) =
      some (.mapping [(.text "v", .int 1), (.text "offset", .int n)]) := by
  obtain ⟨fuel, hread⟩ := exists_read?_payload_eq n
  have hnumber : Json.readValue? (fuel + 1)
      (Json.skipSpace (Number.naturalDigits n ++ ['\x7d'])) = some (.int n, ['\x7d']) := by
    rw [skipSpace_naturalDigits]
    exact Json.readValue?_naturalDigits hn fuel endsDigits_brace
  rw [hread, wholeDigits_natCast, Json.readEntries?_last isPlain_offset _ hnumber]
  rfl

theorem offsetIn_record (n : Nat) :
    offsetIn (.mapping [(.text "v", .int 1), (.text "offset", .int n)]) = some n := by
  have hversion : ((Value.mapping [(.text "v", .int 1), (.text "offset", .int n)]).field
      "v") = .int 1 := rfl
  have hoffset : ((Value.mapping [(.text "v", .int 1), (.text "offset", .int n)]).field
      "offset") = .int n := rfl
  have hcurrent : (Number.whole 1).eq (.whole 1) = true := by decide
  simp [offsetIn, hversion, hoffset, Value.number?, hcurrent]

/-- A cursor that spells a text carries the offset of the record in that text. -/
theorem decode?_ofList_encode {text : List Char} (htext : ∀ c ∈ text, c.toNat < 128) :
    decode? (String.ofList (Base64.encode (text.map Char.toNat))) =
      (Json.read? text).bind offsetIn := by
  have hbytes : ∀ byte ∈ text.map Char.toNat, byte < 256 := by
    intro byte hmem
    obtain ⟨c, hc, rfl⟩ := List.mem_map.mp hmem
    have hlt := htext c hc
    omega
  have hascii : ((Base64.encode (text.map Char.toNat)).all fun c => c.toNat < 128) = true := by
    rw [List.all_eq_true]
    intro c hc
    exact decide_eq_true (Base64.toNat_lt_of_mem_encode hbytes hc)
  unfold decode?
  simp only [String.toList_ofList, hascii, if_true, Base64.decode_encode hbytes,
    Option.bind_eq_bind, Option.bind_some, decodeUtf8_ascii htext]

/-- A cursor carries the offset that it was made from. -/
theorem decode?_encode {n : Nat} (hn : n < 10 ^ Number.digitLimit) :
    decode? (encode n) = some n := by
  rw [encode, decode?_ofList_encode fun c hc => toNat_lt_of_mem_payload hc, read?_payload hn]
  exact offsetIn_record n

end Cursor
end SymbolAtlas
