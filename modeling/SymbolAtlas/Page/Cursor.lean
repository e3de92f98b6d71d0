import SymbolAtlas.Json.Reader
import SymbolAtlas.Page.Base64

/-!
# Cursors

A cursor is an opaque text that carries the offset of the next page.  It spells a small versioned
record in Base64.  Whatever does not spell such a record is no cursor, and has no offset.
-/

namespace SymbolAtlas
namespace Cursor

def payload (offset : Int) : List Char :=
  "\x7b\"v\":1,\"offset\":".toList ++ Number.wholeDigits offset ++ ['\x7d']

def encode (offset : Int) : String :=
  String.ofList (Base64.encode ((payload offset).map Char.toNat))

/-- A byte that continues a character, without its marker. -/
def continuation? (byte : Nat) : Option Nat :=
  if 0x80 ≤ byte ∧ byte < 0xC0 then some (byte - 0x80) else none

/-- The characters of UTF-8 bytes, each in its shortest form and none a surrogate. -/
def decodeUtf8 : List Nat → Option (List Char)
  | [] => some []
  | a :: rest =>
      if a < 0x80 then (decodeUtf8 rest).map (Char.ofNat a :: ·)
      else
        match rest with
        | b :: rest =>
            match continuation? b with
            | none => none
            | some b =>
                if 0xC2 ≤ a ∧ a < 0xE0 then
                  (decodeUtf8 rest).map (Char.ofNat ((a - 0xC0) * 64 + b) :: ·)
                else
                  match rest with
                  | c :: rest =>
                      match continuation? c with
                      | none => none
                      | some c =>
                          let n := ((a - 0xE0) * 64 + b) * 64 + c
                          if 0xE0 ≤ a ∧ a < 0xF0 then
                            if 0x800 ≤ n ∧ !(0xD800 ≤ n && n < 0xE000) then
                              (decodeUtf8 rest).map (Char.ofNat n :: ·)
                            else none
                          else
                            match rest with
                            | d :: rest =>
                                match continuation? d with
                                | none => none
                                | some d =>
                                    let n := (((a - 0xF0) * 64 + b) * 64 + c) * 64 + d
                                    if 0xF0 ≤ a ∧ 0x10000 ≤ n ∧ n < 0x110000 then
                                      (decodeUtf8 rest).map (Char.ofNat n :: ·)
                                    else none
                            | [] => none
                  | [] => none
        | [] => none

/-- The offset in a record of the current version. -/
def offsetIn : Value → Option Nat
  | .mapping entries =>
      let record := Value.mapping entries
      if ((record.field "v").number?).any fun v => v.eq (.whole 1) then
        match record.field "offset" with
        | .int n => if 0 ≤ n then some n.toNat else none
        | _ => none
      else none
  | _ => none

/-- The offset that a cursor carries, if it is one. -/
def decode? (cursor : String) : Option Nat :=
  let cs := cursor.toList
  if cs.all fun c => c.toNat < 128 then do
    let bytes ← Base64.decode cs
    let text ← decodeUtf8 bytes
    let record ← Json.read? text
    offsetIn record
  else none

end Cursor
end SymbolAtlas
