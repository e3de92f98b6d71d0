/-!
# Base64 text

Three bytes are written as four characters of six bits each, a shorter rest with padding.  Reading
passes over characters outside the alphabet and stops at the padding that completes a group; it
fails on a group that is not complete at the end.
-/

namespace SymbolAtlas
namespace Base64

/-- The character of six bits, in the alphabet that is safe in addresses. -/
def sextetChar (n : Nat) : Char :=
  if n < 26 then Char.ofNat ('A'.toNat + n)
  else if n < 52 then Char.ofNat ('a'.toNat + (n - 26))
  else if n < 62 then Char.ofNat ('0'.toNat + (n - 52))
  else if n = 62 then '-'
  else '_'

/-- The six bits of a character, in either alphabet. -/
def sextet? (c : Char) : Option Nat :=
  if 'A' ≤ c ∧ c ≤ 'Z' then some (c.toNat - 'A'.toNat)
  else if 'a' ≤ c ∧ c ≤ 'z' then some (c.toNat - 'a'.toNat + 26)
  else if '0' ≤ c ∧ c ≤ '9' then some (c.toNat - '0'.toNat + 52)
  else if c = '-' ∨ c = '+' then some 62
  else if c = '_' ∨ c = '/' then some 63
  else none

def encode : List Nat → List Char
  | [] => []
  | [a] => [sextetChar (a / 4), sextetChar (a % 4 * 16), '=', '=']
  | [a, b] => [sextetChar (a / 4), sextetChar (a % 4 * 16 + b / 16), sextetChar (b % 16 * 4), '=']
  | a :: b :: c :: rest =>
      sextetChar (a / 4) :: sextetChar (a % 4 * 16 + b / 16) ::
        sextetChar (b % 16 * 4 + c / 64) :: sextetChar (c % 64) :: encode rest

def groupBytes : List Nat → List Nat
  | [a, b] => [a * 4 + b / 16]
  | [a, b, c] => [a * 4 + b / 16, b % 16 * 16 + c / 4]
  | [a, b, c, d] => [a * 4 + b / 16, b % 16 * 16 + c / 4, c % 4 * 64 + d]
  | _ => []

/-- Reads on after the sextets of an unfinished group and the padding behind them. -/
def decodeFrom (group : List Nat) (padding : Nat) : List Char → Option (List Nat)
  | [] => if group.isEmpty then some [] else none
  | c :: rest =>
      if c = '=' then
        if 2 ≤ group.length then
          if 4 ≤ group.length + (padding + 1) then some (groupBytes group)
          else decodeFrom group (padding + 1) rest
        else decodeFrom group padding rest
      else
        match sextet? c with
        | none => decodeFrom group padding rest
        | some n =>
            if group.length = 3 then
              (decodeFrom [] 0 rest).map fun bytes => groupBytes (group ++ [n]) ++ bytes
            else decodeFrom (group ++ [n]) 0 rest

def decode (cs : List Char) : Option (List Nat) :=
  decodeFrom [] 0 cs

end Base64
end SymbolAtlas
