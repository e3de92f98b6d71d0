/-!
# Binary floating-point numbers

A finite number is a sign, a mantissa below `2 ^ 53` and a binary exponent of at least `-1074`,
the mantissa reaching `2 ^ 52` unless the exponent is the least one; so each number has exactly
one such form, the two zeros being told apart by their signs.  Every operation computes the exact
rational result and rounds it once, to the nearest number and to the even one of two.
-/

namespace SymbolAtlas

inductive Binary64 where
  | finite (negative : Bool) (mantissa : Nat) (exponent : Int)
  | infinite (negative : Bool)
  | notANumber
  deriving DecidableEq, Repr, Inhabited

namespace Binary64

def leastExponent : Int := -1074

def greatestExponent : Int := 971

def zero (negative : Bool) : Binary64 :=
  .finite negative 0 leastExponent

def roundQuotient (num den : Nat) : Nat :=
  let q := num / den
  let r := num % den
  if 2 * r < den then q
  else if den < 2 * r then q + 1
  else if q % 2 = 0 then q else q + 1

/-- The quotient scaled by a power of two, as numerator and denominator. -/
def scaleByTwo (num den : Nat) (power : Int) : Nat × Nat :=
  if 0 ≤ power then (num * Nat.pow 2 power.toNat, den) else (num, den * Nat.pow 2 (-power).toNat)

/-- The binary exponent at which a positive quotient has a mantissa of 53 bits. -/
def normalExponent (num den : Nat) : Int :=
  let guess : Int := (num.log2 : Int) - (den.log2 : Int) - 53
  let (n, d) := scaleByTwo num den (-guess)
  if Nat.pow 2 53 * d ≤ n then guess + 1 else guess

/-- The number nearest to `num / den`. -/
def ofQuotient (negative : Bool) (num den : Nat) : Binary64 :=
  if num = 0 then zero negative
  else
    let exponent := max (normalExponent num den) leastExponent
    let (n, d) := scaleByTwo num den (-exponent)
    let mantissa := roundQuotient n d
    let (mantissa, exponent) :=
      if mantissa = Nat.pow 2 53 then (Nat.pow 2 52, exponent + 1) else (mantissa, exponent)
    if greatestExponent < exponent then .infinite negative
    else .finite negative mantissa exponent

/-- The number nearest to `digits * 10 ^ power`.  Powers far outside the range of the finite
numbers are decided without computing them. -/
def ofDecimal (negative : Bool) (digits : Nat) (power : Int) : Binary64 :=
  if digits = 0 then zero negative
  else if 400 < power then .infinite negative
  else if power + (digits.log2 : Int) < -1200 then zero negative
  else if 0 ≤ power then ofQuotient negative (digits * Nat.pow 10 power.toNat) 1
  else ofQuotient negative digits (Nat.pow 10 (-power).toNat)

def ofInt (n : Int) : Binary64 :=
  ofQuotient (n < 0) n.natAbs 1

/-- The exact value of a finite number as a numerator over a positive denominator. -/
def toQuotient? : Binary64 → Option (Int × Nat)
  | .finite negative mantissa exponent =>
      let (n, d) := scaleByTwo mantissa 1 exponent
      some (if negative then -(n : Int) else n, d)
  | _ => none

def isNegative : Binary64 → Bool
  | .finite negative _ _ => negative
  | .infinite negative => negative
  | .notANumber => false

def isZero : Binary64 → Bool
  | .finite _ mantissa _ => mantissa = 0
  | _ => false

/-- The order of two numbers; there is none when one of them is not a number. -/
def compare? (a b : Binary64) : Option Ordering :=
  match a, b with
  | .notANumber, _ => none
  | _, .notANumber => none
  | .infinite x, .infinite y =>
      some (if x = y then .eq else if x then .lt else .gt)
  | .infinite x, _ => some (if x then .lt else .gt)
  | _, .infinite y => some (if y then .gt else .lt)
  | a, b =>
      match a.toQuotient?, b.toQuotient? with
      | some (n, d), some (m, e) => some (compare (n * e) (m * d))
      | _, _ => none

/-- The exact value of a quotient of integers, rounded; a zero result takes the given sign. -/
def ofSignedQuotient (negativeZero : Bool) (num : Int) (den : Nat) : Binary64 :=
  if num = 0 then zero negativeZero else ofQuotient (num < 0) num.natAbs den

def add (a b : Binary64) : Binary64 :=
  match a, b with
  | .notANumber, _ => .notANumber
  | _, .notANumber => .notANumber
  | .infinite x, .infinite y => if x = y then .infinite x else .notANumber
  | .infinite x, _ => .infinite x
  | _, .infinite y => .infinite y
  | a, b =>
      match a.toQuotient?, b.toQuotient? with
      | some (n, d), some (m, e) =>
          ofSignedQuotient (a.isNegative && b.isNegative) (n * e + m * d) (d * e)
      | _, _ => .notANumber

def mul (a b : Binary64) : Binary64 :=
  let negative := a.isNegative != b.isNegative
  match a, b with
  | .notANumber, _ => .notANumber
  | _, .notANumber => .notANumber
  | .infinite _, y => if y.isZero then .notANumber else .infinite negative
  | x, .infinite _ => if x.isZero then .notANumber else .infinite negative
  | a, b =>
      match a.toQuotient?, b.toQuotient? with
      | some (n, d), some (m, e) => ofSignedQuotient negative (n * m) (d * e)
      | _, _ => .notANumber

def neg : Binary64 → Binary64
  | .finite negative mantissa exponent => .finite (!negative) mantissa exponent
  | .infinite negative => .infinite (!negative)
  | .notANumber => .notANumber

/-- The whole part of a finite number, its fraction dropped. -/
def truncate? (x : Binary64) : Option Int :=
  x.toQuotient?.map fun (n, d) => n.tdiv d

end Binary64
end SymbolAtlas
