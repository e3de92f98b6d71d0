import SymbolAtlas.Number.Binary64
import SymbolAtlas.Number.Digits

/-!
# The shortest decimal text of a binary number

Of all decimals that round to a number, those with the fewest digits are taken, and of these the
nearest.  On the grid of decimals with a given last place only the two neighbours of the number
need to be looked at, so the first grid with a hit decides.  The digits are laid out with a point
when the number lies between `10 ^ -4` and `10 ^ 16`, and with an exponent otherwise.
-/

namespace SymbolAtlas
namespace Binary64

/-- The decimals that round to a number lie between `low` and `high` over one denominator; the two
ends belong to them when the mantissa is even. -/
structure RoundingInterval where
  low : Nat
  value : Nat
  high : Nat
  den : Nat
  closed : Bool

/-- The numbers that round to `mantissa * 2 ^ exponent`: half of the gap on either side, where the
gap below a power of two is half as wide. -/
def roundingInterval (mantissa : Nat) (exponent : Int) : RoundingInterval :=
  let narrow := mantissa = Nat.pow 2 52 ∧ leastExponent < exponent
  let (unit, den) := scaleByTwo 1 4 exponent
  { low := (4 * mantissa - if narrow then 1 else 2) * unit
    value := 4 * mantissa * unit
    high := (4 * mantissa + 2) * unit
    den := den
    closed := mantissa % 2 = 0 }

def RoundingInterval.holds (interval : RoundingInterval) (digits : Nat) (power : Int) : Bool :=
  let n := (if 0 ≤ power then digits * Nat.pow 10 power.toNat else digits) * interval.den
  let scale := if 0 ≤ power then 1 else Nat.pow 10 (-power).toNat
  if interval.closed then interval.low * scale ≤ n && n ≤ interval.high * scale
  else interval.low * scale < n && n < interval.high * scale

/-- The decimal of `places` digits nearest to the value from among its two neighbours, if one of
them lies in the interval.  `magnitude` is the number of digits before the point. -/
def RoundingInterval.nearestOnGrid? (interval : RoundingInterval) (magnitude : Int)
    (places : Nat) : Option (Nat × Int) :=
  let power := magnitude - places
  let num := if 0 ≤ power then interval.value else interval.value * Nat.pow 10 (-power).toNat
  let den := if 0 ≤ power then interval.den * Nat.pow 10 power.toNat else interval.den
  let below := num / den
  let nearest := roundQuotient num den
  let other := if nearest = below then below + 1 else below
  if interval.holds nearest power then some (nearest, power)
  else if interval.holds other power then some (other, power)
  else none

/-- The least `p` from `start` on with `num < den * 10 ^ p`, tried at most `fuel` times. -/
def magnitudeFrom (num den : Nat) (start : Int) : Nat → Int
  | 0 => start
  | fuel + 1 =>
      let small :=
        if 0 ≤ start then num < den * Nat.pow 10 start.toNat
        else num * Nat.pow 10 (-start).toNat < den
      if small then start else magnitudeFrom num den (start + 1) fuel

/-- The number of digits before the point of a positive quotient, zero or less when it is below one
tenth. -/
def magnitude (num den : Nat) : Int :=
  let bits : Int := (num.log2 : Int) - (den.log2 : Int)
  magnitudeFrom num den (bits * 3 / 10 - 10) 700

/-- The first hit among the grids with `places`, `places + 1`, ... digits. -/
def shortestFrom (interval : RoundingInterval) (magnitude : Int) (places : Nat) :
    Nat → Nat × Int
  | 0 => (0, 0)
  | fuel + 1 =>
      match interval.nearestOnGrid? magnitude places with
      | some hit => hit
      | none => shortestFrom interval magnitude (places + 1) fuel

/-- The digits and the power of ten of the shortest decimal that rounds to a positive number. -/
def shortestDecimal (mantissa : Nat) (exponent : Int) : Nat × Int :=
  let interval := roundingInterval mantissa exponent
  shortestFrom interval (magnitude interval.value interval.den) 1 17

def dropTrailingZeros (digits : List Char) : List Char :=
  (digits.reverse.dropWhile (· = '0')).reverse

/-- Lays out `0.d₁d₂… * 10 ^ point`. -/
def layOut (digits : List Char) (point : Int) : List Char :=
  let count : Int := digits.length
  if -4 < point ∧ point ≤ 16 then
    if point ≤ 0 then '0' :: '.' :: (List.replicate (-point).toNat '0' ++ digits)
    else if count ≤ point then digits ++ List.replicate (point - count).toNat '0' ++ ['.', '0']
    else digits.take point.toNat ++ '.' :: digits.drop point.toNat
  else
    let power := point - 1
    let powerDigits := Number.naturalDigits power.natAbs
    let fraction := digits.drop 1
    digits.take 1 ++ (if fraction.isEmpty then [] else '.' :: fraction) ++
      'e' :: (if power < 0 then '-' else '+') ::
        (List.replicate (2 - powerDigits.length) '0' ++ powerDigits)

def text : Binary64 → String
  | .notANumber => "nan"
  | .infinite negative => if negative then "-inf" else "inf"
  | .finite negative mantissa exponent =>
      let unsigned :=
        if mantissa = 0 then ['0', '.', '0']
        else
          let (digits, power) := shortestDecimal mantissa exponent
          let written := Number.naturalDigits digits
          layOut (dropTrailingZeros written) (written.length + power)
      String.ofList (if negative then '-' :: unsigned else unsigned)

end Binary64
end SymbolAtlas
