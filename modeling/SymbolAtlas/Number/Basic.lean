import SymbolAtlas.Number.Binary64

/-!
# Numbers of a request

A number that a request or a setting gives is a truth value, a whole number or a binary fraction.
All three are compared by their exact values, a truth value counting as zero or one, but the form
that was given is the form that is reported back.
-/

namespace SymbolAtlas

inductive Number where
  | flag (b : Bool)
  | whole (n : Int)
  | real (x : Binary64)
  deriving DecidableEq, Repr, Inhabited

namespace Number

def whole? : Number → Option Int
  | .flag b => some (if b then 1 else 0)
  | .whole n => some n
  | .real _ => none

def compare? : Number → Number → Option Ordering
  | .real x, .real y => x.compare? y
  | .real x, y => compareReal x y.whole?
  | x, .real y => (compareReal y x.whole?).map Ordering.swap
  | x, y =>
      match x.whole?, y.whole? with
      | some n, some m => some (compare n m)
      | _, _ => none
where
  /-- The order of a binary fraction and a whole number. -/
  compareReal (x : Binary64) : Option Int → Option Ordering
    | none => none
    | some n =>
        match x with
        | .notANumber => none
        | .infinite negative => some (if negative then .lt else .gt)
        | x =>
            match x.toQuotient? with
            | some (m, d) => some (compare m (n * d))
            | none => none

def lt (a b : Number) : Bool :=
  a.compare? b == some .lt

def le (a b : Number) : Bool :=
  match a.compare? b with
  | some .gt => false
  | some _ => true
  | none => false

def eq (a b : Number) : Bool :=
  a.compare? b == some .eq

/-- The greater of two numbers, the first unless the second exceeds it. -/
def greater (a b : Number) : Number :=
  if a.lt b then b else a

/-- The lesser of two numbers, the first unless the second falls below it. -/
def lesser (a b : Number) : Number :=
  if b.lt a then b else a

end Number
end SymbolAtlas
