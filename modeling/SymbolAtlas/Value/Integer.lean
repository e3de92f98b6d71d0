import SymbolAtlas.Number.Digits
import SymbolAtlas.Value.Basic

/-!
# Whole numbers from values

A truth value counts as zero or one, a fraction loses what stands behind its point, and a text has
to spell a whole number.  An infinite number is not refused like other values: it overflows.
-/

namespace SymbolAtlas

/-- Why a value gives no whole number. -/
inductive IntegerProblem where
  | refused
  | infinite
  deriving DecidableEq, Repr

namespace Value

def toInteger : Value → Except IntegerProblem Int
  | .bool b => .ok (if b then 1 else 0)
  | .int n => .ok n
  | .float (.infinite _) => .error .infinite
  | .float x =>
      match x.truncate? with
      | some n => .ok n
      | none => .error .refused
  | .text s =>
      match Number.readWhole? s with
      | some n => .ok n
      | none => .error .refused
  | _ => .error .refused

end Value
end SymbolAtlas
