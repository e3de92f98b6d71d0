/-!
# Misuse of values

Documents and requests are loosely typed.  A value that is used in a way its shape does not allow
ends the request; the causes are told apart here by what was attempted, not by who attempted it.
-/

namespace SymbolAtlas

/-- Why a value cannot be used as it was. -/
inductive Misuse where
  /-- The items of something that has none were asked for. -/
  | notIterable
  /-- The length of something that has none was asked for. -/
  | notMeasurable
  /-- A number was ordered against something else. -/
  | notComparable
  /-- Something other than a text was given as a path. -/
  | notAPath
  /-- A list was cut at a place that is no whole number. -/
  | notAPosition
  /-- A list or a mapping was looked up as a key. -/
  | notAKey
  /-- An operation was given an argument it does not know, or not given one it needs. -/
  | wrongArguments
  /-- A mapping, a text or a table was expected, and its own operations were used. -/
  | noSuchOperation
  /-- A text does not spell the number that it has to, or a number has too many digits to be spelled. -/
  | notANumeral
  /-- A path holds the character zero. -/
  | brokenPath
  /-- A calendar has no such day or time. -/
  | noSuchDay
  /-- A number is too large for the use that is made of it. -/
  | tooLarge
  /-- A division by zero. -/
  | divisionByZero
  /-- A key that has to be in a table is not there. -/
  | unknownKey
  /-- A home directory was asked for that nobody knows. -/
  | homeUnknown
  /-- A failure without a cause of its own. -/
  | unexplained
  deriving DecidableEq, Repr

end SymbolAtlas
