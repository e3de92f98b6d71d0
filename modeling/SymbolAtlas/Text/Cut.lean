/-!
# Cutting a text at a character or a word

Cuts at the first or the last occurrence of a character, the rest of a text after a given start,
and the removal of every occurrence of a word, read from the left.
-/

namespace SymbolAtlas
namespace Text

/-- What stands before and after the first occurrence of a character. -/
def cutAtFirst? (mark : Char) : List Char → Option (List Char × List Char)
  | [] => none
  | c :: rest =>
      if c = mark then some ([], rest)
      else (cutAtFirst? mark rest).map fun (before, after) => (c :: before, after)

/-- What stands before and after the last occurrence of a character. -/
def cutAtLast? (mark : Char) (cs : List Char) : Option (List Char × List Char) :=
  (cutAtFirst? mark cs.reverse).map fun (after, before) => (before.reverse, after.reverse)

/-- The rest of a text that begins with `start`. -/
def afterStart? : List Char → List Char → Option (List Char)
  | [], cs => some cs
  | _ :: _, [] => none
  | s :: start, c :: cs => if s = c then afterStart? start cs else none

/-- What precedes `ending` in a text that ends with it. -/
def beforeEnding? (ending cs : List Char) : Option (List Char) :=
  (afterStart? ending.reverse cs.reverse).map List.reverse

/-- Removes every occurrence of `word`, after `skipped` more characters of the one just found. -/
def eraseWordFrom (word : List Char) : Nat → List Char → List Char
  | _, [] => []
  | skipped + 1, _ :: rest => eraseWordFrom word skipped rest
  | 0, c :: rest =>
      if (afterStart? word (c :: rest)).isSome then eraseWordFrom word (word.length - 1) rest
      else c :: eraseWordFrom word 0 rest

/-- Removes every occurrence of a word that is not empty, read from the left without overlap. -/
def eraseWord (word cs : List Char) : List Char :=
  eraseWordFrom word 0 cs

def exchange (old new : Char) (s : String) : String :=
  String.ofList (s.toList.map fun c => if c = old then new else c)

end Text
end SymbolAtlas
