import SymbolAtlas.Failure
import SymbolAtlas.Page.Cursor
import SymbolAtlas.Target

/-!
# Pages

A list is served in pages of one size, numbered from one.  A page knows the cursor of the page
behind it unless it reaches the end of the list, and a cursor given with a request decides the page
in place of a page number.
-/

namespace SymbolAtlas

structure Page (α : Type) where
  items : List α
  total : Nat
  number : Number
  size : Number
  nextCursor : Option String
  deriving Repr

namespace Page

variable {α : Type}

def hasMore (p : Page α) : Bool :=
  p.nextCursor.isSome

/-- The page sizes that are allowed unless a server says otherwise. -/
def defaultLimit : Int := 500

/-- The place in a list that a position counts to; negative ones count from its end. -/
def place (position : Int) (length : Nat) : Nat :=
  if position < 0 then (position + length).toNat else min position.toNat length

def slice (items : List α) (start stop : Int) : List α :=
  (items.take (place stop items.length)).drop (place start items.length)

def cut (items : List α) (number size : Int) : List α × Option String :=
  let stop := number * size
  (slice items ((number - 1) * size) stop,
    if stop < items.length then some (Cursor.encode stop) else none)

def numberOfOffset (offset : Nat) (size : Value) : Attempt Number :=
  match size.number? with
  | none => misused .notComparable
  | some (.real x) =>
      if x.isZero then misused .divisionByZero
      else
        match x.toQuotient? with
        | some (n, d) => .ok (.real ((Binary64.ofInt (Int.fdiv (offset * d) n)).add (.ofInt 1)))
        | none => .ok (.real .notANumber)
  | some size =>
      match size.whole? with
      | some 0 => misused .divisionByZero
      | some n => .ok (.whole (Int.fdiv offset n + 1))
      | none => misused .notComparable

/-- The number of the page to serve: that of a cursor, the first one for a cursor that carries no
offset, and else the given one, at least the first. -/
def numberToServe (number cursor size : Value) : Attempt Number :=
  if cursor.isPresent then
    match cursor with
    | .text s =>
        match Cursor.decode? s with
        | some offset => numberOfOffset offset size
        | none => .ok (.whole 1)
    | _ => misused .noSuchOperation
  else if number.isNull then .ok (.whole 1)
  else (Target.ordered number).map (Number.greater (.whole 1))

/-- Serves a page, its number at least one and its size between one and a limit. -/
def serve (items : List α) (number size limit : Value) : Attempt (Page α) := do
  let number := Number.greater (.whole 1) (← Target.ordered number)
  let size := Number.greater (.whole 1) (← Target.ordered size)
  let size := Number.lesser (← Target.ordered limit) size
  match number.whole?, size.whole? with
  | some n, some k =>
      let (found, next) := cut items n k
      pure ⟨found, items.length, number, size, next⟩
  | _, _ => misused .notAPosition

/-- Follows the cursors from page to page, for at most `steps` pages. -/
def walk (items : List α) (number size : Value) : Nat → Value → Attempt (List (Page α))
  | 0, _ => .ok []
  | steps + 1, cursor => do
      let served ← numberToServe number cursor size
      let page ← serve items (.ofNumber served) size (.int defaultLimit)
      match page.nextCursor with
      | none => pure [page]
      | some next => do
          let rest ← walk items number size steps (.text next)
          pure (page :: rest)

end Page
end SymbolAtlas
