import SymbolAtlas.Proofs.Page.Walk
import Mathlib.Tactic

/-!
# Walks that keep to one size

A client that is not held to any settings asks for pages of one size throughout, and the size need
not be one that pages may have.  Pages are cut by the size that is allowed instead, while the page
of a cursor is found by the size as it was given.  The two are the same within the bounds, and then
the pages of a walk hold the list as it stands.  Outside of them the second request already goes
wrong, if there is one: it divides by zero, or it leads back to the first page for ever.
-/

namespace SymbolAtlas
namespace Page

variable {α : Type} {items : List α} {size : Int} {steps : Nat} {cursor : Value}

/-- The size of the pages that are served to a request for some size. -/
def allowedSize (size : Int) : Nat :=
  (min defaultLimit (max 1 size)).toNat

/-- A walk comes to an end, and its pages together are the list. -/
def WalkCovers (items : List α) (size : Int) : Prop :=
  ∃ pages, (∀ steps, pages.length ≤ steps →
      walk items (.int 1) (.int size) steps .null = .ok pages) ∧
    (∃ last, pages.getLast? = some last ∧ last.hasMore = false) ∧
    pages.flatMap Page.items = items

theorem allowedSize_pos (size : Int) : 0 < allowedSize size := by
  unfold allowedSize defaultLimit
  omega

theorem allowedSize_le (size : Int) : allowedSize size ≤ 500 := by
  unfold allowedSize defaultLimit
  omega

theorem allowedSize_of_allowed (hone : 1 ≤ size) (hlimit : size ≤ defaultLimit) :
    (allowedSize size : Int) = size := by
  unfold allowedSize
  omega

theorem allowedSize_lt_digitLimit (size : Int) :
    allowedSize size < 10 ^ Number.digitLimit :=
  calc
    allowedSize size ≤ 500 := allowedSize_le size
    _ < 10 ^ 3 := by norm_num
    _ ≤ 10 ^ Number.digitLimit := Nat.pow_le_pow_right (by norm_num) (by decide)

/-! ## One page -/

theorem greater_whole (n m : Int) : Number.greater (.whole n) (.whole m) = .whole (max n m) := by
  rw [Number.greater, Number.lt_of_whole rfl rfl]
  by_cases hlt : n < m
  · simp [hlt, hlt.le]
  · simp [hlt, not_lt.mp hlt]

theorem lesser_whole (n m : Int) : Number.lesser (.whole n) (.whole m) = .whole (min n m) := by
  rw [Number.lesser, Number.lt_of_whole rfl rfl]
  by_cases hlt : m < n
  · simp [hlt, hlt.le]
  · simp [hlt, not_lt.mp hlt]

theorem ordered_int (n : Int) : Target.ordered (.int n) = .ok (.whole n) :=
  rfl

/-- Numbers below one are served as the first page, sizes out of bounds as the nearest bound. -/
theorem serve_allowed (items : List α) (number size : Int) :
    serve items (.int number) (.int size) (.int defaultLimit) =
      serve items (.int (max 1 number)) (.int (allowedSize size)) (.int defaultLimit) := by
  have hnumber : max 1 (max 1 number) = max 1 number := by omega
  have hsize : min defaultLimit (max 1 (allowedSize size : Int)) =
      min defaultLimit (max 1 size) := by
    unfold allowedSize defaultLimit
    omega
  simp only [serve, ordered_int, bind, Except.bind, greater_whole, lesser_whole, hnumber, hsize]

/-- The page of a number and a size, and whether there is another one behind it. -/
theorem exists_served (items : List α) (size : Int) (m : Nat) :
    ∃ page, serve items (.int (m + 1 : Nat)) (.int size) (.int defaultLimit) = .ok page ∧
      page.items = (items.take ((m + 1) * allowedSize size)).drop (m * allowedSize size) ∧
      page.nextCursor =
        if (m + 1) * allowedSize size < items.length then
          some (Cursor.encode ((m + 1) * allowedSize size : Nat)) else none := by
  have hsize : (Number.whole (allowedSize size)).whole? = some (allowedSize size : Int) := rfl
  have hlimit : (Number.whole defaultLimit).whole? = some ((500 : Nat) : Int) := rfl
  obtain ⟨page, hpage, hitems, -, -, -, hnext⟩ :=
    serve_eq_ok items m hsize hlimit (allowedSize_pos size) (allowedSize_le size)
  have hnumber : max 1 ((m + 1 : Nat) : Int) = (m + 1 : Nat) := by omega
  refine ⟨page, ?_, hitems, hnext⟩
  rw [serve_allowed, hnumber]
  exact hpage

theorem walk_last {number : Int} {page : Page α}
    (hnumber : numberToServe (.int 1) cursor (.int size) = .ok (.whole number))
    (hpage : serve items (.int number) (.int size) (.int defaultLimit) = .ok page)
    (hlast : page.nextCursor = none) (steps : Nat) :
    walk items (.int 1) (.int size) (steps + 1) cursor = .ok [page] := by
  have hpage : serve items (.ofNumber (.whole number)) (.int size) (.int defaultLimit) =
      .ok page := hpage
  simp [walk, hnumber, hpage, hlast, bind, Except.bind, pure, Except.pure]

theorem exists_walk_last {number : Int} {page : Page α}
    (hnumber : numberToServe (.int 1) cursor (.int size) = .ok (.whole number))
    (hpage : serve items (.int number) (.int size) (.int defaultLimit) = .ok page)
    (hlast : page.nextCursor = none) :
    ∃ pages, (∀ steps, pages.length ≤ steps →
        walk items (.int 1) (.int size) steps cursor = .ok pages) ∧
      (∃ last, pages.getLast? = some last ∧ last.hasMore = false) ∧
      pages.flatMap Page.items = page.items := by
  refine ⟨[page], ?_, ⟨page, rfl, by simp [hasMore, hlast]⟩, List.flatMap_singleton _ _⟩
  intro steps hsteps
  obtain ⟨left, rfl⟩ : ∃ left, steps = left + 1 := Nat.exists_eq_add_one.mpr hsteps
  exact walk_last hnumber hpage hlast left

theorem walk_next {number : Int} {page : Page α} {next : String}
    (hnumber : numberToServe (.int 1) cursor (.int size) = .ok (.whole number))
    (hpage : serve items (.int number) (.int size) (.int defaultLimit) = .ok page)
    (hnext : page.nextCursor = some next) (steps : Nat) :
    walk items (.int 1) (.int size) (steps + 1) cursor =
      (walk items (.int 1) (.int size) steps (.text next)).map (page :: ·) := by
  have hpage : serve items (.ofNumber (.whole number)) (.int size) (.int defaultLimit) =
      .ok page := hpage
  simp only [walk, hnumber, hpage, hnext, bind, Except.bind, pure, Except.pure]
  cases walk items (.int 1) (.int size) steps (.text next) <;> rfl

theorem numberToServe_null (size : Value) :
    numberToServe (.int 1) .null size = .ok (.whole 1) :=
  rfl

/-! ## Sizes within the bounds -/

/-- From a multiple of the size a walk goes on to the end of the list. -/
theorem exists_walk_from (hone : 1 ≤ size) (hlimit : size ≤ defaultLimit)
    (hitems : items.length ≤ 10 ^ Number.digitLimit) {m : Nat}
    (hcursor : LeadsTo cursor (m * allowedSize size)) :
    ∃ pages, (∀ steps, pages.length ≤ steps →
        walk items (.int 1) (.int size) steps cursor = .ok pages) ∧
      (∃ last, pages.getLast? = some last ∧ last.hasMore = false) ∧
      pages.flatMap Page.items = items.drop (m * allowedSize size) := by
  have hpos := allowedSize_pos size
  induction hleft : items.length - m * allowedSize size using Nat.strong_induction_on
    generalizing m cursor with
  | _ left ih =>
      obtain ⟨page, hpage, hcut, hnext⟩ := exists_served items size m
      have hwhole : (Number.whole size).whole? = some (allowedSize size : Int) := by
        rw [allowedSize_of_allowed hone hlimit]
        rfl
      have hnumber := numberToServe_of_leadsTo hcursor hwhole hpos
      rw [Nat.mul_div_cancel m hpos] at hnumber
      have hstep : (m + 1) * allowedSize size = m * allowedSize size + allowedSize size := by
        ring
      by_cases hmore : (m + 1) * allowedSize size < items.length
      · rw [if_pos hmore] at hnext
        have hstop : (m + 1) * allowedSize size < 10 ^ Number.digitLimit := by omega
        have hleads : LeadsTo (.text (Cursor.encode ((m + 1) * allowedSize size : Nat)))
            ((m + 1) * allowedSize size) := Or.inr ⟨rfl, hstop⟩
        obtain ⟨pages, hwalk, ⟨last, hlast, hend⟩, hall⟩ :=
          ih (items.length - (m + 1) * allowedSize size) (by omega) hleads rfl
        refine ⟨page :: pages, ?_, ⟨last, ?_, hend⟩, ?_⟩
        · intro steps hsteps
          rw [List.length_cons] at hsteps
          obtain ⟨left, rfl⟩ : ∃ left, steps = left + 1 :=
            Nat.exists_eq_add_one.mpr (by omega)
          have hrest := hwalk left (by omega)
          rw [walk_next hnumber hpage hnext, hrest]
          rfl
        · rw [List.getLast?_cons, hlast]
          rfl
        · rw [List.flatMap_cons, hall, hcut,
            Request.take_drop_append_drop items (by omega)]
      · rw [if_neg hmore] at hnext
        rw [List.take_of_length_le (by omega)] at hcut
        rw [← hcut]
        exact exists_walk_last hnumber hpage hnext

/-! ## Sizes out of bounds -/

/-- A list that fits on its first page is walked through at once. -/
theorem walkCovers_of_length_le (hfits : items.length ≤ allowedSize size) :
    WalkCovers items size := by
  obtain ⟨page, hpage, hcut, hnext⟩ := exists_served items size 0
  rw [if_neg (by omega)] at hnext
  rw [List.take_of_length_le (by omega), Nat.zero_mul, List.drop_zero] at hcut
  have hwalk := exists_walk_last (numberToServe_null _) hpage hnext
  rwa [hcut] at hwalk

/-- The first page, if there is another one behind it. -/
theorem exists_first_page (hmore : allowedSize size < items.length) :
    ∃ page, serve items (.int 1) (.int size) (.int defaultLimit) = .ok page ∧
      page.nextCursor = some (Cursor.encode (allowedSize size)) := by
  obtain ⟨page, hpage, -, hnext⟩ := exists_served items size 0
  rw [Nat.zero_add, Nat.one_mul, if_pos hmore] at hnext
  exact ⟨page, hpage, hnext⟩

/-- What the second request of a walk divides by is the size as it was given. -/
theorem numberToServe_second (size : Int) :
    numberToServe (.int 1) (.text (Cursor.encode (allowedSize size))) (.int size) =
      if size = 0 then misused .divisionByZero
      else .ok (.whole (Int.fdiv (allowedSize size) size + 1)) := by
  have hpresent : (Value.text (Cursor.encode (allowedSize size))).isPresent = true := by
    simp [Value.isPresent, encode_ne_empty]
  simp only [numberToServe, hpresent, if_true,
    Cursor.decode?_encode (allowedSize_lt_digitLimit size), numberOfOffset, Value.number?,
    Number.whole?]
  by_cases hzero : size = 0
  · simp [hzero]
  · rw [if_neg hzero]
    split <;> simp_all

/-- Pages of no size end a walk with a division by zero. -/
theorem walk_zero (hmore : 1 < items.length) (steps : Nat) :
    walk items (.int 1) (.int 0) (steps + 2) .null = .error (.misuse .divisionByZero) := by
  have hmore : allowedSize 0 < items.length := hmore
  obtain ⟨page, hpage, hnext⟩ := exists_first_page hmore
  rw [walk_next (numberToServe_null _) hpage hnext, walk, numberToServe_second]
  rfl

/-- A size out of bounds leads from the first page back to it. -/
theorem fdiv_allowedSize_le (hbeyond : size < 0 ∨ defaultLimit < size) :
    Int.fdiv (allowedSize size) size ≤ 0 := by
  have hpos := allowedSize_pos size
  rcases hbeyond with hnegative | hlarge
  · exact Int.fdiv_nonpos_of_nonneg_of_nonpos (by omega) hnegative.le
  · have hless : (allowedSize size : Int) < size := by
      unfold allowedSize
      unfold defaultLimit at hlarge ⊢
      omega
    rw [Int.fdiv_eq_ediv_of_nonneg _ (by unfold defaultLimit at hlarge; omega),
      Int.ediv_eq_zero_of_lt (by omega) hless]

theorem walk_returns (hbeyond : size < 0 ∨ defaultLimit < size)
    (hmore : allowedSize size < items.length) :
    ∃ page, ∀ steps,
      walk items (.int 1) (.int size) steps .null = .ok (List.replicate steps page) := by
  obtain ⟨page, hpage, hnext⟩ := exists_first_page hmore
  have hzero : size ≠ 0 := by
    unfold defaultLimit at hbeyond
    omega
  have hsecond := numberToServe_second size
  rw [if_neg hzero] at hsecond
  have hagain : serve items (.int (Int.fdiv (allowedSize size) size + 1)) (.int size)
      (.int defaultLimit) = .ok page := by
    have hback := fdiv_allowedSize_le hbeyond
    rw [← hpage, serve_allowed, serve_allowed items 1, max_eq_left (by omega), max_self]
  have hrest : ∀ steps, walk items (.int 1) (.int size) steps
      (.text (Cursor.encode (allowedSize size))) = .ok (List.replicate steps page) := by
    intro steps
    induction steps with
    | zero => rfl
    | succ steps ih =>
        rw [walk_next hsecond hagain hnext, ih]
        rfl
  refine ⟨page, ?_⟩
  intro steps
  cases steps with
  | zero => rfl
  | succ steps =>
      rw [walk_next (numberToServe_null _) hpage hnext, hrest]
      rfl

theorem not_walkCovers (hbeyond : size < 1 ∨ defaultLimit < size)
    (hmore : allowedSize size < items.length) : ¬ WalkCovers items size := by
  rintro ⟨pages, hwalk, -⟩
  by_cases hzero : size = 0
  · subst hzero
    have hfault := walk_zero hmore pages.length
    rw [hwalk (pages.length + 2) (by omega)] at hfault
    cases hfault
  · have hbeyond : size < 0 ∨ defaultLimit < size := by omega
    obtain ⟨page, hreturns⟩ := walk_returns hbeyond hmore
    have hpages := (hwalk pages.length le_rfl).symm.trans (hreturns pages.length)
    have hlonger := (hwalk (pages.length + 1) (by omega)).symm.trans (hreturns (pages.length + 1))
    have hsame := congrArg List.length (Except.ok.inj hlonger)
    rw [List.length_replicate] at hsame
    omega

/-- A walk that asks for one size throughout covers the list exactly if the size is one that pages
may have, or if the list fits on the page that is served in its place. -/
theorem walkCovers_iff (hitems : items.length ≤ 10 ^ Number.digitLimit) :
    WalkCovers items size ↔
      (1 ≤ size ∧ size ≤ defaultLimit) ∨ (items.length : Int) ≤ min defaultLimit (max 1 size) := by
  have hallowed : (allowedSize size : Int) = min defaultLimit (max 1 size) := by
    unfold allowedSize defaultLimit
    omega
  rw [← hallowed, Nat.cast_le]
  constructor
  · intro hcovers
    by_contra hneither
    exact not_walkCovers (by omega) (by omega) hcovers
  · rintro (⟨hone, hlimit⟩ | hfits)
    · have hstart : LeadsTo .null (0 * allowedSize size) := Or.inl ⟨rfl, Nat.zero_mul _⟩
      simpa [WalkCovers] using exists_walk_from hone hlimit hitems hstart
    · exact walkCovers_of_length_le hfits

theorem walkCovers_iff_three :
    [10, 20, 30].length ≤ 10 ^ Number.digitLimit ∧ WalkCovers [10, 20, 30] 2 := by
  have hitems : [10, 20, 30].length ≤ 10 ^ Number.digitLimit :=
    calc
      3 ≤ 10 ^ 1 := by norm_num
      _ ≤ 10 ^ Number.digitLimit := Nat.pow_le_pow_right (by norm_num) (by decide)
  exact ⟨hitems, (walkCovers_iff hitems).mpr (Or.inl ⟨by decide, by decide⟩)⟩

/-- Two items asked for by pages of no size: the first page is served, the second request fails.  A
negative size does not fail and does not end either. -/
theorem walk_fails_below_one :
    walk [10, 20] (.int 1) (.int 0) 2 .null = .error (.misuse .divisionByZero) ∧
      ¬ WalkCovers [10, 20] 0 ∧ ¬ WalkCovers [10, 20] (-1) :=
  ⟨walk_zero (by decide) 0, not_walkCovers (by decide) (by decide),
    not_walkCovers (by decide) (by decide)⟩

end Page
end SymbolAtlas
