import SymbolAtlas.Tool.Query
import SymbolAtlas.Proofs.Page.Serve
import Mathlib.Tactic

/-!
# The page of a request

Settings that pass their check bound page sizes between one and their maximum, and a request
brings the size that it asks for within these bounds.  So every request with a cursor that leads
to an offset gets the page that serves the offset by pages of the size it is granted.
-/

namespace SymbolAtlas

namespace Config

/-- The page sizes of a configuration are whole numbers in their order. -/
structure PageSizes (c : Config) (standard greatest : Nat) : Prop where
  standard_whole : c.defaultPageSize.whole? = some (standard : Int)
  greatest_whole : c.maxPageSize.whole? = some (greatest : Int)
  one_le : 1 ≤ standard
  le : standard ≤ greatest

theorem le_of_ascends_pair {a b : Number} {v w : Value} (hv : numberOf v = .ok a)
    (hw : numberOf w = .ok b) (hascends : ascends (.whole 1) [v, w] = .ok true) :
    (Number.whole 1).le a = true ∧ a.le b = true := by
  rw [ascends, hv] at hascends
  obtain ⟨_, ⟨⟩, hascends⟩ := Attempt.bind_eq_ok.mp hascends
  split at hascends
  next hone =>
    rw [ascends, hw] at hascends
    obtain ⟨_, ⟨⟩, hascends⟩ := Attempt.bind_eq_ok.mp hascends
    split at hascends
    next hle => exact ⟨hone, hle⟩
    next => simp [Attempt.pure_eq_ok] at hascends
  next => simp [Attempt.pure_eq_ok] at hascends

theorem ascends_of_no_problems {settings : Value} (hfound : problems settings = .ok []) :
    ascends (.whole 1) [settings.field "default_page_size", settings.field "max_page_size"] =
      .ok true := by
  unfold problems at hfound
  obtain ⟨pages, hpages, hfound⟩ := Attempt.bind_eq_ok.mp hfound
  simp only [Attempt.bind_eq_ok, Attempt.pure_eq_ok] at hfound
  obtain ⟨times, -, depths, -, trees, -, hnone⟩ := hfound
  cases pages with
  | true => exact hpages
  | false => simp [problemUnless] at hnone

theorem exists_pageSizes {settings : Value} {c : Config} (hc : ofSettings settings = .ok c)
    (hstandard : c.defaultPageSize.whole?.isSome) (hgreatest : c.maxPageSize.whole?.isSome) :
    ∃ standard greatest, c.PageSizes standard greatest := by
  obtain ⟨x, hx⟩ := Option.isSome_iff_exists.mp hstandard
  obtain ⟨y, hy⟩ := Option.isSome_iff_exists.mp hgreatest
  unfold ofSettings at hc
  obtain ⟨found, hfound, hc⟩ := Attempt.bind_eq_ok.mp hc
  split at hc
  next => cases hc
  next hempty =>
    have hnone : found = [] := by simpa using hempty
    subst hnone
    simp only [Attempt.bind_eq_ok, Attempt.pure_eq_ok] at hc
    obtain ⟨a, ha, b, hb, _, -, _, -, _, -, _, -, _, -, _, -, _, -, rfl⟩ := hc
    obtain ⟨hone, hle⟩ := le_of_ascends_pair ha hb (ascends_of_no_problems hfound)
    rw [Number.le_of_whole rfl hx, decide_eq_true_eq] at hone
    rw [Number.le_of_whole hx hy, decide_eq_true_eq] at hle
    refine ⟨x.toNat, y.toNat, ⟨?_, ?_, by omega, by omega⟩⟩
    · rw [Int.toNat_of_nonneg (by omega)]
      exact hx
    · rw [Int.toNat_of_nonneg (by omega)]
      exact hy

/-- A size that a request may ask for, or null. -/
def requestedSize (size : Option Int) : Value :=
  (size.map Value.int).getD .null

theorem PageSizes.exists_clamp {c : Config} {standard greatest : Nat}
    (hsizes : c.PageSizes standard greatest) (size : Option Int) :
    ∃ granted k, c.clampPageSize (requestedSize size) = .ok granted ∧
      granted.whole? = some ((k : Nat) : Int) ∧ 0 < k ∧ k ≤ greatest := by
  have hle := hsizes.le
  have hone := hsizes.one_le
  cases size with
  | none => exact ⟨c.defaultPageSize, standard, rfl, hsizes.standard_whole, hone, hle⟩
  | some n =>
      have hatLeast : (Number.greater (.whole 1) (.whole n)).whole? = some (max 1 n) :=
        Number.whole?_greater rfl rfl
      have hgranted := Number.whole?_lesser hsizes.greatest_whole hatLeast
      refine ⟨_, (min (greatest : Int) (max 1 n)).toNat, rfl, ?_, by omega, by omega⟩
      rw [Int.toNat_of_nonneg (by omega)]
      exact hgranted

end Config

namespace Request

open Page

variable {α : Type}

/-- A page cuts the items at the multiples of a size around an offset. -/
structure Cuts (items : List α) (offset k : Nat) (page : Page α) : Prop where
  pos : 0 < k
  items_eq : page.items = (items.take ((offset / k + 1) * k)).drop (offset / k * k)
  start_eq : page.start? = some ((offset / k * k : Nat) : Int)
  next_eq : page.nextCursor =
    if (offset / k + 1) * k < items.length then
      some (Cursor.encode ((offset / k + 1) * k : Nat)) else none

theorem page_cuts {r : Request} {standard greatest : Nat}
    (hsizes : r.config.PageSizes standard greatest) (items : List α) {cursor : Value}
    {offset : Nat} (hcursor : LeadsTo cursor offset) (size : Option Int) :
    ∃ page granted k, r.page items (.int 1) (Config.requestedSize size) cursor = .ok page ∧
      r.config.clampPageSize (Config.requestedSize size) = .ok granted ∧
      granted.whole? = some ((k : Nat) : Int) ∧ Cuts items offset k page := by
  obtain ⟨granted, k, hclamp, hgranted, hk, hle⟩ := hsizes.exists_clamp size
  obtain ⟨page, hserve, hitems, hnumber, hsize, -, hnext⟩ :=
    serve_eq_ok items (offset / k) hgranted hsizes.greatest_whole hk hle
  refine ⟨page, granted, k, ?_, hclamp, hgranted, hk, hitems, ?_, hnext⟩
  · simp only [Request.page, Attempt.bind_eq_ok]
    exact ⟨granted, hclamp, _, numberToServe_of_leadsTo hcursor hgranted hk, hserve⟩
  · simp only [start?, hnumber, hsize, Option.bind_eq_bind, Option.bind_some, Option.pure_def,
      Option.some.injEq]
    push_cast
    ring

end Request
end SymbolAtlas
