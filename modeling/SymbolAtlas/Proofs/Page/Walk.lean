import SymbolAtlas.Proofs.Page.Request
import Mathlib.Tactic

/-!
# Walks from page to page

A client asks for the first page and then hands each cursor back, with whatever page size it
likes every time.  The offset of the next cursor lies behind the one that the page serves, since
the page ends at the next multiple of its size, and never behind the end of the list.  This is why
a walk ends, why its offsets increase and why no item is left out; with one size throughout, every
page begins just where the one before it ended.
-/

namespace SymbolAtlas
namespace Request

open Page

variable {α : Type}

/-- The pages of a walk whose next request is the `i`th and hands in a cursor. -/
inductive Walk (r : Request) (items : List α) (sizes : Nat → Option Int) :
    Nat → Value → List (Page α) → Prop where
  | last {i : Nat} {cursor : Value} {page : Page α}
      (hpage : r.page items (.int 1) (Config.requestedSize (sizes i)) cursor = .ok page)
      (hlast : page.nextCursor = none) :
      Walk r items sizes i cursor [page]
  | next {i : Nat} {cursor : Value} {page : Page α} {next : String} {pages : List (Page α)}
      (hpage : r.page items (.int 1) (Config.requestedSize (sizes i)) cursor = .ok page)
      (hnext : page.nextCursor = some next)
      (hrest : Walk r items sizes (i + 1) (.text next) pages) :
      Walk r items sizes i cursor (page :: pages)

/-- The offsets that the cursors of some pages carry, in their order. -/
def offsets (pages : List (Page α)) : List Nat :=
  pages.filterMap nextOffset?

variable {r : Request} {items : List α} {sizes : Nat → Option Int} {granted : Nat → Prop}

theorem Walk.unique {i : Nat} {cursor : Value} {pages other : List (Page α)}
    (hwalk : Walk r items sizes i cursor pages) (hother : Walk r items sizes i cursor other) :
    other = pages := by
  induction hwalk generalizing other with
  | last hpage hlast =>
      cases hother with
      | last hpage' hlast' =>
          rw [hpage] at hpage'
          cases hpage'
          rfl
      | next hpage' hnext' hrest' =>
          rw [hpage] at hpage'
          cases hpage'
          rw [hlast] at hnext'
          cases hnext'
  | next hpage hnext hrest ih =>
      cases hother with
      | last hpage' hlast' =>
          rw [hpage] at hpage'
          cases hpage'
          rw [hnext] at hlast'
          cases hlast'
      | next hpage' hnext' hrest' =>
          rw [hpage] at hpage'
          cases hpage'
          rw [hnext] at hnext'
          cases hnext'
          rw [ih hrest']

/-- The pages that cut a list at the multiples of their sizes, each from the offset that the
cursor of the page before it carries, all sizes being granted. -/
inductive Chain (granted : Nat → Prop) (items : List α) : Nat → List (Page α) → Prop where
  | last {offset k : Nat} {page : Page α} (hgranted : granted k)
      (hcuts : Cuts items offset k page) (hend : items.length ≤ (offset / k + 1) * k) :
      Chain granted items offset [page]
  | next {offset k : Nat} {page : Page α} {pages : List (Page α)} (hgranted : granted k)
      (hcuts : Cuts items offset k page)
      (hoffset : nextOffset? page = some ((offset / k + 1) * k))
      (hmore : (offset / k + 1) * k < items.length)
      (hrest : Chain granted items ((offset / k + 1) * k) pages) :
      Chain granted items offset (page :: pages)

/-- The sizes that some request of a walk is granted. -/
def GrantedSize (r : Request) (sizes : Nat → Option Int) (k : Nat) : Prop :=
  ∃ i granted, r.config.clampPageSize (Config.requestedSize (sizes i)) = .ok granted ∧
    granted.whole? = some (k : Int)

theorem Cuts.lt_stop {offset k : Nat} {page : Page α} (hcuts : Cuts items offset k page) :
    offset < (offset / k + 1) * k := by
  have hk := hcuts.pos
  calc
    offset = k * (offset / k) + offset % k := (Nat.div_add_mod offset k).symm
    _ < k * (offset / k) + k := by
      have hmod := Nat.mod_lt offset hk
      omega
    _ = (offset / k + 1) * k := by ring

theorem Cuts.start_le (offset k : Nat) : offset / k * k ≤ offset :=
  Nat.div_mul_le_self offset k

theorem lt_digitLimit {n : Nat} (hitems : items.length ≤ 10 ^ Number.digitLimit)
    (hn : n < items.length) : n < 10 ^ Number.digitLimit :=
  lt_of_lt_of_le hn hitems

/-- From every offset a walk comes to an end, and its pages cut the list. -/
theorem exists_walk {standard greatest : Nat} (hsizes : r.config.PageSizes standard greatest)
    (hitems : items.length ≤ 10 ^ Number.digitLimit) (sizes : Nat → Option Int) (i : Nat)
    {cursor : Value} {offset : Nat} (hcursor : LeadsTo cursor offset) :
    ∃ pages, Walk r items sizes i cursor pages ∧
      Chain (GrantedSize r sizes) items offset pages := by
  induction hleft : items.length - offset using Nat.strong_induction_on
    generalizing i cursor offset with
  | _ left ih =>
      obtain ⟨page, granted, k, hpage, hclamp, hwhole, hcuts⟩ :=
        page_cuts hsizes items hcursor (sizes i)
      have hgranted : GrantedSize r sizes k := ⟨i, granted, hclamp, hwhole⟩
      have hlt := hcuts.lt_stop
      have hnext := hcuts.next_eq
      split at hnext
      next hmore =>
        have hstop : (offset / k + 1) * k < 10 ^ Number.digitLimit := lt_digitLimit hitems hmore
        have hleads : LeadsTo (.text (Cursor.encode ((offset / k + 1) * k : Nat)))
            ((offset / k + 1) * k) := Or.inr ⟨rfl, hstop⟩
        obtain ⟨pages, hwalk, hchain⟩ :=
          ih (items.length - (offset / k + 1) * k) (by omega) (i + 1) hleads rfl
        have hoffset : nextOffset? page = some ((offset / k + 1) * k) := by
          rw [nextOffset?, hnext, Option.bind_some, Cursor.decode?_encode hstop]
        exact ⟨page :: pages, .next hpage hnext hwalk, .next hgranted hcuts hoffset hmore hchain⟩
      next hend => exact ⟨[page], .last hpage hnext, .last hgranted hcuts (by omega)⟩

/-! ## What a chain of cuts covers -/

theorem Cuts.nextOffset?_eq_none {offset k : Nat} {page : Page α}
    (hcuts : Cuts items offset k page) (hend : items.length ≤ (offset / k + 1) * k) :
    nextOffset? page = none := by
  rw [nextOffset?, hcuts.next_eq, if_neg (by omega), Option.bind_none]

theorem Chain.offsets_increase {offset : Nat} {pages : List (Page α)}
    (hchain : Chain granted items offset pages) : (offset :: offsets pages).IsChain (· < ·) := by
  induction hchain with
  | last hgranted hcuts hend => simp [offsets, hcuts.nextOffset?_eq_none hend]
  | next hgranted hcuts hoffset hmore hrest ih =>
      rw [offsets, List.filterMap_cons_some hoffset]
      exact ih.cons_cons hcuts.lt_stop

/-- No page begins behind the offset that it is asked to serve. -/
theorem Chain.start_le_offset {offset : Nat} {pages : List (Page α)}
    (hchain : Chain granted items offset pages) :
    List.Forall₂ (fun (offset : Nat) page => ∃ start : Nat, page.start? = some (start : Int) ∧
      start ≤ offset) (offset :: offsets pages) pages := by
  induction hchain with
  | @last offset k page hgranted hcuts hend =>
      rw [offsets, List.filterMap_cons_none (hcuts.nextOffset?_eq_none hend), List.filterMap_nil]
      exact .cons ⟨_, hcuts.start_eq, Cuts.start_le offset k⟩ .nil
  | @next offset k page pages hgranted hcuts hoffset hmore hrest ih =>
      rw [offsets, List.filterMap_cons_some hoffset]
      exact .cons ⟨_, hcuts.start_eq, Cuts.start_le offset k⟩ ih

theorem Cuts.getElem? {offset k : Nat} {page : Page α} (hcuts : Cuts items offset k page)
    {j : Nat} (hstart : offset / k * k ≤ j) (hstop : j < (offset / k + 1) * k) :
    page.items[j - offset / k * k]? = items[j]? := by
  rw [hcuts.items_eq, List.getElem?_drop, Nat.add_sub_cancel' hstart,
    List.getElem?_take_of_lt hstop]

/-- Every item from an offset on stands on a page, at its own distance from the beginning. -/
theorem Chain.covers {offset : Nat} {pages : List (Page α)} (hchain : Chain granted items offset pages)
    {j : Nat} (hoffset : offset ≤ j) (hj : j < items.length) :
    ∃ page ∈ pages, ∃ start : Nat, page.start? = some (start : Int) ∧ start ≤ j ∧
      page.items[j - start]? = some items[j] := by
  induction hchain with
  | @last offset k page hgranted hcuts hend =>
      have hstart : offset / k * k ≤ j := (Cuts.start_le offset k).trans hoffset
      refine ⟨page, List.mem_singleton_self page, _, hcuts.start_eq, hstart, ?_⟩
      rw [hcuts.getElem? hstart (by omega), List.getElem?_eq_getElem hj]
  | @next offset k page pages hgranted hcuts hnext hmore hrest ih =>
      by_cases hstop : j < (offset / k + 1) * k
      · have hstart : offset / k * k ≤ j := (Cuts.start_le offset k).trans hoffset
        refine ⟨page, List.mem_cons_self, _, hcuts.start_eq, hstart, ?_⟩
        rw [hcuts.getElem? hstart hstop, List.getElem?_eq_getElem hj]
      · obtain ⟨found, hmem, hfound⟩ := ih (not_lt.mp hstop)
        exact ⟨found, List.mem_cons_of_mem page hmem, hfound⟩

theorem take_drop_append_drop (items : List α) {start stop : Nat} (hle : start ≤ stop) :
    (items.take stop).drop start ++ items.drop stop = items.drop start := by
  have hdrop : items.drop stop = (items.drop start).drop (stop - start) := by
    rw [List.drop_drop, Nat.add_sub_cancel' hle]
  rw [List.drop_take, hdrop, List.take_append_drop]

/-- Pages of one size, begun at a multiple of it, hold the rest of the list as it stands. -/
theorem Chain.flatMap_items {size m offset : Nat} (hsize : ∀ k, granted k → k = size)
    {pages : List (Page α)} (hchain : Chain granted items offset pages)
    (hoffset : offset = m * size) :
    pages.flatMap Page.items = items.drop offset := by
  induction hchain generalizing m with
  | @last offset k page hgranted hcuts hend =>
      obtain rfl := hsize k hgranted
      have hm : offset / k = m := by rw [hoffset, Nat.mul_div_cancel m hcuts.pos]
      rw [hm] at hend
      rw [List.flatMap_singleton, hcuts.items_eq, hm, List.take_of_length_le hend, hoffset]
  | @next offset k page pages hgranted hcuts hnext hmore hrest ih =>
      obtain rfl := hsize k hgranted
      have hm : offset / k = m := by rw [hoffset, Nat.mul_div_cancel m hcuts.pos]
      have hle : m * k ≤ (m + 1) * k := Nat.mul_le_mul_right k (Nat.le_succ m)
      rw [List.flatMap_cons, ih rfl, hcuts.items_eq, hm, take_drop_append_drop items hle, hoffset]

theorem GrantedSize.unique {granted : Number}
    (hsame : ∀ i, r.config.clampPageSize (Config.requestedSize (sizes i)) = .ok granted)
    {k : Nat} (hk : GrantedSize r sizes k) : granted.whole? = some (k : Int) := by
  obtain ⟨i, n, hclamp, hwhole⟩ := hk
  rw [hsame i] at hclamp
  cases hclamp
  exact hwhole

/-- Under settings that pass their check, a walk from the first page comes to an end whatever
sizes it asks for.  The offsets of its cursors increase, no page begins behind the offset that it
serves, every item stands on some page, and if all sizes are granted as one the pages hold the
list itself.  The only bound on the list is that its length has digits that a cursor can carry. -/
theorem walk_covers {settings : Value} (hconfig : Config.ofSettings settings = .ok r.config)
    (hstandard : r.config.defaultPageSize.whole?.isSome)
    (hgreatest : r.config.maxPageSize.whole?.isSome)
    (hitems : items.length ≤ 10 ^ Number.digitLimit) (sizes : Nat → Option Int) :
    ∃ pages, (∀ other, Walk r items sizes 0 .null other ↔ other = pages) ∧
      (0 :: offsets pages).IsChain (· < ·) ∧
      List.Forall₂ (fun (offset : Nat) page => ∃ start : Nat,
        page.start? = some (start : Int) ∧ start ≤ offset) (0 :: offsets pages) pages ∧
      (∀ (j : Nat) (hj : j < items.length), ∃ page ∈ pages, ∃ start : Nat,
        page.start? = some (start : Int) ∧ start ≤ j ∧
          page.items[j - start]? = some items[j]) ∧
      ∀ granted,
        (∀ i, r.config.clampPageSize (Config.requestedSize (sizes i)) = .ok granted) →
          pages.flatMap Page.items = items := by
  obtain ⟨standard, greatest, hsizes⟩ := Config.exists_pageSizes hconfig hstandard hgreatest
  obtain ⟨pages, hwalk, hchain⟩ :=
    exists_walk hsizes hitems sizes 0 (Or.inl ⟨rfl, rfl⟩ : LeadsTo .null 0)
  refine ⟨pages, ?_, hchain.offsets_increase, hchain.start_le_offset, ?_, ?_⟩
  · intro other
    constructor
    · exact hwalk.unique
    · rintro rfl
      exact hwalk
  · intro j hj
    exact hchain.covers (Nat.zero_le j) hj
  · intro granted hsame
    obtain ⟨first, k, hfirst, hwhole, -⟩ := hsizes.exists_clamp (sizes 0)
    rw [hsame 0] at hfirst
    cases hfirst
    have hone : ∀ j, GrantedSize r sizes j → j = k := by
      intro j hj
      have hj := hj.unique hsame
      rw [hwhole, Option.some.injEq, Nat.cast_inj] at hj
      exact hj.symm
    have hall := hchain.flatMap_items hone (m := 0) (Nat.zero_mul k).symm
    rw [hall, List.drop_zero]

theorem walk_covers_standard :
    ∃ pages, Walk ⟨.ofTables "" "" none {}, .standard, .none⟩ [10, 20, 30] (fun _ => some 2) 0 .null
        pages ∧ (0 :: offsets pages).IsChain (· < ·) ∧ pages.flatMap Page.items = [10, 20, 30] := by
  have hconfig : Config.ofSettings (.record Config.defaults) = .ok Config.standard := rfl
  have hitems : [10, 20, 30].length ≤ 10 ^ Number.digitLimit :=
    calc
      3 ≤ 10 ^ 1 := by decide
      _ ≤ 10 ^ Number.digitLimit := Nat.pow_le_pow_right (by decide) (by decide)
  obtain ⟨pages, hwalk, hincrease, -, -, hall⟩ :=
    walk_covers (r := ⟨.ofTables "" "" none {}, .standard, .none⟩) hconfig rfl rfl hitems
      (fun _ => some 2)
  have hpages : pages.flatMap Page.items = [10, 20, 30] := hall (.whole 2) (fun _ => rfl)
  exact ⟨pages, (hwalk pages).mpr rfl, hincrease, hpages⟩

end Request
end SymbolAtlas
