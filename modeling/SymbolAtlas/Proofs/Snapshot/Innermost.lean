import SymbolAtlas.Snapshot.Position
import SymbolAtlas.Proofs.Number.Whole
import Mathlib.Data.Prod.Lex
import Mathlib.Order.Interval.Set.Basic
import Mathlib.Tactic
import Mathlib.Order.CompletePartialOrder

/-!
# The innermost declaration

The extent of a declaration is an interval of lines and columns.  Declarations are compared by a
later start and, where they start together, by an earlier end; that order puts an extent that lies
properly inside of another one first, so the least declaration around a position has no other one
around the position properly inside of it.
-/

namespace SymbolAtlas
namespace Span

/-- The line and column that a declaration begins at. -/
def start (span : Span) : ℤ ×ₗ ℤ :=
  toLex (span.startLine, span.startColumn)

def stop (span : Span) : ℤ ×ₗ ℤ :=
  toLex (span.endLine, span.endColumn)

/-- The lines and columns that a declaration takes up, both ends included. -/
def interval (span : Span) : Set (ℤ ×ₗ ℤ) :=
  Set.Icc span.start span.stop

variable {a b span : Span} {p : Position}

/-- At a whole line and column a declaration holds what its interval has. -/
theorem holds_whole_iff {line column : Int} :
    span.holds ⟨.whole line, .whole column⟩ = true ↔ toLex (line, column) ∈ span.interval := by
  have hstart : Position.isBefore ⟨.whole line, .whole column⟩ span.startLine span.startColumn =
      false ↔ span.start ≤ toLex (line, column) := by
    unfold Position.isBefore start
    simp only [Number.eq_whole, Number.lt_whole, Prod.Lex.toLex_le_toLex]
    by_cases hline : line = span.startLine <;> simp [hline]
    omega
  have hstop : Position.isUpTo ⟨.whole line, .whole column⟩ span.endLine span.endColumn = true ↔
      toLex (line, column) ≤ span.stop := by
    unfold Position.isUpTo stop
    simp only [Number.eq_whole, Number.le_whole, Prod.Lex.toLex_le_toLex]
    by_cases hline : line = span.endLine <;> simp [hline]
    omega
  rw [holds, Bool.and_eq_true, Bool.not_eq_true', hstart, hstop]
  exact Iff.rfl

/-- A declaration that holds a position does not end before it starts. -/
theorem start_le_stop (h : span.holds p = true) : span.start ≤ span.stop := by
  rw [holds, Bool.and_eq_true, Bool.not_eq_true'] at h
  obtain ⟨hstart, hstop⟩ := h
  unfold Position.isBefore at hstart
  unfold Position.isUpTo at hstop
  have hbehind : p.line.lt (.whole span.startLine) = false := by
    split at hstart
    next heq => exact (Number.eq_iff_le_and_not_lt.mp heq).2
    next => exact hstart
  have hupTo : p.line.le (.whole span.endLine) = true := by
    split at hstop
    next heq => exact (Number.eq_iff_le_and_not_lt.mp heq).1
    next => exact hstop
  have hlines : span.startLine ≤ span.endLine := Number.le_of_between hbehind hupTo
  rw [start, stop, Prod.Lex.toLex_le_toLex]
  rcases hlines.lt_or_eq with hless | hline
  · exact .inl hless
  · -- on one line the columns decide
    have heq : p.line.eq (.whole span.startLine) = true :=
      Number.eq_iff_le_and_not_lt.mpr ⟨by rwa [hline], hbehind⟩
    rw [if_pos heq] at hstart
    rw [← hline, if_pos heq] at hstop
    exact .inr ⟨hline, Number.le_of_between hstart hstop⟩

/-- What declarations are compared by, as one order: a later start counts as less, and where two
start together the earlier end does. -/
def nesting (span : Span) : (ℤ ×ₗ ℤ)ᵒᵈ ×ₗ (ℤ ×ₗ ℤ) :=
  toLex (OrderDual.toDual span.start, span.stop)

theorem nesting_lt_iff :
    a.nesting < b.nesting ↔ b.start < a.start ∨ a.start = b.start ∧ a.stop < b.stop :=
  Prod.Lex.toLex_lt_toLex

theorem nestsWithin_iff : a.nestsWithin b = true ↔ a.nesting < b.nesting := by
  rw [nesting_lt_iff]
  unfold nestsWithin nestingKey start stop
  simp only [decide_eq_true_eq, List.cons_lt_cons_iff, List.not_lt_nil, and_false, or_false,
    Prod.Lex.toLex_lt_toLex, toLex_inj, Prod.mk.injEq]
  omega

/-- What lies properly inside of another declaration comes before it. -/
theorem nesting_lt_of_ssubset (ha : a.start ≤ a.stop) (hinside : a.interval ⊂ b.interval) :
    a.nesting < b.nesting := by
  obtain ⟨hstart, hstop⟩ := (Set.Icc_subset_Icc_iff ha).mp hinside.subset
  rw [nesting_lt_iff]
  rcases hstart.lt_or_eq with hlater | hsame
  · exact .inl hlater
  · have hother : a.stop ≠ b.stop := by
      intro hequal
      refine hinside.ne ?_
      rw [interval, interval, hsame, hequal]
    exact .inr ⟨hsame.symm, hstop.lt_of_ne hother⟩

end Span

namespace Snapshot

variable {s : Snapshot} {file : String} {symbol : Symbol} {span : Span}
  {declarations : List (Span × Symbol)} {found : Span × Symbol}

/-- A declared symbol takes up a span of a file. -/
def Spans (s : Snapshot) (file : String) (symbol : Symbol) (span : Span) : Prop :=
  ∃ id, (id, symbol) ∈ s.tables.symbols.entries ∧ s.tables.spans.get? id = some span ∧
    span.file = file

theorem mem_spansIn_iff : (span, symbol) ∈ s.spansIn file ↔ s.Spans file symbol span := by
  rw [spansIn, List.mem_filterMap]
  constructor
  · rintro ⟨⟨id, declared⟩, hentry, hspan⟩
    simp only [] at hspan
    split at hspan
    next found hget =>
      split at hspan
      next hfile =>
        cases hspan
        exact ⟨id, hentry, hget, hfile⟩
      next => cases hspan
    next => cases hspan
  · rintro ⟨id, hentry, hget, hfile⟩
    refine ⟨(id, symbol), hentry, ?_⟩
    simp only [hget, if_pos hfile]

theorem innermost?_mem (hfound : innermost? declarations = some found) : found ∈ declarations := by
  induction declarations generalizing found with
  | nil => cases hfound
  | cons d rest ih =>
      unfold innermost? at hfound
      split at hfound
      next =>
        cases hfound
        exact List.mem_cons_self
      next e he =>
        split at hfound
        next =>
          cases hfound
          exact List.mem_cons_of_mem d (ih he)
        next =>
          cases hfound
          exact List.mem_cons_self

theorem innermost?_eq_none_iff : innermost? declarations = none ↔ declarations = [] := by
  cases declarations with
  | nil => exact ⟨fun _ => rfl, fun _ => rfl⟩
  | cons d rest =>
      refine ⟨fun hnone => ?_, fun h => nomatch h⟩
      unfold innermost? at hnone
      split at hnone
      next => cases hnone
      next => split at hnone <;> cases hnone

/-- No declaration comes before the innermost one. -/
theorem innermost?_le (hfound : innermost? declarations = some found) :
    ∀ d ∈ declarations, found.1.nesting ≤ d.1.nesting := by
  induction declarations generalizing found with
  | nil => cases hfound
  | cons d rest ih =>
      unfold innermost? at hfound
      split at hfound
      next hnone =>
        cases hfound
        rw [innermost?_eq_none_iff.mp hnone]
        simp
      next e he =>
        have hrest := ih he
        split at hfound
        next hless =>
          cases hfound
          exact List.forall_mem_cons.mpr ⟨(Span.nestsWithin_iff.mp hless).le, hrest⟩
        next hnot =>
          cases hfound
          rw [Span.nestsWithin_iff, not_lt] at hnot
          exact List.forall_mem_cons.mpr ⟨le_rfl, fun x hx => hnot.trans (hrest x hx)⟩

/-- A position is enclosed by a symbol if and only if some declaration of the file holds it, and
then by one that holds it with no other one properly inside.  A declaration holds the lines and
columns of its interval. -/
theorem enclosing?_innermost (s : Snapshot) (file : String) (p : Position) :
    (∀ (span : Span) (line column : Int),
        span.holds ⟨.whole line, .whole column⟩ = true ↔ toLex (line, column) ∈ span.interval) ∧
      match s.enclosing? file p with
      | none => ∀ symbol span, s.Spans (s.normalizePath file) symbol span → span.holds p = false
      | some symbol => ∃ span, s.Spans (s.normalizePath file) symbol span ∧ span.holds p = true ∧
          ∀ other inner, s.Spans (s.normalizePath file) other inner → inner.holds p = true →
            ¬inner.interval ⊂ span.interval := by
  refine ⟨fun span line column => Span.holds_whole_iff, ?_⟩
  unfold enclosing?
  cases hfound : innermost? ((s.spansIn (s.normalizePath file)).filter fun d => d.1.holds p) with
  | none =>
      simp only [Option.map_none]
      intro symbol span hspan
      by_contra hholds
      have hmem : (span, symbol) ∈ (s.spansIn (s.normalizePath file)).filter fun d => d.1.holds p :=
        List.mem_filter.mpr ⟨mem_spansIn_iff.mpr hspan, by simpa using hholds⟩
      rw [innermost?_eq_none_iff.mp hfound] at hmem
      cases hmem
  | some found =>
      obtain ⟨span, symbol⟩ := found
      simp only [Option.map_some]
      obtain ⟨hmem, hholds⟩ := List.mem_filter.mp (innermost?_mem hfound)
      refine ⟨span, mem_spansIn_iff.mp hmem, hholds, ?_⟩
      intro other inner hother hinner hinside
      have hle : span.nesting ≤ inner.nesting :=
        innermost?_le hfound (inner, other)
          (List.mem_filter.mpr ⟨mem_spansIn_iff.mpr hother, hinner⟩)
      exact hle.not_gt (Span.nesting_lt_of_ssubset (Span.start_le_stop hinner) hinside)

end Snapshot
end SymbolAtlas
