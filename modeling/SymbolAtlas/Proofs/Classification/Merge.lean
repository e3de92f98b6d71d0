import SymbolAtlas.Proofs.Classification.Uses
import Mathlib.Tactic

/-!
# Merged classifications

Merging adds the symbols of one classification to those of another, list by list, so that what the
other one has stays where it is.  Merging a part of a classification into it changes nothing.
-/

namespace SymbolAtlas
namespace Classification

theorem mem_foldl_adding (symbols more : List Symbol) (x : Symbol) :
    x ∈ more.foldl adding symbols ↔ x ∈ symbols ∨ x ∈ more := by
  induction more generalizing symbols with
  | nil => simp
  | cons s rest ih => rw [List.foldl_cons, ih, mem_adding, List.mem_cons, or_assoc]

theorem nodup_foldl_adding {symbols : List Symbol} (hnodup : symbols.Nodup) (more : List Symbol) :
    (more.foldl adding symbols).Nodup := by
  induction more generalizing symbols with
  | nil => exact hnodup
  | cons s rest ih => exact ih (nodup_adding hnodup s)

theorem foldl_adding_eq_self {symbols more : List Symbol} (hmore : ∀ x ∈ more, x ∈ symbols) :
    more.foldl adding symbols = symbols := by
  induction more with
  | nil => rfl
  | cons s rest ih =>
      have hs : adding symbols s = symbols := by
        unfold adding
        rw [if_pos (List.contains_iff_mem.mpr (hmore s List.mem_cons_self))]
      rw [List.foldl_cons, hs]
      exact ih (fun x hx => hmore x (List.mem_cons_of_mem s hx))

/-- One of the three lists of a classification; what it has is merged in order. -/
structure IsList (f : Classification → List Symbol) : Prop where
  empty : f .empty = []
  merge : ∀ a b : Classification, f (a.merge b) = (f b).foldl adding (f a)

theorem isList_calls : IsList calls :=
  ⟨rfl, fun _ _ => rfl⟩

theorem isList_reads : IsList reads :=
  ⟨rfl, fun _ _ => rfl⟩

theorem isList_writes : IsList writes :=
  ⟨rfl, fun _ _ => rfl⟩

theorem merge_empty (c : Classification) : c.merge .empty = c :=
  rfl

theorem IsSet.merge {a : Classification} (ha : a.IsSet) (b : Classification) : (a.merge b).IsSet :=
  ⟨nodup_foldl_adding ha.calls b.calls, nodup_foldl_adding ha.reads b.reads,
    nodup_foldl_adding ha.writes b.writes⟩

/-- All classifications of a list merged, one after the other. -/
def mergeAll (parts : List Classification) : Classification :=
  parts.foldl merge .empty

theorem mergeAll_concat (parts : List Classification) (c : Classification) :
    mergeAll (parts ++ [c]) = (mergeAll parts).merge c := by
  unfold mergeAll
  rw [List.foldl_append, List.foldl_cons, List.foldl_nil]

theorem IsList.mem_mergeAll {f : Classification → List Symbol} (hf : IsList f)
    (parts : List Classification) (x : Symbol) :
    x ∈ f (mergeAll parts) ↔ ∃ c ∈ parts, x ∈ f c := by
  induction parts using List.reverseRecOn with
  | nil => simp [mergeAll, hf.empty]
  | append_singleton parts c ih =>
      rw [mergeAll_concat, hf.merge, mem_foldl_adding, ih]
      constructor
      · rintro (⟨part, hpart, hx⟩ | hx)
        · exact ⟨part, List.mem_append_left _ hpart, hx⟩
        · exact ⟨c, List.mem_append_right _ (List.mem_singleton_self c), hx⟩
      · rintro ⟨part, hpart, hx⟩
        rcases List.mem_append.mp hpart with hpart | hpart
        · exact Or.inl ⟨part, hpart, hx⟩
        · rw [List.mem_singleton.mp hpart] at hx
          exact Or.inr hx

theorem isSet_mergeAll (parts : List Classification) : (mergeAll parts).IsSet := by
  induction parts using List.reverseRecOn with
  | nil => exact isSet_empty
  | append_singleton parts c ih =>
      rw [mergeAll_concat]
      exact ih.merge c

/-- A classification that has been merged already adds nothing. -/
theorem mergeAll_merge_self {parts : List Classification} {c : Classification} (hc : c ∈ parts) :
    (mergeAll parts).merge c = mergeAll parts := by
  have hmem : ∀ {f : Classification → List Symbol}, IsList f → ∀ x ∈ f c, x ∈ f (mergeAll parts) :=
    fun hf x hx => (hf.mem_mergeAll parts x).mpr ⟨c, hc, hx⟩
  unfold merge
  rw [foldl_adding_eq_self (hmem isList_calls), foldl_adding_eq_self (hmem isList_reads),
    foldl_adding_eq_self (hmem isList_writes)]

end Classification
end SymbolAtlas
