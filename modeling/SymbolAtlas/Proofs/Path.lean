import SymbolAtlas.Path
import SymbolAtlas.Proofs.Text.Cut
import Mathlib.Tactic

/-!
# Rooted paths in normal form

What is left of a rooted path are its root and parts that name something.  Such a path stays as it
is when it is brought into normal form again, and seen from any other directory it is the same.
-/

namespace SymbolAtlas
namespace Path

/-- A part of a rooted path in normal form. -/
structure Kept (part : String) : Prop where
  nonempty : part ≠ ""
  notSame : part ≠ "."
  notParent : part ≠ ".."
  bare : '/' ∉ part.toList

variable {path root mark : String} {before kept : List String}

theorem kept_pushPart (hbefore : ∀ part ∈ before, Kept part) {part : String}
    (hpart : '/' ∉ part.toList) : ∀ p ∈ pushPart true before part, Kept p := by
  unfold pushPart
  split
  next => exact hbefore
  next hnamed =>
    rw [not_or] at hnamed
    split
    next =>
      split
      next => simp
      next last rest =>
        have hlast := (hbefore last List.mem_cons_self).notParent
        rw [if_neg hlast]
        exact fun p hp => hbefore p (List.mem_cons_of_mem last hp)
    next hparent =>
      exact List.forall_mem_cons.mpr ⟨⟨hnamed.1, hnamed.2, hparent, hpart⟩, hbefore⟩

theorem kept_foldl {parts : List String} (hparts : ∀ part ∈ parts, '/' ∉ part.toList)
    (hbefore : ∀ part ∈ before, Kept part) :
    ∀ p ∈ parts.foldl (pushPart true) before, Kept p := by
  refine List.foldlRecOn (motive := fun kept => ∀ p ∈ kept, Kept p) parts _ hbefore ?_
  intro kept hkept part hpart
  exact kept_pushPart hkept (hparts part hpart)

/-- Parts that are kept are all pushed. -/
theorem foldl_pushPart (hkept : ∀ part ∈ kept, Kept part) (before : List String) :
    kept.foldl (pushPart true) before = kept.reverse ++ before := by
  induction kept generalizing before with
  | nil => rfl
  | cons part rest ih =>
      obtain ⟨hpart, hrest⟩ := List.forall_mem_cons.mp hkept
      have hpush : pushPart true before part = part :: before := by
        unfold pushPart
        rw [if_neg (not_or.mpr ⟨hpart.nonempty, hpart.notSame⟩), if_neg hpart.notParent]
      rw [List.foldl_cons, hpush, ih hrest, List.reverse_cons, List.append_assoc,
        List.singleton_append]

theorem bare_of_mem_parts {part : String} (hpart : part ∈ parts path) : '/' ∉ part.toList := by
  obtain ⟨piece, hpiece, rfl⟩ := List.mem_map.mp hpart
  intro hslash
  rw [String.toList_ofList] at hslash
  have hbare := Text.of_mem_splitWhere hpiece '/' hslash
  cases hbare

/-- The root of a path, one slash or two. -/
def IsRoot (mark : String) : Prop :=
  mark = "/" ∨ mark = "//"

/-- What a rooted path is brought to. -/
theorem exists_normalize_eq (hpath : isAbsolute path = true) :
    ∃ mark kept, IsRoot mark ∧ (∀ part ∈ kept, Kept part) ∧
      normalize path = mark ++ "/".intercalate kept := by
  have hmark : IsRoot (rootMark path) := by
    obtain ⟨rest, hchars⟩ : ∃ rest, path.toList = '/' :: rest :=
      List.head?_eq_some_iff.mp (by simpa [isAbsolute] using hpath)
    unfold rootMark IsRoot
    rw [hchars]
    split
    next => exact .inl rfl
    next => exact .inr rfl
    next => exact .inl rfl
    next hother => exact absurd rfl (hother rest)
  have hrooted : (!(rootMark path).isEmpty) = true := by
    rcases hmark with hmark | hmark <;> rw [hmark] <;> rfl
  refine ⟨rootMark path, ((parts path).foldl (pushPart true) []).reverse, hmark, ?_, ?_⟩
  · intro part hpart
    exact kept_foldl (fun _ => bare_of_mem_parts) (by simp) part (List.mem_reverse.mp hpart)
  · unfold normalize
    simp only [hrooted]
    refine if_neg ?_
    rcases hmark with hmark | hmark <;> rw [hmark] <;> simp

/-- The parts behind a root are pushed one by one. -/
theorem foldl_pushPart_intercalate (hkept : ∀ part ∈ kept, Kept part) :
    ((Text.splitWhere (· == '/') ("/".intercalate kept).toList).map String.ofList).foldl
      (pushPart true) [] = kept.reverse := by
  have hslash : "/".toList = ['/'] := rfl
  rw [String.toList_intercalate, hslash]
  cases kept with
  | nil => rfl
  | cons first others =>
      have hbare : ∀ piece ∈ first.toList :: others.map String.toList, ∀ c ∈ piece,
          (c == '/') = false := by
        rw [← List.map_cons]
        intro piece hpiece c hc
        obtain ⟨part, hpart, rfl⟩ := List.mem_map.mp hpiece
        have hne : c ≠ '/' := fun heq => (hkept part hpart).bare (heq ▸ hc)
        simpa using hne
      have hparts : (first.toList :: others.map String.toList).map String.ofList =
          first :: others := by
        rw [← List.map_cons, List.map_map]
        simp
      rw [List.map_cons, Text.splitWhere_intercalate (by rfl) hbare, hparts, foldl_pushPart hkept,
        List.append_nil]

theorem head?_intercalate_ne (hkept : ∀ part ∈ kept, Kept part) :
    ("/".intercalate kept).toList.head? ≠ some '/' := by
  rw [String.toList_intercalate]
  cases kept with
  | nil => simp
  | cons first others =>
      have hfirst := hkept first List.mem_cons_self
      have hchars : first.toList ≠ [] := by simpa using hfirst.nonempty
      have hhead : (String.toList "/").intercalate ((first :: others).map String.toList) =
          first.toList ++ (String.toList "/").intercalate ([] :: others.map String.toList) := by
        rw [List.map_cons]
        cases others with
        | nil => simp
        | cons => simp [List.intercalate_cons_cons]
      rw [hhead, List.head?_append_of_ne_nil _ hchars]
      exact fun hslash => hfirst.bare (List.mem_of_mem_head? hslash)

theorem rootMark_append (hmark : IsRoot mark) {rest : String}
    (hrest : rest.toList.head? ≠ some '/') : rootMark (mark ++ rest) = mark := by
  unfold rootMark
  rw [String.toList_append]
  cases hchars : rest.toList with
  | nil => rcases hmark with rfl | rfl <;> rfl
  | cons c cs =>
      have hc : c ≠ '/' := by simpa [hchars] using hrest
      rcases hmark with rfl | rfl
      · have hone : "/".toList ++ c :: cs = '/' :: c :: cs := rfl
        rw [hone]
        simp [hc]
      · have htwo : "//".toList ++ c :: cs = '/' :: '/' :: c :: cs := rfl
        rw [htwo]
        simp [hc]

/-- A rooted path in normal form is left alone. -/
theorem normalize_rooted (hmark : IsRoot mark) (hkept : ∀ part ∈ kept, Kept part) :
    normalize (mark ++ "/".intercalate kept) = mark ++ "/".intercalate kept := by
  have hroot := rootMark_append hmark (head?_intercalate_ne hkept)
  have hpushed : (parts (mark ++ "/".intercalate kept)).foldl (pushPart true) [] =
      kept.reverse := by
    rw [← foldl_pushPart_intercalate hkept]
    unfold parts
    rw [String.toList_append]
    rcases hmark with rfl | rfl <;> rfl
  have hrooted : (!mark.isEmpty) = true := by rcases hmark with rfl | rfl <;> rfl
  unfold normalize
  simp only [hroot, hrooted, hpushed, List.reverse_reverse]
  refine if_neg ?_
  rcases hmark with rfl | rfl <;> simp

theorem isAbsolute_rooted (hmark : IsRoot mark) (rest : String) :
    isAbsolute (mark ++ rest) = true := by
  unfold isAbsolute
  rcases hmark with rfl | rfl <;> simp

theorem isAbsolute_join (hroot : isAbsolute root = true) (path : String) :
    isAbsolute (join root path) = true := by
  unfold join
  split
  next hpath => exact hpath
  next =>
    unfold isAbsolute at hroot ⊢
    have hne : root.toList ≠ [] := by
      intro hempty
      rw [hempty] at hroot
      cases hroot
    split
    next => rwa [String.toList_append, List.head?_append_of_ne_nil _ hne]
    next => rwa [String.append_assoc, String.toList_append, List.head?_append_of_ne_nil _ hne]

/-- Seen from a rooted directory a path is brought into normal form once and for all. -/
theorem normalize_join_normalize_join (hroot : isAbsolute root = true) (path : String) :
    normalize (join root (normalize (join root path))) = normalize (join root path) := by
  obtain ⟨mark, kept, hmark, hkept, hnormal⟩ := exists_normalize_eq (isAbsolute_join hroot path)
  rw [hnormal]
  have hjoined : join root (mark ++ "/".intercalate kept) = mark ++ "/".intercalate kept :=
    if_pos (isAbsolute_rooted hmark _)
  rw [hjoined, normalize_rooted hmark hkept]

end Path
end SymbolAtlas
