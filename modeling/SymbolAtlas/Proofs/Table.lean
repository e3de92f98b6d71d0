import SymbolAtlas.Table
import Mathlib.Tactic

/-!
# Entries of a table

What is found under a key is an entry of the table, and leaving a key out hides its entries and no
others.  Writing brings in a single entry, so that a condition on all entries has to be checked for
that one alone.
-/

namespace SymbolAtlas
namespace Table

variable {α : Type}

theorem find?_without (key other : String) (entries : List (String × α)) :
    find? other (without key entries) = if other = key then none else find? other entries := by
  induction entries with
  | nil => simp [without, find?]
  | cons entry rest ih =>
      obtain ⟨k, v⟩ := entry
      unfold without
      by_cases hk : k = key
      · subst hk
        rw [if_pos rfl, ih]
        by_cases hother : other = k
        · simp [hother]
        · simp [hother, find?, Ne.symm hother]
      · rw [if_neg hk]
        by_cases hother : k = other
        · subst hother
          simp [find?, hk]
        · simp [find?, hother, ih]

theorem find?_of_find?_without {key other : String} {value : α} {entries : List (String × α)}
    (hfind : find? other (without key entries) = some value) : find? other entries = some value := by
  rw [find?_without] at hfind
  split at hfind
  next => cases hfind
  next => exact hfind

theorem find?_append (key : String) (entries more : List (String × α)) :
    find? key (entries ++ more) = (find? key entries).or (find? key more) := by
  induction entries with
  | nil => rfl
  | cons entry rest ih =>
      obtain ⟨k, v⟩ := entry
      by_cases hk : k = key
      · simp [find?, hk]
      · simp [find?, hk, ih]

theorem mem_of_find? {key : String} {value : α} {entries : List (String × α)}
    (hfind : find? key entries = some value) : (key, value) ∈ entries := by
  induction entries with
  | nil => cases hfind
  | cons entry rest ih =>
      obtain ⟨k, v⟩ := entry
      unfold find? at hfind
      by_cases hk : k = key
      · rw [if_pos hk, Option.some.injEq] at hfind
        subst hk hfind
        exact List.mem_cons_self
      · rw [if_neg hk] at hfind
        exact List.mem_cons_of_mem _ (ih hfind)

theorem mem_put {key : String} {value : α} {entry : String × α} {entries : List (String × α)}
    (hentry : entry ∈ put key value entries) : entry = (key, value) ∨ entry ∈ entries := by
  induction entries with
  | nil => exact Or.inl (List.mem_singleton.mp hentry)
  | cons first rest ih =>
      obtain ⟨k, v⟩ := first
      unfold put at hentry
      by_cases hk : k = key
      · rw [if_pos hk, hk] at hentry
        rcases List.mem_cons.mp hentry with heq | hrest
        · exact Or.inl heq
        · exact Or.inr (List.mem_cons_of_mem _ hrest)
      · rw [if_neg hk] at hentry
        rcases List.mem_cons.mp hentry with heq | hrest
        · exact Or.inr (List.mem_cons.mpr (Or.inl heq))
        · exact (ih hrest).imp_right (List.mem_cons_of_mem _)

theorem map_fst_put (key : String) (value : α) (entries : List (String × α)) :
    (put key value entries).map Prod.fst =
      if key ∈ entries.map Prod.fst then entries.map Prod.fst
      else entries.map Prod.fst ++ [key] := by
  induction entries with
  | nil => simp [put]
  | cons first rest ih =>
      obtain ⟨k, v⟩ := first
      unfold put
      by_cases hk : k = key
      · simp [hk]
      · rw [if_neg hk, List.map_cons, ih]
        by_cases hrest : key ∈ rest.map Prod.fst
        · rw [if_pos hrest, List.map_cons, if_pos (List.mem_cons_of_mem k hrest)]
        · have hnot : key ∉ k :: rest.map Prod.fst := by
            rw [List.mem_cons, not_or]
            exact ⟨Ne.symm hk, hrest⟩
          rw [if_neg hrest, List.map_cons, if_neg hnot, List.cons_append]

theorem nodup_keys_insert {t : Table α} (hunique : t.keys.Nodup) (key : String) (value : α) :
    (t.insert key value).keys.Nodup := by
  unfold keys insert
  rw [map_fst_put]
  split
  next => exact hunique
  next hnew =>
    rw [← List.concat_eq_append]
    exact List.Nodup.concat hnew hunique

theorem nodup_keys_insertNew {t : Table α} (hunique : t.keys.Nodup) (key : String) (value : α) :
    (t.insertNew key value).keys.Nodup := by
  unfold insertNew
  split
  next => exact hunique
  next => exact nodup_keys_insert hunique key value

theorem contains_iff {t : Table α} {key : String} :
    t.contains key = true ↔ ∃ value, t.get? key = some value :=
  Option.isSome_iff_exists

theorem isSome_find?_iff {key : String} {entries : List (String × α)} :
    (find? key entries).isSome = true ↔ key ∈ entries.map Prod.fst := by
  induction entries with
  | nil => simp [find?]
  | cons entry rest ih =>
      obtain ⟨k, v⟩ := entry
      rw [List.map_cons, List.mem_cons, ← ih]
      by_cases hk : k = key
      · simp [find?, hk]
      · simp [find?, hk, Ne.symm hk]

theorem mem_keys_iff {t : Table α} {key : String} :
    key ∈ t.keys ↔ ∃ value, t.get? key = some value :=
  isSome_find?_iff.symm.trans Option.isSome_iff_exists

theorem get?_of_contains {t : Table α} {key : String} (hkey : t.contains key = false) :
    t.get? key = none := by
  rw [← Option.not_isSome_iff_eq_none, Bool.not_eq_true]
  exact hkey

theorem contains_of_get? {t : Table α} {key : String} (hkey : t.get? key = none) :
    t.contains key = false := by
  rw [contains, hkey]
  rfl

theorem find?_of_mem {key : String} {value : α} {entries : List (String × α)}
    (hunique : (entries.map Prod.fst).Nodup) (hmem : (key, value) ∈ entries) :
    find? key entries = some value := by
  induction entries with
  | nil => cases hmem
  | cons first rest ih =>
      obtain ⟨k, v⟩ := first
      rw [List.map_cons, List.nodup_cons] at hunique
      rcases List.mem_cons.mp hmem with heq | hrest
      · obtain ⟨rfl, rfl⟩ := Prod.mk.inj heq
        exact if_pos rfl
      · have hk : k ≠ key := by
          rintro rfl
          exact hunique.1 (List.mem_map.mpr ⟨(k, value), hrest, rfl⟩)
        unfold find?
        rw [if_neg hk]
        exact ih hunique.2 hrest

theorem mem_values_iff {t : Table α} {value : α} :
    value ∈ t.values ↔ ∃ key, (key, value) ∈ t.entries := by
  unfold values
  rw [List.mem_map]
  constructor
  · rintro ⟨⟨key, v⟩, hmem, rfl⟩
    exact ⟨key, hmem⟩
  · rintro ⟨key, hmem⟩
    exact ⟨(key, value), hmem, rfl⟩

theorem get?_insertNew (t : Table α) (key other : String) (value : α) :
    (t.insertNew key value).get? other =
      (t.get? other).or (if key = other then some value else none) := by
  unfold insertNew
  split
  next hthere =>
    obtain ⟨old, hold⟩ := contains_iff.mp hthere
    by_cases hkey : key = other
    · rw [← hkey, hold, Option.some_or]
    · rw [if_neg hkey, Option.or_none]
  next hnew =>
    rw [get?_insert]
    by_cases hkey : key = other
    · have hnone : t.get? key = none := by
        rw [← Option.not_isSome_iff_eq_none]
        exact hnew
      rw [← hkey, if_pos rfl, hnone, if_pos rfl, Option.none_or]
    · rw [if_neg hkey, if_neg hkey, Option.or_none]

/-- Tables that answer alike do so after the same has been written into both. -/
theorem get?_insert_congr {t t' : Table α} {other : String} (key : String) (value : α)
    (h : t'.get? other = t.get? other) :
    (t'.insert key value).get? other = (t.insert key value).get? other := by
  rw [get?_insert, get?_insert, h]

theorem get?_insertNew_congr {t t' : Table α} {other : String} (key : String) (value : α)
    (h : t'.get? other = t.get? other) :
    (t'.insertNew key value).get? other = (t.insertNew key value).get? other := by
  rw [get?_insertNew, get?_insertNew, h]

/-! ## Lists under keys -/

section Lists

variable {β : Type} {t : Table (List β)} {key other : String} {item x : β}

theorem mem_listAt_iff : x ∈ t.listAt key ↔ ∃ items, t.get? key = some items ∧ x ∈ items := by
  unfold listAt
  cases t.get? key with
  | none => simp
  | some items => simp

theorem listAt_empty (key : String) : (empty : Table (List β)).listAt key = [] :=
  rfl

theorem listAt_congr {t t' : Table (List β)} (h : t'.get? key = t.get? key) :
    t'.listAt key = t.listAt key := by
  unfold listAt
  rw [h]

theorem listAt_insert (t : Table (List β)) (key other : String) (items : List β) :
    (t.insert key items).listAt other = if key = other then items else t.listAt other := by
  unfold listAt
  rw [get?_insert]
  by_cases hkey : key = other <;> simp [hkey]

theorem mem_listAt_append :
    x ∈ (t.append key item).listAt other ↔ x ∈ t.listAt other ∨ key = other ∧ x = item := by
  unfold append
  rw [listAt_insert]
  by_cases hkey : key = other
  · subst hkey
    simp
  · simp [hkey]

/-- What each step of a fold brings in is what the whole fold brings in. -/
theorem foldl_iff {σ ι : Type} {f : σ → ι → σ} {p : σ → Prop} {q : ι → Prop}
    (hstep : ∀ state i, p (f state i) ↔ p state ∨ q i) (state : σ) (items : List ι) :
    p (items.foldl f state) ↔ p state ∨ ∃ i ∈ items, q i := by
  induction items generalizing state with
  | nil => simp
  | cons i rest ih => rw [List.foldl_cons, ih, hstep, List.exists_mem_cons_iff, or_assoc]

end Lists

/-- Every entry of a table satisfies a condition. -/
def Each (t : Table α) (p : String → α → Prop) : Prop :=
  ∀ entry ∈ t.entries, p entry.1 entry.2

variable {t : Table α} {p q : String → α → Prop}

theorem each_empty (p : String → α → Prop) : (empty : Table α).Each p := by
  intro entry hentry
  cases hentry

theorem Each.mono (h : t.Each p) (hpq : ∀ key value, p key value → q key value) : t.Each q := by
  intro entry hentry
  exact hpq entry.1 entry.2 (h entry hentry)

theorem Each.insert (h : t.Each p) {key : String} {value : α} (hnew : p key value) :
    (t.insert key value).Each p := by
  intro entry hentry
  rcases mem_put hentry with rfl | hold
  · exact hnew
  · exact h entry hold

theorem Each.insertNew (h : t.Each p) {key : String} {value : α} (hnew : p key value) :
    (t.insertNew key value).Each p := by
  unfold Table.insertNew
  split
  next => exact h
  next => exact h.insert hnew

theorem Each.get? (h : t.Each p) {key : String} {value : α} (hget : t.get? key = some value) :
    p key value :=
  h (key, value) (mem_of_find? hget)

theorem Each.listAt {β : Type} {t : Table (List β)} {p : β → Prop}
    (h : t.Each fun _ items => ∀ item ∈ items, p item) (key : String) :
    ∀ item ∈ t.listAt key, p item := by
  intro item hitem
  unfold Table.listAt at hitem
  cases hget : t.get? key with
  | none =>
      rw [hget] at hitem
      cases hitem
  | some items =>
      rw [hget] at hitem
      exact h.get? hget item hitem

theorem Each.append {β : Type} {t : Table (List β)} {p : β → Prop}
    (h : t.Each fun _ items => ∀ item ∈ items, p item) (key : String) {item : β}
    (hitem : p item) : (t.append key item).Each fun _ items => ∀ item ∈ items, p item := by
  apply h.insert
  intro other hother
  rcases List.mem_append.mp hother with hold | hlast
  · exact h.listAt key other hold
  · rw [List.mem_singleton.mp hlast]
    exact hitem

end Table

end SymbolAtlas
