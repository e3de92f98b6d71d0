import SymbolAtlas.Proofs.Table
import SymbolAtlas.Reach
import Mathlib.Logic.Relation
import Mathlib.Tactic

/-!
# What links reach

Exploring lists an id exactly if a chain of links leads to it from some start.  While the search
runs, links are missing only at ids that have been expanded, and all that these lead to is found;
whatever is known but not expanded still waits in the queue.
-/

namespace SymbolAtlas

namespace Reach

open Relation

/-- Some link leads from one id to another. -/
def Leads (links : Links) (a b : String) : Prop :=
  ∃ next, Table.find? a links = some next ∧ b ∈ next

theorem mem_fresh (found ids : List String) (id : String) :
    id ∈ fresh found ids ↔ id ∈ ids ∧ id ∉ found := by
  induction ids generalizing found with
  | nil => simp [fresh]
  | cons first rest ih =>
      unfold fresh
      by_cases hfirst : first ∈ found
      · rw [if_pos (List.contains_iff_mem.mpr hfirst), ih, List.mem_cons]
        constructor
        · rintro ⟨hrest, hnew⟩
          exact ⟨Or.inr hrest, hnew⟩
        · rintro ⟨rfl | hrest, hnew⟩
          · exact absurd hfirst hnew
          · exact ⟨hrest, hnew⟩
      · rw [if_neg (by simpa using hfirst), List.mem_cons, ih, List.mem_cons, List.mem_cons]
        by_cases hid : id = first
        · subst hid
          simp [hfirst]
        · simp [hid]

/-- What holds while links are explored. -/
structure Exploring (full : Links) (starts : List String) (links : Links)
    (queue found : List String) : Prop where
  kept : ∀ {id next}, Table.find? id links = some next → Table.find? id full = some next
  expanded : ∀ {id next}, Table.find? id full = some next →
    Table.find? id links = some next ∨ ∀ b ∈ next, b ∈ found
  reached : ∀ id ∈ found, ∃ start ∈ starts, TransGen (Leads full) start id
  known : ∀ id ∈ queue, id ∈ starts ∨ id ∈ found
  waiting : ∀ id, id ∈ starts ∨ id ∈ found → id ∈ queue ∨ Table.find? id links = none

theorem Exploring.start (links : Links) (starts : List String) :
    Exploring links starts links starts [] where
  kept := id
  expanded := Or.inl
  reached := by simp
  known := fun id hid => Or.inl hid
  waiting := by
    rintro id (hid | hid)
    · exact Or.inl hid
    · cases hid

variable {full links : Links} {starts rest found : List String} {id : String}

theorem Exploring.leave (h : Exploring full starts links (id :: rest) found)
    (hnone : Table.find? id links = none) : Exploring full starts links rest found where
  kept := h.kept
  expanded := h.expanded
  reached := h.reached
  known := fun other hother => h.known other (List.mem_cons_of_mem id hother)
  waiting := by
    intro other hother
    rcases h.waiting other hother with hqueue | hused
    · rcases List.mem_cons.mp hqueue with rfl | hrest
      · exact Or.inr hnone
      · exact Or.inl hrest
    · exact Or.inr hused

/-- What an id that waits leads to is reached from some start. -/
theorem Exploring.reached_of_leads (h : Exploring full starts links (id :: rest) found)
    {b : String} (hleads : Leads full id b) : ∃ start ∈ starts, TransGen (Leads full) start b := by
  rcases h.known id List.mem_cons_self with hstart | hid
  · exact ⟨id, hstart, .single hleads⟩
  · obtain ⟨start, hstart, hpath⟩ := h.reached id hid
    exact ⟨start, hstart, hpath.tail hleads⟩

theorem mem_append_fresh {next : List String} {b : String} (hb : b ∈ next) :
    b ∈ found ++ fresh found next := by
  by_cases hold : b ∈ found
  · exact List.mem_append_left _ hold
  · exact List.mem_append_right _ ((mem_fresh found next b).mpr ⟨hb, hold⟩)

theorem Exploring.expand {next : List String}
    (h : Exploring full starts links (id :: rest) found)
    (hnext : Table.find? id links = some next) :
    Exploring full starts (Table.without id links) (rest ++ fresh found next)
      (found ++ fresh found next) := by
  constructor
  · intro other more hother
    exact h.kept (Table.find?_of_find?_without hother)
  · intro other more hother
    by_cases heq : other = id
    · subst heq
      rw [h.kept hnext, Option.some.injEq] at hother
      subst hother
      exact Or.inr (fun b hb => mem_append_fresh hb)
    · rw [Table.find?_without, if_neg heq]
      rcases h.expanded hother with hlinks | hall
      · exact Or.inl hlinks
      · exact Or.inr (fun b hb => List.mem_append_left _ (hall b hb))
  · intro b hb
    rcases List.mem_append.mp hb with hold | hnew
    · exact h.reached b hold
    · exact h.reached_of_leads ⟨next, h.kept hnext, ((mem_fresh found next b).mp hnew).1⟩
  · intro other hother
    rcases List.mem_append.mp hother with hrest | hnew
    · rcases h.known other (List.mem_cons_of_mem id hrest) with hstart | hold
      · exact Or.inl hstart
      · exact Or.inr (List.mem_append_left _ hold)
    · exact Or.inr (List.mem_append_right _ hnew)
  · intro other hother
    rw [Table.find?_without]
    by_cases heq : other = id
    · exact Or.inr (if_pos heq)
    · rw [if_neg heq, List.mem_append]
      by_cases hnew : other ∈ fresh found next
      · exact Or.inl (Or.inr hnew)
      · have hold : other ∈ starts ∨ other ∈ found := by
          rcases hother with hstart | hmem
          · exact Or.inl hstart
          · exact Or.inr ((List.mem_append.mp hmem).resolve_right hnew)
        rcases h.waiting other hold with hqueue | hused
        · exact Or.inl (Or.inl ((List.mem_cons.mp hqueue).resolve_left heq))
        · exact Or.inr hused

theorem Exploring.mem_iff (h : Exploring full starts links [] found) :
    id ∈ found ↔ ∃ start ∈ starts, TransGen (Leads full) start id := by
  constructor
  · exact h.reached id
  · rintro ⟨start, hstart, hpath⟩
    have hclosed : ∀ {a b}, a ∈ starts ∨ a ∈ found → Leads full a b → b ∈ found := by
      rintro a b ha ⟨next, hnext, hb⟩
      have hused : Table.find? a links = none :=
        (h.waiting a ha).resolve_left List.not_mem_nil
      rcases h.expanded hnext with hlinks | hall
      · rw [hused] at hlinks
        cases hlinks
      · exact hall b hb
    induction hpath with
    | single hleads => exact hclosed (Or.inl hstart) hleads
    | tail _ hleads ih => exact hclosed (Or.inr ih) hleads

theorem Exploring.mem_exploreFrom_iff {queue : List String}
    (h : Exploring full starts links queue found) :
    id ∈ exploreFrom links queue found ↔ ∃ start ∈ starts, TransGen (Leads full) start id := by
  induction links, queue, found using exploreFrom.induct with
  | case1 links found =>
      rw [exploreFrom]
      exact h.mem_iff
  | case2 links found first rest hnone ih =>
      rw [exploreFrom]
      split
      next => exact ih (h.leave hnone)
      next next hnext => rw [hnone] at hnext; cases hnext
  | case3 links found first rest next hnext new ih =>
      rw [exploreFrom]
      split
      next hnone => rw [hnext] at hnone; cases hnone
      next other hother =>
        rw [hnext, Option.some.injEq] at hother
        subst hother
        exact ih (h.expand hnext)

/-- Exploring lists exactly what one link or more lead to from some start. -/
theorem mem_explore_iff (links : Links) (starts : List String) (id : String) :
    id ∈ explore links starts ↔ ∃ start ∈ starts, TransGen (Leads links) start id :=
  (Exploring.start links starts).mem_exploreFrom_iff

/-! ## Where links may lead -/

/-- Every link leads to an id that satisfies a condition. -/
def LeadInto (links : Links) (p : String → Prop) : Prop :=
  ∀ entry ∈ links, ∀ id ∈ entry.2, p id

variable {p : String → Prop}

/-- The same of a table of links that is being filled. -/
def LinksInto (p : String → Prop) (r : Table (List String)) : Prop :=
  LeadInto r.entries p

theorem linksInto_empty (p : String → Prop) : LinksInto p .empty := by
  intro entry hentry
  cases hentry

theorem LinksInto.append {r : Table (List String)} (h : LinksInto p r) (source : String)
    {id : String} (hid : p id) : LinksInto p (r.append source id) :=
  Table.Each.append h source hid

theorem LeadInto.explore (h : LeadInto links p) (starts : List String) :
    ∀ id ∈ explore links starts, p id := by
  intro id hid
  rcases (mem_explore_iff links starts id).mp hid with ⟨start, -, hpath⟩
  rcases TransGen.tail'_iff.mp hpath with ⟨before, -, next, hnext, hmem⟩
  exact h (before, next) (Table.mem_of_find? hnext) id hmem

theorem LeadInto.targets (h : LeadInto links p) (start : String) (isTransitive : Bool) :
    ∀ id ∈ targets links start isTransitive, p id := by
  intro id hid
  unfold Reach.targets at hid
  cases isTransitive with
  | true => exact h.explore [start] id (List.mem_of_mem_filter hid)
  | false =>
      have hid : id ∈ (Table.find? start links).getD [] := hid
      cases hfind : Table.find? start links with
      | none =>
          rw [hfind] at hid
          cases hid
      | some next =>
          rw [hfind] at hid
          exact h (start, next) (Table.mem_of_find? hfind) id hid

/-- Links that are turned round lead to the keys of their table. -/
theorem leadInto_reversed {t : Table String} (ht : t.Each fun id _ => p id) :
    LeadInto (reversed t) p := by
  refine List.foldlRecOn (motive := LinksInto p) _ _ (linksInto_empty p) ?_
  intro r hr entry hentry
  exact hr.append entry.2 (ht entry hentry)

end Reach
end SymbolAtlas
