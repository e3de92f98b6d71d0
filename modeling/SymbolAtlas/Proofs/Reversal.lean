import SymbolAtlas.Proofs.Reach
import Mathlib.Data.List.Chain
import Mathlib.Tactic

/-!
# Links turned round

A table with one target per id gives links from the ids to their targets, and turned round from the
targets back to the ids.  As long as no id has two entries, each of the two sets of links is the
other one read backwards, and so is what they reach, however the links go round.  The straight ones
are explored along one chain.
-/

namespace SymbolAtlas
namespace Reach

open Relation

variable {t : Table String} {a b : String}

theorem leads_entries_iff (r : Table (List String)) (a b : String) :
    Leads r.entries a b ↔ b ∈ r.listAt a :=
  Table.mem_listAt_iff.symm

theorem find?_single (t : Table String) (a : String) :
    Table.find? a (single t) = (t.get? a).map fun target => [target] := by
  obtain ⟨entries⟩ := t
  unfold single Table.get?
  induction entries with
  | nil => rfl
  | cons entry rest ih =>
      obtain ⟨id, target⟩ := entry
      by_cases hid : id = a
      · simp [Table.find?, hid]
      · simpa [Table.find?, hid] using ih

theorem leads_single_iff : Leads (single t) a b ↔ t.get? a = some b := by
  unfold Leads
  rw [find?_single]
  cases t.get? a with
  | none => simp
  | some target => simp [eq_comm]

theorem leads_single (t : Table String) : Leads (single t) = fun a b => t.get? a = some b := by
  funext a b
  exact propext leads_single_iff

theorem leads_reversed_iff (hkeys : t.keys.Nodup) :
    Leads (reversed t) a b ↔ t.get? b = some a := by
  have hfold := Table.foldl_iff
    (f := fun (r : Table (List String)) (entry : String × String) => r.append entry.2 entry.1)
    (p := fun r => b ∈ r.listAt a) (q := fun entry => entry.2 = a ∧ b = entry.1)
    (fun _ _ => Table.mem_listAt_append) .empty t.entries
  refine (leads_entries_iff _ a b).trans (hfold.trans ?_)
  constructor
  · rintro (hempty | ⟨entry, hentry, rfl, rfl⟩)
    · exact absurd hempty List.not_mem_nil
    · exact Table.find?_of_mem hkeys hentry
  · intro hget
    exact Or.inr ⟨(b, a), Table.mem_of_find? hget, rfl, rfl⟩

theorem leads_reversed (hkeys : t.keys.Nodup) :
    Leads (reversed t) = Function.swap fun a b => t.get? a = some b := by
  funext a b
  exact propext (leads_reversed_iff hkeys)

theorem mem_beyond_iff (links : Links) (start id : String) :
    id ∈ beyond links start ↔ id ≠ start ∧ TransGen (Leads links) start id := by
  unfold beyond
  rw [List.mem_filter, mem_explore_iff]
  simp [and_comm]

theorem mem_explore_single_iff :
    b ∈ explore (single t) [a] ↔ TransGen (fun a b => t.get? a = some b) a b := by
  rw [mem_explore_iff, leads_single]
  simp

/-- An id lies beyond another along the turned links if it leads there along the straight ones. -/
theorem mem_beyond_reversed_iff (hkeys : t.keys.Nodup) :
    b ∈ beyond (reversed t) a ↔ b ≠ a ∧ TransGen (fun a b => t.get? a = some b) b a := by
  rw [mem_beyond_iff, leads_reversed hkeys, transGen_swap]

/-! ## Straight links -/

/-- Links that lead from an id to a single one are explored along one chain: what waits in the
queue is the end of the chain so far, or nothing once the chain has closed. -/
theorem isChain_exploreFrom {r : String → String → Prop} {links : Links} {queue found : List String}
    {start : String}
    (hsingle : ∀ id next, Table.find? id links = some next → ∃ b, next = [b] ∧ r id b)
    (hqueue : queue = [] ∨ ∃ before last, start :: found = before ++ [last] ∧ queue = [last])
    (hchain : (start :: found).IsChain r) : (start :: exploreFrom links queue found).IsChain r := by
  induction links, queue, found using exploreFrom.induct with
  | case1 links found =>
      rw [exploreFrom]
      exact hchain
  | case2 links found id rest hnone ih =>
      rw [exploreFrom]
      split
      next =>
        obtain hempty | ⟨_, _, -, hlast⟩ := hqueue
        · cases hempty
        · exact ih hsingle (Or.inl (List.cons.inj hlast).2) hchain
      next next hnext => rw [hnone] at hnext; cases hnext
  | case3 links found id rest next hnext new ih =>
      rw [exploreFrom]
      split
      next hnone => rw [hnext] at hnone; cases hnone
      next other hother =>
        rw [hnext, Option.some.injEq] at hother
        subst hother
        obtain ⟨b, rfl, hlink⟩ := hsingle id next hnext
        have hsmaller : ∀ id' next, Table.find? id' (Table.without id links) = some next →
            ∃ b, next = [b] ∧ r id' b :=
          fun id' next hfind => hsingle id' next (Table.find?_of_find?_without hfind)
        obtain hempty | ⟨before, last, hfound, hlast⟩ := hqueue
        · cases hempty
        · obtain ⟨rfl, rfl⟩ := List.cons.inj hlast
          by_cases hold : b ∈ found
          · have hnew : new = [] := by simp [new, fresh, hold]
            apply ih hsmaller
            · simp [hnew]
            · simpa [hnew] using hchain
          · have hnew : new = [b] := by simp [new, fresh, hold]
            apply ih hsmaller
            · exact Or.inr ⟨start :: found, b, by simp [hnew], by simp [hnew]⟩
            · rw [hnew, ← List.cons_append, hfound, List.append_assoc]
              rw [hfound] at hchain
              exact List.isChain_append_cons_cons.mpr ⟨hchain, hlink, .singleton b⟩

theorem isChain_explore_single (t : Table String) (start : String) :
    (start :: explore (single t) [start]).IsChain fun a b => t.get? a = some b := by
  apply isChain_exploreFrom
  · intro id next hfind
    rw [find?_single] at hfind
    obtain ⟨target, htarget, rfl⟩ := Option.map_eq_some_iff.mp hfind
    exact ⟨target, rfl, htarget⟩
  · exact Or.inr ⟨[], start, rfl, rfl⟩
  · exact .singleton start

end Reach
end SymbolAtlas
