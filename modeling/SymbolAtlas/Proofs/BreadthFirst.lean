import Mathlib.Tactic

/-!
# Breadth-first search

A search keeps what it has seen and what waits in its queue, everything with a level that is one
more than a number of steps from the root.  Levels do not decrease along what is seen and what
waits, and none exceeds the first waiting level by more than one.  So nothing is met on a level
later than its distance asks for, and at the end exactly what lies within the depth of the search
has been seen, once and on the level of its distance.
-/

namespace SymbolAtlas
namespace BreadthFirst

variable {α : Type} (next : α → List α) (root : α)

/-- What a number of steps leads to from the root. -/
inductive Chain : Nat → α → Prop where
  | root : Chain 0 root
  | step {n : Nat} {a b : α} (hchain : Chain n a) (hnext : b ∈ next a) : Chain (n + 1) b

/-- The least number of steps from the root. -/
structure Distance (n : Nat) (a : α) : Prop where
  chain : Chain next root n a
  least : ∀ m, Chain next root m a → n ≤ m

/-- What holds while a search goes on that opens levels below its depth only. -/
structure Searching (depth : Nat) (seen queue : List (α × Nat)) : Prop where
  nodup : ((seen ++ queue).map Prod.fst).Nodup
  root_mem : (root, 1) ∈ seen ++ queue
  chained : ∀ visit ∈ seen ++ queue,
    ∃ n, visit.2 = n + 1 ∧ n < depth ∧ Chain next root n visit.1
  ordered : (seen ++ queue).Pairwise fun a b => a.2 ≤ b.2
  near : ∀ a ∈ seen ++ queue, ∀ b ∈ queue, a.2 ≤ b.2 + 1
  opened : ∀ visit ∈ seen, visit.2 < depth → ∀ b ∈ next visit.1,
    ∃ level, (b, level) ∈ seen ++ queue ∧ level ≤ visit.2 + 1

variable {next root} {depth : Nat} {seen rest : List (α × Nat)} {a : α} {level : Nat}

theorem Searching.start (hdepth : 0 < depth) : Searching next root depth [] [(root, 1)] where
  nodup := by simp
  root_mem := by simp
  chained := by
    intro visit hvisit
    obtain rfl := List.mem_singleton.mp hvisit
    exact ⟨0, rfl, hdepth, .root⟩
  ordered := List.pairwise_singleton _ _
  near := by simp
  opened := by simp

/-- What is new behind an item that is visited waits on the next level. -/
def waiting (new : List α) (level : Nat) : List (α × Nat) :=
  new.map fun b => (b, level + 1)

theorem map_fst_waiting (new : List α) (level : Nat) : (waiting new level).map Prod.fst = new := by
  unfold waiting
  rw [List.map_map]
  exact List.map_id new

theorem mem_waiting {new : List α} {visit : α × Nat} :
    visit ∈ waiting new level ↔ visit.1 ∈ new ∧ visit.2 = level + 1 := by
  unfold waiting
  rw [List.mem_map]
  constructor
  · rintro ⟨b, hb, rfl⟩
    exact ⟨hb, rfl⟩
  · rintro ⟨hb, hlevel⟩
    exact ⟨visit.1, hb, by rw [← hlevel]⟩

theorem Searching.le_level (h : Searching next root depth seen ((a, level) :: rest)) :
    ∀ visit ∈ seen ++ (a, level) :: rest, visit.2 ≤ level + 1 := by
  intro visit hvisit
  exact h.near visit hvisit (a, level) List.mem_cons_self

theorem Searching.level_le (h : Searching next root depth seen ((a, level) :: rest)) :
    ∀ visit ∈ rest, level ≤ visit.2 := by
  have hordered := (List.pairwise_append.mp h.ordered).2.1
  exact (List.pairwise_cons.mp hordered).1

theorem Searching.chained_waiting (h : Searching next root depth seen ((a, level) :: rest))
    {new : List α} (hnew : ∀ b ∈ new, level < depth ∧ b ∈ next a) :
    ∀ visit ∈ waiting new level, ∃ n, visit.2 = n + 1 ∧ n < depth ∧ Chain next root n visit.1 := by
  intro visit hvisit
  obtain ⟨hmem, hlevel⟩ := mem_waiting.mp hvisit
  obtain ⟨hlt, hstep⟩ := hnew visit.1 hmem
  obtain ⟨n, hn, -, hchain⟩ :=
    h.chained (a, level) (List.mem_append_right seen List.mem_cons_self)
  have hn : level = n + 1 := hn
  subst hn
  exact ⟨n + 1, hlevel, hlt, hchain.step hstep⟩

/-- All that the visited item leads to is met by then, and on the next level at the latest. -/
theorem Searching.opened_waiting (h : Searching next root depth seen ((a, level) :: rest))
    {new : List α}
    (hnew : ∀ b ∈ next a, b ∈ new ∨ b ∈ (seen ++ (a, level) :: rest).map Prod.fst) :
    ∀ b ∈ next a, ∃ m, (b, m) ∈ (seen ++ (a, level) :: rest) ++ waiting new level ∧
      m ≤ level + 1 := by
  intro b hb
  rcases hnew b hb with hwaits | hmet
  · exact ⟨level + 1, List.mem_append_right _ (mem_waiting.mpr ⟨hwaits, rfl⟩), le_rfl⟩
  · obtain ⟨⟨c, m⟩, hm, rfl⟩ := List.mem_map.mp hmet
    exact ⟨m, List.mem_append_left _ hm, h.le_level _ hm⟩

/-- One step: the first waiting item is seen, and what is new behind it waits on the next level. -/
theorem Searching.visit (h : Searching next root depth seen ((a, level) :: rest)) {new : List α}
    (hnodup : new.Nodup)
    (hnew : ∀ b, b ∈ new ↔
      level < depth ∧ b ∈ next a ∧ b ∉ (seen ++ (a, level) :: rest).map Prod.fst) :
    Searching next root depth (seen ++ [(a, level)]) (rest ++ waiting new level) := by
  have hlist : seen ++ [(a, level)] ++ (rest ++ waiting new level) =
      (seen ++ (a, level) :: rest) ++ waiting new level := by
    simp
  constructor
  · rw [hlist, List.map_append, map_fst_waiting]
    refine h.nodup.append hnodup ?_
    intro b hmet hb
    exact ((hnew b).mp hb).2.2 hmet
  · rw [hlist]
    exact List.mem_append_left _ h.root_mem
  · intro visit hvisit
    rw [hlist, List.mem_append] at hvisit
    rcases hvisit with hold | hwaits
    · exact h.chained visit hold
    · exact h.chained_waiting (fun b hb => ⟨((hnew b).mp hb).1, ((hnew b).mp hb).2.1⟩) visit hwaits
  · rw [hlist, List.pairwise_append]
    refine ⟨h.ordered, ?_, ?_⟩
    · unfold waiting
      rw [List.pairwise_map]
      exact List.pairwise_of_forall (fun _ _ => le_rfl)
    · intro x hx y hy
      rw [(mem_waiting.mp hy).2]
      exact h.le_level x hx
  · intro x hx y hy
    have hx : x.2 ≤ level + 1 := by
      rw [hlist, List.mem_append] at hx
      rcases hx with hold | hwaits
      · exact h.le_level x hold
      · exact (mem_waiting.mp hwaits).2.le
    have hy : level ≤ y.2 := by
      rcases List.mem_append.mp hy with hrest | hwaits
      · exact h.level_le y hrest
      · rw [(mem_waiting.mp hwaits).2]
        exact Nat.le_succ level
    omega
  · intro visit hvisit hlt b hb
    rw [hlist]
    rcases List.mem_append.mp hvisit with hold | hlast
    · obtain ⟨m, hm, hle⟩ := h.opened visit hold hlt b hb
      exact ⟨m, List.mem_append_left _ hm, hle⟩
    · obtain rfl := List.mem_singleton.mp hlast
      have hmet : ∀ b ∈ next a, b ∈ new ∨ b ∈ (seen ++ (a, level) :: rest).map Prod.fst := by
        intro c hc
        by_cases hold : c ∈ (seen ++ (a, level) :: rest).map Prod.fst
        · exact Or.inr hold
        · exact Or.inl ((hnew c).mpr ⟨hlt, hc, hold⟩)
      exact h.opened_waiting hmet b hb

/-- A search that has ended has seen all that is near enough, and on no later level. -/
theorem Searching.exists_seen (h : Searching next root depth seen []) {n : Nat} {b : α}
    (hchain : Chain next root n b) (hn : n < depth) :
    ∃ level, (b, level) ∈ seen ∧ level ≤ n + 1 := by
  have hroot := h.root_mem
  have hopened := h.opened
  rw [List.append_nil] at hroot hopened
  induction hchain with
  | root => exact ⟨1, hroot, le_rfl⟩
  | @step n a b hchain hnext ih =>
      obtain ⟨m, hm, hle⟩ := ih (by omega)
      obtain ⟨k, hk, hkm⟩ := hopened (a, m) hm (show m < depth by omega) b hnext
      have hkm : k ≤ m + 1 := hkm
      exact ⟨k, hk, by omega⟩

theorem Searching.mem_seen_iff (h : Searching next root depth seen []) {visit : α × Nat} :
    visit ∈ seen ↔ ∃ n, visit.2 = n + 1 ∧ n < depth ∧ Distance next root n visit.1 := by
  have hnodup := h.nodup
  have hchained := h.chained
  rw [List.append_nil] at hnodup hchained
  have hsame : ∀ {b m k}, (b, m) ∈ seen → (b, k) ∈ seen → m = k := by
    intro b m k hm hk
    have heq := List.inj_on_of_nodup_map hnodup hm hk rfl
    exact congrArg Prod.snd heq
  obtain ⟨b, m⟩ := visit
  constructor
  · intro hseen
    obtain ⟨n, hm, hn, hchain⟩ := hchained (b, m) hseen
    refine ⟨n, hm, hn, hchain, ?_⟩
    intro k hk
    have hm : m = n + 1 := hm
    by_contra hlt
    obtain ⟨level, hlevel, hle⟩ := h.exists_seen hk (by omega)
    have heq := hsame hseen hlevel
    omega
  · rintro ⟨n, hm, hn, hdistance⟩
    have hm : m = n + 1 := hm
    obtain ⟨level, hlevel, hle⟩ := h.exists_seen hdistance.chain hn
    obtain ⟨k, hk, -, hchain⟩ := hchained (b, level) hlevel
    have hk : level = k + 1 := hk
    have hleast := hdistance.least k hchain
    obtain rfl : level = m := by omega
    exact hlevel

theorem Searching.mem_map_fst_iff (h : Searching next root depth seen []) :
    a ∈ seen.map Prod.fst ↔ ∃ n, n < depth ∧ Distance next root n a := by
  constructor
  · intro ha
    obtain ⟨visit, hvisit, rfl⟩ := List.mem_map.mp ha
    obtain ⟨n, -, hn, hdistance⟩ := h.mem_seen_iff.mp hvisit
    exact ⟨n, hn, hdistance⟩
  · rintro ⟨n, hn, hdistance⟩
    have hseen : (a, n + 1) ∈ seen := h.mem_seen_iff.mpr ⟨n, rfl, hn, hdistance⟩
    exact List.mem_map_of_mem hseen

end BreadthFirst
end SymbolAtlas
