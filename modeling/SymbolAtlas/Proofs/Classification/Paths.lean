import SymbolAtlas.Proofs.Classification.Uses
import Mathlib.Tactic

/-!
# Classification by paths

A member is written if the last fixed use on some path to it is a write or both, and read if it
is a read or both, or if no edge of the path fixes a use.  The calls of a tree are the targets of
the calls on its walk; where accessors count, the getters of all properties that are read and the
setters of all that are written come on top.
-/

namespace SymbolAtlas
namespace Snapshot

open Operation

variable (s : Snapshot) (accessors : Bool) (tree : Operation)

theorem writes_getD_read_iff (last : Option Use) :
    (last.getD .read).writes = true ↔ last = some .write ∨ last = some .both := by
  rcases last with _ | (_ | _ | _) <;> simp [Use.writes]

theorem reads_getD_read_iff (last : Option Use) :
    (last.getD .read).reads = true ↔
      last = some .read ∨ last = some .both ∨ last = none := by
  rcases last with _ | (_ | _ | _) <;> simp [Use.reads]

theorem mem_writes_classifyTree (x : Symbol) :
    x ∈ (s.classifyTree accessors (some tree)).writes ↔
      ∃ entry ∈ tree.uses .read, entry.1.member? = some x ∧ entry.2.writes = true := by
  rw [classifyTree_eq_foldl,
    s.mem_foldl_noteOperation accessors (s.mem_writes_noteOperation accessors)]
  simp [Classification.empty]

theorem mem_reads_classifyTree (x : Symbol) :
    x ∈ (s.classifyTree accessors (some tree)).reads ↔
      ∃ entry ∈ tree.uses .read, entry.1.member? = some x ∧ entry.2.reads = true := by
  rw [classifyTree_eq_foldl,
    s.mem_foldl_noteOperation accessors (s.mem_reads_noteOperation accessors)]
  simp [Classification.empty]

theorem mem_calls_classifyTree (x : Symbol) :
    x ∈ (s.classifyTree accessors (some tree)).calls ↔
      ∃ entry ∈ tree.uses .read, entry.1.callee? = some x ∨
        ∃ member, entry.1.member? = some member ∧
          (entry.2.reads = true ∧ s.countedAccessor? accessors member false = some x ∨
            entry.2.writes = true ∧ s.countedAccessor? accessors member true = some x) := by
  rw [classifyTree_eq_foldl,
    s.mem_foldl_noteOperation accessors (s.mem_calls_noteOperation accessors)]
  simp [Classification.empty]

theorem countedAccessor?_eq_some_iff (member x : Symbol) (write : Bool) :
    s.countedAccessor? accessors member write = some x ↔
      accessors = true ∧ member.kind = .property ∧
        (if write then (s.accessorsOf member).2 else (s.accessorsOf member).1) = some x := by
  unfold countedAccessor? accessorFor?
  by_cases hkind : member.kind = .property <;> simp [hkind]

/-- Some operation of a use that satisfies a condition is an operation at the end of a path. -/
theorem exists_uses_iff_exists_path (p : Operation → Prop) (q : Use → Prop) :
    (∃ entry ∈ tree.uses .read, p entry.1 ∧ q entry.2) ↔
      ∃ path op, Path tree path op ∧ p op ∧ q ((lastFixed? path).getD .read) := by
  constructor
  · rintro ⟨⟨op, use⟩, hentry, hp, hq⟩
    obtain ⟨path, hpath, rfl⟩ := (mem_uses_iff tree op .read use).mp hentry
    exact ⟨path, op, hpath, hp, hq⟩
  · rintro ⟨path, op, hpath, hp, hq⟩
    exact ⟨(op, (lastFixed? path).getD .read),
      (mem_uses_iff tree op .read _).mpr ⟨path, hpath, rfl⟩, hp, hq⟩

theorem exists_uses_iff_exists_walk (p : Operation → Prop) :
    (∃ entry ∈ tree.uses .read, p entry.1) ↔ ∃ op ∈ tree.walk, p op := by
  rw [← uses_map_fst tree .read]
  constructor
  · rintro ⟨entry, hentry, hp⟩
    exact ⟨entry.1, List.mem_map.mpr ⟨entry, hentry, rfl⟩, hp⟩
  · rintro ⟨op, hop, hp⟩
    obtain ⟨entry, hentry, rfl⟩ := List.mem_map.mp hop
    exact ⟨entry, hentry, hp⟩

/-- What a tree calls, reads and writes, told by the paths to its operations. -/
theorem classifyTree_iff_paths (s : Snapshot) (accessors : Bool) (tree : Operation) :
    (∀ x, x ∈ (s.classifyTree accessors (some tree)).writes ↔
      ∃ path op, Path tree path op ∧ op.member? = some x ∧
        (lastFixed? path = some .write ∨ lastFixed? path = some .both)) ∧
    (∀ x, x ∈ (s.classifyTree accessors (some tree)).reads ↔
      ∃ path op, Path tree path op ∧ op.member? = some x ∧
        (lastFixed? path = some .read ∨ lastFixed? path = some .both ∨
          lastFixed? path = none)) ∧
    (∀ x, x ∈ (s.classifyTree accessors (some tree)).calls ↔
      (∃ op ∈ tree.walk, op.callee? = some x) ∨
        accessors = true ∧
          ((∃ p ∈ (s.classifyTree accessors (some tree)).reads,
              p.kind = .property ∧ (s.accessorsOf p).1 = some x) ∨
            ∃ p ∈ (s.classifyTree accessors (some tree)).writes,
              p.kind = .property ∧ (s.accessorsOf p).2 = some x)) ∧
    (s.classifyTree accessors (some tree)).IsSet := by
  refine ⟨?_, ?_, ?_, s.isSet_classifyTree accessors (some tree)⟩
  · intro x
    rw [mem_writes_classifyTree, exists_uses_iff_exists_path tree
      (fun op => op.member? = some x) (fun use => use.writes = true)]
    simp only [writes_getD_read_iff]
  · intro x
    rw [mem_reads_classifyTree, exists_uses_iff_exists_path tree
      (fun op => op.member? = some x) (fun use => use.reads = true)]
    simp only [reads_getD_read_iff]
  · intro x
    rw [mem_calls_classifyTree,
      ← exists_uses_iff_exists_walk tree (fun op => op.callee? = some x)]
    simp only [mem_reads_classifyTree, mem_writes_classifyTree,
      countedAccessor?_eq_some_iff, if_true, Bool.false_eq_true, if_false]
    constructor
    · rintro ⟨entry, hentry, hcallee | ⟨member, hmember, hread | hwrite⟩⟩
      · exact Or.inl ⟨entry, hentry, hcallee⟩
      · obtain ⟨hreads, haccessors, hkind, hgetter⟩ := hread
        exact Or.inr ⟨haccessors,
          Or.inl ⟨member, ⟨entry, hentry, hmember, hreads⟩, hkind, hgetter⟩⟩
      · obtain ⟨hwrites, haccessors, hkind, hsetter⟩ := hwrite
        exact Or.inr ⟨haccessors,
          Or.inr ⟨member, ⟨entry, hentry, hmember, hwrites⟩, hkind, hsetter⟩⟩
    · rintro (⟨entry, hentry, hcallee⟩ | ⟨haccessors, hread | hwrite⟩)
      · exact ⟨entry, hentry, Or.inl hcallee⟩
      · obtain ⟨member, ⟨entry, hentry, hmember, hreads⟩, hkind, hgetter⟩ := hread
        exact ⟨entry, hentry, Or.inr
          ⟨member, hmember, Or.inl ⟨hreads, haccessors, hkind, hgetter⟩⟩⟩
      · obtain ⟨member, ⟨entry, hentry, hmember, hwrites⟩, hkind, hsetter⟩ := hwrite
        exact ⟨entry, hentry, Or.inr
          ⟨member, hmember, Or.inr ⟨hwrites, haccessors, hkind, hsetter⟩⟩⟩

end Snapshot
end SymbolAtlas
