import SymbolAtlas.Proofs.Operation.Path
import Mathlib.Tactic

/-!
# Classification by uses

Classifying a tree notes its operations one after the other, each with the use that is handed
down to it.  What one note adds is a single symbol and perhaps the call of an accessor, so that
the classification as a whole is known from the uses of all operations: a member is written or
read exactly if some path to it says so, and the calls are those of the walk together with the
accessors behind what is read and written.  A use that is both notes what a read and then a write
would note.
-/

namespace SymbolAtlas

namespace Classification

@[simp] theorem mem_adding (symbols : List Symbol) (s x : Symbol) :
    x ∈ adding symbols s ↔ x ∈ symbols ∨ x = s := by
  unfold adding
  split
  next hmem =>
    have hs : s ∈ symbols := List.contains_iff_mem.mp hmem
    constructor
    · exact Or.inl
    · rintro (hx | rfl)
      · exact hx
      · exact hs
  next => simp

theorem nodup_adding {symbols : List Symbol} (hnodup : symbols.Nodup) (s : Symbol) :
    (adding symbols s).Nodup := by
  unfold adding
  split
  next => exact hnodup
  next hmem =>
    have hs : s ∉ symbols := fun h => hmem (List.contains_iff_mem.mpr h)
    rw [← List.concat_eq_append]
    exact hnodup.concat hs

/-- None of the three lists names a symbol twice. -/
structure IsSet (c : Classification) : Prop where
  calls : c.calls.Nodup
  reads : c.reads.Nodup
  writes : c.writes.Nodup

theorem isSet_empty : empty.IsSet :=
  ⟨List.nodup_nil, List.nodup_nil, List.nodup_nil⟩

/-- Both classifications hold the same symbols, in whatever order. -/
structure SameSymbols (a b : Classification) : Prop where
  calls : ∀ x, x ∈ a.calls ↔ x ∈ b.calls
  reads : ∀ x, x ∈ a.reads ↔ x ∈ b.reads
  writes : ∀ x, x ∈ a.writes ↔ x ∈ b.writes

theorem IsSet.withCall {c : Classification} (hc : c.IsSet) (s : Symbol) : (c.withCall s).IsSet :=
  ⟨nodup_adding hc.calls s, hc.reads, hc.writes⟩

theorem IsSet.withRead {c : Classification} (hc : c.IsSet) (s : Symbol) : (c.withRead s).IsSet :=
  ⟨hc.calls, nodup_adding hc.reads s, hc.writes⟩

theorem IsSet.withWrite {c : Classification} (hc : c.IsSet) (s : Symbol) :
    (c.withWrite s).IsSet :=
  ⟨hc.calls, hc.reads, nodup_adding hc.writes s⟩

end Classification

namespace Snapshot

open Operation

variable (s : Snapshot) (accessors : Bool)

/-- The accessor whose call is noted together with a read or a write of a member. -/
def countedAccessor? (member : Symbol) (write : Bool) : Option Symbol :=
  if accessors then s.accessorFor? member write else none

theorem noteRead_eq (member : Symbol) (c : Classification) :
    s.noteRead accessors member c =
      ((s.countedAccessor? accessors member false).map (c.withRead member).withCall).getD
        (c.withRead member) := by
  unfold noteRead countedAccessor?
  cases accessors with
  | false => rfl
  | true => cases s.accessorFor? member false <;> rfl

theorem noteWrite_eq (member : Symbol) (c : Classification) :
    s.noteWrite accessors member c =
      ((s.countedAccessor? accessors member true).map (c.withWrite member).withCall).getD
        (c.withWrite member) := by
  unfold noteWrite countedAccessor?
  cases accessors with
  | false => rfl
  | true => cases s.accessorFor? member true <;> rfl

/-! ## What one note adds -/

theorem mem_reads_note (member x : Symbol) (use : Use) (c : Classification) :
    x ∈ (s.note accessors member use c).reads ↔
      x ∈ c.reads ∨ use.reads = true ∧ x = member := by
  have hread : ∀ c : Classification, x ∈ (s.noteRead accessors member c).reads ↔
      x ∈ c.reads ∨ x = member := by
    intro c
    rw [noteRead_eq]
    cases s.countedAccessor? accessors member false <;>
      simp [Classification.withRead, Classification.withCall]
  have hwrite : ∀ c : Classification,
      (s.noteWrite accessors member c).reads = c.reads := by
    intro c
    rw [noteWrite_eq]
    cases s.countedAccessor? accessors member true <;> rfl
  unfold note
  cases use <;> simp [Use.reads, Use.writes, hread, hwrite]

theorem mem_writes_note (member x : Symbol) (use : Use) (c : Classification) :
    x ∈ (s.note accessors member use c).writes ↔
      x ∈ c.writes ∨ use.writes = true ∧ x = member := by
  have hread : ∀ c : Classification,
      (s.noteRead accessors member c).writes = c.writes := by
    intro c
    rw [noteRead_eq]
    cases s.countedAccessor? accessors member false <;> rfl
  have hwrite : ∀ c : Classification, x ∈ (s.noteWrite accessors member c).writes ↔
      x ∈ c.writes ∨ x = member := by
    intro c
    rw [noteWrite_eq]
    cases s.countedAccessor? accessors member true <;>
      simp [Classification.withWrite, Classification.withCall]
  unfold note
  cases use <;> simp [Use.reads, Use.writes, hread, hwrite]

theorem mem_calls_note (member x : Symbol) (use : Use) (c : Classification) :
    x ∈ (s.note accessors member use c).calls ↔
      x ∈ c.calls ∨
        use.reads = true ∧ s.countedAccessor? accessors member false = some x ∨
        use.writes = true ∧ s.countedAccessor? accessors member true = some x := by
  have hread : ∀ c : Classification, x ∈ (s.noteRead accessors member c).calls ↔
      x ∈ c.calls ∨ s.countedAccessor? accessors member false = some x := by
    intro c
    rw [noteRead_eq]
    cases s.countedAccessor? accessors member false <;>
      simp [Classification.withRead, Classification.withCall, eq_comm]
  have hwrite : ∀ c : Classification, x ∈ (s.noteWrite accessors member c).calls ↔
      x ∈ c.calls ∨ s.countedAccessor? accessors member true = some x := by
    intro c
    rw [noteWrite_eq]
    cases s.countedAccessor? accessors member true <;>
      simp [Classification.withWrite, Classification.withCall, eq_comm]
  unfold note
  cases use <;> simp [Use.reads, Use.writes, hread, hwrite, or_assoc]

theorem isSet_note {c : Classification} (hc : c.IsSet) (member : Symbol) (use : Use) :
    (s.note accessors member use c).IsSet := by
  have hread : ∀ c : Classification, c.IsSet → (s.noteRead accessors member c).IsSet := by
    intro c hc
    rw [noteRead_eq]
    cases s.countedAccessor? accessors member false with
    | none => exact hc.withRead member
    | some getter => exact (hc.withRead member).withCall getter
  have hwrite : ∀ c : Classification, c.IsSet → (s.noteWrite accessors member c).IsSet := by
    intro c hc
    rw [noteWrite_eq]
    cases s.countedAccessor? accessors member true with
    | none => exact hc.withWrite member
    | some setter => exact (hc.withWrite member).withCall setter
  unfold note
  cases use with
  | read => exact hread c hc
  | write => exact hwrite c hc
  | both => exact hwrite _ (hread c hc)

/-- Notes one operation by itself: the member that it refers to, or the method that it calls. -/
def noteOperation (c : Classification) (entry : Operation × Use) : Classification :=
  match entry.1.member?, entry.1.callee? with
  | some member, _ => s.note accessors member entry.2 c
  | none, some callee => c.withCall callee
  | none, none => c

theorem mem_reads_noteOperation (c : Classification) (entry : Operation × Use) (x : Symbol) :
    x ∈ (s.noteOperation accessors c entry).reads ↔
      x ∈ c.reads ∨ entry.1.member? = some x ∧ entry.2.reads = true := by
  unfold noteOperation
  cases entry.1.member? with
  | some member =>
      rw [mem_reads_note, Option.some.injEq, eq_comm (a := x), and_comm]
  | none => cases entry.1.callee? <;> simp [Classification.withCall]

theorem mem_writes_noteOperation (c : Classification) (entry : Operation × Use) (x : Symbol) :
    x ∈ (s.noteOperation accessors c entry).writes ↔
      x ∈ c.writes ∨ entry.1.member? = some x ∧ entry.2.writes = true := by
  unfold noteOperation
  cases entry.1.member? with
  | some member =>
      rw [mem_writes_note, Option.some.injEq, eq_comm (a := x), and_comm]
  | none => cases entry.1.callee? <;> simp [Classification.withCall]

theorem callee?_eq_none_of_member? {op : Operation} {member : Symbol}
    (hmember : op.member? = some member) : op.callee? = none := by
  cases op <;> simp_all [member?, callee?]

theorem mem_calls_noteOperation (c : Classification) (entry : Operation × Use) (x : Symbol) :
    x ∈ (s.noteOperation accessors c entry).calls ↔
      x ∈ c.calls ∨ entry.1.callee? = some x ∨
        ∃ member, entry.1.member? = some member ∧
          (entry.2.reads = true ∧ s.countedAccessor? accessors member false = some x ∨
            entry.2.writes = true ∧ s.countedAccessor? accessors member true = some x) := by
  unfold noteOperation
  cases hmember : entry.1.member? with
  | some member =>
      simp [mem_calls_note, callee?_eq_none_of_member? hmember]
  | none =>
      cases entry.1.callee? with
      | none => simp
      | some callee => simp [Classification.withCall, eq_comm (a := x)]

theorem isSet_noteOperation {c : Classification} (hc : c.IsSet) (entry : Operation × Use) :
    (s.noteOperation accessors c entry).IsSet := by
  unfold noteOperation
  cases entry.1.member? with
  | some member => exact s.isSet_note accessors hc member entry.2
  | none =>
      cases entry.1.callee? with
      | some callee => exact hc.withCall callee
      | none => exact hc

/-! ## Visits as notes in preorder -/

theorem visitAll_eq_foldl (ops : List Operation) (use : Use) (c : Classification) :
    s.visitAll accessors ops use c = ops.foldl (fun c op => s.visit accessors op use c) c := by
  induction ops generalizing c with
  | nil => rfl
  | cons op rest ih => rw [visitAll, List.foldl_cons, ih]

theorem visitOptional_eq_foldl (op : Option Operation) (use : Use) (c : Classification) :
    s.visitOptional accessors op use c =
      op.toList.foldl (fun c op => s.visit accessors op use c) c := by
  cases op <;> rfl

/-- A visit notes the root and then visits each child with the use behind its edge. -/
theorem visit_eq_foldl_edges (op : Operation) (use : Use) (c : Classification) :
    s.visit accessors op use c =
      op.edges.foldl (fun c edge => s.visit accessors edge.2 (edge.1.getD use) c)
        (s.noteOperation accessors c (op, use)) := by
  cases op with
  | argument value passing location => cases passing <;> rfl
  | invocation target receiver arguments location =>
      cases target <;>
        simp [visit, edges, noteOperation, member?, callee?, visitAll_eq_foldl,
          visitOptional_eq_foldl, List.foldl_map]
  | creation constructor arguments initializer location =>
      cases constructor <;>
        simp [visit, edges, noteOperation, member?, callee?, visitAll_eq_foldl,
          visitOptional_eq_foldl, List.foldl_map]
  | _ =>
      simp [visit, edges, noteOperation, member?, callee?, visitAll_eq_foldl,
        visitOptional_eq_foldl, List.foldl_map]

/-- A visit notes the operations of its tree in preorder, each with its use. -/
theorem visit_eq_foldl_uses (op : Operation) (use : Use) (c : Classification) :
    s.visit accessors op use c = (op.uses use).foldl (s.noteOperation accessors) c := by
  induction op using childInduction generalizing use c with
  | step op ih =>
      rw [visit_eq_foldl_edges, uses_eq, List.foldl_cons, List.foldl_flatMap]
      apply List.foldl_ext
      intro c edge hmem
      exact ih edge.2 (mem_children_of_mem_edges hmem) (edge.1.getD use) c

/-- What every note adds to a list of symbols is what all notes together add to it. -/
theorem mem_foldl_noteOperation
    {symbols : Classification → List Symbol} {adds : Operation × Use → Symbol → Prop}
    (hnote : ∀ c entry x, x ∈ symbols (s.noteOperation accessors c entry) ↔
      x ∈ symbols c ∨ adds entry x)
    (entries : List (Operation × Use)) (c : Classification) (x : Symbol) :
    x ∈ symbols (entries.foldl (s.noteOperation accessors) c) ↔
      x ∈ symbols c ∨ ∃ entry ∈ entries, adds entry x := by
  induction entries generalizing c with
  | nil => simp
  | cons entry rest ih =>
      simp [ih, hnote, or_assoc]

theorem mem_visit {symbols : Classification → List Symbol} {adds : Operation × Use → Symbol → Prop}
    (hnote : ∀ c entry x, x ∈ symbols (s.noteOperation accessors c entry) ↔
      x ∈ symbols c ∨ adds entry x)
    (op : Operation) (use : Use) (c : Classification) (x : Symbol) :
    x ∈ symbols (s.visit accessors op use c) ↔
      x ∈ symbols c ∨ ∃ entry ∈ op.uses use, adds entry x := by
  rw [visit_eq_foldl_uses]
  exact s.mem_foldl_noteOperation accessors hnote _ c x

theorem isSet_foldl_noteOperation {c : Classification} (hc : c.IsSet)
    (entries : List (Operation × Use)) :
    (entries.foldl (s.noteOperation accessors) c).IsSet := by
  induction entries generalizing c with
  | nil => exact hc
  | cons entry rest ih => exact ih (s.isSet_noteOperation accessors hc entry)

/-! ## Reading and writing at once -/

/-- What a use that is both adds is what a read and a write add: every edge that fixes a use fixes
the same one in all three walks. -/
theorem exists_uses_both_iff (op : Operation) {adds : Operation × Use → Prop}
    (hboth : ∀ o, adds (o, .both) ↔ adds (o, .read) ∨ adds (o, .write)) :
    (∃ entry ∈ op.uses .both, adds entry) ↔
      (∃ entry ∈ op.uses .read, adds entry) ∨ ∃ entry ∈ op.uses .write, adds entry := by
  have hends (use : Use) : (∃ entry ∈ op.uses use, adds entry) ↔
      ∃ path o, Path op path o ∧ adds (o, (lastFixed? path).getD use) := by
    constructor
    · rintro ⟨⟨o, found⟩, hentry, hadds⟩
      obtain ⟨path, hpath, rfl⟩ := (mem_uses_iff op o use found).mp hentry
      exact ⟨path, o, hpath, hadds⟩
    · rintro ⟨path, o, hpath, hadds⟩
      exact ⟨_, (mem_uses_iff op o use _).mpr ⟨path, hpath, rfl⟩, hadds⟩
  have hpaths (path : List (Option Use)) (o : Operation) :
      adds (o, (lastFixed? path).getD .both) ↔
        adds (o, (lastFixed? path).getD .read) ∨ adds (o, (lastFixed? path).getD .write) := by
    cases lastFixed? path with
    | some fixed => exact (or_self_iff).symm
    | none => exact hboth o
  simp only [hends, hpaths, and_or_left, exists_or]

/-- Visiting a target as both notes what visiting it as read and then as written notes. -/
theorem visit_both (op : Operation) (c : Classification) :
    (s.visit accessors op .both c).SameSymbols
      (s.visit accessors op .write (s.visit accessors op .read c)) where
  calls := by
    intro x
    have hnote := s.mem_calls_noteOperation accessors
    rw [mem_visit s accessors hnote, mem_visit s accessors hnote, mem_visit s accessors hnote,
      or_assoc]
    refine or_congr_right (exists_uses_both_iff op fun o => ?_)
    simp only [Use.reads, Use.writes]
    grind
  reads := by
    intro x
    have hnote := s.mem_reads_noteOperation accessors
    rw [mem_visit s accessors hnote, mem_visit s accessors hnote, mem_visit s accessors hnote,
      or_assoc]
    refine or_congr_right (exists_uses_both_iff op fun o => ?_)
    simp [Use.reads]
  writes := by
    intro x
    have hnote := s.mem_writes_noteOperation accessors
    rw [mem_visit s accessors hnote, mem_visit s accessors hnote, mem_visit s accessors hnote,
      or_assoc]
    refine or_congr_right (exists_uses_both_iff op fun o => ?_)
    simp [Use.writes]

/-- What was the same before a visit is so after it. -/
theorem sameSymbols_visit {a b : Classification} (h : a.SameSymbols b) (op : Operation)
    (use : Use) : (s.visit accessors op use a).SameSymbols (s.visit accessors op use b) where
  calls := by
    intro x
    have hnote := s.mem_calls_noteOperation accessors
    rw [mem_visit s accessors hnote, mem_visit s accessors hnote, h.calls]
  reads := by
    intro x
    have hnote := s.mem_reads_noteOperation accessors
    rw [mem_visit s accessors hnote, mem_visit s accessors hnote, h.reads]
  writes := by
    intro x
    have hnote := s.mem_writes_noteOperation accessors
    rw [mem_visit s accessors hnote, mem_visit s accessors hnote, h.writes]

/-- The target of a compound assignment is read, then written; after that the value is read. -/
theorem visit_compound (target value : Operation) (operator : String)
    (location : Option Location) (use : Use) (c : Classification) :
    (s.visit accessors (.compound target value operator location) use c).SameSymbols
      (s.visit accessors value .read
        (s.visit accessors target .write (s.visit accessors target .read c))) := by
  rw [visit]
  exact s.sameSymbols_visit accessors (s.visit_both accessors target c) value .read

theorem classifyTree_eq_foldl (tree : Operation) :
    s.classifyTree accessors (some tree) =
      (tree.uses .read).foldl (s.noteOperation accessors) .empty :=
  s.visit_eq_foldl_uses accessors tree .read .empty

theorem isSet_classifyTree (tree : Option Operation) :
    (s.classifyTree accessors tree).IsSet := by
  cases tree with
  | none => exact Classification.isSet_empty
  | some tree =>
      rw [classifyTree_eq_foldl]
      exact s.isSet_foldl_noteOperation accessors Classification.isSet_empty _

end Snapshot
end SymbolAtlas
