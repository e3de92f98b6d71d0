import SymbolAtlas.Proofs.Snapshot.Caller
import Mathlib.Tactic

/-!
# Calls of accessors

Reading a property runs its getter and writing it runs its setter.  Where accessors count, the calls
of a method hold both those that its body names and those that its properties run.  Callers are
collected from the calls that bodies name alone, so that a method is a direct caller of an accessor
only if it names the accessor itself.
-/

namespace SymbolAtlas

open Tables

namespace Snapshot

variable {s : Snapshot} {method callee accessor : Symbol} {body : Operation}

/-- The direct callers of a method are those whose bodies name it. -/
theorem exists_direct_caller_iff (hs : s.tables.WellFormed)
    (hmethod : Holds s.tables.symbols method) (hcallee : Holds s.tables.symbols callee)
    (hbody : s.bodyOf? method = some body) :
    (∃ c ∈ s.callersOf callee, c.method = method ∧ c.isDirect = true) ↔
      ∃ op ∈ body.walk, op.callee? = some callee := by
  have hcalls := mem_callsTo_iff hs hcallee hbody
  constructor
  · rintro ⟨c, hc, rfl, hdirect⟩
    have hstands := (standsFor_of_mem_callersOf hs.closed hc).2
    rw [hdirect] at hstands
    obtain ⟨call, hcall, hcaller⟩ := hstands.makes
    obtain ⟨op, hop, hnamed, -⟩ := (hcalls call).mp ⟨hcall, hcaller⟩
    exact ⟨op, hop, hnamed⟩
  · rintro ⟨op, hop, hnamed⟩
    obtain ⟨hcall, hcaller⟩ := (hcalls _).mpr ⟨op, hop, hnamed, rfl⟩
    have hreaching : _ ∈ s.callsReaching callee true := hcall
    exact exists_mem_callersOf hs.closed hreaching hmethod hcaller

/-- A property that the method reads or writes runs the accessor. -/
def RunsAccessor (s : Snapshot) (method accessor : Symbol) : Prop :=
  (∃ p ∈ (s.classify true method).reads, s.accessorFor? p false = some accessor) ∨
    ∃ p ∈ (s.classify true method).writes, s.accessorFor? p true = some accessor

/-- What a method calls its body names, or its properties run. -/
theorem mem_calls_classify_true_iff (hbody : s.bodyOf? method = some body) :
    callee ∈ (s.classify true method).calls ↔
      (∃ op ∈ body.walk, op.callee? = some callee) ∨ s.RunsAccessor method callee := by
  have hcounted : ∀ p write, s.countedAccessor? true p write = s.accessorFor? p write :=
    fun _ _ => rfl
  unfold RunsAccessor classify
  rw [hbody, mem_calls_classifyTree,
    ← exists_uses_iff_exists_walk body (fun op => op.callee? = some callee)]
  simp only [mem_reads_classifyTree, mem_writes_classifyTree, hcounted]
  constructor
  · rintro ⟨entry, hentry, hnamed | ⟨p, hp, ⟨hreads, hgetter⟩ | ⟨hwrites, hsetter⟩⟩⟩
    · exact Or.inl ⟨entry, hentry, hnamed⟩
    · exact Or.inr (Or.inl ⟨p, ⟨entry, hentry, hp, hreads⟩, hgetter⟩)
    · exact Or.inr (Or.inr ⟨p, ⟨entry, hentry, hp, hwrites⟩, hsetter⟩)
  · rintro (⟨entry, hentry, hnamed⟩ | ⟨p, ⟨entry, hentry, hp, hreads⟩, hgetter⟩ |
      ⟨p, ⟨entry, hentry, hp, hwrites⟩, hsetter⟩)
    · exact ⟨entry, hentry, Or.inl hnamed⟩
    · exact ⟨entry, hentry, Or.inr ⟨p, hp, Or.inl ⟨hreads, hgetter⟩⟩⟩
    · exact ⟨entry, hentry, Or.inr ⟨p, hp, Or.inr ⟨hwrites, hsetter⟩⟩⟩

/-- A method calls an accessor if it is a direct caller of it, or if one of its properties runs it;
without such a property the two views agree. -/
theorem mem_calls_iff_direct_caller_or_runs (hs : s.tables.WellFormed)
    (hmethod : Holds s.tables.symbols method) (haccessor : Holds s.tables.symbols accessor)
    (hbody : s.bodyOf? method = some body) :
    accessor ∈ (s.classify true method).calls ↔
      (∃ c ∈ s.callersOf accessor, c.method = method ∧ c.isDirect = true) ∨
        s.RunsAccessor method accessor := by
  rw [mem_calls_classify_true_iff hbody, exists_direct_caller_iff hs hmethod haccessor hbody]

/-- A method that writes a property, with what the getter of the property returns to a call that
names it. -/
def personDocument : Value :=
  let name : Value := .mapping [(.text "kind", .text "property"), (.text "name", .text "Name"),
    (.text "get", .bool true), (.text "set", .bool true)]
  let rename : Value := .mapping [(.text "name", .text "Rename"), (.text "body", .list [
    .mapping [(.text "op", .text "assignment"),
      (.text "target", .mapping [(.text "op", .text "property"),
        (.text "property", .text "Person.Name")]),
      (.text "value", .mapping [(.text "op", .text "invocation"),
        (.text "target", .text "Person.get_Name")])]])]
  .mapping [(.text "types", .list [.mapping [(.text "name", .text "Person"),
    (.text "members", .list [name, rename])]])]

theorem exists_personDocument : ∃ s rename getter setter body,
    ofDocument .empty personDocument "/work" none = .ok s ∧
      [rename, getter, setter].map Symbol.id =
        ["M:Person.Rename()", "M:Person.get_Name", "M:Person.set_Name"] ∧
      (∀ m ∈ [rename, getter, setter], Holds s.tables.symbols m) ∧
      s.bodyOf? rename = some body ∧ setter.methodKind = some .propertySet ∧
      getter ∈ (s.classify true rename).calls ∧ setter ∈ (s.classify true rename).calls ∧
      s.RunsAccessor rename setter ∧ ¬ s.RunsAccessor rename getter ∧
      ¬ ∃ op ∈ body.walk, op.callee? = some setter := by
  have hfacts : (ofDocument .empty personDocument "/work" none).toOption.any (fun s =>
      (s.symbol? "M:Person.Rename()").any fun rename =>
        (s.symbol? "M:Person.get_Name").any fun getter =>
          (s.symbol? "M:Person.set_Name").any fun setter =>
            (s.bodyOf? rename).any fun body => decide (
              setter.methodKind = some .propertySet ∧
              getter ∈ (s.classify true rename).calls ∧
              setter ∈ (s.classify true rename).calls ∧
              (s.classify true rename).reads = [] ∧
              (∃ p ∈ (s.classify true rename).writes, s.accessorFor? p true = some setter) ∧
              (∀ p ∈ (s.classify true rename).writes, s.accessorFor? p true ≠ some getter) ∧
              ¬ ∃ op ∈ body.walk, op.callee? = some setter)) = true := by
    decide +kernel
  obtain ⟨s, hs, hfacts⟩ := Attempt.exists_ok_of_any hfacts
  have hclosed := (wellFormed_of_ofDocument hs).closed
  obtain ⟨rename, hrename, hrenameId, hfacts⟩ := hclosed.exists_holds_of_any hfacts
  obtain ⟨getter, hgetter, hgetterId, hfacts⟩ := hclosed.exists_holds_of_any hfacts
  obtain ⟨setter, hsetter, hsetterId, hfacts⟩ := hclosed.exists_holds_of_any hfacts
  obtain ⟨body, hbody, hfacts⟩ := (Option.any_eq_true _ _).mp hfacts
  obtain ⟨hkind, hgetterCall, hsetterCall, hreads, hruns, hother, hnamed⟩ :=
    of_decide_eq_true hfacts
  refine ⟨s, rename, getter, setter, body, hs, by simp [hrenameId, hgetterId, hsetterId],
    by simp [hrename, hgetter, hsetter], hbody, hkind, hgetterCall, hsetterCall, Or.inr hruns, ?_,
    hnamed⟩
  rintro (⟨p, hp, -⟩ | ⟨p, hp, hruns⟩)
  · rw [hreads] at hp
    cases hp
  · exact hother p hp hruns

theorem mem_calls_iff_direct_caller_or_runs_rename : ∃ s rename getter setter,
    ofDocument .empty personDocument "/work" none = .ok s ∧
      [rename, getter, setter].map Symbol.id =
        ["M:Person.Rename()", "M:Person.get_Name", "M:Person.set_Name"] ∧
      getter ∈ (s.classify true rename).calls ∧
      (∃ c ∈ s.callersOf getter, c.method = rename ∧ c.isDirect = true) ∧
      s.RunsAccessor rename setter ∧ setter ∈ (s.classify true rename).calls := by
  obtain ⟨s, rename, getter, setter, body, hs, hids, hheld, hbody, -, hcalls, -, hruns, hother, -⟩ :=
    exists_personDocument
  have hwell := wellFormed_of_ofDocument hs
  have hrename := hheld rename (by simp)
  have hagree : ∀ {accessor}, Holds s.tables.symbols accessor →
      (accessor ∈ (s.classify true rename).calls ↔ _) :=
    fun haccessor => mem_calls_iff_direct_caller_or_runs hwell hrename haccessor hbody
  refine ⟨s, rename, getter, setter, hs, hids, hcalls, ?_, hruns, ?_⟩
  · exact ((hagree (hheld getter (by simp))).mp hcalls).resolve_right hother
  · exact (hagree (hheld setter (by simp))).mpr (Or.inr hruns)

/-- A method calls the setter of a property that it writes, but is no direct caller of it. -/
theorem setter_without_direct_caller : ∃ s rename setter body,
    ofDocument .empty personDocument "/work" none = .ok s ∧ s.bodyOf? rename = some body ∧
      setter.methodKind = some .propertySet ∧ setter ∈ (s.classify true rename).calls ∧
      ¬ ∃ c ∈ s.callersOf setter, c.method = rename ∧ c.isDirect = true := by
  obtain ⟨s, rename, getter, setter, body, hs, -, hheld, hbody, hkind, -, hcalls, -, -, hnamed⟩ :=
    exists_personDocument
  refine ⟨s, rename, setter, body, hs, hbody, hkind, hcalls, ?_⟩
  rw [exists_direct_caller_iff (wellFormed_of_ofDocument hs) (hheld rename (by simp))
    (hheld setter (by simp)) hbody]
  exact hnamed

end Snapshot
end SymbolAtlas
