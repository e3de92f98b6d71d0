import SymbolAtlas.Proofs.Index.Metadata
import SymbolAtlas.Proofs.Snapshot.Lookup
import Mathlib.Tactic

/-!
# Metadata in a snapshot

Links, bodies and references add to what the entries of a document declare nothing but metadata.
Declared symbols stay as they are, types that an entry gives in full keep their members, and all
else lies outside of the sources: types without an entry, and members of types that no entry gives
in full.
-/

namespace SymbolAtlas

open Building Draft Tables Index

/-- The tables have beside what some entries declare in a draft only metadata. -/
structure Tables.AddsMetadata (types : List Value) (d : Draft) (t : Tables) : Prop where
  /-- Declared symbols are there with all their fields. -/
  kept : ∀ id x, d.symbols.get? id = some x → t.symbols.get? id = some x
  /-- Every entry declares its type. -/
  declared : ∀ entry ∈ types, KnownAs d.symbols .namedType (typeId entry)
  /-- A type whose entry does not call it metadata has the declared members in their order. -/
  members : ∀ entry ∈ types, isMetadata entry = false →
    t.members.listAt (typeId entry) = d.members.listAt (typeId entry) ∧
      t.membersOf (typeId entry) = d.membersOf (typeId entry)
  /-- Other symbols have no place in the sources. -/
  bare : ∀ id x, d.symbols.get? id = none → t.symbols.get? id = some x →
    x.location = none ∧ t.spans.get? id = none ∧ t.bodies.get? id = none
  /-- Other symbols are types without an entry, or members of types that have none or one that calls
  them metadata. -/
  owned : ∀ id x, d.symbols.get? id = none → t.symbols.get? id = some x →
    x.kind = .namedType ∧ (∀ entry ∈ types, id ≠ typeId entry) ∨
      ∃ type, id ∈ t.members.listAt type ∧
        ∀ entry ∈ types, type = typeId entry → isMetadata entry = true

namespace Index

variable {d d' : Draft} {types : List Value}

/-- What enriches the draft of a first pass adds metadata to it. -/
theorem Declared.addsMetadata (h : Declared types Draft.empty d) (henriches : d.Enriches d') :
    d'.toTables.AddsMetadata types d where
  kept := henriches.kept
  declared entry hentry := by
    obtain ⟨x, hx⟩ := (h.brings entry hentry).2
    refine ⟨x, hx, ?_⟩
    by_contra hkind
    exact (h.becomes.sound.apart _ x hx hkind).ne_typeId _ rfl
  members := by
    intro entry hentry hflag
    obtain ⟨more, hmore, -, hnone | hmetadata⟩ := henriches.members (typeId entry)
    · rw [hnone, List.append_nil] at hmore
      refine ⟨hmore, ?_⟩
      unfold Tables.membersOf Tables.symbolsOf
      rw [hmore]
      refine List.filterMap_congr ?_
      intro id hid
      have hmember := (h.becomes.sound.refers.members.mono fun _ _ hids => hids.2).listAt _ id hid
      obtain ⟨x, hx⟩ := hmember
      rw [hx, henriches.kept id x hx]
    · exfalso
      obtain hold | ⟨hnew, -⟩ := henriches.fresh _ hmetadata
      · exact h.not_mem_metadata hentry hflag hold
      · obtain ⟨x, hx⟩ := (h.brings entry hentry).2
        rw [hnew] at hx
        cases hx
  bare := by
    intro id x hnone hx
    have hunknown : ¬ Known d.symbols id := by
      rintro ⟨y, hy⟩
      rw [hnone] at hy
      cases hy
    refine ⟨(henriches.added id x hnone hx).1.location, ?_, ?_⟩
    · rw [henriches.spans, Option.eq_none_iff_forall_ne_some]
      intro span hspan
      exact hunknown (h.becomes.sound.refers.spans.get? hspan)
    · obtain hsame | hwaits := henriches.bodies id
      · rw [hsame, Option.eq_none_iff_forall_ne_some]
        intro body hbody
        exact hunknown (h.becomes.sound.refers.bodies.get? hbody).1.known
      · obtain ⟨pending, hpending, rfl⟩ := List.mem_map.mp hwaits
        exact (hunknown (h.becomes.sound.bodies pending hpending).known).elim
  owned := by
    intro id x hnone hx
    have hnew : ∀ other, d.symbols.get? other = none → ∀ entry ∈ types, other ≠ typeId entry := by
      rintro other hother entry hentry rfl
      obtain ⟨y, hy⟩ := (h.brings entry hentry).2
      rw [hother] at hy
      cases hy
    obtain ⟨-, -, hkind | ⟨type, htype, hmember⟩⟩ := henriches.added id x hnone hx
    · exact Or.inl ⟨hkind, hnew id hnone⟩
    · refine Or.inr ⟨type, hmember, ?_⟩
      rintro entry hentry rfl
      by_contra hflag
      obtain hold | ⟨hother, -⟩ := henriches.fresh _ htype
      · exact h.not_mem_metadata hentry (by simpa using hflag) hold
      · exact hnew _ hother entry hentry rfl

theorem readDocument_addsMetadata (disk : Disk) (root : String) (data : Value) :
    Ensures (readDocument disk root data) Draft.empty fun _ d' =>
      ∃ types d, typesOf data = .ok types ∧
        forEach (Declaration.declareType root) types Draft.empty = .ok ((), d) ∧
          d'.toTables.AddsMetadata types d := by
  rw [readDocument_eq_rest]
  simp only [ensures_bind, ensures_lift]
  intro types htypes
  refine ((declareTypes_declared Sound.empty root types).and (fun _ _ hrun => hrun)).imp ?_
  rintro _ d ⟨hdeclared, hrun⟩
  refine (readRest_enriches hdeclared.becomes.sound disk root data).imp ?_
  intro _ d' henriches
  exact ⟨types, d, htypes, hrun, hdeclared.addsMetadata henriches⟩

end Index

namespace Snapshot

variable {s : Snapshot}

/-- A document that loads loads as what its entries declare, and metadata. -/
theorem addsMetadata_of_ofDocument {disk : Disk} {data : Value} {root : String}
    {sourcePath : Option String} (hs : ofDocument disk data root sourcePath = .ok s) :
    ∃ types d, typesOf data = .ok types ∧
      forEach (Declaration.declareType root) types Draft.empty = .ok ((), d) ∧
        s.tables.AddsMetadata types d := by
  obtain ⟨d', hrun, htables⟩ := exists_run_of_tables (tables_of_ofDocument hs)
  rw [← htables]
  exact readDocument_addsMetadata disk root data () d' hrun

/-- A report on a page that nothing declares, which writes to a console known from metadata. -/
def reportDocument : Value :=
  let write := .mapping [(.text "op", .text "invocation"), (.text "target", .text "Console.Write")]
  let print := .mapping [(.text "name", .text "Print"), (.text "line", .int 3),
    (.text "body", .list [write])]
  .mapping [(.text "types", .list
    [ .mapping [(.text "name", .text "Report"), (.text "base", .text "Page"),
        (.text "file", .text "Report.cs"), (.text "line", .int 1), (.text "members", .list [print])],
      .mapping [(.text "name", .text "Console"), (.text "metadata", .bool true)]])]

theorem addsMetadata_of_ofDocument_report : ∃ s,
    ofDocument .empty reportDocument "/work" none = .ok s ∧
      s.tables.members.get? "T:Report" = some ["M:Report.Print()", "M:Report.#ctor()"] ∧
        s.tables.members.get? "T:Console" = some ["M:Console.#ctor()", "M:Console.Write()"] ∧
          s.tables.members.get? "T:Page" = some [] ∧
            ∃ types d, typesOf reportDocument = .ok types ∧
              forEach (Declaration.declareType "/work") types Draft.empty = .ok ((), d) ∧
                s.tables.AddsMetadata types d := by
  have hfacts : (ofDocument .empty reportDocument "/work" none).toOption.any (fun s => decide (
      s.tables.members.get? "T:Report" = some ["M:Report.Print()", "M:Report.#ctor()"] ∧
        s.tables.members.get? "T:Console" = some ["M:Console.#ctor()", "M:Console.Write()"] ∧
          s.tables.members.get? "T:Page" = some [])) = true := by
    decide +kernel
  obtain ⟨s, hs, hfacts⟩ := Attempt.exists_ok_of_any hfacts
  obtain ⟨hreport, hconsole, hpage⟩ := of_decide_eq_true hfacts
  exact ⟨s, hs, hreport, hconsole, hpage, addsMetadata_of_ofDocument hs⟩

end Snapshot
end SymbolAtlas
