import SymbolAtlas.Index.Build
import SymbolAtlas.Proofs.Index.Body
import SymbolAtlas.Proofs.Index.Link
import Mathlib.Tactic

/-!
# Tables of a document are closed

Reading a document goes through sound drafts only, from the empty one to the last.  Whatever one
pass puts off for the next refers to symbols that no later step takes away, and the tables of a
sound draft are closed and keyed.
-/

namespace SymbolAtlas

namespace Draft

open Tables

variable {d : Draft}

theorem Sound.mem_typeNames_iff (hd : d.Sound) (id : String) :
    id ∈ d.typeNames.values ↔ ∃ s ∈ d.symbols.values, s.kind = .namedType ∧ s.id = id := by
  constructor
  · intro hid
    rcases Table.mem_values_iff.mp hid with ⟨name, hname⟩
    rcases hd.named (name, id) hname with ⟨s, hs, hkind⟩
    exact ⟨s, Table.mem_values_iff.mpr ⟨id, Table.mem_of_find? hs⟩, hkind, hd.ids.get? hs⟩
  · intro hid
    rcases hid with ⟨s, hs, hkind, rfl⟩
    rcases Table.mem_values_iff.mp hs with ⟨key, hkey⟩
    have hid : s.id = key := hd.ids (key, s) hkey
    have hget : d.symbols.get? s.id = some s := by
      rw [hid]
      exact Table.find?_of_mem hd.unique hkey
    rcases hd.types s.id s hget hkind with ⟨name, -, hname⟩
    exact Table.mem_values_iff.mpr ⟨name, Table.mem_of_find? hname⟩

theorem Sound.closed (hd : d.Sound) : d.toTables.Closed where
  unique := hd.unique
  ids := hd.ids
  refers := hd.refers
  typeNames := hd.mem_typeNames_iff

end Draft

namespace Index

open Building Draft Tables

variable {d : Draft}

theorem readBody_ensures (hd : d.Sound) (root : String) {pending : PendingBody}
    (hpending : KnownAs d.symbols .method pending.method) :
    Ensures (readBody root pending) d fun _ d' => d.Becomes d' := by
  unfold readBody
  simp only [ensures_bind, ensures_get]
  split
  next => exact ensures_throw.mpr trivial
  next =>
    simp only [ensures_bind, ensures_modify]
    refine (Body.read_ensures hd _ pending.body).imp ?_
    intro tree d' htree
    have hbody := htree.1.sound.putBody (hpending.mono htree.1.kept) htree.2
    exact htree.1.trans hbody

theorem referencedId_ensures (hd : d.Sound) (name : String) :
    Ensures (referencedId name) d fun id d' => d.Becomes d' ∧ Known d'.symbols id := by
  unfold referencedId
  simp only [ensures_bind, ensures_get]
  split
  next id hid =>
    rw [ensures_pure]
    exact ⟨hd.becomes, (hd.named.get? hid).known⟩
  next =>
    simp only [ensures_bind, ensures_pure]
    refine (MemberName.resolve_ensures hd name "references" (by decide) none).imp ?_
    intro s d' hs
    exact ⟨hs.1, hs.2.known⟩

theorem readReferences_ensures (hd : d.Sound) (root : String) (entry : Value) :
    Ensures (readReferences root entry) d fun _ d' => d.Becomes d' := by
  unfold readReferences
  simp only [ensures_bind, ensures_refuseIf, ensures_lift, ensures_modify]
  intro _ given _ _ _
  refine (referencedId_ensures hd given.plain).imp ?_
  intro id d₁ hid items _
  refine (forAll_ensures (p := fun _ _ => True) hid.1.sound (fun _ h => h) ?_).imp ?_
  · intro item _ d₂ hbefore
    rw [ensures_lift]
    intro location _
    exact ⟨hbefore.sound.becomes, trivial⟩
  · intro locations d₂ hlocations
    have hknown := hid.2.mono hlocations.1.kept
    exact hid.1.trans (hlocations.1.trans (hlocations.1.sound.putReferences hknown locations))

/-- Whatever an entry of the files says, it brings in some lines for some file. -/
theorem readFile_ensures {root : String} {entry : Value × Value} {post : Unit → Draft → Prop}
    (h : ∀ file lines, post () (d.putSourceLines file lines)) :
    Ensures (readFile root entry) d post := by
  refine Ensures.after (Ensures.after ?_ _) _
  exact ensures_modify.mpr (h _ _)

theorem readFiles_ensures (hd : d.Sound) (root : String) (data : Value) :
    Ensures (readFiles root data) d fun _ d' => d.Becomes d' := by
  unfold readFiles
  simp only [ensures_bind, ensures_lift]
  intro entries _
  refine forEach_ensures hd ?_
  intro entry _ d' hbefore
  exact readFile_ensures fun file lines => hbefore.sound.putSourceLines file lines

theorem addSourceFile_becomes (hd : d.Sound) (disk : Disk) (file : String) :
    d.Becomes (addSourceFile disk d file) := by
  unfold addSourceFile
  split
  next => exact hd.becomes
  next =>
    split
    next => exact hd.putSourceLines file _
    next => exact hd.becomes

theorem foldl_addSourceFile_becomes (hd : d.Sound) (disk : Disk) (files : List String) :
    d.Becomes (files.foldl (addSourceFile disk) d) := by
  induction files generalizing d with
  | nil => exact hd.becomes
  | cons file rest ih =>
      have hfirst := addSourceFile_becomes hd disk file
      exact hfirst.trans (ih hfirst.sound)

theorem foldl_addSourceFile_eq (disk : Disk) (files : List String) (d : Draft) :
    ∃ lines, files.foldl (addSourceFile disk) d = { d with sourceLines := lines } := by
  refine List.foldlRecOn
    (motive := fun e : Draft => ∃ lines, e = { d with sourceLines := lines }) files _
    ⟨d.sourceLines, rfl⟩ ?_
  rintro _ ⟨lines, rfl⟩ file _
  unfold addSourceFile
  split
  next => exact ⟨lines, rfl⟩
  next =>
    split
    next => exact ⟨_, rfl⟩
    next => exact ⟨lines, rfl⟩

theorem readDocument_ensures (hd : d.Sound) (disk : Disk) (root : String) (data : Value) :
    Ensures (readDocument disk root data) d fun _ d' => d.Becomes d' := by
  unfold readDocument
  simp only [ensures_bind, ensures_lift, ensures_get, ensures_modify]
  intro types _
  refine (forEach_ensures hd ?_).imp ?_
  · intro data _ d' hbefore
    exact Declaration.declareType_ensures hbefore.sound root data
  intro _ d₁ hdeclared
  refine (forEach_ensures hdeclared.sound ?_).imp ?_
  · intro pending hpending d' hbefore
    have htype := (hdeclared.sound.links pending hpending).mono hbefore.kept
    exact Link.linkType_ensures hbefore.sound htype pending.2
  intro _ d₂ htypes
  refine (forEach_ensures htypes.sound ?_).imp ?_
  · intro pending hpending d' hbefore
    have hmember := (htypes.sound.members pending hpending).mono hbefore.kept
    exact Link.linkMember_ensures hbefore.sound hmember pending.2
  intro _ d₃ hmembers
  refine (forEach_ensures hmembers.sound ?_).imp ?_
  · intro pending hpending d' hbefore
    have hmethod := (hmembers.sound.bodies pending hpending).mono hbefore.kept
    exact readBody_ensures hbefore.sound root hmethod
  intro _ d₄ hbodies entries _
  refine (forEach_ensures hbodies.sound ?_).imp ?_
  · intro entry _ d' hbefore
    exact readReferences_ensures hbefore.sound root entry
  intro _ d₅ hreferences
  refine (readFiles_ensures hreferences.sound root data).imp ?_
  intro _ d₆ hfiles
  have hlines := foldl_addSourceFile_becomes hfiles.sound disk (mentionedFiles d₆.toTables)
  have hlinked := hdeclared.trans (htypes.trans hmembers)
  have hread := hbodies.trans (hreferences.trans (hfiles.trans hlines))
  exact hlinked.trans hread

theorem exists_run_of_tables {disk : Disk} {root : String} {data : Value} {t : Tables}
    (ht : tables disk root data = .ok t) :
    ∃ d : Draft, readDocument disk root data Draft.empty = .ok ((), d) ∧ d.toTables = t := by
  unfold tables at ht
  split at ht
  next =>
    cases hrun : readDocument disk root data Draft.empty with
    | error fault =>
        rw [hrun] at ht
        cases ht
    | ok result =>
        rw [hrun] at ht
        cases ht
        exact ⟨result.2, rfl, rfl⟩
  next => cases ht

theorem tables_eq_ok {disk : Disk} {root : String} {data : Value} {t : Tables}
    (hdata : data.isMapping = true) :
    tables disk root data = .ok t ↔
      ∃ d : Draft, readDocument disk root data Draft.empty = .ok ((), d) ∧ d.toTables = t := by
  refine ⟨exists_run_of_tables, ?_⟩
  rintro ⟨d, hrun, rfl⟩
  unfold tables
  rw [if_pos hdata, hrun]
  rfl

theorem exists_sound_of_tables {disk : Disk} {root : String} {data : Value} {t : Tables}
    (ht : tables disk root data = .ok t) : ∃ d : Draft, d.Sound ∧ d.toTables = t := by
  obtain ⟨d, hrun, rfl⟩ := exists_run_of_tables ht
  have hbecomes := readDocument_ensures Sound.empty disk root data () d hrun
  exact ⟨d, hbecomes.sound, rfl⟩

theorem closed_of_tables {disk : Disk} {root : String} {data : Value} {t : Tables}
    (ht : tables disk root data = .ok t) : t.Closed := by
  obtain ⟨d, hd, rfl⟩ := exists_sound_of_tables ht
  exact hd.closed

theorem wellFormed_of_tables {disk : Disk} {root : String} {data : Value} {t : Tables}
    (ht : tables disk root data = .ok t) : t.WellFormed := by
  obtain ⟨d, hd, rfl⟩ := exists_sound_of_tables ht
  exact ⟨hd.closed, hd.keyed⟩

theorem linksTypes_of_tables {disk : Disk} {root : String} {data : Value} {t : Tables}
    (ht : tables disk root data = .ok t) : t.LinksTypes := by
  obtain ⟨d, hd, rfl⟩ := exists_sound_of_tables ht
  exact ⟨hd.bases, hd.interfaces⟩

end Index
end SymbolAtlas
