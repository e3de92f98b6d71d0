import SymbolAtlas.Proofs.Index.Advance
import SymbolAtlas.Proofs.Index.Opening
import Mathlib.Tactic

/-!
# What is declared and what is only mentioned

The first pass leaves a draft with a type for every entry of a document, under a name that is new
when its turn comes, and of these types only those that an entry calls metadata may get further
members.  All that the later passes and the references bring in enriches that draft.
-/

namespace SymbolAtlas
namespace Index

open Building Draft Tables

variable {d d' : Draft}

/-- What a run over entries has declared. -/
structure Declared (types : List Value) (d d' : Draft) : Prop where
  becomes : d.Becomes d'
  brings : ∀ entry ∈ types, Brings d d' (typeId entry)
  distinct : types.Pairwise fun a b => typeId a ≠ typeId b
  metadata : ∀ type ∈ d'.metadataTypes, type ∈ d.metadataTypes ∨
    ∃ entry ∈ types, isMetadata entry = true ∧ type = typeId entry

theorem declareTypes_declared (hd : d.Sound) (root : String) (types : List Value) :
    Ensures (forEach (Declaration.declareType root) types) d fun _ d' =>
      Declared types d d' := by
  induction types generalizing d with
  | nil => exact ensures_pure.mpr ⟨hd.becomes, by simp, .nil, fun _ htype => Or.inl htype⟩
  | cons first rest ih =>
      refine (Declaration.declareType_opens hd root first).bind ?_
      intro _ d₁ hopens
      refine (ih hopens.becomes.sound).imp ?_
      intro _ d' hrest
      refine ⟨hopens.becomes.trans hrest.becomes, ?_, ?_, ?_⟩
      · intro entry hentry
        obtain rfl | hentry := List.mem_cons.mp hentry
        · exact hopens.brings.mono hrest.becomes.kept
        · exact (hrest.brings entry hentry).after hopens.becomes.kept
      · refine List.pairwise_cons.mpr ⟨?_, hrest.distinct⟩
        intro entry hentry heq
        obtain ⟨s, hs⟩ := hopens.brings.2
        rw [heq, (hrest.brings entry hentry).1] at hs
        cases hs
      · intro type htype
        obtain htype | ⟨entry, hentry, hflag, rfl⟩ := hrest.metadata type htype
        · rw [hopens.metadataTypes] at htype
          obtain hold | hnew := List.mem_append.mp htype
          · exact Or.inl hold
          · refine Or.inr ⟨first, List.mem_cons_self, ?_⟩
            split at hnew
            next hflag => exact ⟨hflag, List.mem_singleton.mp hnew⟩
            next => cases hnew
        · exact Or.inr ⟨entry, List.mem_cons_of_mem _ hentry, hflag, rfl⟩

/-- The type of an entry that does not call it metadata is none that gets further members. -/
theorem Declared.not_mem_metadata {types : List Value} (h : Declared types Draft.empty d)
    {entry : Value} (hentry : entry ∈ types) (hflag : isMetadata entry = false) :
    typeId entry ∉ d.metadataTypes := by
  intro hmem
  obtain hempty | ⟨other, hother, hotherFlag, heq⟩ := h.metadata _ hmem
  · cases hempty
  · obtain rfl | hne := eq_or_ne entry other
    · rw [hflag] at hotherFlag
      cases hotherFlag
    · have hsymm : Std.Symm fun a b : Value => typeId a ≠ typeId b := ⟨fun _ _ hab => hab.symm⟩
      exact h.distinct.forall hentry hother hne heq

/-! ## Everything behind the first pass -/

theorem readReferences_enriches (hd : d.Sound) (root : String) (entry : Value) :
    Ensures (readReferences root entry) d fun _ d' => d.Enriches d' := by
  refine (readReferences_evolves hd root entry).imp ?_
  rintro _ _ ⟨before, id, locations, hevolved, rfl⟩
  refine hevolved.enriches.trans ?_
  exact Enriches.of_same rfl rfl rfl rfl rfl rfl rfl rfl fun _ => Or.inl rfl

theorem enriches_putSourceLines (d : Draft) (file : String) (lines : List String) :
    d.Enriches (d.putSourceLines file lines) :=
  Enriches.of_same rfl rfl rfl rfl rfl rfl rfl rfl fun _ => Or.inl rfl

theorem enriches_addSourceFile (disk : Disk) (d : Draft) (file : String) :
    d.Enriches (addSourceFile disk d file) := by
  unfold addSourceFile
  split
  next => exact Enriches.refl d
  next =>
    split
    next => exact enriches_putSourceLines d file _
    next => exact Enriches.refl d

theorem readSources_enriches (disk : Disk) (root : String) (data : Value) :
    Ensures (readSources disk root data) d fun _ d' => d.Enriches d' := by
  unfold readSources readFiles
  simp only [ensures_bind, ensures_lift, ensures_modify]
  intro files _
  refine (forEach_keeps (P := d.Enriches) (Enriches.refl d) ?_).imp ?_
  · intro entry _ d' hbefore
    exact readFile_ensures fun file lines => hbefore.trans (enriches_putSourceLines d' file lines)
  · intro _ d' hfiles
    refine List.foldlRecOn (motive := d.Enriches) _ _ hfiles ?_
    intro d'' hbefore file _
    exact hbefore.trans (enriches_addSourceFile disk d'' file)

/-- What follows on links, members and bodies: references and files. -/
def readEnd (disk : Disk) (root : String) (data : Value) : Building Unit := do
  let entries ← allowing (data.field "references").itemsIfPresent
  forEach (readReferences root) entries
  readSources disk root data

/-- The passes behind the first: over links, members, bodies, references and files. -/
def readRest (disk : Disk) (root : String) (data : Value) : Building Unit := do
  forEach (fun (id, data) => Link.linkType id data) (← get).pendingLinks
  forEach (fun (id, data) => Link.linkMember id data) (← get).pendingMembers
  forEach (readBody root) (← get).pendingBodies
  readEnd disk root data

theorem readEnd_enriches (hd : d.Sound) (disk : Disk) (root : String) (data : Value) :
    Ensures (readEnd disk root data) d fun _ d' => d.Enriches d' := by
  unfold readEnd
  simp only [ensures_bind, ensures_lift]
  intro entries _
  refine (forEach_keeps (P := fun d' => d'.Sound ∧ d.Enriches d')
    ⟨hd, Enriches.refl d⟩ ?_).imp ?_
  · rintro entry _ d' ⟨hd', hbefore⟩
    refine ((readReferences_ensures hd' root entry).and
      (readReferences_enriches hd' root entry)).imp ?_
    rintro _ d'' ⟨hbecomes, hlast⟩
    exact ⟨hbecomes.sound, hbefore.trans hlast⟩
  rintro _ d₁ ⟨-, hreferences⟩
  refine (readSources_enriches disk root data).imp ?_
  intro _ d₂ hsources
  exact hreferences.trans hsources

theorem readRest_enriches (hd : d.Sound) (disk : Disk) (root : String) (data : Value) :
    Ensures (readRest disk root data) d fun _ d' => d.Enriches d' := by
  unfold readRest
  simp only [ensures_bind, ensures_get]
  refine (linkTypes_evolves hd).imp ?_
  rintro _ d₁ ⟨hbecomes₁, hevolved₁⟩
  refine (linkMembers_evolves hbecomes₁.sound).imp ?_
  rintro _ d₂ ⟨hbecomes₂, hevolved₂⟩
  refine (readBodies_evolves hbecomes₂.sound root).imp ?_
  rintro _ d₃ ⟨hbecomes₃, hevolved₃⟩
  refine (readEnd_enriches hbecomes₃.sound disk root data).imp ?_
  intro _ d₄ hlast
  exact (hevolved₁.trans (hevolved₂.trans hevolved₃)).enriches.trans hlast

theorem readDocument_eq_rest (disk : Disk) (root : String) (data : Value) :
    readDocument disk root data = (do
      let types ← typesOf data
      forEach (Declaration.declareType root) types
      readRest disk root data) :=
  rfl

end Index
end SymbolAtlas
