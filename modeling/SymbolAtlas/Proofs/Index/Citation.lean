import SymbolAtlas.Proofs.Attempt
import SymbolAtlas.Proofs.Index.Advance
import Mathlib.Tactic

/-!
# References that a document lists

Every entry of the references gives places of the symbol that its name stands for when its turn
comes.  Nothing else writes into the table of listed references, so that in the end it holds the
places of all entries, under the ids that their names stood for.
-/

namespace SymbolAtlas

namespace Building

variable {α β : Type} {d : Draft}

/-- A run over a list whose results are not looked at. -/
theorem forEach_eq_forAll (step : α → Building β) (items : List α) :
    forEach (fun a => do let _ ← step a; pure ()) items = (do
      let _ ← forAll step items
      pure ()) := by
  induction items with
  | nil => simp [forEach, forAll]
  | cons a rest ih => simp only [forEach, forAll, ih, bind_assoc, pure_bind]

end Building

namespace Index

open Building Draft Tables

/-- What an entry lists: the id that its name stands for, and the places of that symbol. -/
def citation (root : String) (entry : Value) : Building (String × List Location) := do
  refuseIf (!entry.isMapping) .referenceNotAMapping
  let given ← Entry.required entry "symbol" "references entry"
  Entry.mustWrite given
  let id ← referencedId given.plain
  let items ← allowing (entry.field "locations").itemsIfPresent
  let locations ← forAll
    (fun item => liftM (Entry.writtenLocation root item ("references of " ++ given.plain))) items
  pure (id, locations)

def cite (root : String) (entry : Value) : Building (String × List Location) := do
  let listed ← citation root entry
  modify fun d => d.putReferences listed.1 listed.2
  pure listed

/-- What the references of a document list, in their order. -/
def citations (root : String) (data : Value) : Attempt (List (String × List Location)) :=
  let course : Building (List (String × List Location)) := do
    readTypes root data
    let entries ← allowing (data.field "references").itemsIfPresent
    forAll (cite root) entries
  (course Draft.empty).map Prod.fst

variable {d : Draft}

theorem readReferences_eq (root : String) (entry : Value) :
    readReferences root entry = (do let _ ← cite root entry; pure ()) := by
  unfold readReferences cite citation
  simp only [bind_assoc, pure_bind, bind_pure_unit]

theorem forEach_readReferences (root : String) (entries : List Value) :
    forEach (readReferences root) entries = (do
      let _ ← forAll (cite root) entries
      pure ()) := by
  rw [← forEach_eq_forAll]
  exact congrArg (forEach · entries) (funext (readReferences_eq root))

theorem citation_ensures (hd : d.Sound) (root : String) (entry : Value) :
    Ensures (citation root entry) d fun listed d' =>
      d'.Sound ∧ d.Evolves d' ∧ Known d'.symbols listed.1 := by
  unfold citation
  simp only [ensures_bind, ensures_refuseIf, ensures_lift, ensures_pure]
  intro _ given _ _ _
  refine ((referencedId_advances given.plain d hd).and
    (referencedId_ensures hd given.plain)).imp ?_
  rintro id d₁ ⟨⟨hd₁, hfirst⟩, -, hid⟩ items _
  -- places are read without a look at the draft
  let read : Value → Building Location := fun item =>
    liftM (Entry.writtenLocation root item ("references of " ++ given.plain))
  have hread : ∀ item, Advances (read item) := fun item => advances_lift _
  have hkept : Ensures (forAll read items) d₁ fun locations d' =>
      d₁.Becomes d' ∧ ∀ l ∈ locations, True := by
    refine forAll_ensures (p := fun _ _ => True) hd₁ (fun _ h => h) ?_
    intro item _ d' hbefore
    rw [ensures_lift]
    intro _ _
    exact ⟨hbefore.sound.becomes, trivial⟩
  refine (hkept.and (advances_forAll hread items d₁ hd₁)).imp ?_
  rintro locations d₂ ⟨⟨hbecomes, -⟩, -, hlast⟩
  exact ⟨hbecomes.sound, hfirst.trans hlast, hid.mono hbecomes.kept⟩

/-- An entry adds its places to those of its symbol. -/
theorem cite_ensures (hd : d.Sound) (root : String) (entry : Value) :
    Ensures (cite root entry) d fun listed d' =>
      d'.Sound ∧ ∀ id l, l ∈ d'.explicitReferences.listAt id ↔
        l ∈ d.explicitReferences.listAt id ∨ listed.1 = id ∧ l ∈ listed.2 := by
  unfold cite
  simp only [ensures_bind, ensures_modify, ensures_pure]
  refine (citation_ensures hd root entry).imp ?_
  rintro listed d' ⟨hd', hevolved, hid⟩
  refine ⟨(hd'.putReferences hid listed.2).sound, ?_⟩
  intro id l
  have hlist := Table.listAt_insert d'.explicitReferences listed.1 id
    (d'.explicitReferences.listAt listed.1 ++ listed.2)
  unfold putReferences
  rw [hlist, hevolved.grows.explicitReferences]
  by_cases heq : listed.1 = id
  · subst heq
    simp
  · simp [heq]

theorem citeAll_ensures (hd : d.Sound) (root : String) (entries : List Value) :
    Ensures (forAll (cite root) entries) d fun listed d' =>
      d'.Sound ∧ ∀ id l, l ∈ d'.explicitReferences.listAt id ↔
        l ∈ d.explicitReferences.listAt id ∨ ∃ c ∈ listed, c.1 = id ∧ l ∈ c.2 := by
  induction entries generalizing d with
  | nil =>
      unfold forAll
      rw [ensures_pure]
      simp [hd]
  | cons entry rest ih =>
      unfold forAll
      refine (cite_ensures hd root entry).bind ?_
      rintro first d₁ ⟨hd₁, hfirst⟩
      refine (ih hd₁).bind ?_
      rintro others d₂ ⟨hd₂, hothers⟩
      rw [ensures_pure]
      refine ⟨hd₂, ?_⟩
      intro id l
      rw [hothers, hfirst, List.exists_mem_cons_iff, or_assoc]

/-- The table of listed references holds what the references of the document list. -/
theorem mem_explicitReferences_iff {disk : Disk} {root : String} {data : Value} {t : Tables}
    (ht : tables disk root data = .ok t) :
    ∃ listed, citations root data = .ok listed ∧
      ∀ id l, l ∈ t.explicitReferences.listAt id ↔ ∃ c ∈ listed, c.1 = id ∧ l ∈ c.2 := by
  obtain ⟨d, hrun, rfl⟩ := exists_run_of_tables ht
  rw [readDocument_eq, bind_run_eq_ok] at hrun
  obtain ⟨_, d₁, hpasses, hrun⟩ := hrun
  obtain ⟨entries, d₂, hentries, hrun⟩ := bind_run_eq_ok.mp hrun
  obtain ⟨_, d₃, hreferences, hsources⟩ := bind_run_eq_ok.mp hrun
  rw [forEach_readReferences, bind_run_eq_ok] at hreferences
  obtain ⟨listed, _, hlisted, hdone⟩ := hreferences
  cases hdone
  have hcourse : (do
      readTypes root data
      let entries ← allowing (data.field "references").itemsIfPresent
      forAll (cite root) entries : Building (List (String × List Location))) Draft.empty =
        .ok (listed, d₃) :=
    bind_run_eq_ok.mpr ⟨_, d₁, hpasses, bind_run_eq_ok.mpr ⟨entries, d₂, hentries, hlisted⟩⟩
  refine ⟨listed, ?_, ?_⟩
  · unfold citations
    simp only [hcourse]
    rfl
  obtain ⟨hd₁, hgrown⟩ := readTypes_grows root data _ _ hpasses
  have hthere : Ensures (liftM (allowing (data.field "references").itemsIfPresent) :
      Building (List Value)) d₁ fun _ d' => d' = d₁ :=
    ensures_lift.mpr fun _ _ => rfl
  obtain rfl := hthere _ _ hentries
  have hcited := (citeAll_ensures hd₁ root entries _ _ hlisted).2
  intro id l
  rw [(readSources_same disk root data _ _ hsources).explicitReferences, hcited,
    hgrown.explicitReferences]
  simp [Draft.empty, Table.listAt]

end Index
end SymbolAtlas
