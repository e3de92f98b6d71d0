import SymbolAtlas.Proofs.Index.Frame
import SymbolAtlas.Proofs.Reordering.Deferred
import Mathlib.Tactic

/-!
# Source types that entries name

An entry may name the type in source that its own type stands for.  The links of types take these
names up, each when its entry's turn comes.  No other step writes what they lead to, and no name
ever stands for another type, so that the table of a document holds just what its entries name.
-/

namespace SymbolAtlas

/-- The name of the source type that an entry gives. -/
def Index.sourceName? (entry : Value) : Option String :=
  let given := entry.field "source_definition"
  if given.isPresent then some given.plain else none

namespace Tables

/-- The source types of the tables are those that the entries of some types name. -/
structure Redirects (links : List (String × Value)) (t : Tables) : Prop where
  named : ∀ link ∈ links, ∀ name ∈ Index.sourceName? link.2, ∃ source,
    t.typeNames.get? name = some source ∧ t.sourceDefinitions.get? link.1 = some source
  others : ∀ type, (∀ link ∈ links, link.1 = type → Index.sourceName? link.2 = none) →
    t.sourceDefinitions.get? type = none

end Tables

namespace Draft

/-- Both drafts redirect the same types. -/
def SameSources (d d' : Draft) : Prop :=
  d'.sourceDefinitions = d.sourceDefinitions

theorem ignoresEntries_sameSources : IgnoresEntries SameSources where
  refl _ := rfl
  trans hfirst hlast := Eq.trans hlast hfirst
  putType _ _ _ _ := rfl
  putMember _ _ _ span := by cases span <;> rfl
  putContaining _ _ _ := rfl
  putAccessors _ _ _ _ := rfl
  putSpan _ _ span := by cases span <;> rfl
  deferLink _ _ _ := rfl
  deferMember _ _ _ := rfl
  deferBody _ _ _ data := by
    unfold SameSources deferBody
    simp only []
    split <;> rfl

theorem ignoresMemberLinks_sameSources : IgnoresMemberLinks SameSources where
  toIgnoresDeclarations := ignoresEntries_sameSources.toIgnoresDeclarations
  overrides _ _ := rfl
  implementations _ _ := rfl

end Draft

namespace Tables

open Draft

variable {d d' : Draft} {links : List (String × Value)}

theorem redirects_empty : Draft.empty.Redirects [] where
  named := by simp
  others _ _ := rfl

theorem Redirects.mono (h : d.Redirects links)
    (hnames : ∀ name id, d.typeNames.get? name = some id → d'.typeNames.get? name = some id)
    (hsame : SameSources d d') : d'.Redirects links where
  named link hlink name hname := by
    obtain ⟨source, hfound, hsource⟩ := h.named link hlink name hname
    exact ⟨source, hnames name source hfound, hsame ▸ hsource⟩
  others type hnone := hsame ▸ h.others type hnone

/-- What is redirected stays so while the draft grows in other ways. -/
theorem Redirects.grows (h : d.Redirects links) (hgrows : d.Grows d') (hsame : SameSources d d') :
    d'.Redirects links :=
  h.mono (fun _ _ => hgrows.finds) hsame

/-- A further entry that names no source type. -/
theorem Redirects.pass (h : d.Redirects links) {type : String} {data : Value}
    (hnone : Index.sourceName? data = none) : d.Redirects (links ++ [(type, data)]) where
  named link hlink name hname := by
    obtain hold | hlast := List.mem_append.mp hlink
    · exact h.named link hold name hname
    · rw [List.mem_singleton.mp hlast, hnone] at hname
      cases hname
  others other hothers := h.others other fun link hlink =>
    hothers link (List.mem_append_left _ hlink)

/-- A further entry that names a known type. -/
theorem Redirects.put (h : d.Redirects links) {type : String} (hnew : type ∉ links.map Prod.fst)
    {data : Value} {name source : String} (hname : Index.sourceName? data = some name)
    (hfound : d.typeNames.get? name = some source) :
    (d.putSourceDefinition type source).Redirects (links ++ [(type, data)]) := by
  have hget : ∀ other, (d.putSourceDefinition type source).sourceDefinitions.get? other =
      if type = other then some source else d.sourceDefinitions.get? other :=
    fun other => Table.get?_insert _ _ _ _
  constructor
  · intro link hlink given hgiven
    rw [hget]
    obtain hold | hlast := List.mem_append.mp hlink
    · have hne : type ≠ link.1 := fun heq => hnew (List.mem_map.mpr ⟨link, hold, heq.symm⟩)
      rw [if_neg hne]
      exact h.named link hold given hgiven
    · obtain rfl := List.mem_singleton.mp hlast
      obtain rfl : name = given := Option.some.inj (hname.symm.trans hgiven)
      exact ⟨source, hfound, if_pos rfl⟩
  · intro other hothers
    have hne : type ≠ other := by
      intro heq
      have hnone := hothers (type, data) (by simp) heq
      rw [hname] at hnone
      cases hnone
    rw [hget, if_neg hne]
    exact h.others other fun link hlink => hothers link (List.mem_append_left _ hlink)

end Tables

/-! ## The links of types -/

namespace Link

open Building Draft Tables Index

variable {d : Draft} {links : List (String × Value)}

theorem linkBase_sources (type : String) (data : Value) :
    Relates SameSources (linkBase type data) :=
  ignoresMemberLinks_sameSources.resolves.linkBase (fun _ => relates_modify fun _ => rfl) data

theorem linkInterfaces_sources (type : String) (data : Value) :
    Relates SameSources (linkInterfaces type data) :=
  ignoresMemberLinks_sameSources.resolves.linkInterfaces (fun _ => relates_modify fun _ => rfl) data

theorem linkSource_redirects (h : d.Redirects links) {type : String}
    (hnew : type ∉ links.map Prod.fst) (data : Value) :
    Ensures (linkSource type data) d fun _ e => e.Redirects (links ++ [(type, data)]) := by
  unfold linkSource
  rw [ensures_ite]
  constructor
  · intro hgiven
    have hname : sourceName? data = some (data.field "source_definition").plain := if_pos hgiven
    refine Ensures.after ?_ _
    simp only [ensures_bind, ensures_get]
    split
    next source hfound => exact ensures_set.mpr (h.put hnew hname hfound)
    next => exact ensures_lift_refuse
  · intro hgiven
    exact ensures_pure.mpr (h.pass (if_neg hgiven))

theorem linkType_redirects (hd : d.Sound) (h : d.Redirects links) {type : String}
    (htype : KnownAs d.symbols .namedType type) (hnew : type ∉ links.map Prod.fst)
    (data : Value) :
    Ensures (linkType type data) d fun _ e => e.Redirects (links ++ [(type, data)]) := by
  unfold linkType
  refine ((linkBase_evolves hd type data).and ((linkBase_ensures hd htype data).and
    (linkBase_sources type data d))).bind ?_
  rintro _ d₁ ⟨hevolves₁, hbecomes₁, hsame₁⟩
  refine ((linkInterfaces_evolves hbecomes₁.sound type data).and
    (linkInterfaces_sources type data d₁)).bind ?_
  rintro _ d₂ ⟨hevolves₂, hsame₂⟩
  have hlinked := (h.grows hevolves₁.grows hsame₁).grows hevolves₂.grows hsame₂
  exact linkSource_redirects hlinked hnew data

end Link

/-! ## Documents -/

namespace Index

open Building Draft Tables

variable {d : Draft}

theorem linkTypes_redirects {done items : List (String × Value)} (hd : d.Sound)
    (h : d.Redirects done) (htypes : ∀ link ∈ items, KnownAs d.symbols .namedType link.1)
    (hdistinct : ((done ++ items).map Prod.fst).Nodup) :
    Ensures (forEach (fun (id, data) => Link.linkType id data) items) d fun _ e =>
      e.Redirects (done ++ items) := by
  induction items generalizing d done with
  | nil =>
      rw [List.append_nil]
      exact ensures_pure.mpr h
  | cons link rest ih =>
      obtain ⟨type, data⟩ := link
      have hknown := htypes (type, data) List.mem_cons_self
      have hnew : type ∉ done.map Prod.fst := by
        rw [List.map_append] at hdistinct
        exact fun hmem => (List.nodup_append.mp hdistinct).2.2 type hmem type (by simp) rfl
      refine ((Link.linkType_ensures hd hknown data).and
        (Link.linkType_redirects hd h hknown hnew data)).bind ?_
      rintro _ d₁ ⟨hbecomes, hfirst⟩
      have happend : done ++ (type, data) :: rest = (done ++ [(type, data)]) ++ rest := by simp
      rw [happend] at hdistinct ⊢
      refine ih hbecomes.sound hfirst ?_ hdistinct
      intro link hlink
      exact (htypes link (List.mem_cons_of_mem _ hlink)).mono hbecomes.kept

theorem readBody_sources (root : String) (pending : PendingBody) :
    Relates SameSources (readBody root pending) :=
  ignoresMemberLinks_sameSources.resolves.readBody (fun _ => relates_modify fun _ => rfl) root

theorem readEnd_sources (disk : Disk) (root : String) (data : Value) :
    Relates SameSources (readEnd disk root data) :=
  ignoresMemberLinks_sameSources.readEnd (fun _ _ _ => rfl) (fun _ _ _ => rfl) disk root data

/-- References and source files rename nothing. -/
theorem readEnd_finds (hd : d.Sound) {name id : String} (hid : d.typeNames.get? name = some id)
    (disk : Disk) (root : String) (data : Value) :
    Ensures (readEnd disk root data) d fun _ e => e.typeNames.get? name = some id := by
  unfold readEnd
  simp only [ensures_bind, ensures_lift]
  intro entries _
  let Finds : Draft → Prop := fun e => e.typeNames.get? name = some id
  refine (forEach_keeps (P := fun e => e.Sound ∧ Finds e) ⟨hd, hid⟩ ?_).imp ?_
  · rintro entry _ e ⟨he, hfinds⟩
    exact readReferences_keeps (P := Finds) (fun hbefore hchange => hchange.finds hbefore)
      (fun _ _ h => h) he hfinds root entry
  rintro _ e ⟨-, hfinds⟩
  refine (readSources_same disk root data).imp ?_
  intro _ e' hsame
  exact (Change.other hsame).finds hfinds

/-- Everything behind the first pass redirects the types that it has put off. -/
theorem readRest_redirects (hd : d.Sound) (hdistinct : (d.pendingLinks.map Prod.fst).Nodup)
    (hnone : d.Redirects []) (disk : Disk) (root : String) (data : Value) :
    Ensures (readRest disk root data) d fun _ e => e.Redirects d.pendingLinks := by
  have hsame := ignoresMemberLinks_sameSources
  unfold readRest
  simp only [ensures_bind, ensures_get]
  refine ((linkTypes_evolves hd).and (linkTypes_redirects hd hnone hd.links hdistinct)).imp ?_
  rintro _ d₁ ⟨⟨hbecomes₁, hevolves₁⟩, hlinked⟩
  have hmembers := hsame.chains.forEach (fun pending : String × Value =>
    hsame.linkMember pending.1 pending.2) d₁.pendingMembers
  refine ((linkMembers_evolves hbecomes₁.sound).and (hmembers d₁)).imp ?_
  rintro _ d₂ ⟨⟨hbecomes₂, hevolves₂⟩, hsame₂⟩
  have hbodies := hsame.chains.forEach (readBody_sources root) d₂.pendingBodies
  refine ((readBodies_evolves hbecomes₂.sound root).and (hbodies d₂)).imp ?_
  rintro _ d₃ ⟨⟨hbecomes₃, hevolves₃⟩, hsame₃⟩ _ e hrun
  have hread := (hlinked.grows hevolves₂.grows hsame₂).grows hevolves₃.grows hsame₃
  refine hread.mono ?_ (readEnd_sources disk root data d₃ _ e hrun)
  intro name id hid
  exact readEnd_finds hbecomes₃.sound hid disk root data _ e hrun

theorem readDocument_redirects (disk : Disk) (root : String) (data : Value) :
    Ensures (readDocument disk root data) Draft.empty fun _ e =>
      ∃ types, typesOf data = .ok types ∧
        e.Redirects (types.map fun entry => (typeId entry, entry)) := by
  have hsame := ignoresEntries_sameSources
  rw [readDocument_eq_rest]
  simp only [ensures_bind, ensures_lift]
  intro types htypes
  have hdeclares := hsame.chains.forEach (hsame.declareType root) types
  refine ((declareTypes_declared Sound.empty root types).and
    ((declareTypes_prepared Sound.empty root types).and (hdeclares Draft.empty))).imp ?_
  rintro _ d ⟨hdeclared, hprepared, hnothing⟩
  have hnone : d.Redirects [] := redirects_empty.grows hprepared.grows hnothing
  refine (readRest_redirects hdeclared.becomes.sound (hprepared.apportioned hdeclared).links
    hnone disk root data).imp ?_
  intro _ e hredirects
  rw [hprepared.links] at hredirects
  exact ⟨types, htypes, hredirects⟩

/-- In a loaded document just those types are redirected whose entries name a source type. -/
theorem redirects_of_tables {disk : Disk} {root : String} {data : Value} {t : Tables}
    (ht : tables disk root data = .ok t) : ∃ types, typesOf data = .ok types ∧
      t.Redirects (types.map fun entry => (typeId entry, entry)) := by
  obtain ⟨e, hread, rfl⟩ := exists_run_of_tables ht
  exact readDocument_redirects disk root data () e hread

end Index
end SymbolAtlas
