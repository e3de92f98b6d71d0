import SymbolAtlas.Proofs.Reordering.Deferred
import Mathlib.Tactic

/-!
# What members name as implemented

What a member implements is linked under its own id, and only the members that a document lists are
linked.  An accessor is not listed but comes with its property, so that it names nothing itself.
-/

namespace SymbolAtlas

open Building Draft Tables

/-- No accessor names what it implements. -/
def Tables.NamesPlainly (t : Tables) : Prop :=
  ∀ id named, t.explicitImplementations.get? id = some named →
    ∃ s, t.symbols.get? id = some s ∧ s.isAccessor = false

namespace Draft

/-- The members that wait for their links. -/
def waitingIds (d : Draft) : Set String :=
  {id | ∃ pending ∈ d.pendingMembers, pending.1 = id}

/-- What is named as implemented is the same, but for some members. -/
def SameImplementations (ids : Set String) (d d' : Draft) : Prop :=
  ∀ id, id ∉ ids → d'.explicitImplementations.get? id = d.explicitImplementations.get? id

variable {ids : Set String} {d d' d'' : Draft}

theorem SameImplementations.refl (ids : Set String) (d : Draft) : SameImplementations ids d d :=
  fun _ _ => rfl

theorem SameImplementations.trans (hfirst : SameImplementations ids d d')
    (hlast : SameImplementations ids d' d'') : SameImplementations ids d d'' :=
  fun id hid => (hlast id hid).trans (hfirst id hid)

theorem SameImplementations.mono {others : Set String} (h : SameImplementations ids d d')
    (hsubset : ids ⊆ others) : SameImplementations others d d' :=
  fun id hid => h id fun hmem => hid (hsubset hmem)

theorem sameImplementations_putImplementations (d : Draft) {member : String}
    (hmember : member ∈ ids) (targets : List String) :
    SameImplementations ids d (d.putImplementations member targets) := by
  intro id hid
  refine (Table.get?_insert _ _ _ _).trans (if_neg ?_)
  rintro rfl
  exact hid hmember

theorem ignoresEntries_sameImplementations (ids : Set String) :
    IgnoresEntries (SameImplementations ids) where
  refl := .refl ids
  trans := .trans
  putType _ _ _ _ _ _ := rfl
  putMember _ _ _ span _ _ := by cases span <;> rfl
  putContaining _ _ _ _ _ := rfl
  putAccessors _ _ _ _ _ _ := rfl
  putSpan _ _ span _ _ := by cases span <;> rfl
  deferLink _ _ _ _ _ := rfl
  deferMember _ _ _ _ _ := rfl
  deferBody _ _ _ data _ _ := by
    unfold deferBody
    simp only []
    split <;> rfl

theorem ignoresOverrides_sameImplementations (ids : Set String) :
    IgnoresOverrides (SameImplementations ids) where
  toIgnoresDeclarations := (ignoresEntries_sameImplementations ids).toIgnoresDeclarations
  overrides _ _ _ _ := rfl

end Draft

variable {ids : Set String} {d : Draft}

/-! ## Members -/

namespace Link

/-- What a member implements is linked under the member. -/
theorem linkMember_sameImplementations (hd : d.Sound) {id : String} (hid : id ∈ ids)
    (data : Value) : Ensures (linkMember id data) d fun _ e => SameImplementations ids d e := by
  have hignores := ignoresOverrides_sameImplementations ids
  unfold linkMember
  rw [ensures_bind, ensures_get]
  split
  next => exact hignores.chains.throw _ d
  next member hmember =>
    obtain rfl : member.id = id := hd.ids.get? hmember
    exact hignores.resolves.linkFound (hignores.linksMember fun d targets =>
      sameImplementations_putImplementations d hid targets) data d

end Link

/-! ## Documents -/

namespace Index

theorem linkTypes_sameImplementations (d : Draft) :
    Ensures (forEach (fun (id, data) => Link.linkType id data) d.pendingLinks) d fun _ e =>
      SameImplementations ∅ d e := by
  refine forEach_keeps (SameImplementations.refl ∅ d) ?_
  intro pending _ e hbefore
  refine (Link.linkType_writes pending.1 pending.2 e).imp ?_
  intro _ e' hlinks
  exact hbefore.trans fun id _ => hlinks.explicitImplementations id (by simp)

theorem linkMembers_sameImplementations (hd : d.Sound) :
    Ensures (forEach (fun (id, data) => Link.linkMember id data) d.pendingMembers) d fun _ e =>
      SameImplementations d.waitingIds d e := by
  refine (forEach_keeps (P := fun e => d.Becomes e ∧ SameImplementations d.waitingIds d e)
    ⟨hd.becomes, .refl _ d⟩ ?_).imp fun _ _ h => h.2
  rintro pending hpending e ⟨hbecomes, hbefore⟩
  have hknown := hd.members_mono hbecomes.kept pending hpending
  have hwaits : pending.1 ∈ d.waitingIds := ⟨pending, hpending, rfl⟩
  refine ((Link.linkMember_ensures hbecomes.sound hknown pending.2).and
    (Link.linkMember_sameImplementations hbecomes.sound hwaits pending.2)).imp ?_
  rintro _ e' ⟨hlast, hsame⟩
  exact ⟨hbecomes.trans hlast, hbefore.trans hsame⟩

theorem readBody_sameImplementations (root : String) (pending : PendingBody) :
    Relates (SameImplementations ids) (readBody root pending) :=
  (ignoresEntries_sameImplementations ids).resolves.readBody
    (fun _ => relates_modify fun _ _ _ => rfl) root

/-- Behind the first pass only the members that wait for it name what they implement. -/
theorem readRest_sameImplementations (hd : d.Sound) (disk : Disk) (root : String) (data : Value) :
    Ensures (readRest disk root data) d fun _ e =>
      SameImplementations d.waitingIds d e := by
  unfold readRest
  simp only [ensures_bind, ensures_get]
  refine ((linkTypes_evolves hd).and (linkTypes_sameImplementations d)).imp ?_
  rintro _ d₁ ⟨⟨hbecomes₁, hevolves₁⟩, hsame₁⟩
  refine (linkMembers_sameImplementations hbecomes₁.sound).imp ?_
  intro _ d₂ hsame₂
  rw [waitingIds, hevolves₁.members] at hsame₂
  have hignores := ignoresEntries_sameImplementations ∅
  refine (hignores.chains.forEach (readBody_sameImplementations root) _ d₂).imp ?_
  intro _ d₃ hsame₃
  refine (hignores.readEnd (fun _ _ _ _ _ => rfl)
    (fun _ _ _ _ _ => rfl) disk root data d₃).imp ?_
  intro _ e hsame₄
  exact (hsame₁.mono (Set.empty_subset _)).trans
    (hsame₂.trans ((hsame₃.trans hsame₄).mono (Set.empty_subset _)))

theorem declareTypes_sameImplementations (root : String) (types : List Value) :
    Relates (SameImplementations ∅) (forEach (Declaration.declareType root) types) := by
  have hignores := ignoresEntries_sameImplementations ∅
  exact hignores.chains.forEach (hignores.declareType root) types

theorem namesPlainly_of_tables {disk : Disk} {root : String} {data : Value} {t : Tables}
    (ht : tables disk root data = .ok t) : t.NamesPlainly := by
  obtain ⟨e, hrun, rfl⟩ := exists_run_of_tables ht
  rw [readDocument_eq_rest] at hrun
  have hnames : Ensures (do
      let types ← typesOf data
      forEach (Declaration.declareType root) types
      readRest disk root data) Draft.empty fun _ e => e.NamesPlainly := by
    simp only [ensures_bind, ensures_lift]
    intro types _
    refine ((declareTypes_declared Sound.empty root types).and
      ((declareTypes_prepared Sound.empty root types).and
        (declareTypes_sameImplementations root types Draft.empty))).imp ?_
    rintro _ d ⟨hdeclared, hprepared, hempty⟩
    have hd := hdeclared.becomes.sound
    refine ((readRest_enriches hd disk root data).and
      (readRest_sameImplementations hd disk root data)).imp ?_
    rintro _ e ⟨henriches, hsame⟩ id named hnamed
    by_cases hwaits : id ∈ d.waitingIds
    · obtain ⟨pending, hpending, rfl⟩ := hwaits
      obtain ⟨s, hs, -⟩ := hd.members pending hpending
      exact ⟨s, henriches.kept _ s hs,
        (hprepared.apportioned hdeclared).plain pending hpending s hs⟩
    · rw [hsame id hwaits, hempty id (Set.notMem_empty id)] at hnamed
      cases hnamed
  exact hnames () e hrun

end Index
end SymbolAtlas
