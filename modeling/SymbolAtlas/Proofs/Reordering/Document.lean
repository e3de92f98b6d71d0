import SymbolAtlas.Proofs.Reordering.Deferred
import SymbolAtlas.Proofs.Reordering.Nesting
import Mathlib.Tactic

/-!
# Documents with their types in another order

A document whose links and bodies name declared types and members only is read alike whatever the
order of its types.  The first pass declares the same, each later pass finds the same to do, and
references and files do not depend on the order of anything before them.
-/

namespace SymbolAtlas

open Building Declaration Draft Tables

namespace Index

variable {N K : Set Slot} {root : String} {types others : List Value} {data data' : Value}
  {d d' : Draft}

/-- To look up a type brings nothing in if it is declared, and only then. -/
theorem quiet_ensureType_iff (hd : d.Sound) (name : String) (kind : TypeKind) :
    Quiet (ensureType name kind) d ↔ d.typeNames.contains name = true := by
  unfold Quiet ensureType
  simp only [ensures_bind, ensures_get]
  split
  next id hid =>
    rw [ensures_pure, Table.contains, hid]
    exact iff_of_true (fun _ hknown => hknown) rfl
  next hnone =>
    simp only [ensures_bind, ensures_set, ensures_pure]
    have hname : d.typeNames.contains name = false := Table.contains_of_get? hnone
    rw [hname]
    refine iff_of_false (fun hquiet => ?_) Bool.false_ne_true
    obtain ⟨s, hs⟩ := hquiet ("T:" ++ name) ⟨_, get?_insert_self d.symbols _⟩
    rw [hd.typeId_new hname] at hs
    cases hs

/-- What a name of a member stands for is declared if to look it up brings nothing in. -/
theorem Quiet.holds_of_resolve {reference place : String} {kind : Option SymbolKind}
    {arguments : Option Nat} (hd : d.Sound) (hkind : kind ≠ some .namedType)
    (h : Quiet (MemberName.resolve reference place kind arguments) d) :
    Ensures (MemberName.resolve reference place kind arguments) d fun s _ =>
      Holds d.symbols s := by
  intro s e hrun
  obtain ⟨hbecomes, hs⟩ := MemberName.resolve_ensures hd reference place hkind arguments s e hrun
  obtain ⟨x, hx⟩ := h s e hrun s.id ⟨s, hs⟩
  rw [Holds, hx, ← hbecomes.kept s.id x hx]
  exact hs

/-- The links, members and bodies that wait in a draft name only what it declares, so that none of
them brings a symbol in. -/
structure NamesDeclared (root : String) (d : Draft) : Prop where
  links : ∀ pending ∈ d.pendingLinks, Quiet (Link.linkType pending.1 pending.2) d
  members : ∀ pending ∈ d.pendingMembers, Quiet (Link.linkMember pending.1 pending.2) d
  bodies : ∀ pending ∈ d.pendingBodies, Quiet (readBody root pending) d

instance (root : String) (d : Draft) : Decidable (NamesDeclared root d) :=
  decidable_of_iff (_ ∧ _ ∧ _)
    ⟨fun ⟨hlinks, hmembers, hbodies⟩ => ⟨hlinks, hmembers, hbodies⟩,
      fun h => ⟨h.links, h.members, h.bodies⟩⟩

/-- Two documents differ in the order of their types alone. -/
structure Reordered (types others : List Value) (data data' : Value) : Prop where
  listed : data.field "types" = .list types
  relisted : data'.field "types" = .list others
  perm : types.Perm others
  same : ∀ key, key ≠ "types" → data'.field key = data.field key

theorem NamesDeclared.alike (h : NamesDeclared root d) (halike : Alike Set.univ d d') :
    NamesDeclared root d' where
  links pending hpending :=
    (h.links pending (halike.pendingLinks.mem_iff.mp hpending)).alike
      (Link.linkType_respects _ _) halike
  members pending hpending :=
    (h.members pending (halike.pendingMembers.mem_iff.mp hpending)).alike
      (Link.linkMember_respects_univ _ _) halike
  bodies pending hpending :=
    (h.bodies pending (halike.pendingBodies.mem_iff.mp hpending)).alike
      (readBody_respects root pending) halike

theorem Reordered.symm (h : Reordered types others data data') :
    Reordered others types data' data :=
  ⟨h.relisted, h.listed, h.perm.symm, fun key hkey => (h.same key hkey).symm⟩

theorem typesOf_of_field (h : data.field "types" = .list types) : typesOf data = .ok types := by
  unfold typesOf
  rw [h]
  cases types <;> rfl

theorem isMapping_of_field (h : data.field "types" = .list types) : data.isMapping = true := by
  cases data with
  | mapping entries => rfl
  | _ => cases h

/-! ## The later passes -/

theorem Reordered.readEnd_eq (h : Reordered types others data data') (disk : Disk)
    (root : String) : readEnd disk root data' = readEnd disk root data := by
  unfold readEnd readSources readFiles
  rw [h.same "references" (by decide), h.same "files" (by decide)]

/-- Behind drafts that are alike, the later passes end alike. -/
theorem readRest_alike (h : Reordered types others data data') (hd : d.Sound) (hd' : d'.Sound)
    (happortioned : d.Apportioned) (hnames : NamesDeclared root d)
    (htypes : ∀ type, .type type ∉ N) (hmembers : ∀ member, .member member ∉ N)
    (halike : Alike N d d') (disk : Disk) :
    Ensures (readRest disk root data) d fun _ e =>
      ∃ e', readRest disk root data' d' = .ok ((), e') ∧ Alike N e e' := by
  have hstanding : Standing d d := ⟨hd, Alike.refl _ d⟩
  have hstanding' : Standing d d' := ⟨hd', halike.mono (Set.subset_univ N)⟩
  unfold readRest
  simp only [ensures_bind, ensures_get]
  refine (linkTypes_alike happortioned hnames.links hstanding hstanding' halike).imp ?_
  rintro _ d₁ ⟨d₁', hrun₁, hstanding₁, hstanding₁', halike₁⟩
  refine (linkMembers_alike happortioned hnames.members htypes hmembers hstanding₁ hstanding₁'
    halike₁).imp ?_
  rintro _ d₂ ⟨d₂', hrun₂, hstanding₂, hstanding₂', halike₂⟩
  refine (readBodies_alike happortioned root hnames.bodies hstanding₂ hstanding₂' halike₂).imp ?_
  rintro _ d₃ ⟨d₃', hrun₃, -, -, halike₃⟩
  refine Ensures.imp (readEnd_respects disk root data d₃ d₃' halike₃) ?_
  rintro _ e ⟨_, e', hrun, -, he⟩
  rw [← h.readEnd_eq] at hrun
  refine ⟨e', ?_, he⟩
  exact bind_run_eq_ok.mpr ⟨d', d', rfl, bind_run_eq_ok.mpr ⟨(), d₁', hrun₁,
    bind_run_eq_ok.mpr ⟨d₁', d₁', rfl, bind_run_eq_ok.mpr ⟨(), d₂', hrun₂,
      bind_run_eq_ok.mpr ⟨d₂', d₂', rfl, bind_run_eq_ok.mpr ⟨(), d₃', hrun₃, hrun⟩⟩⟩⟩⟩⟩

/-! ## Whole documents -/

/-- What the entries of a document declare names only what it declares. -/
def DeclaresNames (root : String) (types : List Value) : Prop :=
  Ensures (forEach (declareType root) types) Draft.empty fun _ d => NamesDeclared root d

instance (root : String) (types : List Value) : Decidable (DeclaresNames root types) :=
  inferInstanceAs (Decidable (Ensures _ _ _))

theorem Spelled.perm (h : Spelled types) (hperm : types.Perm others) : Spelled others :=
  fun a ha b hb => h a (hperm.mem_iff.mpr ha) b (hperm.mem_iff.mpr hb)

theorem DeclaresNames.perm (h : DeclaresNames root types) (hspelled : Spelled types)
    (hperm : types.Perm others) : DeclaresNames root others := by
  intro _ d' hrun'
  obtain ⟨d, hrun, halike⟩ :=
    declareTypes_alike (hspelled.perm hperm) root hperm.symm _ d' hrun'
  exact (h _ d hrun).alike (halike.symm.mono (Set.subset_univ _))

/-- A document is read alike whatever the order of its types. -/
theorem readDocument_alike (h : Reordered types others data data') (hspelled : Spelled types)
    (hnames : DeclaresNames root types) (disk : Disk) :
    Ensures (readDocument disk root data) Draft.empty fun _ e =>
      ∃ e', readDocument disk root data' Draft.empty = .ok ((), e') ∧
        Alike (disputed types others) e e' := by
  rw [readDocument_eq_rest, readDocument_eq_rest, typesOf_of_field h.listed,
    typesOf_of_field h.relisted]
  simp only [ensures_bind, ensures_lift]
  rintro _ ⟨⟩
  intro _ d hrun
  obtain ⟨d', hrun', halike⟩ := declareTypes_alike hspelled root h.perm _ d hrun
  have hdeclared := declareTypes_declared Sound.empty root types _ d hrun
  have hdeclared' := declareTypes_declared Sound.empty root others _ d' hrun'
  have hplaced := declareTypes_placed Sound.empty hdeclared.distinct root _ d hrun
  have hplaced' := declareTypes_placed Sound.empty hdeclared'.distinct root _ d' hrun'
  have hprepared := declareTypes_prepared Sound.empty root types _ d hrun
  have hsettled := Placed.alike h.perm halike hdeclared hplaced hdeclared' hplaced'
  refine (readRest_alike h hdeclared.becomes.sound hdeclared'.becomes.sound
    (hprepared.apportioned hdeclared) (hnames _ d hrun) type_not_mem_disputed
    member_not_mem_disputed hsettled disk).imp ?_
  rintro _ e ⟨e', hrest, he⟩
  exact ⟨e', bind_run_eq_ok.mpr ⟨others, Draft.empty, rfl,
    bind_run_eq_ok.mpr ⟨(), d', hrun', hrest⟩⟩, he⟩

end Index
end SymbolAtlas
