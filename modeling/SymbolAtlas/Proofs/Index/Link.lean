import SymbolAtlas.Index.Link
import SymbolAtlas.Proofs.Index.MemberName
import Mathlib.Tactic

/-!
# Links keep drafts sound

Both ends of every link are known: one is a declared symbol, and the other is a type that is there
or added from metadata, a member that a name stands for, or one that is found along the bases.
-/

namespace SymbolAtlas
namespace Link

open Building Draft Tables

variable {d : Draft}

theorem mem_distinct (ids : List String) (id : String) : id ∈ distinct ids ↔ id ∈ ids := by
  have hfold : ∀ seen : List String,
      id ∈ ids.foldl (fun seen id => if seen.contains id then seen else id :: seen) seen ↔
        id ∈ seen ∨ id ∈ ids := by
    induction ids with
    | nil => simp
    | cons first rest ih =>
        intro seen
        rw [List.foldl_cons, ih, List.mem_cons]
        by_cases hfirst : first ∈ seen
        · rw [if_pos (List.contains_iff_mem.mpr hfirst)]
          constructor
          · intro h
            exact h.imp_right Or.inr
          · intro h
            rcases h with hseen | rfl | hrest
            · exact Or.inl hseen
            · exact Or.inl hfirst
            · exact Or.inr hrest
        · rw [if_neg (by simpa using hfirst), List.mem_cons]
          tauto
  unfold distinct
  rw [List.mem_reverse, hfold []]
  simp

theorem nodup_distinct (ids : List String) : (distinct ids).Nodup := by
  unfold distinct
  rw [List.nodup_reverse]
  refine List.foldlRecOn (motive := List.Nodup) ids _ List.nodup_nil ?_
  intro seen hseen id _
  split
  next => exact hseen
  next hnew =>
    rw [List.contains_iff_mem] at hnew
    exact List.nodup_cons.mpr ⟨hnew, hseen⟩

/-! ## Types -/

theorem linkBase_ensures (hd : d.Sound) {type : String}
    (htype : KnownAs d.symbols .namedType type) (data : Value) :
    Ensures (linkBase type data) d fun _ d' => d.Becomes d' := by
  unfold linkBase
  rw [ensures_ite]
  constructor
  · intro _
    refine Ensures.after ?_ _
    simp only [ensures_bind, ensures_modify]
    refine (Declaration.ensureType_ensures hd _ _).imp ?_
    intro id d' hid
    rcases hid with ⟨hbecomes, hid⟩
    exact hbecomes.trans (hbecomes.sound.putBase (htype.mono hbecomes.kept) hid)
  · intro _
    rw [ensures_pure]
    exact hd.becomes

theorem ensureInterface_ensures (hd : d.Sound) (name : Value) :
    Ensures (ensureInterface name) d fun id d' =>
      d.Becomes d' ∧ KnownAs d'.symbols .namedType id :=
  (Declaration.ensureType_ensures hd name.plain .interface).after _

theorem linkInterfaces_ensures (hd : d.Sound) {type : String}
    (htype : KnownAs d.symbols .namedType type) (data : Value) :
    Ensures (linkInterfaces type data) d fun _ d' => d.Becomes d' := by
  unfold linkInterfaces
  simp only [ensures_bind, ensures_lift, ensures_modify]
  intro items _
  refine (forAll_ensures (p := fun symbols id => KnownAs symbols .namedType id) hd
    (fun hkept h => h.mono hkept) ?_).imp ?_
  · intro item _ d' hbefore
    exact ensureInterface_ensures hbefore.sound item
  · intro interfaces d' hinterfaces
    rcases hinterfaces with ⟨hbecomes, hknown⟩
    split
    next => exact hbecomes
    next =>
      refine hbecomes.trans (hbecomes.sound.putInterfaces (htype.mono hbecomes.kept) ?_)
      intro id hid
      exact hknown id ((mem_distinct interfaces id).mp hid)

theorem linkSource_ensures (hd : d.Sound) {type : String} (htype : Known d.symbols type)
    (data : Value) : Ensures (linkSource type data) d fun _ d' => d.Becomes d' := by
  unfold linkSource
  rw [ensures_ite]
  constructor
  · intro _
    refine Ensures.after ?_ _
    simp only [ensures_bind, ensures_get]
    split
    next source hsource =>
      rw [ensures_set]
      exact hd.putSourceDefinition htype (hd.named.get? hsource).known
    next => exact ensures_lift_refuse
  · intro _
    rw [ensures_pure]
    exact hd.becomes

theorem linkType_ensures (hd : d.Sound) {type : String}
    (htype : KnownAs d.symbols .namedType type) (data : Value) :
    Ensures (linkType type data) d fun _ d' => d.Becomes d' := by
  unfold linkType
  refine (linkBase_ensures hd htype data).bind ?_
  intro _ d₁ hbase
  refine (linkInterfaces_ensures hbase.sound (htype.mono hbase.kept) data).bind ?_
  intro _ d₂ hinterfaces
  have hboth := hbase.trans hinterfaces
  refine (linkSource_ensures hinterfaces.sound (htype.mono hboth.kept).known data).imp ?_
  intro _ d₃ hsource
  exact hboth.trans hsource

/-! ## Members -/

theorem known_of_overridable? {t : Tables} (hids : t.symbols.Each fun id s => s.id = id)
    {member : Symbol} {type id : String} (hfound : overridable? t member type = some id) :
    Known t.symbols id := by
  unfold overridable? at hfound
  rw [Option.map_eq_some_iff] at hfound
  rcases hfound with ⟨candidate, hcandidate, rfl⟩
  have hmem := List.mem_of_find?_eq_some hcandidate
  exact (holds_of_mem_symbolsOf hids hmem).known

theorem inheritedFrom_of_none {t : Tables} {member : Symbol} {bases : List (String × String)}
    {type : String} (hnone : Table.find? type bases = none) :
    inheritedFrom t member bases type = none := by
  rw [inheritedFrom]
  split
  next => rfl
  next base hbase =>
    rw [hnone] at hbase
    cases hbase

theorem inheritedFrom_of_some {t : Tables} {member : Symbol} {bases : List (String × String)}
    {type base : String} (hbase : Table.find? type bases = some base) :
    inheritedFrom t member bases type =
      match overridable? t member base with
      | some found => some found
      | none => inheritedFrom t member (Table.without type bases) base := by
  rw [inheritedFrom]
  split
  next hnone =>
    rw [hbase] at hnone
    cases hnone
  next other hother =>
    rw [hbase, Option.some.injEq] at hother
    subst hother
    rfl

theorem known_of_inheritedFrom {t : Tables} (hids : t.symbols.Each fun id s => s.id = id)
    {member : Symbol} {bases : List (String × String)} {type id : String}
    (hfound : inheritedFrom t member bases type = some id) : Known t.symbols id := by
  induction bases, type using inheritedFrom.induct t member with
  | case1 bases type hnone =>
      rw [inheritedFrom_of_none hnone] at hfound
      cases hfound
  | case2 bases type base hbase found hoverridable =>
      rw [inheritedFrom_of_some hbase, hoverridable] at hfound
      have hfound : some found = some id := hfound
      rw [hfound] at hoverridable
      exact known_of_overridable? hids hoverridable
  | case3 bases type base hbase hoverridable ih =>
      rw [inheritedFrom_of_some hbase, hoverridable] at hfound
      exact ih hfound

theorem known_of_inherited? {t : Tables} (hids : t.symbols.Each fun id s => s.id = id)
    {member : Symbol} {id : String} (hfound : inherited? t member = some id) :
    Known t.symbols id := by
  unfold inherited? at hfound
  split at hfound
  next => exact known_of_inheritedFrom hids hfound
  next => cases hfound

theorem linkOverridden_ensures (hd : d.Sound) {member : Symbol}
    (hmember : Known d.symbols member.id) (hkind : member.kind ≠ .namedType) (data : Value) :
    Ensures (linkOverridden member data) d fun _ d' => d.Becomes d' := by
  unfold linkOverridden
  simp only []
  rw [ensures_ite]
  constructor
  · intro _
    have hsome := (Option.some_injective SymbolKind).ne hkind
    refine Ensures.after ?_ _
    simp only [ensures_bind, ensures_modify]
    refine (MemberName.resolve_ensures hd _ _ hsome none).imp ?_
    intro target d' htarget
    rcases htarget with ⟨hbecomes, htarget⟩
    exact hbecomes.trans
      (hbecomes.sound.putOverridden (hmember.mono hbecomes.kept) htarget.known)
  · intro _
    rw [ensures_ite]
    constructor
    · intro _
      rw [ensures_modify]
      split
      next target htarget => exact hd.putOverridden hmember (known_of_inherited? hd.ids htarget)
      next => exact hd.becomes
    · intro _
      rw [ensures_pure]
      exact hd.becomes

theorem linkAccessor_becomes (hd : d.Sound) {own base : Option String}
    (hown : ∀ id ∈ own, Known d.symbols id) (hbase : ∀ id ∈ base, Known d.symbols id) :
    d.Becomes (linkAccessor d own base) := by
  unfold linkAccessor
  split
  next => exact hd.putOverridden (hown _ rfl) (hbase _ rfl)
  next => exact hd.becomes

theorem known_accessors (hd : d.Sound) (property : String) :
    (∀ id ∈ ((d.accessors.get? property).getD (none, none)).1, Known d.symbols id) ∧
      ∀ id ∈ ((d.accessors.get? property).getD (none, none)).2, Known d.symbols id := by
  cases hget : d.accessors.get? property with
  | none => simp
  | some pair => exact (hd.refers.accessors.get? hget).2

theorem linkAccessors_becomes (hd : d.Sound) (property overridden : String) :
    d.Becomes (linkAccessors d property overridden) := by
  have hown := known_accessors hd property
  have hbase := known_accessors hd overridden
  unfold linkAccessors
  have hgetter := linkAccessor_becomes hd hown.1 hbase.1
  refine hgetter.trans (linkAccessor_becomes hgetter.sound ?_ ?_)
  · intro id hid
    exact (hown.2 id hid).mono hgetter.kept
  · intro id hid
    exact (hbase.2 id hid).mono hgetter.kept

theorem linkProperty_becomes (hd : d.Sound) (property : String) :
    d.Becomes (linkProperty d property) := by
  unfold linkProperty
  split
  next => exact linkAccessors_becomes hd property _
  next => exact hd.becomes

theorem linkOverride_ensures (hd : d.Sound) {member : Symbol}
    (hmember : Known d.symbols member.id) (hkind : member.kind ≠ .namedType) (data : Value) :
    Ensures (linkOverride member data) d fun _ d' => d.Becomes d' := by
  unfold linkOverride
  refine (linkOverridden_ensures hd hmember hkind data).bind ?_
  intro _ d' hlinked
  rw [ensures_ite]
  constructor
  · intro _
    rw [ensures_modify]
    exact hlinked.trans (linkProperty_becomes hlinked.sound member.id)
  · intro _
    rw [ensures_pure]
    exact hlinked

theorem implemented_ensures (hd : d.Sound) {member : Symbol} (hkind : member.kind ≠ .namedType)
    (name : Value) :
    Ensures (implemented member name) d fun target d' =>
      d.Becomes d' ∧ Holds d'.symbols target := by
  have hsome := (Option.some_injective SymbolKind).ne hkind
  exact (MemberName.resolve_ensures hd name.plain _ hsome none).after _

theorem linkImplementations_ensures (hd : d.Sound) {member : Symbol}
    (hmember : Known d.symbols member.id) (hkind : member.kind ≠ .namedType) (data : Value) :
    Ensures (linkImplementations member data) d fun _ d' => d.Becomes d' := by
  unfold linkImplementations
  rw [ensures_ite]
  constructor
  · intro _
    simp only [ensures_bind, ensures_modify]
    refine (forAll_ensures (p := Holds) hd (fun hkept h => h.mono hkept) ?_).imp ?_
    · intro name _ d' hbefore
      exact implemented_ensures hbefore.sound hkind name
    · intro targets d' htargets
      rcases htargets with ⟨hbecomes, hholds⟩
      refine hbecomes.trans (hbecomes.sound.putImplementations (hmember.mono hbecomes.kept) ?_)
      intro id hid
      rcases List.mem_map.mp hid with ⟨target, htarget, rfl⟩
      exact (hholds target htarget).known
  · intro _
    rw [ensures_pure]
    exact hd.becomes

theorem linkMember_ensures (hd : d.Sound) {id : String} (hid : KnownMember d.symbols id)
    (data : Value) : Ensures (linkMember id data) d fun _ d' => d.Becomes d' := by
  obtain ⟨member, hmember, hkind, hknown⟩ := hd.exists_member hid
  unfold linkMember
  simp only [ensures_bind, ensures_get]
  rw [hmember]
  refine (linkOverride_ensures hd hknown hkind data).bind ?_
  intro _ d' hlinked
  refine (linkImplementations_ensures hlinked.sound (hknown.mono hlinked.kept) hkind data).imp ?_
  intro _ d'' himplemented
  exact hlinked.trans himplemented

end Link
end SymbolAtlas
