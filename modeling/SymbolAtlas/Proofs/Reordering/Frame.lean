import SymbolAtlas.Proofs.Index.Advance
import SymbolAtlas.Proofs.Index.Frame
import SymbolAtlas.Proofs.Reordering.Answer
import Mathlib.Tactic

/-!
# Where links are written

Resolving a name writes no link.  Linking a type writes under that type, linking a member writes
under the member and, for a property, under its accessors, and reading a body writes under its
method.  A step that brings in no symbol leaves everything else as it is.
-/

namespace SymbolAtlas
namespace Draft

open Tables

variable {K : Set Slot} {d d' : Draft}

/-- A draft that grows without new symbols changes at slots only. -/
theorem Evolves.alike (h : d.Evolves d')
    (hquiet : ∀ id, Known d'.symbols id → Known d.symbols id)
    (hlinks : SameLinks K d d') : Alike K d d' := by
  have hnone : ∀ id, ¬ Brings d d' id := fun id hid => hid.not_known (hquiet id hid.2)
  have henriches := h.enriches
  constructor
  · exact hlinks
  · intro id
    cases hget : d.symbols.get? id with
    | some s => exact henriches.kept id s hget
    | none =>
        rw [Option.eq_none_iff_forall_ne_some]
        intro s hs
        exact hnone id ⟨hget, s, hs⟩
  · intro name
    refine (henriches.typeNames name).resolve_right ?_
    rintro ⟨id, -, hid⟩
    exact hnone id hid
  · intro type
    obtain ⟨more, hmore, hnew, -⟩ := henriches.members type
    have hempty : more = [] :=
      List.eq_nil_iff_forall_not_mem.mpr fun id hid => hnone id (hnew id hid)
    rw [hmore, hempty, List.append_nil]
  · intro id _
    exact (henriches.containing id).resolve_right (hnone id)
  · intro id
    exact (henriches.accessors id).resolve_right (hnone id)
  · intro id
    rw [henriches.spans]
  · intro type
    exact ⟨fun htype => (henriches.fresh type htype).resolve_right (hnone type),
      henriches.metadata type⟩
  · rw [h.links]
  · rw [h.members]
  · rw [h.bodies]

end Draft

namespace Building

open Draft

variable {α β : Type} {K : Set Slot}

/-- The step writes links at some slots only. -/
def Writes (K : Set Slot) (step : Building α) : Prop :=
  ∀ d : Draft, Ensures step d fun _ d' => SameLinks K d d'

theorem chains_writes (K : Set Slot) : Chains (Writes K) :=
  chains_of_trans (SameLinks.refl K) SameLinks.trans

theorem writes_modify {f : Draft → Draft} (h : ∀ d, SameLinks K d (f d)) :
    Writes K (modify f : Building PUnit) :=
  fun d => ensures_modify.mpr (h d)

theorem ignoresDeclarations_sameLinks (K : Set Slot) : IgnoresDeclarations (SameLinks K) where
  refl := SameLinks.refl K
  trans := SameLinks.trans
  putType d _ _ _ := { SameLinks.refl K d with }
  putMember d _ _ span := by cases span <;> exact { SameLinks.refl K d with }
  putContaining d _ _ := { SameLinks.refl K d with }
  putAccessors d _ _ _ := { SameLinks.refl K d with }

theorem addMember_writes (type : String) (s : Symbol) (span : Option Span) :
    Writes K (addMember type s span) :=
  (ignoresDeclarations_sameLinks K).addMember type s span

end Building

open Building Draft Tables

variable {K : Set Slot} {d : Draft}

namespace Link

theorem linkSource_writes (type : String) (data : Value) : Writes K (linkSource type data) := by
  have hchains := chains_writes K
  unfold linkSource
  simp only []
  split
  next =>
    refine hchains.after _ (relates_get_bind fun d => ?_)
    split
    next => exact ensures_set.mpr { SameLinks.refl K d with }
    next => exact hchains.refuse _ d
  next => exact hchains.pure _

theorem linkType_writes (type : String) (data : Value) :
    Writes {.type type} (linkType type data) :=
  (ignoresDeclarations_sameLinks _).resolves.linkType
    (fun base => writes_modify fun d => sameLinks_putBase d type base)
    (fun interfaces => writes_modify fun d => sameLinks_putInterfaces d type interfaces)
    (linkSource_writes type) data

/-! ## Members -/

theorem sameLinks_putOverridden_of_mem (d : Draft) {member : String} (hK : .member member ∈ K)
    (target : String) : SameLinks K d (d.putOverridden member target) :=
  (sameLinks_putOverridden d member target).mono (Set.singleton_subset_iff.mpr hK)

theorem sameLinks_linkInherited (d : Draft) {member : Symbol} (hK : .member member.id ∈ K) :
    SameLinks K d (linkInherited member d) := by
  unfold linkInherited
  split
  next target _ => exact sameLinks_putOverridden_of_mem d hK target
  next => exact .refl K d

theorem linkOverridden_writes {member : Symbol} (hK : .member member.id ∈ K) (data : Value) :
    Writes K (linkOverridden member data) :=
  (ignoresDeclarations_sameLinks K).resolves.linkOverridden
    (fun target => writes_modify fun d => sameLinks_putOverridden_of_mem d hK target)
    (writes_modify fun d => sameLinks_linkInherited d hK) data

theorem linkImplementations_writes {member : Symbol} (hK : .member member.id ∈ K) (data : Value) :
    Writes K (linkImplementations member data) :=
  (ignoresDeclarations_sameLinks K).resolves.linkImplementations (fun targets =>
    writes_modify fun d => (sameLinks_putImplementations d _ targets).mono
      (Set.singleton_subset_iff.mpr hK)) data

theorem sameLinks_linkAccessor (d : Draft) {own : Option String}
    (hown : ∀ a ∈ own, .member a ∈ K) (base : Option String) :
    SameLinks K d (linkAccessor d own base) := by
  unfold linkAccessor
  split
  next own target => exact sameLinks_putOverridden_of_mem d (hown own rfl) target
  next => exact .refl K d

/-- The slots under which the links of a member are written: its own and its accessors'. -/
def Covers (K : Set Slot) (d : Draft) (id : String) : Prop :=
  .member id ∈ K ∧ ∀ getter setter, d.accessors.get? id = some (getter, setter) →
    (∀ a ∈ getter, .member a ∈ K) ∧ ∀ a ∈ setter, .member a ∈ K

theorem sameLinks_linkProperty {id : String} (hK : Covers K d id) :
    SameLinks K d (linkProperty d id) := by
  unfold linkProperty
  split
  next target _ =>
    unfold linkAccessors
    cases hget : d.accessors.get? id with
    | none =>
        exact (sameLinks_linkAccessor d (by simp) _).trans (sameLinks_linkAccessor _ (by simp) _)
    | some pair =>
        obtain ⟨hgetter, hsetter⟩ := hK.2 pair.1 pair.2 hget
        exact (sameLinks_linkAccessor d hgetter _).trans (sameLinks_linkAccessor _ hsetter _)
  next => exact .refl K d

theorem linkMember_writes (hd : d.Sound) {id : String} (hknown : KnownMember d.symbols id)
    (hK : Covers K d id) (data : Value) :
    Ensures (linkMember id data) d fun _ e => SameLinks K d e := by
  obtain ⟨member, hmember, hkind⟩ := hknown
  obtain rfl : member.id = id := hd.ids.get? hmember
  unfold linkMember linkOverride
  simp only [ensures_bind, ensures_get]
  rw [hmember]
  simp only [ensures_bind]
  refine ((linkOverridden_evolves hd hkind data).and (linkOverridden_writes hK.1 data d)).imp ?_
  rintro _ d₁ ⟨hevolved, hfirst⟩
  have haccessors := hevolved.enriches.accessors_eq ⟨member, hmember⟩
  have hK₁ : Covers K d₁ member.id := by
    unfold Covers
    rw [haccessors]
    exact hK
  have hproperty : Ensures (if member.kind == .property then
      modify fun d => linkProperty d member.id else pure ()) d₁ fun _ d₂ => SameLinks K d₁ d₂ := by
    split
    next => exact ensures_modify.mpr (sameLinks_linkProperty hK₁)
    next => exact ensures_pure.mpr (.refl K d₁)
  refine hproperty.imp ?_
  intro _ d₂ hsecond
  refine (linkImplementations_writes hK.1 data d₂).imp ?_
  intro _ d₃ hlast
  exact (hfirst.trans hsecond).trans hlast

end Link

theorem Index.readBody_writes (root : String) (pending : PendingBody) :
    Writes {.member pending.method} (readBody root pending) :=
  (ignoresDeclarations_sameLinks _).resolves.readBody
    (fun tree => writes_modify fun d => sameLinks_putBody d pending.method tree) root

end SymbolAtlas
