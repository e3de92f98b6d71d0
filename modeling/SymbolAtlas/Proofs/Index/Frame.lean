import SymbolAtlas.Proofs.Index.Entry
import SymbolAtlas.Proofs.Index.Pass
import Mathlib.Tactic

/-!
# What declarations and links leave alone

The resolution of a name declares metadata at most, and the links of types and members write into
tables of their own.  A relation between drafts that is about other parts holds across all of these
steps as soon as it holds across the few changes that they consist of.
-/

namespace SymbolAtlas
namespace Draft

/-- A relation about parts of a draft that no declaration touches. -/
structure IgnoresDeclarations (R : Draft → Draft → Prop) : Prop where
  refl : ∀ d, R d d
  trans : ∀ {d d' d''}, R d d' → R d' d'' → R d d''
  putType : ∀ d name s isMetadata, R d (d.putType name s isMetadata)
  putMember : ∀ d type s span, R d (d.putMember type s span)
  putContaining : ∀ d id container, R d (d.putContaining id container)
  putAccessors : ∀ d property getter setter, R d (d.putAccessors property getter setter)

/-- A relation about parts of a draft that no entry of a type touches. -/
structure IgnoresEntries (R : Draft → Draft → Prop) : Prop extends IgnoresDeclarations R where
  putSpan : ∀ d id span, R d (d.putSpan id span)
  deferLink : ∀ d type data, R d (d.deferLink type data)
  deferMember : ∀ d member data, R d (d.deferMember member data)
  deferBody : ∀ d method file data, R d (d.deferBody method file data)

/-- A relation about parts of a draft that neither declarations nor links to overridden members
touch. -/
structure IgnoresOverrides (R : Draft → Draft → Prop) : Prop extends IgnoresDeclarations R where
  overrides : ∀ (d : Draft) (overridden : Table String), R d { d with overridden }

/-- A relation about parts of a draft that neither declarations nor the links of members touch. -/
structure IgnoresMemberLinks (R : Draft → Draft → Prop) : Prop extends IgnoresOverrides R where
  implementations : ∀ (d : Draft) (explicitImplementations : Table (List String)),
    R d { d with explicitImplementations }

/-- A relation about parts of a draft that neither declarations nor links touch. -/
structure IgnoresLinks (R : Draft → Draft → Prop) : Prop extends IgnoresDeclarations R where
  links : ∀ (d : Draft) (baseTypes : Table String) (declaredInterfaces : Table (List String))
    (sourceDefinitions overridden : Table String) (explicitImplementations : Table (List String)),
    R d { d with baseTypes, declaredInterfaces, sourceDefinitions, overridden,
                 explicitImplementations }

end Draft

namespace Building

open Draft

variable {α β : Type} {R : Draft → Draft → Prop}

/-- The step leads from every draft to a related one. -/
def Relates (R : Draft → Draft → Prop) (step : Building α) : Prop :=
  ∀ d : Draft, Ensures step d fun _ d' => R d d'

theorem relates_modify {f : Draft → Draft} (h : ∀ d, R d (f d)) :
    Relates R (modify f : Building PUnit) :=
  fun d => ensures_modify.mpr (h d)

/-- A step that looks at the draft first. -/
theorem relates_get_bind {next : Draft → Building β}
    (h : ∀ d, Ensures (next d) d fun _ d' => R d d') : Relates R (get >>= next) := by
  intro d
  rw [ensures_bind, ensures_get]
  exact h d

end Building

namespace Draft.IgnoresDeclarations

open Building

variable {R : Draft → Draft → Prop} (h : IgnoresDeclarations R)

include h

theorem chains : Chains (Relates R) :=
  chains_of_trans h.refl h.trans

theorem addMember (type : String) (s : Symbol) (span : Option Span) :
    Relates R (addMember type s span) := by
  refine relates_get_bind ?_
  intro d
  simp only [ensures_bind, ensures_refuseIf, ensures_set]
  intro _
  exact h.putMember d type s span

theorem ensureType (qualified : String) (kind : TypeKind) :
    Relates R (Declaration.ensureType qualified kind) := by
  refine relates_get_bind ?_
  intro d
  split
  next => exact h.chains.pure _ d
  next =>
    simp only [ensures_bind, ensures_set, ensures_pure]
    exact h.putType d _ _ _

theorem resolves : Resolves (Relates R) where
  chains := h.chains
  look _ hnext := relates_get_bind fun d => hnext d d
  ensureType := h.ensureType
  addMember type s := h.addMember type s none
  putContaining id container := relates_modify fun d => h.putContaining d id container
  putAccessors property getter setter :=
    relates_modify fun d => h.putAccessors d property getter setter

theorem foldl_addSourceFile (hput : ∀ d file lines, R d (d.putSourceLines file lines))
    (disk : Disk) (d : Draft) (files : List String) :
    R d (files.foldl (Index.addSourceFile disk) d) := by
  refine List.foldlRecOn (motive := R d) files _ (h.refl d) ?_
  intro d' hbefore file _
  refine h.trans hbefore ?_
  unfold Index.addSourceFile
  split
  next => exact h.refl d'
  next =>
    split
    next => exact hput d' _ _
    next => exact h.refl d'

theorem readEnd (hreferences : ∀ d id locations, R d (d.putReferences id locations))
    (hsources : ∀ d file lines, R d (d.putSourceLines file lines)) (disk : Disk) (root : String)
    (data : Value) : Relates R (Index.readEnd disk root data) :=
  h.resolves.readEnd (fun id locations => relates_modify fun d => hreferences d id locations)
    (fun file lines => relates_modify fun d => hsources d file lines)
    (relates_modify fun d => h.foldl_addSourceFile hsources disk d _) root data

end Draft.IgnoresDeclarations

namespace Draft.IgnoresEntries

open Building Declaration

variable {R : Draft → Draft → Prop} (h : IgnoresEntries R)

include h

theorem declares (owner : Owner) : DeclaresContents owner (fun _ => True) (Relates R) where
  chains := h.chains
  addMember s span _ := h.addMember _ s span
  putContaining id container data _ := relates_modify fun d =>
    h.trans (h.putContaining d id container) (h.deferBody _ id owner.file data)
  putAccessors property getter setter :=
    relates_modify fun d => h.putAccessors d property getter setter
  deferBody method data := relates_modify fun d => h.deferBody d method owner.file data
  deferMember member data := relates_modify fun d => h.deferMember d member data
  membersOf := relates_get_bind fun d => ensures_pure.mpr (h.refl d)
  putSpan span := relates_modify fun d => h.putSpan d _ span
  nest := relates_modify fun d => by
    split
    next =>
      split
      next => exact h.putContaining d _ _
      next => exact h.refl d
    next => exact h.refl d
  deferLink data := relates_modify fun d => h.deferLink d _ data

theorem declareType (root : String) (entry : Value) :
    Relates R (Declaration.declareType root entry) := by
  rintro d ⟨⟩ e hrun
  obtain ⟨kind, location, modifiers, -, -, hbody⟩ := declareType_eq_ok.mp hrun
  have hput : R d (Declaration.headed entry kind location modifiers d) := h.putType d _ _ _
  exact h.trans hput ((h.declares _).declareContents (namesMembers_of_any fun _ => trivial)
    location _ _ _ _ hbody)

end Draft.IgnoresEntries

namespace Draft.IgnoresOverrides

open Building

variable {R : Draft → Draft → Prop} (h : IgnoresOverrides R)

include h

theorem linkAccessor (d : Draft) (own base : Option String) :
    R d (Link.linkAccessor d own base) := by
  unfold Link.linkAccessor
  split
  next => exact h.overrides d _
  next => exact h.refl d

theorem linkProperty (d : Draft) (property : String) : R d (Link.linkProperty d property) := by
  unfold Link.linkProperty Link.linkAccessors
  split
  next => exact h.trans (h.linkAccessor d _ _) (h.linkAccessor _ _ _)
  next => exact h.refl d

theorem linkInherited (d : Draft) (member : Symbol) : R d (Link.linkInherited member d) := by
  unfold Link.linkInherited
  split
  next => exact h.overrides d _
  next => exact h.refl d

theorem linksMember {member : Symbol}
    (hput : ∀ d targets, R d (d.putImplementations member.id targets)) :
    LinksMember member (Relates R) where
  putOverridden _ := relates_modify fun d => h.overrides d _
  linkInherited := relates_modify fun d => h.linkInherited d member
  linkProperty := relates_modify fun d => h.linkProperty d member.id
  putImplementations targets := relates_modify fun d => hput d targets

end Draft.IgnoresOverrides

theorem Draft.IgnoresMemberLinks.linkMember {R : Draft → Draft → Prop} (h : IgnoresMemberLinks R)
    (id : String) (data : Value) : Building.Relates R (Link.linkMember id data) :=
  h.resolves.linkMember (fun _ => h.linksMember fun d _ => h.implementations d _) id data

namespace Draft.IgnoresLinks

open Building

variable {R : Draft → Draft → Prop} (h : IgnoresLinks R)

include h

theorem ignoresMemberLinks : IgnoresMemberLinks R where
  toIgnoresDeclarations := h.toIgnoresDeclarations
  overrides d _ := h.links d d.baseTypes d.declaredInterfaces d.sourceDefinitions _ _
  implementations d _ := h.links d d.baseTypes d.declaredInterfaces d.sourceDefinitions _ _

theorem linkSource (type : String) (data : Value) : Relates R (Link.linkSource type data) := by
  unfold Link.linkSource
  simp only []
  split
  next =>
    refine h.chains.after _ (relates_get_bind fun d => ?_)
    split
    next => exact ensures_set.mpr (h.links d _ _ _ _ _)
    next => exact h.chains.refuse _ d
  next => exact h.chains.pure _

theorem linkType (type : String) (data : Value) : Relates R (Link.linkType type data) :=
  h.resolves.linkType (fun _ => relates_modify fun d => h.links d _ _ _ _ _)
    (fun _ => relates_modify fun d => h.links d _ _ _ _ _) (h.linkSource type) data

theorem linkMember (id : String) (data : Value) : Relates R (Link.linkMember id data) :=
  h.ignoresMemberLinks.linkMember id data

end Draft.IgnoresLinks
end SymbolAtlas
