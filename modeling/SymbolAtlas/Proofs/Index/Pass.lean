import SymbolAtlas.Proofs.Index.Chain
import SymbolAtlas.Proofs.Index.Metadata
import Mathlib.Tactic

/-!
# Conditions on the passes behind the first

These passes look names up, declare metadata where a name stands for nothing else, and write links
under one type or one member at a time.  A condition that these steps satisfy is satisfied by the
links, the bodies and the references of a whole document.
-/

namespace SymbolAtlas
namespace Draft

/-- Names stand for the same in both drafts. -/
structure SameNames (d d' : Draft) : Prop where
  typeNames : ∀ name, d'.typeNames.get? name = d.typeNames.get? name
  symbols : ∀ id, d'.symbols.get? id = d.symbols.get? id
  membersOf : ∀ type, d'.membersOf type = d.membersOf type
  metadata : ∀ type, d'.metadataTypes.contains type = d.metadataTypes.contains type

end Draft

/-- A draft with a link from a member to the one that it inherits, if there is one. -/
def Link.linkInherited (member : Symbol) (d : Draft) : Draft :=
  match Link.inherited? d.toTables member with
  | some target => d.putOverridden member.id target
  | none => d

namespace Building

/-- What the resolution of names consists of satisfies the condition. -/
structure Resolves (P : ∀ {α : Type}, Building α → Prop) : Prop where
  chains : Chains P
  /-- A step that looks names up first. -/
  look : ∀ {α : Type} {next : Draft → Building α},
    (∀ d d', d.SameNames d' → next d' = next d) → (∀ d, P (next d)) → P (get >>= next)
  ensureType : ∀ qualified kind, P (Declaration.ensureType qualified kind)
  addMember : ∀ type s, P (addMember type s none)
  putContaining : ∀ id container,
    P (modify fun d => d.putContaining id container : Building PUnit)
  putAccessors : ∀ property getter setter,
    P (modify fun d => d.putAccessors property getter setter : Building PUnit)

/-- The links that a member may bring in satisfy the condition. -/
structure LinksMember (member : Symbol) (P : ∀ {α : Type}, Building α → Prop) : Prop where
  putOverridden : ∀ target,
    P (modify fun d => d.putOverridden member.id target : Building PUnit)
  linkInherited : P (modify (Link.linkInherited member) : Building PUnit)
  linkProperty : P (modify fun d => Link.linkProperty d member.id : Building PUnit)
  putImplementations : ∀ targets,
    P (modify fun d => d.putImplementations member.id targets : Building PUnit)

variable {P : ∀ {α : Type}, Building α → Prop}

namespace Resolves

variable (h : Resolves P)

include h

theorem addMetadataAccessor (type property accessor : Symbol) :
    P (MemberName.addMetadataAccessor type property accessor) :=
  h.chains.bind (h.addMember _ _) fun _ => h.putContaining _ _

theorem declareMetadata (type : Symbol) (qualified name : String) (list : Option String)
    (kind : SymbolKind) (arguments : Option Nat) :
    P (MemberName.declareMetadata type qualified name list kind arguments) := by
  unfold MemberName.declareMetadata
  split
  next => exact h.chains.bind (h.addMember _ _) fun _ => h.chains.pure _
  next =>
    refine h.chains.bind (h.addMember _ _) fun _ => ?_
    split
    next =>
      refine h.chains.bind ?_ fun _ => h.chains.pure _
      refine h.chains.bind (h.addMetadataAccessor type _ _) fun _ => ?_
      exact h.chains.bind (h.addMetadataAccessor type _ _) fun _ => h.putAccessors _ _ _
    next => exact h.chains.pure _

theorem resolve (reference place : String) (kind : Option SymbolKind) (arguments : Option Nat) :
    P (MemberName.resolve reference place kind arguments) := by
  unfold MemberName.resolve
  simp only []
  split
  next => exact h.chains.refuse _
  next typeName name _ =>
    refine h.chains.bind (h.ensureType typeName .classType) fun type => h.look ?_ fun d => ?_
    · intro d d' hd
      simp only [hd.membersOf, hd.metadata, hd.symbols]
    split
    next => exact h.chains.pure _
    next => exact h.chains.refuse _
    next =>
      split
      next =>
        split
        next => exact h.declareMetadata _ _ _ _ _ _
        next => exact h.chains.throw _
      next => exact h.chains.refuse _

/-! ## Links -/

theorem linkBase {type : String}
    (hput : ∀ base, P (modify fun d => d.putBase type base : Building PUnit)) (data : Value) :
    P (Link.linkBase type data) := by
  unfold Link.linkBase
  simp only []
  split
  next => exact h.chains.after _ (h.chains.bind (h.ensureType _ _) hput)
  next => exact h.chains.pure _

theorem ensureInterface (name : Value) : P (Link.ensureInterface name) :=
  h.chains.after _ (h.ensureType _ _)

theorem linkInterfaces {type : String}
    (hput : ∀ interfaces, P (modify fun d => d.putInterfaces type interfaces : Building PUnit))
    (data : Value) : P (Link.linkInterfaces type data) := by
  unfold Link.linkInterfaces
  refine h.chains.bind (h.chains.lift _) fun items => ?_
  refine h.chains.bind (h.chains.forAll h.ensureInterface items) fun interfaces => ?_
  split
  next => exact h.chains.pure _
  next => exact hput _

theorem linkType {type : String}
    (hbase : ∀ base, P (modify fun d => d.putBase type base : Building PUnit))
    (hinterfaces : ∀ interfaces,
      P (modify fun d => d.putInterfaces type interfaces : Building PUnit))
    (hsource : ∀ data, P (Link.linkSource type data)) (data : Value) :
    P (Link.linkType type data) :=
  h.chains.bind (h.linkBase hbase data) fun _ =>
    h.chains.bind (h.linkInterfaces hinterfaces data) fun _ => hsource data

theorem linkOverridden {member : Symbol}
    (hput : ∀ target, P (modify fun d => d.putOverridden member.id target : Building PUnit))
    (hinherited : P (modify (Link.linkInherited member) : Building PUnit)) (data : Value) :
    P (Link.linkOverridden member data) := by
  unfold Link.linkOverridden
  simp only []
  split
  next => exact h.chains.after _ (h.chains.bind (h.resolve _ _ _ _) fun _ => hput _)
  next =>
    split
    next => exact hinherited
    next => exact h.chains.pure _

theorem implemented (member : Symbol) (name : Value) : P (Link.implemented member name) :=
  h.chains.after _ (h.resolve _ _ _ _)

theorem linkImplementations {member : Symbol}
    (hput : ∀ targets,
      P (modify fun d => d.putImplementations member.id targets : Building PUnit))
    (data : Value) : P (Link.linkImplementations member data) := by
  unfold Link.linkImplementations
  simp only []
  split
  next =>
    exact h.chains.bind (h.chains.forAll (h.implemented member) _) fun _ => hput _
  next => exact h.chains.pure _

/-- Everything in the links of a member but the look at the member itself. -/
theorem linkFound {member : Symbol} (hlinks : LinksMember member P) (data : Value) : P (do
    Link.linkOverride member data
    Link.linkImplementations member data) := by
  refine h.chains.bind ?_ fun _ => h.linkImplementations hlinks.putImplementations data
  refine h.chains.bind ?_ fun _ => ?_
  · exact h.linkOverridden hlinks.putOverridden hlinks.linkInherited data
  split
  next => exact hlinks.linkProperty
  next => exact h.chains.pure _

theorem linkMember (hlinks : ∀ member, LinksMember member P) (id : String) (data : Value) :
    P (Link.linkMember id data) := by
  refine h.look ?_ fun d => ?_
  · intro d d' hd
    simp only [hd.symbols]
  split
  next => exact h.chains.throw _
  next member _ => exact h.linkFound (hlinks member) data

/-! ## Bodies, references and files -/

theorem body (place : Body.Place) (node : Value) : P (Body.read place node) :=
  Body.read_of_chains h.chains (fun reference place kind arguments _ =>
    h.resolve reference place kind arguments) place node

theorem readBody {pending : PendingBody}
    (hput : ∀ tree, P (modify fun d => d.putBody pending.method tree : Building PUnit))
    (root : String) : P (Index.readBody root pending) := by
  refine h.look ?_ fun d => ?_
  · intro d d' hd
    simp only [hd.symbols]
  split
  next => exact h.chains.throw _
  next => exact h.chains.bind (h.body _ _) hput

theorem referencedId (name : String) : P (Index.referencedId name) := by
  refine h.look ?_ fun d => ?_
  · intro d d' hd
    simp only [hd.typeNames]
  split
  next => exact h.chains.pure _
  next => exact h.chains.bind (h.resolve _ _ _ _) fun _ => h.chains.pure _

theorem readReferences
    (hput : ∀ id locations, P (modify fun d => d.putReferences id locations : Building PUnit))
    (root : String) (entry : Value) : P (Index.readReferences root entry) := by
  unfold Index.readReferences
  refine h.chains.bind (h.chains.refuseIf _ _) fun _ => ?_
  refine h.chains.bind (h.chains.lift _) fun given => h.chains.after _ ?_
  refine h.chains.bind (h.referencedId _) fun id => ?_
  refine h.chains.bind (h.chains.lift _) fun items => ?_
  exact h.chains.bind (h.chains.forAll (fun _ => h.chains.lift _) items) fun _ => hput _ _

theorem readFiles
    (hput : ∀ file lines, P (modify fun d => d.putSourceLines file lines : Building PUnit))
    (root : String) (data : Value) : P (Index.readFiles root data) := by
  unfold Index.readFiles
  refine h.chains.bind (h.chains.lift _) fun files => ?_
  exact h.chains.forEach (fun _ => h.chains.after _ (h.chains.after _ (hput _ _))) files

theorem readEnd {disk : Disk}
    (hreferences : ∀ id locations,
      P (modify fun d => d.putReferences id locations : Building PUnit))
    (hfiles : ∀ file lines, P (modify fun d => d.putSourceLines file lines : Building PUnit))
    (hsources : P (modify fun d =>
      (Index.mentionedFiles d.toTables).foldl (Index.addSourceFile disk) d : Building PUnit))
    (root : String) (data : Value) : P (Index.readEnd disk root data) := by
  unfold Index.readEnd Index.readSources
  refine h.chains.bind (h.chains.lift _) fun entries => ?_
  refine h.chains.bind (h.chains.forEach (h.readReferences hreferences root) entries) fun _ => ?_
  exact h.chains.bind (h.readFiles hfiles root data) fun _ => hsources

end Resolves
end Building
end SymbolAtlas
