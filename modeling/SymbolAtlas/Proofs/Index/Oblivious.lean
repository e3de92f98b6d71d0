import SymbolAtlas.Proofs.Index.Following
import SymbolAtlas.Proofs.Index.Pass
import Mathlib.Tactic

/-!
# Steps that do not look at what waits

Types, members and bodies wait in a draft for the later passes, which take them from there.  Apart
from that no step looks at what waits: declaring a member, resolving a name, linking and reading do
the same whatever waits, and leave it waiting.
-/

namespace SymbolAtlas
namespace Draft

/-- What waits in a draft for the later passes. -/
structure Deferred where
  links : List (String × Value)
  members : List (String × Value)
  bodies : List PendingBody

def deferred (d : Draft) : Deferred :=
  ⟨d.pendingLinks, d.pendingMembers, d.pendingBodies⟩

/-- The draft with something else waiting in it. -/
def holding (d : Draft) (w : Deferred) : Draft :=
  { d with pendingLinks := w.links, pendingMembers := w.members, pendingBodies := w.bodies }

/-- Two drafts that differ at most in what waits, by a relation. -/
def HoldsRelated (R : Deferred → Deferred → Prop) (d d' : Draft) : Prop :=
  ∃ w, d' = d.holding w ∧ R d.deferred w

variable {d : Draft} {w : Deferred}

theorem holding_deferred (d : Draft) : d.holding d.deferred = d :=
  rfl

theorem deferred_holding (d : Draft) (w : Deferred) : (d.holding w).deferred = w :=
  rfl

theorem toTables_holding (d : Draft) (w : Deferred) : (d.holding w).toTables = d.toTables :=
  rfl

theorem putSpan_holding (id : String) (span : Option Span) :
    (d.holding w).putSpan id span = (d.putSpan id span).holding w := by
  cases span <;> rfl

theorem putMember_holding (type : String) (s : Symbol) (span : Option Span) :
    (d.holding w).putMember type s span = (d.putMember type s span).holding w := by
  cases span <;> rfl

end Draft

namespace Building

open Draft

variable {α β : Type} {d : Draft} {step : Building α}

/-- The step does the same whatever waits in the draft, and leaves it waiting. -/
def Oblivious (step : Building α) : Prop :=
  ∀ d w, step (d.holding w) = (step d).map (Prod.map id (·.holding w))

theorem oblivious_modify {f : Draft → Draft} (h : ∀ d w, f (d.holding w) = (f d).holding w) :
    Oblivious (modify f : Building PUnit) := by
  intro d w
  change Except.ok (PUnit.unit, f (d.holding w)) = _
  rw [h]
  rfl

/-- A step that looks at the draft first, though not at what waits. -/
theorem oblivious_get_bind {next : Draft → Building α}
    (hsame : ∀ d w, next (d.holding w) = next d) (hnext : ∀ d, Oblivious (next d)) :
    Oblivious (get >>= next) := by
  intro d w
  rw [get_bind_run, get_bind_run, hsame]
  exact hnext d d w

theorem chains_oblivious : Chains Oblivious where
  pure _ _ _ := rfl
  lift x d w := by cases x <;> rfl
  bind {_ _ step next} hstep hnext d w := by
    change (step (d.holding w) >>= fun (a, e) => next a e) =
      (step d >>= fun (a, e) => next a e).map _
    rw [hstep d w]
    cases step d with
    | error fault => rfl
    | ok result => exact hnext result.1 result.2 w

/-- What waits is the same behind an oblivious step. -/
theorem Oblivious.deferred_eq (h : Oblivious step) {a : α} {e : Draft}
    (hrun : step d = .ok (a, e)) : e.deferred = d.deferred := by
  have hself := h d d.deferred
  rw [holding_deferred, hrun] at hself
  have heq : e = e.holding d.deferred := congrArg Prod.snd (Except.ok.inj hself)
  rw [heq, deferred_holding]

/-- An oblivious step does the same on drafts in which different things wait. -/
theorem Oblivious.agree (h : Oblivious step) {R : Deferred → Deferred → Prop} :
    AgreeOn (HoldsRelated R) Eq step step := by
  rintro d d' ⟨w, rfl, hwaits⟩
  rw [h d w]
  cases hrun : step d with
  | error fault => exact .error fault
  | ok result => exact .ok ⟨rfl, w, rfl, h.deferred_eq hrun ▸ hwaits⟩

theorem addMember_oblivious (type : String) (s : Symbol) (span : Option Span) :
    Oblivious (addMember type s span) := by
  intro d w
  unfold addMember
  rw [get_bind_run, get_bind_run]
  change (refuseIf (d.symbols.contains s.id) _ >>= fun _ => set _ : Building Unit) _ = _
  cases d.symbols.contains s.id with
  | true => rfl
  | false => exact congrArg (fun e => Except.ok ((), e)) (putMember_holding type s span)

end Building

open Building Draft

theorem Declaration.ensureType_oblivious (qualified : String) (kind : TypeKind) :
    Oblivious (ensureType qualified kind) := by
  intro d w
  unfold ensureType
  rw [get_bind_run, get_bind_run, toTables_holding]
  cases d.typeNames.get? qualified <;> rfl

theorem Draft.sameNames_holding (d : Draft) (w : Deferred) : d.SameNames (d.holding w) :=
  ⟨fun _ => rfl, fun _ => rfl, fun _ => rfl, fun _ => rfl⟩

theorem Building.resolves_oblivious : Resolves Oblivious where
  chains := chains_oblivious
  look hsame := oblivious_get_bind fun d w => hsame d _ (sameNames_holding d w)
  ensureType := Declaration.ensureType_oblivious
  addMember type s := addMember_oblivious type s none
  putContaining _ _ := oblivious_modify fun _ _ => rfl
  putAccessors _ _ _ := oblivious_modify fun _ _ => rfl

/-! ## Links -/

namespace Link

theorem linkSource_oblivious (type : String) (data : Value) :
    Oblivious (linkSource type data) := by
  unfold linkSource
  simp only []
  split
  next =>
    refine chains_oblivious.after _ fun d w => ?_
    rw [get_bind_run, get_bind_run, toTables_holding]
    cases d.typeNames.get? _ <;> rfl
  next => exact chains_oblivious.pure _

theorem linkType_oblivious (type : String) (data : Value) : Oblivious (linkType type data) :=
  resolves_oblivious.linkType (fun _ => oblivious_modify fun _ _ => rfl)
    (fun _ => oblivious_modify fun _ _ => rfl) (linkSource_oblivious type) data

theorem linkInherited_holding (d : Draft) (w : Deferred) (member : Symbol) :
    linkInherited member (d.holding w) = (linkInherited member d).holding w := by
  unfold linkInherited
  rw [toTables_holding]
  cases inherited? d.toTables member <;> rfl

theorem linkAccessor_holding (d : Draft) (w : Deferred) (own base : Option String) :
    linkAccessor (d.holding w) own base = (linkAccessor d own base).holding w := by
  unfold linkAccessor
  split <;> rfl

theorem linkProperty_holding (d : Draft) (w : Deferred) (property : String) :
    linkProperty (d.holding w) property = (linkProperty d property).holding w := by
  have hlinks : ∀ target, linkAccessors (d.holding w) property target =
      (linkAccessors d property target).holding w := by
    intro target
    change linkAccessor (linkAccessor (d.holding w) _ _) _ _ = _
    rw [linkAccessor_holding, linkAccessor_holding]
    rfl
  unfold linkProperty
  rw [toTables_holding]
  cases d.overridden.get? property with
  | none => rfl
  | some target => exact hlinks target

theorem linksMember_oblivious (member : Symbol) : LinksMember member Oblivious where
  putOverridden _ := oblivious_modify fun _ _ => rfl
  linkInherited := oblivious_modify fun d w => linkInherited_holding d w member
  linkProperty := oblivious_modify fun d w => linkProperty_holding d w member.id
  putImplementations _ := oblivious_modify fun _ _ => rfl

theorem linkMember_oblivious (id : String) (data : Value) : Oblivious (linkMember id data) :=
  resolves_oblivious.linkMember linksMember_oblivious id data

end Link

/-! ## Bodies, references and files -/

namespace Index

theorem readBody_oblivious (root : String) (pending : PendingBody) :
    Oblivious (readBody root pending) :=
  resolves_oblivious.readBody (fun _ => oblivious_modify fun _ _ => rfl) root

theorem foldl_addSourceFile_holding (disk : Disk) (d : Draft) (w : Deferred)
    (files : List String) :
    files.foldl (addSourceFile disk) (d.holding w) =
      (files.foldl (addSourceFile disk) d).holding w := by
  induction files generalizing d with
  | nil => rfl
  | cons file rest ih =>
      have hfirst : addSourceFile disk (d.holding w) file =
          (addSourceFile disk d file).holding w := by
        unfold addSourceFile
        rw [toTables_holding]
        split
        next => rfl
        next => cases disk.read? file <;> rfl
      rw [List.foldl_cons, hfirst, ih, List.foldl_cons]

theorem readEnd_oblivious (disk : Disk) (root : String) (data : Value) :
    Oblivious (readEnd disk root data) :=
  resolves_oblivious.readEnd (fun _ _ => oblivious_modify fun _ _ => rfl)
    (fun _ _ => oblivious_modify fun _ _ => rfl)
    (oblivious_modify fun d w => foldl_addSourceFile_holding disk d w _) root data

end Index
end SymbolAtlas
