import SymbolAtlas.Proofs.Index.Build
import SymbolAtlas.Proofs.Respelling.Body
import SymbolAtlas.Proofs.Respelling.Declaration
import Mathlib.Tactic

/-!
# Reading a respelled document

If a document can be read then so can every respelling of it, and the tables of the two resemble
each other.  The passes go through both documents side by side: the types declared, what they put
off, and the references name by name.
-/

namespace SymbolAtlas
namespace Index

open Building Draft

variable {data other : Value}

/-! ## Links and bodies -/

theorem linkTypes_follow {pending pending' : List (String × Value)}
    (h : List.Forall₂ SimilarPending pending pending') :
    Follows Eq (forEach (fun (id, data) => Link.linkType id data) pending)
      (forEach (fun (id, data) => Link.linkType id data) pending') := by
  refine forEach_follows ?_ h
  rintro ⟨_, data⟩ ⟨id, data'⟩ ⟨rfl, hdata⟩
  exact Link.linkType_follows hdata id

theorem linkMembers_follow {pending pending' : List (String × Value)}
    (h : List.Forall₂ SimilarPending pending pending') :
    Follows Eq (forEach (fun (id, data) => Link.linkMember id data) pending)
      (forEach (fun (id, data) => Link.linkMember id data) pending') := by
  refine forEach_follows ?_ h
  rintro ⟨_, data⟩ ⟨id, data'⟩ ⟨rfl, hdata⟩
  exact Link.linkMember_follows hdata id

theorem readBody_follows (root : String) (pending : PendingBody) :
    Follows Eq (readBody root pending) (readBody root pending) := by
  unfold readBody
  apply follows_get.bind
  intro d d' hd
  rcases hd.symbols.get?_cases pending.method with
    ⟨hnone, -⟩ | ⟨method, method', hmethod, hother, -⟩
  · rw [hnone]
    exact follows_throw _ _
  · rw [hmethod, hother]
    have hplace : Body.Place.Similar ⟨root, pending.file, "body of " ++ method.display⟩
        ⟨root, pending.file, "body of " ++ method'.display⟩ := ⟨rfl, rfl⟩
    apply (Body.read_follows hplace pending.body).bind
    intro tree tree' htree
    exact follows_modify fun d d' hd => hd.putBody _ htree

/-! ## References and files -/

theorem referencedId_follows (name : String) :
    Follows Eq (referencedId name) (referencedId name) := by
  unfold referencedId
  apply follows_get.bind
  intro d d' hd
  rw [hd.typeNames]
  split
  next => exact follows_pure rfl
  next =>
    apply (MemberName.resolve_follows _ _ _ _ _).bind
    intro symbol symbol' hsymbol
    exact follows_pure hsymbol.id.symm

theorem readReferences_follows (root : String) (entry : Value) :
    Follows Eq (readReferences root entry) (readReferences root entry) := by
  unfold readReferences
  apply (follows_refuseIf _ _ _).bind_same
  intro _
  apply (follows_lift_same _).bind_same
  intro given
  refine FollowsOn.after ?_ _
  apply (referencedId_follows _).bind_same
  intro id
  apply (follows_lift_same _).bind_same
  intro items
  apply (forAll_follows_eq (fun item => follows_lift_same _) items).bind_same
  intro locations
  exact follows_modify fun d d' hd => hd.putReferences id locations

theorem readFiles_follows (h : RespelledDocument data other) (root : String) :
    Follows Eq (readFiles root data) (readFiles root other) := by
  unfold readFiles
  rw [h.field_eq (by decide)]
  apply (follows_lift_same _).bind_same
  intro entries
  apply forEach_follows_same
  intro entry
  refine FollowsOn.after (FollowsOn.after ?_ _) _
  exact follows_modify fun d d' hd => hd.withSourceLines _ _

/-! ## Documents -/

theorem readDocument_follows (h : RespelledDocument data other) (disk : Disk) (root : String) :
    Follows Eq (readDocument disk root data) (readDocument disk root other) := by
  unfold readDocument
  rw [h.field_eq (by decide)]
  apply (follows_lift (typesOf_agree h.agreeEach_field fun type => .same type).follows).bind
  intro types types' htypes
  refine FollowsOn.bind_same
    (forEach_follows (fun type type' htype => Declaration.declareType_follows root htype)
      htypes) ?_
  intro _
  apply follows_get.bind
  intro d₁ d₁' hd₁
  apply (linkTypes_follow hd₁.pendingLinks).bind_same
  intro _
  apply follows_get.bind
  intro d₂ d₂' hd₂
  apply (linkMembers_follow hd₂.pendingMembers).bind_same
  intro _
  apply follows_get.bind
  intro d₃ d₃' hd₃
  rw [hd₃.pendingBodies]
  apply (forEach_follows_same (readBody_follows root) _).bind_same
  intro _
  apply (follows_lift_same _).bind_same
  intro entries
  apply (forEach_follows_same (readReferences_follows root) _).bind_same
  intro _
  apply (readFiles_follows h root).bind_same
  intro _
  apply follows_modify
  intro d d' hd
  obtain ⟨lines, hlines⟩ := foldl_addSourceFile_eq disk (mentionedFiles d.toTables) d
  obtain ⟨lines', hlines'⟩ := foldl_addSourceFile_eq disk (mentionedFiles d'.toTables) d'
  rw [hlines, hlines']
  exact hd.withSourceLines lines lines'

/-- A respelling of a document that can be read can be read as well, into tables that resemble
those of the document. -/
theorem tables_follow (h : RespelledDocument data other) (disk : Disk) (root : String) :
    Attempt.Follows Tables.Resembles (tables disk root data) (tables disk root other) := by
  unfold tables
  rw [h.isMapping]
  split
  next =>
    intro t ht
    cases hrun : readDocument disk root data Draft.empty with
    | error fault =>
        rw [hrun] at ht
        cases ht
    | ok result =>
        rw [hrun] at ht
        cases ht
        have hfollows := readDocument_follows h disk root Draft.empty Draft.empty .empty
        obtain ⟨b, e', hother, -, he⟩ := hfollows result.1 result.2 hrun
        refine ⟨e'.toTables, ?_, he.toResembles⟩
        rw [hother]
        rfl
  next => exact Attempt.follows_error _ _

end Index
end SymbolAtlas
