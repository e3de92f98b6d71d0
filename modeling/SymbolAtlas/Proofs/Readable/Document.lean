import SymbolAtlas.Proofs.Index.Advance
import SymbolAtlas.Proofs.Index.Build
import SymbolAtlas.Proofs.Readable.Body
import Mathlib.Tactic

/-!
# Readable documents

A document is readable if its types, their members with their accessors and bodies, its references
and its files are, and if its own name can be written.  What the first pass puts off is readable as
well, and by then every name that is put off stands for a known symbol, so that the later passes
only refuse what is wrong with the document.
-/

namespace SymbolAtlas

namespace Link

def typeIsReadable (data : Value) : Bool :=
  data.hasWritable ["base", "source_definition"] &&
    (data.field "interfaces").lists Value.isWritable

def memberIsReadable (data : Value) : Bool :=
  data.hasWritable ["overrides", "implements"]

end Link

namespace Declaration

open Building

def accessorIsReadable (data : Value) (keyword : String) : Bool :=
  match accessorData? data keyword with
  | some accessor => Entry.isPlaced accessor && Body.isReadable (accessor.field "body")
  | none => true

def bodiesAreReadable (data : Value) : Bool :=
  Body.isReadable (data.field "body") && accessorIsReadable data "get" &&
    accessorIsReadable data "set"

def signatureIsReadable (data : Value) : Bool :=
  data.hasWritable ["kind", "access", "name", "type", "returns"] &&
    (data.field "modifiers").lists Value.isWritable &&
      (data.field "parameters").lists Entry.parameterIsReadable

/-- The place of a member of a metadata type is not looked at. -/
def memberIsReadable (isMetadata : Bool) (data : Value) : Bool :=
  signatureIsReadable data && bodiesAreReadable data && Link.memberIsReadable data &&
    (isMetadata || Entry.isPlaced data)

def typeIsReadable (data : Value) : Bool :=
  let isMetadata := (data.field "metadata").isPresent
  data.hasWritable ["name", "kind", "access"] &&
    (data.field "modifiers").lists Value.isWritable && Link.typeIsReadable data &&
      (isMetadata || Entry.isPlaced data) &&
        (data.field "members").lists (memberIsReadable isMetadata)

end Declaration

namespace Index

def referenceIsReadable (entry : Value) : Bool :=
  (entry.field "symbol").isWritable &&
    (entry.field "locations").lists Entry.locationIsReadable

/-- The texts of files come in a mapping, or there are none. -/
def filesAreReadable (files : Value) : Bool :=
  !files.isPresent || files.isMapping && files.isWritable

def isReadable (data : Value) : Bool :=
  (match data.field "types" with
    | .list types => types.all Declaration.typeIsReadable
    | _ => true) &&
      (data.field "references").lists referenceIsReadable &&
        filesAreReadable (data.field "files") && (data.field "name").isWritable

end Index

/-- What has been put off can be read. -/
structure Draft.Readable (d : Draft) : Prop where
  links : ∀ pending ∈ d.pendingLinks, Link.typeIsReadable pending.2 = true
  members : ∀ pending ∈ d.pendingMembers, Link.memberIsReadable pending.2 = true
  bodies : ∀ pending ∈ d.pendingBodies, Body.isReadable pending.body = true

namespace Draft

variable {d : Draft}

/-- What has been put off stays the same unless something more is put off. -/
theorem Readable.of_pending_eq (hd : d.Readable) {d' : Draft}
    (hlinks : d'.pendingLinks = d.pendingLinks) (hmembers : d'.pendingMembers = d.pendingMembers)
    (hbodies : d'.pendingBodies = d.pendingBodies) : d'.Readable where
  links := by
    rw [hlinks]
    exact hd.links
  members := by
    rw [hmembers]
    exact hd.members
  bodies := by
    rw [hbodies]
    exact hd.bodies

theorem Readable.putSpan (hd : d.Readable) (id : String) (span : Option Span) :
    (d.putSpan id span).Readable := by
  cases span with
  | none => exact hd
  | some span => exact hd.of_pending_eq rfl rfl rfl

theorem Readable.putMember (hd : d.Readable) (type : String) (symbol : Symbol)
    (span : Option Span) : (d.putMember type symbol span).Readable := by
  unfold Draft.putMember
  apply Readable.putSpan
  exact hd.of_pending_eq rfl rfl rfl

theorem Readable.deferBody (hd : d.Readable) (method : String) (file : Option String)
    {data : Value} (hdata : Body.isReadable (data.field "body") = true) :
    (d.deferBody method file data).Readable := by
  unfold Draft.deferBody
  simp only []
  split
  next => exact hd
  next =>
    refine ⟨hd.links, hd.members, ?_⟩
    intro pending hpending
    rcases List.mem_append.mp hpending with hold | hlast
    · exact hd.bodies pending hold
    · rw [List.mem_singleton.mp hlast]
      exact hdata

theorem Readable.deferLink (hd : d.Readable) (type : String) {data : Value}
    (hdata : Link.typeIsReadable data = true) : (d.deferLink type data).Readable := by
  refine ⟨?_, hd.members, hd.bodies⟩
  intro pending hpending
  rcases List.mem_append.mp hpending with hold | hlast
  · exact hd.links pending hold
  · rw [List.mem_singleton.mp hlast]
    exact hdata

theorem Readable.deferMember (hd : d.Readable) (id : String) {data : Value}
    (hdata : Link.memberIsReadable data = true) : (d.deferMember id data).Readable := by
  refine ⟨hd.links, ?_, hd.bodies⟩
  intro pending hpending
  rcases List.mem_append.mp hpending with hold | hlast
  · exact hd.members pending hold
  · rw [List.mem_singleton.mp hlast]
    exact hdata

end Draft

namespace Declaration

open Building Draft

variable {d : Draft} {owner : Owner} {data : Value}

end Declaration

namespace Link

open Building Draft Tables

variable {d : Draft}

end Link

namespace Index

open Building Draft Tables

variable {d : Draft} {data : Value}

end Index
end SymbolAtlas
