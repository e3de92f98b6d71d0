import SymbolAtlas.Proofs.Index.Build
import SymbolAtlas.Proofs.Index.Frame
import SymbolAtlas.Proofs.Index.Opening
import SymbolAtlas.Proofs.Index.Tree
import Mathlib.Tactic

/-!
# Where operations lie

A condition on locations that a missing location satisfies, and whatever the entries of a body may
give, holds throughout the tree of the body.  The files of a document are seen from its root, and a
body waits with the file of its type, so that the files of all operations are.
-/

namespace SymbolAtlas

/-- All operations of a tree have locations that satisfy a condition. -/
def Operation.Placed (P : Option Location → Prop) (op : Operation) : Prop :=
  ∀ inner ∈ op.walk, P inner.location

theorem Operation.placed_iff {P : Option Location → Prop} {op : Operation} :
    op.Placed P ↔ P op.location ∧ ∀ child ∈ op.children, child.Placed P :=
  op.forall_walk_iff fun inner => P inner.location

namespace Body

variable {P : Option Location → Prop} {place : Place} {node : Value} {op : Operation}

/-- What a node of a body may give as its location satisfies the condition. -/
def Place.Admits (place : Place) (P : Option Location → Prop) : Prop :=
  ∀ node l, Entry.location place.root node place.file place.text = .ok l → P l

/-- Operations that lie where their entries say lie where the body admits it. -/
theorem Lies.placed (hnone : P none) (hplace : place.Admits P) (h : Lies place node op) :
    op.Placed P := by
  induction op using Operation.childInduction generalizing node with
  | step op ih =>
      obtain ⟨hlocation, hparts⟩ := h
      rw [Operation.placed_iff]
      constructor
      · unfold ownLocation at hlocation
        split at hlocation
        next => exact hplace node _ hlocation
        next => exact Except.ok.inj hlocation ▸ hnone
      · intro child hchild
        obtain ⟨i, hi⟩ := List.mem_iff_getElem?.mp hchild
        have hpart := rel_getElem? hparts i
        rw [hi] at hpart
        generalize (partsOf node)[i]? = part at hpart
        cases hpart with
        | some hlies => exact ih child hchild hlies

end Body

/-! ## Files seen from the root -/

namespace Entry

/-- The path of a file as it is seen from a root. -/
def IsRooted (root file : String) : Prop :=
  ∃ given, file = pathFrom root given

theorem isRooted_of_fileOf {root : String} {data : Value} {around file : Option String}
    (hfile : fileOf root data around = .ok file) (haround : ∀ f ∈ around, IsRooted root f) :
    ∀ f ∈ file, IsRooted root f := by
  unfold fileOf at hfile
  simp only [] at hfile
  split at hfile
  next =>
    unfold fileNamed at hfile
    split at hfile
    next given _ =>
      cases hfile
      intro f hf
      exact ⟨given, (Option.some.inj hf).symm⟩
    next => cases hfile
  next =>
    cases hfile
    exact haround

/-- An entry lies in its own file or in the file around it. -/
theorem isRooted_of_location {root place : String} {data : Value} {around : Option String}
    (haround : ∀ f ∈ around, IsRooted root f) {location : Option Location}
    (hlocation : Entry.location root data around place = .ok location) :
    ∀ l ∈ location, IsRooted root l.file := by
  obtain ⟨file, hfile, hrest⟩ := Attempt.bind_eq_ok.mp hlocation
  have hrooted := isRooted_of_fileOf hfile haround
  cases file with
  | none =>
      cases hrest
      exact fun l hl => nomatch hl
  | some file =>
      simp only [] at hrest
      split at hrest
      next =>
        cases hrest
        exact fun l hl => nomatch hl
      next =>
        obtain ⟨line, -, hrest⟩ := Attempt.bind_eq_ok.mp hrest
        obtain ⟨column, -, hrest⟩ := Attempt.bind_eq_ok.mp hrest
        cases hrest
        intro l hl
        cases hl
        exact hrooted file rfl

end Entry

namespace Draft

open Entry Tables

/-- The bodies of a draft and those that wait are the same. -/
structure SameBodies (d d' : Draft) : Prop where
  bodies : d'.bodies = d.bodies
  waiting : d'.pendingBodies = d.pendingBodies

theorem ignoresLinks_sameBodies : IgnoresLinks SameBodies where
  refl _ := ⟨rfl, rfl⟩
  trans hfirst hlast := ⟨hlast.bodies.trans hfirst.bodies, hlast.waiting.trans hfirst.waiting⟩
  putType _ _ _ _ := ⟨rfl, rfl⟩
  putMember _ _ _ span := by cases span <;> exact ⟨rfl, rfl⟩
  putContaining _ _ _ := ⟨rfl, rfl⟩
  putAccessors _ _ _ _ := ⟨rfl, rfl⟩
  links _ _ _ _ _ _ := ⟨rfl, rfl⟩

/-- Bodies wait with files seen from the root, and their operations lie in such files. -/
structure Rooted (root : String) (d : Draft) : Prop where
  waiting : ∀ pending ∈ d.pendingBodies, ∀ file ∈ pending.file, IsRooted root file
  bodies : d.bodies.Each fun _ body =>
    body.Placed fun location => ∀ l ∈ location, IsRooted root l.file

variable {root : String} {d d' : Draft}

theorem rooted_empty (root : String) : Rooted root Draft.empty :=
  ⟨List.forall_mem_nil _, Table.each_empty _⟩

theorem Rooted.of_same (h : d.Rooted root) (hsame : SameBodies d d') : d'.Rooted root :=
  ⟨hsame.waiting ▸ h.waiting, hsame.bodies ▸ h.bodies⟩

theorem Rooted.deferBody (h : d.Rooted root) (method : String) {file : Option String}
    (hfile : ∀ f ∈ file, IsRooted root f) (data : Value) :
    (d.deferBody method file data).Rooted root := by
  unfold Draft.deferBody
  simp only []
  split
  next => exact h
  next =>
    refine ⟨?_, h.bodies⟩
    exact List.forall_mem_append.mpr ⟨h.waiting, List.forall_mem_singleton.mpr hfile⟩

end Draft

namespace Building

open Draft

/-- The step leaves the files of bodies rooted. -/
def KeepsRooted {α : Type} (root : String) : Building α → Prop :=
  Relates fun d d' => d.Rooted root → d'.Rooted root

variable {root : String} {α : Type}

theorem chains_keepsRooted (root : String) : Chains (KeepsRooted root) :=
  chains_of_trans (fun _ h => h) fun hfirst hlast h => hlast (hfirst h)

/-- What leaves bodies as they are leaves their files rooted. -/
theorem keepsRooted_of_same {step : Building α} (h : Relates SameBodies step) :
    KeepsRooted root step :=
  fun d => (h d).imp fun _ _ hsame hd => hd.of_same hsame

theorem keepsRooted_modify {f : Draft → Draft} (h : ∀ d, SameBodies d (f d)) :
    KeepsRooted root (modify f : Building PUnit) :=
  keepsRooted_of_same (relates_modify h)

end Building

open Building Draft Entry

theorem Declaration.declares_keepsRooted {owner : Owner}
    (hfile : ∀ file ∈ owner.file, IsRooted owner.root file) :
    DeclaresContents owner (fun _ => True) (KeepsRooted owner.root) where
  chains := chains_keepsRooted owner.root
  addMember s span _ := keepsRooted_of_same (ignoresLinks_sameBodies.addMember _ s span)
  putContaining id container data _ d := ensures_modify.mpr fun hd =>
    (hd.of_same (ignoresLinks_sameBodies.putContaining d id container)).deferBody id hfile data
  putAccessors property getter setter :=
    keepsRooted_modify fun d => ignoresLinks_sameBodies.putAccessors d property getter setter
  deferBody method data _ := ensures_modify.mpr fun hd => hd.deferBody method hfile data
  deferMember _ _ := keepsRooted_modify fun _ => ⟨rfl, rfl⟩
  membersOf := keepsRooted_of_same (relates_get_bind fun d =>
    ensures_pure.mpr (ignoresLinks_sameBodies.refl d))
  putSpan span := keepsRooted_modify fun d => by
    cases span <;> exact ⟨rfl, rfl⟩
  nest := keepsRooted_modify fun d => by
    split
    next => split <;> exact ⟨rfl, rfl⟩
    next => exact ⟨rfl, rfl⟩
  deferLink _ := keepsRooted_modify fun _ => ⟨rfl, rfl⟩

theorem Declaration.declareType_keepsRooted (root : String) (entry : Value) :
    KeepsRooted root (declareType root entry) := by
  rintro d ⟨⟩ e hrun hd
  obtain ⟨kind, location, modifiers, -, -, hbody⟩ := declareType_eq_ok.mp hrun
  have hfile : ∀ file ∈ typeFile root entry, IsRooted root file := by
    intro file hfile
    unfold typeFile at hfile
    simp only [] at hfile
    split at hfile
    next => cases hfile
    next => exact ⟨_, (Option.some.inj hfile).symm⟩
  exact (declares_keepsRooted hfile).declareContents (namesMembers_of_any fun _ => trivial)
    location _ _ _ _ hbody (hd.of_same ⟨rfl, rfl⟩)

namespace Index

theorem readBody_keepsRooted {root : String} {pending : PendingBody}
    (hfile : ∀ file ∈ pending.file, IsRooted root file) :
    KeepsRooted root (readBody root pending) := by
  intro d
  unfold readBody
  simp only [ensures_bind, ensures_get]
  split
  next => exact (chains_keepsRooted root).throw _ d
  next method _ =>
    let place : Body.Place := ⟨root, pending.file, "body of " ++ method.display⟩
    have hadmits : place.Admits (fun location => ∀ l ∈ location, IsRooted root l.file) :=
      fun node l => isRooted_of_location hfile
    have hnone : ∀ l ∈ (none : Option Location), IsRooted root l.file := by
      intro l hl
      cases hl
    have hlies := Body.read_gives place pending.body d
    have hsame := ignoresLinks_sameBodies.resolves.body place pending.body d
    refine (hlies.and hsame).bind ?_
    rintro tree d' ⟨htree, hbodies⟩
    rw [ensures_modify]
    intro hd
    have hd' := hd.of_same hbodies
    exact ⟨hd'.waiting, hd'.bodies.insert (htree.placed hnone hadmits)⟩

theorem readDocument_rooted (disk : Disk) (root : String) (data : Value) :
    Ensures (readDocument disk root data) Draft.empty fun _ d => d.Rooted root := by
  have hchains := chains_keepsRooted root
  rw [readDocument_eq_rest]
  unfold readRest
  simp only [ensures_bind, ensures_lift, ensures_get]
  intro types _
  refine (hchains.forEach (Declaration.declareType_keepsRooted root) types _).imp ?_
  intro _ d₁ hd₁
  refine (hchains.forEach (fun pending : String × Value => keepsRooted_of_same
    (ignoresLinks_sameBodies.linkType pending.1 pending.2)) _ d₁).imp ?_
  intro _ d₂ hd₂
  refine (hchains.forEach (fun pending : String × Value => keepsRooted_of_same
    (ignoresLinks_sameBodies.linkMember pending.1 pending.2)) _ d₂).imp ?_
  intro _ d₃ hd₃
  have hrooted₃ := hd₃ (hd₂ (hd₁ (rooted_empty root)))
  refine (forEach_keeps (P := Rooted root) hrooted₃ ?_).imp ?_
  · intro pending hpending d hd
    exact (readBody_keepsRooted (hrooted₃.waiting pending hpending) d).imp fun _ _ h => h hd
  intro _ d₄ hrooted₄
  refine (ignoresLinks_sameBodies.readEnd (fun _ _ _ => ⟨rfl, rfl⟩) (fun _ _ _ => ⟨rfl, rfl⟩)
    disk root data d₄).imp ?_
  exact fun _ _ hsame => hrooted₄.of_same hsame

/-- The operations of a loaded document lie in files seen from its root. -/
theorem isRooted_of_tables {disk : Disk} {root : String} {data : Value} {t : Tables}
    (ht : tables disk root data = .ok t) {body op : Operation} (hbody : body ∈ t.bodies.values)
    (hop : op ∈ body.walk) {l : Location} (hlocation : op.location = some l) :
    IsRooted root l.file := by
  obtain ⟨d, hread, rfl⟩ := exists_run_of_tables ht
  obtain ⟨method, hentry⟩ := Table.mem_values_iff.mp hbody
  exact (readDocument_rooted disk root data () d hread).bodies _ hentry op hop l hlocation

end Index
end SymbolAtlas
