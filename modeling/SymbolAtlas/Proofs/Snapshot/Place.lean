import SymbolAtlas.Proofs.Index.Method
import SymbolAtlas.Proofs.Snapshot.Hierarchy
import Mathlib.Tactic

/-!
# Files of members and of their parts

The entry of a member may give a file of its own, and so may the entries of its accessors and of the
operations in its bodies.  Those that give none lie in the file of the type around the member: the
member's own file counts for the member alone, and for accessors that are not located otherwise.
-/

namespace SymbolAtlas

/-- The entry gives a line, but no file. -/
structure Entry.Unfiled (entry : Value) : Prop where
  line : (entry.field "line").isNull = false
  file : (entry.field "file").isPresent = false

namespace Entry

variable {root place : String} {data : Value} {around : Option String} {located : Option Location}

theorem Unfiled.isMapping (h : Unfiled data) : data.isMapping = true := by
  have hline := h.line
  cases data with
  | mapping entries => rfl
  | _ => cases hline

theorem file_of_location (h : location root data around place = .ok located) :
    ∃ file, fileOf root data around = .ok file ∧
      located.map Location.file = if (data.field "line").isNull then none else file := by
  obtain ⟨file, hfile, h⟩ := Attempt.bind_eq_ok.mp h
  refine ⟨file, hfile, ?_⟩
  cases file with
  | none =>
      cases h
      simp
  | some file =>
      simp only [] at h
      split at h
      next hline =>
        cases h
        simp [hline]
      next hline =>
        obtain ⟨line, -, h⟩ := Attempt.bind_eq_ok.mp h
        obtain ⟨column, -, h⟩ := Attempt.bind_eq_ok.mp h
        cases h
        simp [hline]

/-- What gives no file lies in the file around it. -/
theorem Unfiled.file_of_location (hdata : Unfiled data)
    (h : location root data around place = .ok located) :
    located.map Location.file = around := by
  obtain ⟨file, hfile, hlocated⟩ := Entry.file_of_location h
  unfold fileOf at hfile
  simp only [hdata.file] at hfile
  cases hfile
  rw [hlocated, hdata.line]
  rfl

/-- What gives a file lies in that file if it lies anywhere. -/
theorem file_of_location_text {file : String} (hfile : data.field "file" = .text file)
    (hne : file ≠ "") (h : location root data around place = .ok located) :
    located.map Location.file =
      if (data.field "line").isNull then none else some (pathFrom root file) := by
  obtain ⟨found, hfound, hlocated⟩ := Entry.file_of_location h
  have hpresent : (Value.text file).isPresent = true := by
    simpa [Value.isPresent] using hne
  unfold fileOf at hfound
  simp only [hfile, hpresent, if_true] at hfound
  cases hfound
  exact hlocated

end Entry

namespace Snapshot

open Index Declaration Entry Body

/-- The body that an entry holds is that of a method.  Its tree has the paths of its document, and
an operation whose entry gives a line but no file lies in a certain file, or nowhere. -/
def OperationsLie (s : Snapshot) (method : String) (entry : Value) (file : Option String) : Prop :=
  (entry.field "body").isNull = false → ∃ tree, s.tables.bodies.get? method = some tree ∧
    ∀ path, Option.Rel (fun node op => Unfiled node → op.location.map Location.file = file)
      (entryAt? (entry.field "body") path) (tree.at? path)

variable {s : Snapshot} {disk : Disk} {data : Value} {root : String} {path : Option String}

theorem operationsLie_of_hasMethod {file : Option String} {m : Symbol} {entry : Value}
    (h : s.tables.HasMethod root file m entry) : s.OperationsLie m.id entry file := by
  intro hbody
  obtain ⟨text, tree, htree, hlies⟩ := h.body hbody
  refine ⟨tree, htree, fun path => ?_⟩
  have hpath := hlies.at? path
  generalize entryAt? (entry.field "body") path = node at hpath
  generalize tree.at? path = op at hpath
  cases hpath with
  | none => exact .none
  | @some node op hlies =>
      refine .some fun hnode => ?_
      have hlocation := hlies.ownLocation_eq
      unfold ownLocation at hlocation
      rw [if_pos hnode.isMapping] at hlocation
      exact hnode.file_of_location hlocation

/-- The accessors of a property and the operations in the bodies of a member lie in the file of the
type if their entries give a line but no file, whatever file the entry of the member gives.  Only
where the type has no file, an accessor lies where its property does. -/
theorem parts_lie_in_type (hs : ofDocument disk data root path = .ok s) {types : List Value}
    (htypes : typesOf data = .ok types) {entry : Value} (hentry : entry ∈ types)
    (hsource : isMetadata entry = false) {members : List Value}
    (hmembers : (entry.field "members").itemsIfPresent = .ok members) {member : Value}
    (hmember : member ∈ members) {file : String} (hfile : member.field "file" = .text file)
    (hne : file ≠ "") :
    (∀ name ∈ methodNamed? member (memberKind member), ∃ m,
      s.symbol? (methodId (typeName entry) name m.parameters) = some m ∧
        s.OperationsLie m.id member (typeFile root entry)) ∧
    (memberKind member = "property" → ∀ keyword ∈ ["get", "set"],
      ∀ accessor ∈ accessorData? member keyword, ∃ a,
        s.symbol? (accessorId (typeName entry) keyword (member.field "name").plain) = some a ∧
          s.OperationsLie a.id accessor (typeFile root entry) ∧
          (Unfiled accessor → a.location.map Location.file = (typeFile root entry <|>
            if (member.field "line").isNull then none else some (pathFrom root file)))) := by
  obtain ⟨others, hothers, hdeclares⟩ := declaresAll_of_tables (tables_of_ofDocument hs)
  obtain rfl : types = others := Except.ok.inj (htypes.symm.trans hothers)
  obtain ⟨place, location, hlocation, hmethods⟩ :=
    hdeclares entry hentry members (by rw [hmembers]; rfl) member hmember
  have hown : location.map Location.file =
      if (member.field "line").isNull then none else some (pathFrom root file) := by
    unfold locate at hlocation
    rw [hsource] at hlocation
    exact file_of_location_text hfile hne hlocation
  constructor
  · intro name hname
    obtain ⟨_, m, -, hid, rfl, hhas⟩ := hmethods.own name hname
    exact ⟨m, hid ▸ hhas.holds, operationsLie_of_hasMethod hhas⟩
  · intro hkind keyword hkeyword accessor haccessor
    obtain ⟨place', located, a, hlocated, hid, ha, hhas⟩ :=
      hmethods.accessors hkind keyword hkeyword accessor haccessor
    refine ⟨a, hid ▸ hhas.holds, operationsLie_of_hasMethod hhas, fun hunfiled => ?_⟩
    unfold locate at hlocated
    rw [hsource] at hlocated
    have hplace : located.map Location.file = typeFile root entry :=
      hunfiled.file_of_location hlocated
    rw [ha, ← hown, ← hplace]
    cases located <;> rfl

/-- A method of a shop that calls itself, in a file of its own. -/
def totalEntry : Value :=
  let call := .mapping [(.text "op", .text "call"), (.text "target", .text "Shop.Total"),
    (.text "line", .int 4), (.text "column", .int 9)]
  .mapping [(.text "name", .text "Total"), (.text "file", .text "Shop.Totals.cs"),
    (.text "line", .int 3), (.text "body", .list [call])]

/-- A property of the shop in the same file. -/
def sumEntry : Value :=
  .mapping [(.text "name", .text "Sum"), (.text "kind", .text "property"),
    (.text "file", .text "Shop.Totals.cs"), (.text "line", .int 8),
    (.text "get", .mapping [(.text "line", .int 8), (.text "column", .int 20)])]

/-- The shop, whose type is in another file. -/
def shopEntry : Value :=
  .mapping [(.text "name", .text "Shop"), (.text "file", .text "Shop.cs"),
    (.text "members", .list [totalEntry, sumEntry])]

def totalsDocument : Value :=
  .mapping [(.text "types", .list [shopEntry])]

theorem parts_lie_in_type_shop : ∃ s,
    ofDocument .empty totalsDocument "/work" none = .ok s ∧ isMetadata shopEntry = false ∧
      totalEntry.field "file" = .text "Shop.Totals.cs" ∧
      sumEntry.field "file" = .text "Shop.Totals.cs" ∧ "Shop.Totals.cs" ≠ "" ∧
      (∃ m, s.symbol? (methodId "Shop" "Total" m.parameters) = some m ∧
        s.OperationsLie m.id totalEntry (some "/work/Shop.cs")) ∧
      ∃ a, s.symbol? "M:Shop.get_Sum" = some a ∧
        a.location.map Location.file = some "/work/Shop.cs" := by
  have hloads : (ofDocument .empty totalsDocument "/work" none).toOption.any (fun _ => true) =
      true := by
    decide +kernel
  obtain ⟨s, hs, -⟩ := Attempt.exists_ok_of_any hloads
  have hfile : typeFile "/work" shopEntry = some "/work/Shop.cs" := by decide +kernel
  have htotal : methodNamed? totalEntry (memberKind totalEntry) = some "Total" := by
    decide +kernel
  have hsum : memberKind sumEntry = "property" := by decide +kernel
  have hunfiled : Unfiled (.mapping [(.text "line", .int 8), (.text "column", .int 20)]) :=
    ⟨rfl, rfl⟩
  have hmethod := (parts_lie_in_type hs rfl (List.mem_singleton_self _) rfl rfl
    (List.mem_cons_self : totalEntry ∈ [totalEntry, sumEntry]) rfl (by decide)).1 "Total" htotal
  obtain ⟨a, ha, -, hplace⟩ := (parts_lie_in_type hs rfl (List.mem_singleton_self _) rfl rfl
    (List.mem_cons_of_mem _ List.mem_cons_self : sumEntry ∈ [totalEntry, sumEntry]) rfl
    (by decide)).2 hsum "get" (by decide) _ rfl
  refine ⟨s, hs, rfl, rfl, rfl, by decide, hfile ▸ hmethod, a, ha, ?_⟩
  rw [hplace hunfiled, hfile]
  rfl

/-- Neither the accessor nor the call is in the file that the entries of the members give. -/
theorem totals_outside_own_file : ∃ s a tree op,
    ofDocument .empty totalsDocument "/work" none = .ok s ∧
      pathFrom "/work" "Shop.Totals.cs" = "/work/Shop.Totals.cs" ∧
      s.symbol? "M:Shop.get_Sum" = some a ∧ a.location = some ⟨"/work/Shop.cs", 8, 20⟩ ∧
      s.tables.bodies.get? "M:Shop.Total()" = some tree ∧ tree.at? [0] = some op ∧
      op.location = some ⟨"/work/Shop.cs", 4, 9⟩ := by
  have hfacts : (ofDocument .empty totalsDocument "/work" none).toOption.any (fun s =>
      ((s.symbol? "M:Shop.get_Sum").any fun a =>
        decide (a.location = some ⟨"/work/Shop.cs", 8, 20⟩)) &&
      (s.tables.bodies.get? "M:Shop.Total()").any fun tree => (tree.at? [0]).any fun op =>
        decide (op.location = some ⟨"/work/Shop.cs", 4, 9⟩)) = true := by
    decide +kernel
  obtain ⟨s, hs, hfacts⟩ := Attempt.exists_ok_of_any hfacts
  rw [Bool.and_eq_true] at hfacts
  obtain ⟨haccessor, hbody⟩ := hfacts
  obtain ⟨a, ha, hplace⟩ := (Option.any_eq_true _ _).mp haccessor
  obtain ⟨tree, htree, hcall⟩ := (Option.any_eq_true _ _).mp hbody
  obtain ⟨op, hop, hcalled⟩ := (Option.any_eq_true _ _).mp hcall
  exact ⟨s, a, tree, op, hs, by decide +kernel, ha, of_decide_eq_true hplace, htree, hop,
    of_decide_eq_true hcalled⟩

end Snapshot
end SymbolAtlas
