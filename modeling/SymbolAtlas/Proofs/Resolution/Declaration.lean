import SymbolAtlas.Proofs.Index.Calling
import SymbolAtlas.Proofs.Index.Kind
import SymbolAtlas.Proofs.Name.Segment
import SymbolAtlas.Proofs.Resolution.Address
import Mathlib.Tactic

/-!
# Partial names among all declarations

A name that is neither a type's nor that of a member in a type is looked up among all declarations.
These are found by their simple names and then compared by their paths, and nothing is missed on the
way: the last segment of a path is the simple name of what lies there, for nested types and for
members, and a partial name of any length is parted into its last segment as well.
-/

namespace SymbolAtlas

open Tables

namespace Resolution

/-- Candidates without repetitions come to nothing, to the only one, or to all of them. -/
theorem ofCandidates_of_nodup {candidates : List Symbol} {P : Symbol → Prop}
    (hdistinct : candidates.Nodup) (hall : ∀ x, x ∈ candidates ↔ P x) (absence : Absence) :
    ((∀ x, ¬ P x) → ofCandidates candidates absence = .notFound absence) ∧
      (∀ x, (∀ y, P y ↔ y = x) → ofCandidates candidates absence = .resolved x) ∧
      ((∃ x y, P x ∧ P y ∧ x ≠ y) →
        ofCandidates candidates absence = .ambiguous candidates none) := by
  refine ⟨?_, ?_, ?_⟩
  · intro hnone
    have hempty : candidates = [] := by
      rw [List.eq_nil_iff_forall_not_mem]
      exact fun x hx => hnone x ((hall x).mp hx)
    rw [hempty]
    rfl
  · intro x hx
    have hsole : ∀ y, y ∈ candidates ↔ y = x := fun y => (hall y).trans (hx y)
    have hsingle : candidates = [x] := by
      rw [← List.perm_singleton, List.perm_ext_iff_of_nodup hdistinct (List.nodup_singleton x)]
      simpa using hsole
    rw [hsingle]
    rfl
  · rintro ⟨x, y, hx, hy, hne⟩
    match candidates, (hall x).mpr hx, (hall y).mpr hy with
    | [z], hx, hy =>
        have hsame : x = y := (List.mem_singleton.mp hx).trans (List.mem_singleton.mp hy).symm
        exact absurd hsame hne
    | first :: second :: rest, _, _ => rfl

end Resolution

namespace Snapshot

open Resolution

variable {s : Snapshot} {x type : Symbol} {base path : String} {list : Option String}

/-! ## Paths that end with a name -/

theorem pathEndsWith_iff :
    pathEndsWith path base = true ↔ path = base ∨ ∃ front, path = front ++ "." ++ base := by
  have hending : (Text.beforeEnding? ('.' :: base.toList) path.toList).isSome = true ↔
      ∃ front, path = front ++ "." ++ base := by
    rw [Option.isSome_iff_exists]
    constructor
    · rintro ⟨front, hfront⟩
      refine ⟨String.ofList front, ?_⟩
      rw [← String.toList_inj, Signature.toList_dotted, String.toList_ofList]
      exact Text.beforeEnding?_eq_some_iff.mp hfront
    · rintro ⟨front, rfl⟩
      exact ⟨front.toList, Text.beforeEnding?_eq_some_iff.mpr (Signature.toList_dotted _ _)⟩
  unfold pathEndsWith
  rw [Bool.or_eq_true, beq_iff_eq, hending]

theorem lastSegment_of_pathEndsWith (h : pathEndsWith path base = true) :
    Signature.lastSegment path = Signature.lastSegment base := by
  rcases pathEndsWith_iff.mp h with rfl | ⟨front, rfl⟩
  · rfl
  · exact Signature.lastSegment_dotted front base

theorem mem_segments_of_pathEndsWith (h : pathEndsWith path base = true) {segment : List Char}
    (hsegment : segment ∈ (Signature.segments base).dropLast) :
    segment ∈ (Signature.segments path).dropLast := by
  rcases pathEndsWith_iff.mp h with rfl | ⟨front, rfl⟩
  · exact hsegment
  · have hne : Signature.segments base ≠ [] := Text.splitWhere_ne_nil _ _
    rw [Signature.segments_dotted, List.dropLast_append_of_ne_nil hne]
    exact List.mem_append_right _ hsegment

/-! ## Paths of symbols -/

/-- The symbols of a snapshot are called by their types, whose names have no empty segment. -/
structure WellCalled (s : Snapshot) : Prop where
  closed : s.tables.Closed
  owned : s.tables.Owned
  titled : s.tables.AllTitled
  kinds : s.tables.KindsMethods
  registered : ∀ type, Holds s.tables.symbols type → type.kind = .namedType →
    ∃ name, type.id = "T:" ++ name ∧ Signature.Segmented name
  calls : CallsAll s.tables.symbols

theorem wellCalled_of_ofDocument {disk : Disk} {data : Value} {root : String}
    {sourcePath : Option String} (hs : ofDocument disk data root sourcePath = .ok s)
    (hmembers : Index.UndottedMembers data)
    (htypes : ∀ name ∈ s.tables.typeNames.keys, Signature.Segmented name) : s.WellCalled := by
  have ht := tables_of_ofDocument hs
  obtain ⟨d, hd, htables⟩ := Index.exists_sound_of_tables ht
  refine ⟨Index.closed_of_tables ht, (Index.owned_of_tables ht).1, Index.allTitled_of_tables ht,
    Index.kindsMethods_of_tables ht, ?_, Index.callsAll_of_tables hmembers ht⟩
  intro type htype hkind
  rw [← htables] at htype htypes
  obtain ⟨name, hid, hname⟩ := hd.types type.id type htype hkind
  exact ⟨name, hid, htypes name (Table.mem_keys_iff.mpr ⟨type.id, hname⟩)⟩

namespace WellCalled

/-- A type is shown without empty segments, the last of which is its name. -/
theorem segments_display (hs : s.WellCalled) (htype : Holds s.tables.symbols type)
    (hkind : type.kind = .namedType) :
    [] ∉ Signature.segments type.display ∧ Signature.lastSegment type.display = type.name := by
  obtain ⟨name, hid, hsegmented⟩ := hs.registered type htype hkind
  cases hs.calls type.id type htype with
  | type other _ hother hname hdisplay =>
      obtain rfl : other = name := (String.append_right_inj "T:").mp (hother.symm.trans hid)
      rw [hdisplay, Signature.segments_exchange, Signature.lastSegment_exchange]
      exact ⟨hsegmented, hname.symm⟩
  | accessor hmember => exact absurd hkind hmember
  | member _ _ _ hmember => exact absurd hkind hmember

/-- A path has no empty segment but perhaps the last, which is the symbol's name; or it is that of a
constructor, or of something else that is called like one. -/
theorem path_cases (hs : s.WellCalled) (hx : Holds s.tables.symbols x)
    (haccessor : x.isAccessor = false) :
    ([] ∉ (Signature.segments x.path).dropLast ∧ Signature.lastSegment x.path = x.name) ∨
      Signature.lastSegment x.path = "ctor" ∨ Signature.lastSegment x.path = "cctor" := by
  cases hs.calls x.id x hx with
  | type _ hkind =>
      have hpath : x.path = x.display := by
        unfold Symbol.path
        rw [hkind]
      obtain ⟨hsegments, hlast⟩ := hs.segments_display hx hkind
      rw [hpath]
      exact .inl ⟨fun hempty => hsegments (List.mem_of_mem_dropLast hempty), hlast⟩
  | accessor _ hother =>
      rw [haccessor] at hother
      cases hother
  | member owner howner htype hkind hinside hname =>
      have hpath : x.path = owner.display ++ "." ++ x.name := by
        unfold Symbol.path
        cases hmember : x.kind <;> simp_all
      rw [hpath, Signature.lastSegment_dotted]
      rcases hname with hundotted | hconstructor | hconstructor
      · refine .inl ⟨?_, Signature.lastSegment_of_undotted hundotted⟩
        rw [Signature.segments_dotted, Signature.segments_of_undotted hundotted,
          List.dropLast_concat]
        exact (hs.segments_display howner htype).1
      · exact .inr (.inl (by rw [hconstructor]; decide))
      · exact .inr (.inr (by rw [hconstructor]; decide))

/-- What has a constructor's kind is called like a constructor. -/
theorem lastSegment_of_isConstructor (hs : s.WellCalled) (hx : Holds s.tables.symbols x)
    (hconstructor : x.isConstructor = true) :
    Signature.lastSegment x.path = "ctor" ∨ Signature.lastSegment x.path = "cctor" := by
  have hkinds : x.methodKind = some .constructor ∨ x.methodKind = some .staticConstructor := by
    simpa [Symbol.isConstructor] using hconstructor
  have haccessor : x.isAccessor = false := by
    rcases hkinds with hkind | hkind <;> simp [Symbol.isAccessor, hkind]
  have hsome : x.methodKind.isSome = true := by
    rcases hkinds with hkind | hkind <;> simp [hkind]
  have hmethod : x.kind = .method := hs.kinds.get? hx hsome
  obtain ⟨type, hlisted⟩ := hs.owned.listed x.id x hx (by simp [hmethod])
  obtain ⟨owner, name, -, hcalled, -⟩ :=
    hs.titled type x.id hlisted x hx ⟨.inl hmethod, haccessor⟩
  have hname : x.name = Signature.constructorName ∨ x.name = Signature.staticConstructorName :=
    hkinds.imp hcalled.constructor hcalled.staticConstructor
  -- no last segment has the dot that both of these names have
  refine (hs.path_cases hx haccessor).resolve_left ?_
  rintro ⟨-, hlast⟩
  have hundotted := Signature.undotted_lastSegment x.path
  rw [hlast] at hundotted
  rcases hname with hname | hname <;> rw [hname] at hundotted <;> exact hundotted (by decide)

end WellCalled

/-! ## The search among all declarations -/

/-- A name that neither types nor the members of a type answer for. -/
structure FallsBack (s : Snapshot) (base : String) : Prop where
  untyped : s.tables.typeNames.contains base = false
  memberless : ∀ type member owner, Signature.splitMember? base = some (type, member) →
    s.typeNamed? type = some owner →
      ∀ m ∈ s.membersOf owner, m.name ≠ Signature.lastSegment base
  constructor : Signature.lastSegment base ≠ "ctor"
  staticConstructor : Signature.lastSegment base ≠ "cctor"

/-- A partial name with its list of parameters, if it has one, is a name of the symbol. -/
structure Answers (s : Snapshot) (base : String) (list : Option String) (x : Symbol) : Prop where
  holds : Holds s.tables.symbols x
  accessor : x.isAccessor = false
  constructor : x.isConstructor = false
  path : x.path = base ∨ ∃ front, x.path = front ++ "." ++ base
  parameters : ∀ types ∈ list,
    Signature.typesMatch (Signature.parameters types) x.parameterTypes = true

/-- A symbol that a partial name ends the path of is found under the simple name. -/
theorem WellCalled.name_eq (hs : s.WellCalled) (hx : Holds s.tables.symbols x)
    (haccessor : x.isAccessor = false) (hbase : s.FallsBack base)
    (hpath : pathEndsWith x.path base = true) :
    x.name = ((Signature.splitMember? base).map Prod.snd).getD base := by
  have hsame := lastSegment_of_pathEndsWith hpath
  rcases hs.path_cases hx haccessor with ⟨hsegments, hlast⟩ | hlast | hlast
  · rw [hsame] at hlast
    rw [← hlast]
    rcases Signature.splitMember?_cases hbase.constructor with
      ⟨hnone, hwhole | hempty⟩ | ⟨type, hparts⟩
    · rw [hnone, hwhole]
      rfl
    · exact absurd (mem_segments_of_pathEndsWith hpath hempty) hsegments
    · rw [hparts]
      rfl
  · exact absurd (hsame.symm.trans hlast) hbase.constructor
  · exact absurd (hsame.symm.trans hlast) hbase.staticConstructor

theorem mem_declarationsNamed_iff (hs : s.tables.Closed) {name : String} :
    x ∈ s.declarationsNamed name ↔
      Holds s.tables.symbols x ∧ x.isAccessor = false ∧ x.name = name := by
  unfold declarationsNamed
  rw [List.mem_mergeSort, List.mem_filter, hs.mem_values_iff]
  simp

theorem WellCalled.mem_declarationsCalled_iff (hs : s.WellCalled) (hbase : s.FallsBack base) :
    x ∈ s.declarationsCalled base list false ↔ s.Answers base list x := by
  have hfound : x ∈ s.declarationsCalled base list false ↔
      (Holds s.tables.symbols x ∧ x.isAccessor = false ∧
        x.name = ((Signature.splitMember? base).map Prod.snd).getD base) ∧
      pathEndsWith x.path base = true ∧ ∀ types ∈ list,
        Signature.typesMatch (Signature.parameters types) x.parameterTypes = true := by
    rw [← mem_declarationsNamed_iff hs.closed]
    unfold declarationsCalled
    cases list with
    | none => simp
    | some types =>
        simp only [Bool.false_eq_true, if_false, List.mem_filter, Option.mem_some_iff, forall_eq',
          and_assoc]
  rw [hfound]
  constructor
  · rintro ⟨⟨hx, haccessor, -⟩, hpath, hparameters⟩
    refine ⟨hx, haccessor, ?_, pathEndsWith_iff.mp hpath, hparameters⟩
    rw [Bool.eq_false_iff]
    intro hconstructor
    have hsame := lastSegment_of_pathEndsWith hpath
    rcases hs.lastSegment_of_isConstructor hx hconstructor with hlast | hlast
    · exact hbase.constructor (hsame.symm.trans hlast)
    · exact hbase.staticConstructor (hsame.symm.trans hlast)
  · rintro ⟨hx, haccessor, -, hpath, hparameters⟩
    have hpath := pathEndsWith_iff.mpr hpath
    exact ⟨⟨hx, haccessor, hs.name_eq hx haccessor hbase hpath⟩, hpath, hparameters⟩

theorem nodup_declarationsCalled (hs : s.tables.Closed) (base : String) (list : Option String)
    (methodsOnly : Bool) : (s.declarationsCalled base list methodsOnly).Nodup := by
  have hnamed : ∀ name, (s.declarationsNamed name).Nodup := by
    intro name
    unfold declarationsNamed
    rw [(List.mergeSort_perm _ _).nodup_iff]
    exact hs.nodup_values.filter _
  have hfound : ∀ (p : Symbol → Bool) name, (if methodsOnly then
      ((s.declarationsNamed name).filter p).filter fun d => d.kind == .method
      else (s.declarationsNamed name).filter p).Nodup := by
    intro p name
    split
    next => exact ((hnamed name).filter p).filter _
    next => exact (hnamed name).filter p
  unfold declarationsCalled
  cases list with
  | none => exact hfound _ _
  | some list => exact (hfound _ _).filter _

/-- The type in front of a name that falls back has no member for it. -/
theorem FallsBack.resolveMembers?_eq_none (hbase : s.FallsBack base) {owner : Symbol}
    {member : String} (howner : s.ownerAndName? base = some (owner, member))
    (list : Option String) : s.resolveMembers? owner member list = none := by
  unfold ownerAndName? at howner
  obtain ⟨⟨typeName, last⟩, hparts, hrest⟩ := Option.bind_eq_some_iff.mp howner
  obtain ⟨found, hfound, hpair⟩ := Option.bind_eq_some_iff.mp hrest
  obtain ⟨rfl, rfl⟩ := Prod.mk.inj (Option.some.inj hpair)
  have hlast : last = Signature.lastSegment base := by
    rcases Signature.splitMember?_cases hbase.constructor with ⟨hnone, -⟩ | ⟨type, htype⟩
    · cases hnone.symm.trans hparts
    · exact congrArg Prod.snd (Option.some.inj (hparts.symm.trans htype))
  have hordinary : last ≠ Signature.constructorName := by
    have hundotted := Signature.undotted_lastSegment base
    rw [← hlast] at hundotted
    rintro rfl
    exact hundotted (by decide)
  have hempty : s.membersNamed found last = [] := by
    unfold membersNamed
    rw [List.filter_eq_nil_iff]
    intro m hm
    rw [beq_iff_eq, hlast]
    exact hbase.memberless typeName last found hparts hfound m hm
  unfold resolveMembers? membersCalled
  rw [if_neg hordinary, hempty]

/-- A name that nothing else answers for is looked up among all declarations. -/
theorem FallsBack.resolveName_eq (hbase : s.FallsBack base) {name : String}
    (hsplit : Signature.split name = (base, list)) :
    s.resolveName name = s.resolveDeclaration base list false := by
  unfold resolveName resolveTypeName?
  rw [hsplit]
  simp only []
  rw [typeNamed?_eq_none hbase.untyped]
  cases howner : s.ownerAndName? base with
  | none => rfl
  | some pair =>
      rw [Option.bind_eq_bind, Option.bind_eq_bind, Option.bind_none, Option.bind_some,
        hbase.resolveMembers?_eq_none howner list]
      rfl

/-- A partial name stands for just the symbols whose path ends with it, in a document whose types
have no empty segment in their names and whose members have no dot in theirs. -/
theorem resolve_answers {disk : Disk} {data : Value} {root : String} {sourcePath : Option String}
    (hs : ofDocument disk data root sourcePath = .ok s) (hmembers : Index.UndottedMembers data)
    (htypes : ∀ name ∈ s.tables.typeNames.keys, Signature.Segmented name) {name : String}
    (hsplit : Signature.split name = (base, list)) (hbase : s.FallsBack base) (accessors : Bool) :
    ∃ result, s.resolve (.named name) accessors = .ok result ∧
      ((∀ x, ¬ s.Answers base list x) → result = .notFound (.noSymbol base list)) ∧
      (∀ x, (∀ y, s.Answers base list y ↔ y = x) → result = .resolved x) ∧
      ((∃ x y, s.Answers base list x ∧ s.Answers base list y ∧ x ≠ y) →
        ∃ candidates, result = .ambiguous candidates none ∧ candidates.Nodup ∧
          ∀ x, x ∈ candidates ↔ s.Answers base list x) := by
  have hcalled := wellCalled_of_ofDocument hs hmembers htypes
  have hall : ∀ x, x ∈ s.declarationsCalled base list false ↔ s.Answers base list x :=
    fun x => hcalled.mem_declarationsCalled_iff hbase
  have hdistinct := nodup_declarationsCalled hcalled.closed base list false
  obtain ⟨hnone, hsole, hseveral⟩ := ofCandidates_of_nodup hdistinct hall (.noSymbol base list)
  have hresolve := hbase.resolveName_eq hsplit
  refine ⟨s.resolveDeclaration base list false, congrArg Except.ok hresolve, hnone, hsole, ?_⟩
  intro hdifferent
  exact ⟨s.declarationsCalled base list false, hseveral hdifferent, hdistinct, hall⟩

/-- A stall with items on a shelf, which are added by their number or by their name, and a store
with items of its own. -/
def stallDocument : Value :=
  let adding (type : String) : Value :=
    .mapping [(.text "name", .text "Add"), (.text "parameters", .list [.text type])]
  .mapping [(.text "types", .list [
    .mapping [(.text "name", .text "Stall.Shelf+Item"),
      (.text "members", .list [adding "int", adding "string"])],
    .mapping [(.text "name", .text "Store.Item")]])]

theorem resolve_answers_stall : ∃ s x y,
    ofDocument .empty stallDocument "/work" none = .ok s ∧ Index.UndottedMembers stallDocument ∧
      (∀ name ∈ s.tables.typeNames.keys, Signature.Segmented name) ∧
      Signature.split "Item.Add" = ("Item.Add", none) ∧ s.FallsBack "Item.Add" ∧
      s.Answers "Item.Add" none x ∧ s.Answers "Item.Add" none y ∧ x ≠ y ∧
      ∃ candidates, s.resolve (.named "Item.Add") false = .ok (.ambiguous candidates none) ∧
        candidates.Nodup ∧ ∀ z, z ∈ candidates ↔ s.Answers "Item.Add" none z := by
  let plain (x : Symbol) : Bool :=
    !x.isAccessor && !x.isConstructor && x.path == "Stall.Shelf" ++ "." ++ "Item.Add"
  have hfacts : (ofDocument .empty stallDocument "/work" none).toOption.any (fun s =>
      decide (∀ name ∈ s.tables.typeNames.keys, Signature.Segmented name) &&
      !s.tables.typeNames.contains "Item.Add" && (s.typeNamed? "Item").isNone &&
      (s.symbol? "M:Stall.Shelf+Item.Add(System.Int32)").any plain &&
      (s.symbol? "M:Stall.Shelf+Item.Add(System.String)").any plain) = true := by
    decide +kernel
  obtain ⟨s, hs, hfacts⟩ := Attempt.exists_ok_of_any hfacts
  simp only [Bool.and_eq_true, decide_eq_true_eq, Bool.not_eq_true'] at hfacts
  obtain ⟨⟨⟨⟨htypes, huntyped⟩, hfree⟩, hnumber⟩, hname⟩ := hfacts
  have hclosed := (wellFormed_of_ofDocument hs).closed
  have hmembers : Index.UndottedMembers stallDocument := by decide +kernel
  have hparts : Signature.splitMember? "Item.Add" = some ("Item", "Add") := by decide +kernel
  have hbase : s.FallsBack "Item.Add" := by
    refine ⟨huntyped, ?_, by decide +kernel, by decide +kernel⟩
    intro type member owner hother howner
    obtain ⟨rfl, rfl⟩ := Prod.mk.inj (Option.some.inj (hparts.symm.trans hother))
    rw [Option.isNone_iff_eq_none.mp hfree] at howner
    cases howner
  have hanswers : ∀ x, Holds s.tables.symbols x → plain x = true → s.Answers "Item.Add" none x := by
    intro x hx hplain
    simp only [plain, Bool.and_eq_true, Bool.not_eq_true', beq_iff_eq] at hplain
    exact ⟨hx, hplain.1.1, hplain.1.2, .inr ⟨_, hplain.2⟩, by simp⟩
  obtain ⟨x, hx, hxid, hxplain⟩ := hclosed.exists_holds_of_any hnumber
  obtain ⟨y, hy, hyid, hyplain⟩ := hclosed.exists_holds_of_any hname
  have hne : x ≠ y := by
    rintro rfl
    exact absurd (hxid.symm.trans hyid) (by decide)
  have hsplit : Signature.split "Item.Add" = ("Item.Add", none) := by decide +kernel
  obtain ⟨result, hresult, -, -, hseveral⟩ := resolve_answers hs hmembers htypes hsplit hbase false
  obtain ⟨candidates, rfl, hdistinct, hall⟩ :=
    hseveral ⟨x, y, hanswers x hx hxplain, hanswers y hy hyplain, hne⟩
  exact ⟨s, x, y, hs, hmembers, htypes, hsplit, hbase, hanswers x hx hxplain,
    hanswers y hy hyplain, hne, candidates, hresult, hdistinct, hall⟩

end Snapshot
end SymbolAtlas
