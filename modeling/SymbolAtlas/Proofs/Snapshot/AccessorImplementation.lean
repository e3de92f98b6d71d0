import SymbolAtlas.Classification
import SymbolAtlas.Proofs.Index.Implementation
import SymbolAtlas.Proofs.Snapshot.Counterpart
import SymbolAtlas.Proofs.Snapshot.Ownership
import Mathlib.Tactic

/-!
# Implementations of accessors

What implements an interface member by its signature is searched from the types that have whatever
the member lies in.  An accessor lies in its property, which no type has as an interface, so that an
accessor is implemented by nothing but the members that name it, and these are no accessors.  The
accessors of the properties that implement its property are not found.
-/

namespace SymbolAtlas

open Relation Tables

namespace Snapshot

variable {s : Snapshot} {p a x : Symbol} {write : Bool} {interface : String}

/-- The accessors of one side of the properties in a list. -/
def accessorsAmong (s : Snapshot) (write : Bool) (members : List Symbol) : List Symbol :=
  members.filterMap fun q => s.accessorFor? q write

/-- The kind of the accessors of one side. -/
def accessorKind (write : Bool) : MethodKind :=
  if write then .propertySet else .propertyGet

theorem hasAccessor_of_accessorFor? (hs : s.tables.Closed) (hequipped : s.tables.Equipped)
    (ha : s.accessorFor? p write = some a) :
    Holds s.tables.symbols a ∧ s.tables.HasAccessor p.id (accessorKind write) a.id := by
  have hfound : ∀ {id : Option String}, id.bind s.symbol? = some a →
      Holds s.tables.symbols a ∧ id = some a.id := by
    intro id hid
    obtain ⟨found, rfl, hget⟩ := Option.bind_eq_some_iff.mp hid
    obtain rfl : a.id = found := hs.ids.get? hget
    exact ⟨hget, rfl⟩
  unfold accessorFor? accessorsOf at ha
  split at ha
  next =>
    cases hpair : s.tables.accessors.get? p.id with
    | none =>
        rw [hpair] at ha
        cases write <;> cases ha
    | some pair =>
        obtain ⟨getter, setter⟩ := pair
        rw [hpair] at ha
        cases write with
        | false =>
            obtain ⟨hheld, hgetter⟩ := hfound ha
            exact ⟨hheld, (hequipped.hasAccessor_iff hpair a.id).1.mp hgetter⟩
        | true =>
            obtain ⟨hheld, hsetter⟩ := hfound ha
            exact ⟨hheld, (hequipped.hasAccessor_iff hpair a.id).2.mp hsetter⟩
  next => cases ha

theorem accessorKind_eq (write : Bool) :
    accessorKind write = .propertyGet ∨ accessorKind write = .propertySet := by
  cases write
  · exact Or.inl rfl
  · exact Or.inr rfl

theorem kind_ne_of_hasAccessor (hx : Holds s.tables.symbols x) {kind : MethodKind}
    (hside : s.tables.HasAccessor p.id kind x.id) : x.kind ≠ .namedType := by
  obtain ⟨-, found, hfound, hkind, -⟩ := hside
  obtain rfl : x = found := Option.some.inj (hx.symm.trans hfound)
  simp [hkind]

theorem isAccessor_of_hasAccessor (hx : Holds s.tables.symbols x)
    (hside : s.tables.HasAccessor p.id (accessorKind write) x.id) : x.isAccessor = true := by
  obtain ⟨-, found, hfound, -, hkind⟩ := hside
  obtain rfl : x = found := Option.some.inj (hx.symm.trans hfound)
  unfold Symbol.isAccessor
  rw [hkind]
  cases write <;> rfl

/-- Interfaces are types. -/
theorem isType_of_mem_interfaceIds (hlinks : s.tables.LinksTypes) {type : String}
    (hinterface : interface ∈ s.interfaceIds type) :
    KnownAs s.tables.symbols .namedType interface := by
  obtain ⟨-, start, -, hchain⟩ := mem_interfaceIds_iff.mp hinterface
  obtain ⟨last, -, hdeclares⟩ := TransGen.tail'_iff.mp hchain
  obtain ⟨ids, hids, hmem⟩ := Table.mem_listAt_iff.mp hdeclares
  exact (hlinks.interfaces.get? hids).2 interface hmem

/-- Nothing implements what lies in a property, unless it says so. -/
theorem mem_memberImplementations_iff_names (hs : s.tables.WellFormed)
    (hlinks : s.tables.LinksTypes) {property : String}
    (hproperty : KnownAs s.tables.symbols .property property)
    (hlies : s.tables.containing.get? a.id = some property) (hx : Holds s.tables.symbols x) :
    x ∈ s.memberImplementations a ↔ a.id ∈ s.tables.explicitImplementations.listAt x.id := by
  rw [mem_memberImplementations_iff hs hx]
  constructor
  · rintro ⟨interface, hinterface, hnamed | ⟨type, htype, -⟩⟩
    · exact hnamed
    · obtain rfl : property = interface := Option.some.inj (hlies.symm.trans hinterface)
      have hheld := holds_of_mem_sorted hs.closed htype
      obtain ⟨-, -, hhas⟩ := (mem_implementers_iff hs.closed hheld).mp htype
      obtain ⟨q, hq, hkind⟩ := hproperty
      obtain ⟨t, ht, htkind⟩ := isType_of_mem_interfaceIds hlinks hhas
      obtain rfl : q = t := Option.some.inj (hq.symm.trans ht)
      rw [hkind] at htkind
      cases htkind
  · intro hnamed
    exact ⟨property, hlies, Or.inl hnamed⟩

/-- What names something as implemented is no accessor. -/
theorem isAccessor_eq_false_of_names (hplainly : s.tables.NamesPlainly)
    (hx : Holds s.tables.symbols x)
    (hnamed : a.id ∈ s.tables.explicitImplementations.listAt x.id) : x.isAccessor = false := by
  obtain ⟨named, hget, -⟩ := Table.mem_listAt_iff.mp hnamed
  obtain ⟨found, hfound, hplain⟩ := hplainly x.id named hget
  obtain rfl : x = found := Option.some.inj (hx.symm.trans hfound)
  exact hplain

theorem isAccessor_of_mem_accessorsAmong (hs : s.tables.Closed) (hequipped : s.tables.Equipped)
    {members : List Symbol} (hx : x ∈ s.accessorsAmong write members) : x.isAccessor = true := by
  obtain ⟨q, -, hq⟩ := List.mem_filterMap.mp hx
  obtain ⟨hheld, hside⟩ := hasAccessor_of_accessorFor? hs hequipped hq
  exact isAccessor_of_hasAccessor hheld hside

/-- An accessor is implemented by the members that name it, and by no accessor.  It is therefore
implemented by the accessors of what implements its property only if there are neither. -/
theorem mem_implementationsOf_accessor_iff {disk : Disk} {data : Value} {root : String}
    {sourcePath : Option String} (hs : ofDocument disk data root sourcePath = .ok s)
    (ha : s.accessorFor? p write = some a) :
    (∀ x, x ∈ s.implementationsOf a ↔
      Holds s.tables.symbols x ∧ a.id ∈ s.tables.explicitImplementations.listAt x.id) ∧
    (∀ x ∈ s.implementationsOf a, x.isAccessor = false) ∧
    ((∀ x, x ∈ s.implementationsOf a ↔
        x ∈ s.accessorsAmong write (s.implementationsOf p)) ↔
      s.implementationsOf a = [] ∧ s.accessorsAmong write (s.implementationsOf p) = []) := by
  have htables := tables_of_ofDocument hs
  have hwell := wellFormed_of_ofDocument hs
  obtain ⟨howned, hequipped⟩ := Index.owned_of_tables htables
  obtain ⟨hheld, hside⟩ := hasAccessor_of_accessorFor? hwell.closed hequipped ha
  have hproperty := howned.property_of_hasAccessor (accessorKind_eq write) hside
  have hnames : ∀ x, x ∈ s.implementationsOf a ↔
      Holds s.tables.symbols x ∧ a.id ∈ s.tables.explicitImplementations.listAt x.id := by
    intro x
    rw [implementationsOf_member (kind_ne_of_hasAccessor hheld hside),
      ← and_iff_right_of_imp fun hx => holds_of_mem_memberImplementations hwell.closed hx]
    exact and_congr_right fun hx => mem_memberImplementations_iff_names hwell
      (linksTypes_of_ofDocument hs) hproperty hside.1 hx
  have hplain : ∀ x ∈ s.implementationsOf a, x.isAccessor = false := by
    intro x hx
    obtain ⟨hxHeld, hnamed⟩ := (hnames x).mp hx
    exact isAccessor_eq_false_of_names (Index.namesPlainly_of_tables htables) hxHeld hnamed
  have haccessor : ∀ x ∈ s.accessorsAmong write (s.implementationsOf p), x.isAccessor = true :=
    fun _ hx => isAccessor_of_mem_accessorsAmong hwell.closed hequipped hx
  refine ⟨hnames, hplain, ?_, ?_⟩
  · -- a common member would be an accessor and none
    intro hsame
    constructor
    · refine List.eq_nil_iff_forall_not_mem.mpr fun x hx => ?_
      simpa [hplain x hx] using haccessor x ((hsame x).mp hx)
    · refine List.eq_nil_iff_forall_not_mem.mpr fun x hx => ?_
      simpa [hplain x ((hsame x).mpr hx)] using haccessor x hx
  · rintro ⟨hnone, hnoneAmong⟩ x
    rw [hnone, hnoneAmong]

/-- A shape with an area that can be read and set, and a circle with an area that can be read and a
method that names the getter of the shape. -/
def areaDocument : Value :=
  let type (name kind : String) (more : List (Value × Value)) (members : List Value) : Value :=
    .mapping ((.text "name", .text name) :: (.text "kind", .text kind) ::
      (.text "members", .list members) :: more)
  let area (sides : List String) : Value := .mapping ((.text "kind", .text "property") ::
    (.text "name", .text "Area") :: sides.map fun side => (.text side, .bool true))
  let measure : Value := .mapping [(.text "name", .text "Measure"),
    (.text "implements", .text "IShape.get_Area")]
  .mapping [(.text "types", .list [type "IShape" "interface" [] [area ["get", "set"]],
    type "Circle" "class" [(.text "interfaces", .list [.text "IShape"])] [area ["get"], measure]])]

theorem mem_implementationsOf_accessor_iff_area : ∃ s area getter measure,
    ofDocument .empty areaDocument "/work" none = .ok s ∧
      [area, getter, measure].map Symbol.id =
        ["P:IShape.Area", "M:IShape.get_Area", "M:Circle.Measure()"] ∧
      s.accessorFor? area false = some getter ∧ measure ∈ s.implementationsOf getter := by
  have hfacts : (ofDocument .empty areaDocument "/work" none).toOption.any (fun s =>
      (s.symbol? "P:IShape.Area").any fun area => (s.symbol? "M:IShape.get_Area").any fun getter =>
        decide ((∀ id ∈ ["M:Circle.Measure()"], s.tables.symbols.contains id = true) ∧
          s.accessorFor? area false = some getter ∧ "M:IShape.get_Area" ∈
            s.tables.explicitImplementations.listAt "M:Circle.Measure()")) = true := by
    decide +kernel
  obtain ⟨s, hs, hfacts⟩ := Attempt.exists_ok_of_any hfacts
  have hclosed := (wellFormed_of_ofDocument hs).closed
  obtain ⟨area, -, hareaId, hfacts⟩ := hclosed.exists_holds_of_any hfacts
  obtain ⟨getter, -, hgetterId, hfacts⟩ := hclosed.exists_holds_of_any hfacts
  obtain ⟨hmeasure, haccessor, hnames⟩ := of_decide_eq_true hfacts
  obtain ⟨measure, hmeasureHeld, hmeasureId⟩ :=
    hclosed.exists_holds hmeasure _ (List.mem_singleton_self _)
  rw [← hgetterId, ← hmeasureId] at hnames
  exact ⟨s, area, getter, measure, hs, by simp [hareaId, hgetterId, hmeasureId], haccessor,
    ((mem_implementationsOf_accessor_iff hs haccessor).1 measure).mpr ⟨hmeasureHeld, hnames⟩⟩

/-- The area of the circle implements that of the shape, but its getter does not implement the
getter of the shape. -/
theorem getter_without_implementation : ∃ s shape area getter own ownGetter,
    ofDocument .empty areaDocument "/work" none = .ok s ∧
      isInterface shape = true ∧ area ∈ s.membersOf shape ∧
      s.accessorFor? area false = some getter ∧ own ∈ s.implementationsOf area ∧
      s.accessorFor? own false = some ownGetter ∧ ownGetter ∉ s.implementationsOf getter := by
  have hfacts : (ofDocument .empty areaDocument "/work" none).toOption.any (fun s =>
      (s.symbol? "T:IShape").any fun shape => (s.symbol? "T:Circle").any fun circle =>
      (s.symbol? "P:IShape.Area").any fun area => (s.symbol? "M:IShape.get_Area").any fun getter =>
      (s.symbol? "P:Circle.Area").any fun own => (s.symbol? "M:Circle.get_Area").any fun ownGetter =>
        decide (isInterface shape = true ∧ shape.kind = .namedType ∧ area.kind = .property ∧
          getter.kind ≠ .namedType ∧ circle.kind = .namedType ∧
          circle.typeKind.any TypeKind.isConcrete = true ∧
          s.accessorFor? area false = some getter ∧ s.accessorFor? own false = some ownGetter ∧
          (s.tables.membersOf "T:Circle").find? (s.hasSignatureOf area) = some own ∧
          "P:IShape.Area" ∈ s.tables.members.listAt "T:IShape" ∧
          s.tables.containing.get? "P:IShape.Area" = some "T:IShape" ∧
          s.tables.containing.get? "M:IShape.get_Area" = some "P:IShape.Area" ∧
          "T:IShape" ∈ s.tables.declaredInterfaces.listAt "T:Circle" ∧
          s.tables.explicitImplementations.listAt "M:Circle.get_Area" = [])) = true := by
    decide +kernel
  obtain ⟨s, hs, hfacts⟩ := Attempt.exists_ok_of_any hfacts
  have hwell := wellFormed_of_ofDocument hs
  obtain ⟨shape, -, hshapeId, hfacts⟩ := hwell.closed.exists_holds_of_any hfacts
  obtain ⟨circle, hcircle, hcircleId, hfacts⟩ := hwell.closed.exists_holds_of_any hfacts
  obtain ⟨area, harea, hareaId, hfacts⟩ := hwell.closed.exists_holds_of_any hfacts
  obtain ⟨getter, -, hgetterId, hfacts⟩ := hwell.closed.exists_holds_of_any hfacts
  obtain ⟨own, hown, -, hfacts⟩ := hwell.closed.exists_holds_of_any hfacts
  obtain ⟨ownGetter, hownGetter, hownGetterId, hfacts⟩ := hwell.closed.exists_holds_of_any hfacts
  obtain ⟨hinterface, hshapeKind, hkind, hgetterKind, hcircleKind, hconcrete, haccessor,
    hownAccessor, hfound, hlisted, hcontainer, hlies, hdeclares, hunnamed⟩ :=
    of_decide_eq_true hfacts
  rw [← hareaId] at hlisted hcontainer hlies
  rw [← hshapeId] at hlisted hcontainer hdeclares
  rw [← hcircleId] at hfound hdeclares
  rw [← hgetterId] at hlies
  rw [← hownGetterId] at hunnamed
  have hhas : shape.id ∈ s.interfaceIds circle.id := by
    refine mem_interfaceIds_iff.mpr ⟨?_, circle.id, Or.inl rfl, .single hdeclares⟩
    rw [hshapeId, hcircleId]
    decide
  have himplements : circle ∈ s.implementationsOf shape :=
    (mem_implementationsOf_interface_iff hwell.closed hshapeKind).mpr
      ⟨hcircle, hcircleKind, hconcrete, hhas⟩
  refine ⟨s, shape, area, getter, own, ownGetter, hs, hinterface,
    (mem_symbolsOf_iff hwell.closed harea).mpr hlisted, haccessor, ?_, hownAccessor, ?_⟩
  · exact (mem_implementationsOf_iff_hasSignature hwell (by simp [hkind]) hshapeKind
      hcontainer).mpr ⟨hown, Or.inr ⟨circle, himplements, .own hfound⟩⟩
  · rw [implementationsOf_member hgetterKind, mem_memberImplementations_iff_names hwell
      (linksTypes_of_ofDocument hs) ⟨area, harea, hkind⟩ hlies hownGetter, hunnamed]
    exact List.not_mem_nil

end Snapshot
end SymbolAtlas
