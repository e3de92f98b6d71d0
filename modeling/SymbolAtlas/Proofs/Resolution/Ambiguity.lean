import SymbolAtlas.Proofs.Resolution.Declaration
import SymbolAtlas.Proofs.Resolution.Kind
import SymbolAtlas.Proofs.Resolution.Overload
import Mathlib.Tactic

/-!
# Ambiguous results

Candidates that a target leaves open are entries of their own, and there are two of them at least:
a name with only one candidate is resolved.  A target that is itself a type is the exception.  Where
a method is wanted it stands for a declared constructor and never for an ordinary method, so that a
type with one ordinary method and no declared constructor leaves this method as the only candidate.
-/

namespace SymbolAtlas

open Tables

namespace Resolution

/-- Candidates are different symbols, and several unless the owner excuses a single one. -/
def LeavesOpen (excused : Symbol → Symbol → Prop) : Resolution → Prop
  | .ambiguous candidates owner => candidates.Nodup ∧
      (2 ≤ candidates.length ∨ ∃ type ∈ owner, ∃ m, candidates = [m] ∧ excused type m)
  | .resolved _ => True
  | .notFound _ => True

variable {excused : Symbol → Symbol → Prop} {result : Resolution} {methods : List Symbol}

/-- Where nothing is excused there is more than one candidate. -/
theorem LeavesOpen.two_le {candidates : List Symbol} {owner : Option Symbol}
    (h : (Resolution.ambiguous candidates owner).LeavesOpen fun _ _ => False) :
    2 ≤ candidates.length := by
  obtain ⟨-, hseveral | ⟨-, -, -, -, hfalse⟩⟩ := h
  · exact hseveral
  · exact hfalse.elim

/-- What one reason excuses, a weaker one does. -/
theorem LeavesOpen.imp {weaker : Symbol → Symbol → Prop} (h : result.LeavesOpen excused)
    (himp : ∀ type m, excused type m → weaker type m) : result.LeavesOpen weaker := by
  cases result with
  | ambiguous candidates owner =>
      refine ⟨h.1, h.2.imp_right ?_⟩
      rintro ⟨type, htype, m, hsingle, hexcused⟩
      exact ⟨type, htype, m, hsingle, himp type m hexcused⟩
  | resolved _ => trivial
  | notFound _ => trivial

theorem leavesOpen_several (hdistinct : methods.Nodup) (hseveral : 2 ≤ methods.length)
    (owner : Option Symbol) : (Resolution.ambiguous methods owner).LeavesOpen excused :=
  ⟨hdistinct, Or.inl hseveral⟩

theorem leavesOpen_getD {found : Option Resolution} {otherwise : Resolution}
    (hfound : ∀ r, found = some r → r.LeavesOpen excused)
    (hotherwise : otherwise.LeavesOpen excused) : (found.getD otherwise).LeavesOpen excused := by
  cases found with
  | none => exact hotherwise
  | some r => exact hfound r rfl

theorem leavesOpen_ofCandidates (hdistinct : methods.Nodup) (absence : Absence) :
    (ofCandidates methods absence).LeavesOpen excused := by
  match methods, hdistinct with
  | [], _ => trivial
  | [_], _ => trivial
  | first :: second :: rest, hdistinct => exact leavesOpen_several hdistinct (by simp) none

/-- Methods among which no choice is made without a list are several, if there are any. -/
theorem two_le_of_choose?_eq_none (hnone : choose? methods none = none) (hany : methods ≠ []) :
    2 ≤ methods.length := by
  match methods, hnone, hany with
  | [m], hnone, _ => cases hnone
  | _ :: _ :: _, _, _ => simp

/-- What remains of methods without a choice: nothing that matches a list, or all of them. -/
theorem leavesOpen_unchosen (hdistinct : methods.Nodup) (hany : methods ≠ [])
    {list : Option String} (hnone : choose? methods list = none) (owner : Option Symbol)
    (absence : Absence) :
    (if list.isSome then Resolution.notFound absence else .ambiguous methods owner).LeavesOpen
      excused := by
  cases list with
  | none => exact leavesOpen_several hdistinct (two_le_of_choose?_eq_none hnone hany) owner
  | some list => trivial

end Resolution

namespace Snapshot

open Resolution

/-- The ordinary methods that a type declares. -/
def ordinaryMethodsOf (s : Snapshot) (type : Symbol) : List Symbol :=
  (s.membersOf type).filter fun m =>
    m.kind == .method && m.methodKind == some .ordinary && !m.isImplicit

/-- The type declares no constructor, and the method is its only ordinary one. -/
structure OffersOnly (s : Snapshot) (type m : Symbol) : Prop where
  constructors : s.explicitConstructorsOf type = []
  methods : s.ordinaryMethodsOf type = [m]

/-- The target is the type itself: its name without a parameter list, or a position at it. -/
def PointsTo (s : Snapshot) (type : Symbol) : Target → Prop
  | .named name =>
      (Signature.split name).2 = none ∧ s.typeNamed? (Signature.split name).1 = some type
  | .at file p =>
      ∃ name, file = .text name ∧ s.symbolAt? name p = some type ∧ type.kind = .namedType

variable {s : Snapshot} {type owner m : Symbol} {name base file : String} {list : Option String}
  {p : Position} {result : Resolution} {excused : Symbol → Symbol → Prop}

namespace WellKinded

theorem nodup_membersOf (hs : s.WellKinded) (type : Symbol) : (s.membersOf type).Nodup :=
  Snapshot.nodup_membersOf hs.closed hs.owned

theorem nodup_explicitConstructorsOf (hs : s.WellKinded) (type : Symbol) :
    (s.explicitConstructorsOf type).Nodup :=
  ((hs.nodup_membersOf type).filter _).filter _

theorem nodup_callableConstructorsOf (hs : s.WellKinded) (type : Symbol) :
    (s.callableConstructorsOf type).Nodup := by
  unfold callableConstructorsOf
  split
  next => exact (hs.nodup_membersOf type).filter _
  next => exact hs.nodup_explicitConstructorsOf type

theorem nodup_membersCalled (hs : s.WellKinded) (owner : Symbol) (name : String) :
    (s.membersCalled owner name).Nodup := by
  unfold membersCalled
  split
  next => exact hs.nodup_callableConstructorsOf owner
  next => exact (hs.nodup_membersOf owner).filter _

/-! ## Any symbol -/

theorem leavesOpen_resolveDeclaration (hs : s.WellKinded) (methodsOnly : Bool) :
    (s.resolveDeclaration base list methodsOnly).LeavesOpen excused :=
  leavesOpen_ofCandidates (nodup_declarationsCalled hs.closed base list methodsOnly) _

theorem leavesOpen_resolveMembers? (hs : s.WellKinded)
    (hresult : s.resolveMembers? owner name list = some result) : result.LeavesOpen excused := by
  unfold resolveMembers? at hresult
  split at hresult
  next => cases hresult
  next members hany =>
    split at hresult
    next =>
      obtain rfl := Option.some.inj hresult
      trivial
    next hnone =>
      obtain rfl := Option.some.inj hresult
      exact leavesOpen_unchosen (hs.nodup_membersCalled owner name) hany hnone none _

theorem leavesOpen_resolveTypeName? (hresult : s.resolveTypeName? base list = some result) :
    result.LeavesOpen excused := by
  obtain ⟨type, -, hresult⟩ := Option.bind_eq_some_iff.mp hresult
  cases list with
  | none =>
      obtain rfl := Option.some.inj hresult
      trivial
  | some list =>
      obtain ⟨chosen, -, rfl⟩ := Option.map_eq_some_iff.mp hresult
      trivial

theorem leavesOpen_resolveName (hs : s.WellKinded) (target : String) :
    (s.resolveName target).LeavesOpen excused := by
  unfold resolveName
  simp only []
  apply leavesOpen_getD
  · intro r hr
    simp only [Option.orElse_eq_orElse, Option.orElse_eq_or, Option.or_eq_some_iff,
      Option.bind_eq_bind, Option.bind_eq_some_iff] at hr
    rcases hr with htype | ⟨-, _, -, hmember⟩
    · exact leavesOpen_resolveTypeName? htype
    · exact hs.leavesOpen_resolveMembers? hmember
  · exact hs.leavesOpen_resolveDeclaration false

theorem leavesOpen_resolveAt (accessors : Bool) (shown : String) :
    (s.resolveAt file p accessors shown).LeavesOpen excused := by
  unfold resolveAt
  split
  next => trivial
  next => split <;> trivial

/-! ## Methods -/

/-- No constructor is an ordinary method. -/
theorem nodup_constructors_append_methods (hs : s.WellKinded) (type : Symbol) :
    (s.explicitConstructorsOf type ++ s.ordinaryMethodsOf type).Nodup := by
  refine List.nodup_append.mpr
    ⟨hs.nodup_explicitConstructorsOf type, (hs.nodup_membersOf type).filter _, ?_⟩
  rintro c hc _ hm rfl
  have hconstructor := (mem_constructorsOf_iff.mp (List.mem_of_mem_filter hc)).2
  have hordinary := (List.mem_filter.mp hm).2
  rcases hconstructor with hkind | hkind <;> simp [hkind] at hordinary

/-- A type's name leaves open what the type declares, be it a single ordinary method. -/
theorem leavesOpen_resolveTypeAsMethod (hs : s.WellKinded) (type : Symbol)
    (list : Option String) : (s.resolveTypeAsMethod type list).LeavesOpen fun owner m =>
      list = none ∧ owner = type ∧ s.OffersOnly owner m := by
  cases list with
  | some list =>
      unfold resolveTypeAsMethod
      simp only []
      split <;> trivial
  | none =>
      have hdistinct := hs.nodup_constructors_append_methods type
      have hmethods : (s.membersOf type).filter (fun m => m.kind == .method &&
          m.methodKind == some .ordinary && !m.isImplicit) = s.ordinaryMethodsOf type := rfl
      unfold resolveTypeAsMethod
      simp only [hmethods]
      cases hdeclared : s.explicitConstructorsOf type with
      | nil =>
          cases hordinary : s.ordinaryMethodsOf type with
          | nil => trivial
          | cons m others =>
              cases others with
              | nil =>
                  exact ⟨List.nodup_singleton m,
                    Or.inr ⟨type, rfl, m, rfl, trivial, rfl, hdeclared, hordinary⟩⟩
              | cons =>
                  rw [hdeclared, hordinary] at hdistinct
                  exact leavesOpen_several hdistinct (by simp) (some type)
      | cons c others =>
          cases others with
          | nil => trivial
          | cons =>
              rw [hdeclared] at hdistinct
              exact leavesOpen_several hdistinct (by simp) (some type)

theorem leavesOpen_resolveConstructor (hs : s.WellKinded) :
    (s.resolveConstructor owner list).LeavesOpen excused := by
  unfold resolveConstructor
  simp only []
  split
  next => trivial
  next hnone =>
    split
    next => trivial
    next hopen =>
      simp only [Bool.or_eq_true, not_or, Bool.not_eq_true, Option.isSome_eq_false_iff,
        Option.isNone_iff_eq_none, List.isEmpty_eq_false_iff] at hopen
      obtain ⟨rfl, hany⟩ := hopen
      exact leavesOpen_several (hs.nodup_callableConstructorsOf owner)
        (two_le_of_choose?_eq_none hnone hany) (some owner)

theorem leavesOpen_resolveMemberAsMethod? (hs : s.WellKinded)
    (hresult : s.resolveMemberAsMethod? owner name list = some result) :
    result.LeavesOpen excused := by
  unfold resolveMemberAsMethod? at hresult
  split at hresult
  next =>
    obtain rfl := Option.some.inj hresult
    exact hs.leavesOpen_resolveConstructor
  next =>
    simp only [] at hresult
    split at hresult
    next =>
      obtain rfl := Option.some.inj hresult
      trivial
    next =>
      split at hresult
      next => cases hresult
      next methods hany =>
        split at hresult
        next =>
          obtain rfl := Option.some.inj hresult
          trivial
        next hnone =>
          obtain rfl := Option.some.inj hresult
          have hdistinct := ((hs.nodup_membersOf owner).filter fun m => m.name == name).filter
            fun m => m.kind == .method && !m.isImplicit
          exact leavesOpen_unchosen hdistinct hany hnone (some owner) _

theorem leavesOpen_resolveMethodName (hs : s.WellKinded) (target : String) :
    (s.resolveMethodName target).LeavesOpen fun type m =>
      s.PointsTo type (.named target) ∧ s.OffersOnly type m := by
  unfold resolveMethodName
  simp only []
  split
  next type htype =>
    refine (hs.leavesOpen_resolveTypeAsMethod type _).imp ?_
    rintro _ m ⟨hlist, rfl, hoffers⟩
    exact ⟨⟨hlist, htype⟩, hoffers⟩
  next =>
    apply leavesOpen_getD
    · intro r hr
      obtain ⟨_, -, hmember⟩ := Option.bind_eq_some_iff.mp hr
      exact hs.leavesOpen_resolveMemberAsMethod? hmember
    · exact hs.leavesOpen_resolveDeclaration true

theorem leavesOpen_symbolAsMethod? (hs : s.WellKinded) {x : Symbol} {accessors : Bool}
    (hresult : s.symbolAsMethod? x accessors = some result) :
    result.LeavesOpen fun type m =>
      type = x ∧ x.kind = .namedType ∧ s.OffersOnly type m := by
  unfold symbolAsMethod? at hresult
  split at hresult
  next =>
    obtain rfl := Option.some.inj hresult
    trivial
  next =>
    split at hresult
    next =>
      obtain ⟨accessor, -, rfl⟩ := Option.map_eq_some_iff.mp hresult
      trivial
    next => cases hresult
  next hkind =>
    obtain rfl := Option.some.inj hresult
    refine (hs.leavesOpen_resolveTypeAsMethod x none).imp ?_
    rintro _ m ⟨-, rfl, hoffers⟩
    exact ⟨rfl, hkind, hoffers⟩
  next => cases hresult

theorem leavesOpen_resolveMethodAt (hs : s.WellKinded) (accessors : Bool) (shown : String) :
    (s.resolveMethodAt file p accessors shown).LeavesOpen fun type m =>
      s.PointsTo type (.at (.text file) p) ∧ s.OffersOnly type m := by
  unfold resolveMethodAt
  simp only []
  split
  next result hresult =>
    obtain ⟨symbol, hsymbol, hmethod⟩ := Option.bind_eq_some_iff.mp hresult
    refine (hs.leavesOpen_symbolAsMethod? hmethod).imp ?_
    rintro _ m ⟨rfl, hkind, hoffers⟩
    exact ⟨⟨file, rfl, hsymbol, hkind⟩, hoffers⟩
  next =>
    split
    next => split <;> trivial
    next => trivial

/-! ## Types -/

/-- Several types around the candidates are left open, and a single one is resolved. -/
theorem leavesOpen_typeOfResolution (s : Snapshot) (name : String) (result : Resolution) :
    (s.typeOfResolution name result).LeavesOpen excused := by
  unfold typeOfResolution
  split
  next => trivial
  next => split <;> trivial
  next => trivial
  next candidates =>
    have hdistinct := nodup_distinctSymbols (candidates.filterMap s.enclosingType?)
    match htypes : distinctSymbols (candidates.filterMap s.enclosingType?), hdistinct with
    | [], _ => trivial
    | [_], _ => trivial
    | first :: second :: rest, hdistinct =>
        have hperm := List.mergeSort_perm (first :: second :: rest) Symbol.precedes
        refine leavesOpen_several (hperm.nodup_iff.mpr hdistinct) ?_ none
        rw [hperm.length_eq]
        simp

theorem leavesOpen_resolveTypeOf (s : Snapshot) (target : String) :
    (s.resolveTypeOf target).LeavesOpen excused := by
  unfold resolveTypeOf
  split
  next => trivial
  next => exact leavesOpen_typeOfResolution s _ _

theorem leavesOpen_resolveTypeAt (s : Snapshot) (shown : String) :
    (s.resolveTypeAt file p shown).LeavesOpen excused := by
  unfold resolveTypeAt
  split <;> trivial

/-! ## Targets -/

theorem leavesOpen_resolve (hs : s.WellKinded) {target : Target} {accessors : Bool}
    (hresult : s.resolve target accessors = .ok result) : result.LeavesOpen excused := by
  cases target with
  | named name =>
      obtain rfl := Except.ok.inj hresult
      exact hs.leavesOpen_resolveName name
  | «at» file p =>
      obtain ⟨name, -, rfl⟩ := exists_file hresult
      exact leavesOpen_resolveAt accessors _

theorem leavesOpen_resolveMethod (hs : s.WellKinded) {target : Target} {accessors : Bool}
    (hresult : s.resolveMethod target accessors = .ok result) :
    result.LeavesOpen fun type m => s.PointsTo type target ∧ s.OffersOnly type m := by
  cases target with
  | named name =>
      obtain rfl := Except.ok.inj hresult
      exact hs.leavesOpen_resolveMethodName name
  | «at» file p =>
      obtain ⟨name, rfl, rfl⟩ := exists_file hresult
      exact hs.leavesOpen_resolveMethodAt accessors _

theorem leavesOpen_resolveType {target : Target} (hresult : s.resolveType target = .ok result) :
    result.LeavesOpen excused := by
  cases target with
  | named name =>
      obtain rfl := Except.ok.inj hresult
      exact leavesOpen_resolveTypeOf s name
  | «at» file p =>
      obtain ⟨name, -, rfl⟩ := exists_file hresult
      exact leavesOpen_resolveTypeAt s _

end WellKinded

/-- Different entries have different ids. -/
theorem nodup_ids_of_holds {symbols : List Symbol}
    (hheld : ∀ x ∈ symbols, Holds s.tables.symbols x) (hdistinct : symbols.Nodup) :
    (symbols.map Symbol.id).Nodup := by
  refine hdistinct.map_on fun x hx y hy hid => ?_
  have hfound : s.tables.symbols.get? x.id = some x := hheld x hx
  rw [hid] at hfound
  exact Option.some.inj (hfound.symm.trans (hheld y hy))

/-- A type without a declared constructor and with one ordinary method leaves this method open. -/
theorem resolveTypeAsMethod_of_offersOnly (hoffers : s.OffersOnly type m) :
    s.resolveTypeAsMethod type none = .ambiguous [m] (some type) := by
  have hmethods : (s.membersOf type).filter (fun m => m.kind == .method &&
      m.methodKind == some .ordinary && !m.isImplicit) = [m] := hoffers.methods
  simp only [resolveTypeAsMethod, hoffers.constructors, hmethods, List.nil_append]

theorem resolveMethod_of_offersOnly {target : Target} (htarget : s.PointsTo type target)
    (hoffers : s.OffersOnly type m) (accessors : Bool) :
    s.resolveMethod target accessors = .ok (.ambiguous [m] (some type)) := by
  have hlone := resolveTypeAsMethod_of_offersOnly hoffers
  cases target with
  | named name =>
      obtain ⟨hlist, htype⟩ := htarget
      simp only [resolveMethod, resolveMethodName, htype, hlist, hlone]
  | «at» file p =>
      obtain ⟨name, rfl, hsymbol, hkind⟩ := htarget
      simp only [resolveMethod, fileOfTarget, Except.map, resolveMethodAt, hsymbol,
        Option.bind_some, symbolAsMethod?, hkind, hlone]

/-- In every loaded document the candidates that a target leaves open have different ids, and there
are two of them at least, unless a method is wanted and the target is itself a type that declares no
constructor and a single ordinary method: this method is then the only candidate. -/
theorem candidates_left_open {disk : Disk} {data : Value} {root : String}
    {sourcePath : Option String} (hs : ofDocument disk data root sourcePath = .ok s)
    (target : Target) (accessors : Bool) (candidates : List Symbol) (owner : Option Symbol) :
    (s.resolve target accessors = .ok (.ambiguous candidates owner) →
      (candidates.map Symbol.id).Nodup ∧ 2 ≤ candidates.length) ∧
    (s.resolveType target = .ok (.ambiguous candidates owner) →
      (candidates.map Symbol.id).Nodup ∧ 2 ≤ candidates.length) ∧
    (s.resolveMethod target accessors = .ok (.ambiguous candidates owner) →
      (candidates.map Symbol.id).Nodup ∧ (2 ≤ candidates.length ∨
        ∃ type m, owner = some type ∧ candidates = [m] ∧ s.PointsTo type target ∧
          s.OffersOnly type m)) ∧
    ∀ type m, s.PointsTo type target → s.OffersOnly type m →
      s.resolveMethod target accessors = .ok (.ambiguous [m] (some type)) := by
  have hwell := wellKinded_of_ofDocument hs
  refine ⟨fun hresult => ?_, fun hresult => ?_, fun hresult => ?_, ?_⟩
  · have hopen : (Resolution.ambiguous candidates owner).LeavesOpen fun _ _ => False :=
      hwell.leavesOpen_resolve hresult
    exact ⟨nodup_ids_of_holds (hwell.yields_resolve hresult).1 hopen.1, hopen.two_le⟩
  · have hopen : (Resolution.ambiguous candidates owner).LeavesOpen fun _ _ => False :=
      WellKinded.leavesOpen_resolveType hresult
    have hheld := fun c hc => ((hwell.yields_resolveType hresult).1 c hc).1
    exact ⟨nodup_ids_of_holds hheld hopen.1, hopen.two_le⟩
  · obtain ⟨hdistinct, hseveral⟩ := hwell.leavesOpen_resolveMethod hresult
    have hheld := fun c hc => ((hwell.yields_resolveMethod hresult).1 c hc).1
    refine ⟨nodup_ids_of_holds hheld hdistinct, hseveral.imp_right ?_⟩
    rintro ⟨type, htype, m, hsingle, htarget, hoffers⟩
    exact ⟨type, m, htype, hsingle, htarget, hoffers⟩
  · intro type m htarget hoffers
    exact resolveMethod_of_offersOnly htarget hoffers accessors

/-- A hub that sends numbers and texts, and a lamp that does one thing only. -/
def hubDocument : Value :=
  let sends (type : String) := .mapping [(.text "name", .text "Send"),
    (.text "parameters", .list [.text type])]
  let light := .mapping [(.text "name", .text "Light")]
  .mapping [(.text "types", .list
    [ .mapping [(.text "name", .text "Hub"), (.text "members", .list [sends "int", sends "string"])],
      .mapping [(.text "name", .text "Lamp"), (.text "members", .list [light])]])]

/-- What the names of the hub and of the lamp leave open. -/
theorem exists_hub : ∃ s several hub light lamp,
    ofDocument .empty hubDocument "/work" none = .ok s ∧
      s.resolve (.named "Hub.Send") false = .ok (.ambiguous several none) ∧
        s.resolveMethod (.named "Hub") false = .ok (.ambiguous several (some hub)) ∧
          s.resolveMethod (.named "Lamp") false = .ok (.ambiguous [light] (some lamp)) := by
  have hfacts : (ofDocument .empty hubDocument "/work" none).toOption.any (fun s =>
      (s.symbol? "T:Hub").any fun hub => (s.symbol? "T:Lamp").any fun lamp =>
      (s.symbol? "M:Lamp.Light()").any fun light =>
      (some (s.membersNamed hub "Send")).any fun several => decide (
        .ambiguous several none ∈ (s.resolve (.named "Hub.Send") false).toOption ∧
        .ambiguous several (some hub) ∈ (s.resolveMethod (.named "Hub") false).toOption ∧
        .ambiguous [light] (some lamp) ∈ (s.resolveMethod (.named "Lamp") false).toOption)) =
          true := by
    decide +kernel
  obtain ⟨s, hs, hfacts⟩ := Attempt.exists_ok_of_any hfacts
  obtain ⟨hub, -, hfacts⟩ := (Option.any_eq_true _ _).mp hfacts
  obtain ⟨lamp, -, hfacts⟩ := (Option.any_eq_true _ _).mp hfacts
  obtain ⟨light, -, hfacts⟩ := (Option.any_eq_true _ _).mp hfacts
  obtain ⟨hsend, hhub, hlamp⟩ := of_decide_eq_true hfacts
  exact ⟨s, _, hub, light, lamp, hs, Attempt.mem_toOption_iff.mp hsend,
    Attempt.mem_toOption_iff.mp hhub, Attempt.mem_toOption_iff.mp hlamp⟩

theorem candidates_left_open_hub : ∃ s several hub light lamp,
    ofDocument .empty hubDocument "/work" none = .ok s ∧
      s.resolve (.named "Hub.Send") false = .ok (.ambiguous several none) ∧
        (several.map Symbol.id).Nodup ∧ 2 ≤ several.length ∧
      s.resolveMethod (.named "Hub") false = .ok (.ambiguous several (some hub)) ∧
        (2 ≤ several.length ∨
          ∃ type m, some hub = some type ∧ several = [m] ∧ s.PointsTo type (.named "Hub") ∧
            s.OffersOnly type m) ∧
      s.resolveMethod (.named "Lamp") false = .ok (.ambiguous [light] (some lamp)) ∧
        s.PointsTo lamp (.named "Lamp") ∧ s.OffersOnly lamp light ∧
          s.resolveMethod (.named "Lamp") true = .ok (.ambiguous [light] (some lamp)) := by
  obtain ⟨s, several, hub, light, lamp, hs, hsend, hhub, hlamp⟩ := exists_hub
  obtain ⟨hdistinct, hlength⟩ :=
    (candidates_left_open hs (.named "Hub.Send") false several none).1 hsend
  have hmethods := (candidates_left_open hs (.named "Hub") false several (some hub)).2.2.1 hhub
  obtain ⟨-, hseveral | ⟨type, m, htype, hm, htarget, hoffers⟩⟩ :=
    (candidates_left_open hs (.named "Lamp") false [light] (some lamp)).2.2.1 hlamp
  · simp at hseveral
  obtain rfl := Option.some.inj htype
  obtain rfl := List.head_eq_of_cons_eq hm
  have hlone := (candidates_left_open hs (.named "Lamp") true [light] (some lamp)).2.2.2 lamp
    light htarget hoffers
  exact ⟨s, several, hub, light, lamp, hs, hsend, hdistinct, hlength, hhub, hmethods.2, hlamp,
    htarget, hoffers, hlone⟩

/-- The name of the lamp leaves its only method open where a method is wanted. -/
theorem lone_candidate_left_open : ∃ s candidates owner,
    ofDocument .empty hubDocument "/work" none = .ok s ∧
      s.resolveMethod (.named "Lamp") false = .ok (.ambiguous candidates owner) ∧
        ¬ 2 ≤ candidates.length := by
  obtain ⟨s, _, _, light, lamp, hs, -, -, hlamp⟩ := exists_hub
  exact ⟨s, [light], some lamp, hs, hlamp, by simp⟩

end Snapshot
end SymbolAtlas
