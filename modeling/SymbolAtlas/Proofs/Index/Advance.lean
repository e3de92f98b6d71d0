import SymbolAtlas.Proofs.Index.Chain
import SymbolAtlas.Proofs.Index.Growth
import SymbolAtlas.Proofs.Name.Signature
import Mathlib.Tactic

/-!
# Later passes only add metadata

Behind the first pass a draft grows by metadata alone: a name in a link, a body or a reference may
bring in a type or a member.  A step advances if it keeps drafts sound, lets them grow and puts
nothing off.  Chains and runs of advancing steps advance, so that bodies are read by advancing as
soon as names are resolved that way, and what tells the passes apart is in tables that no change
touches.
-/

namespace SymbolAtlas
namespace Building

open Draft Tables

variable {α β : Type} {d : Draft}

/-- From a sound draft a step leads to a sound one that has grown, and puts nothing off. -/
def Advances (step : Building α) : Prop :=
  ∀ d : Draft, d.Sound → Ensures step d fun _ d' => d'.Sound ∧ d.Evolves d'

theorem advances_pure (a : α) : Advances (pure a) := by
  intro d hd
  exact ensures_pure.mpr ⟨hd, Evolves.refl d⟩

theorem advances_get : Advances (get : Building Draft) := by
  intro d hd
  exact ensures_get.mpr ⟨hd, Evolves.refl d⟩

theorem advances_lift (x : Attempt α) : Advances (liftM x : Building α) := by
  intro d hd
  rw [ensures_lift]
  intro _ _
  exact ⟨hd, Evolves.refl d⟩

theorem Advances.bind {step : Building α} {next : α → Building β} (hstep : Advances step)
    (hnext : ∀ a, Advances (next a)) : Advances (step >>= next) := by
  intro d hd
  refine (hstep d hd).bind ?_
  rintro a d' ⟨hd', hfirst⟩
  refine (hnext a d' hd').imp ?_
  rintro _ d'' ⟨hd'', hlast⟩
  exact ⟨hd'', hfirst.trans hlast⟩

theorem chains_advances : Chains Advances :=
  ⟨advances_pure, advances_lift, Advances.bind⟩

theorem advances_forAll {step : α → Building β} (hstep : ∀ a, Advances (step a))
    (items : List α) : Advances (forAll step items) :=
  chains_advances.forAll hstep items

/-- The growth of a chain whose first step advances. -/
theorem Advances.evolves_bind {step : Building α} {next : α → Building β} (hstep : Advances step)
    (hd : d.Sound)
    (hnext : ∀ a d', d'.Sound → Ensures (next a) d' fun _ d'' => d'.Evolves d'') :
    Ensures (step >>= next) d fun _ d' => d.Evolves d' := by
  refine (hstep d hd).bind ?_
  rintro a d' ⟨hd', hfirst⟩
  exact (hnext a d' hd').imp fun _ _ hlast => hfirst.trans hlast

end Building

namespace Declaration

open Building Draft Tables

variable {d : Draft}

theorem ensureType_advances (qualified : String) (kind : TypeKind) :
    Advances (ensureType qualified kind) := by
  intro d hd
  refine Ensures.and ?_ ?_
  · exact (ensureType_ensures hd qualified kind).imp fun _ _ h => h.1.sound
  · unfold ensureType
    simp only [ensures_bind, ensures_get]
    split
    next => exact ensures_pure.mpr (Evolves.refl d)
    next hnone =>
      simp only [ensures_bind, ensures_set, ensures_pure]
      have hname : d.typeNames.contains qualified = false := Table.contains_of_get? hnone
      have hnew := hd.typeId_new hname
      have htype := Change.type (s := typeSymbol qualified kind none [] .null) true hnew hname rfl
        rfl rfl
      have henriches :
          d.Enriches (d.putType qualified (typeSymbol qualified kind none [] .null) true) :=
        hd.enriches_putType hnew ⟨rfl, rfl⟩ (.type qualified rfl rfl rfl rfl) rfl
      exact ⟨htype.grows, henriches, rfl, rfl⟩

/-- The type that comes back is found under the name. -/
theorem ensureType_names (d : Draft) (qualified : String) (kind : TypeKind) :
    Ensures (ensureType qualified kind) d fun id d' => d'.typeNames.get? qualified = some id := by
  unfold ensureType
  simp only [ensures_bind, ensures_get]
  split
  next id hid => exact ensures_pure.mpr hid
  next =>
    simp only [ensures_bind, ensures_set, ensures_pure]
    exact get?_registerTypeName_self _ _ _

end Declaration

namespace MemberName

open Building Draft Tables

variable {d : Draft}

theorem addsAccessor_metadata (type property : String) {accessor : Symbol} {kind : MethodKind}
    (hnew : d.symbols.get? accessor.id = none) (hkind : accessor.kind = .method)
    (hmethod : accessor.methodKind = some kind) :
    AddsAccessor type property kind d (some accessor.id)
      ((d.putMember type accessor none).putContaining accessor.id property) :=
  .some hnew hkind hmethod (SameDeclarations.refl _)

theorem declareMetadata_evolves {type : Symbol} (hholds : Holds d.symbols type)
    (hnamed : type.kind = .namedType) (hmetadata : type.id ∈ d.metadataTypes)
    (htitled : ∀ m : Symbol, m.IsMethodOf type → d.Titled type.id m) {name : String}
    (hname : Signature.IsMember name) (list : Option String) {kind : SymbolKind}
    (hkind : kind ≠ .namedType) (arguments : Option Nat) :
    Ensures (declareMetadata type type.qualifiedName name list kind arguments) d fun _ d' =>
      d.Evolves d' := by
  have htype : KnownAs d.symbols .namedType type.id := ⟨type, hholds, hnamed⟩
  unfold declareMetadata
  split
  next =>
    simp only [ensures_bind, ensures_pure, ensures_addMember]
    intro hnew
    have hmethod : (metadataMethod type type.qualifiedName name list arguments).isAccessor =
        false := by
      unfold metadataMethod Symbol.isAccessor
      by_cases hname : name = Signature.constructorName <;> simp [hname]
    have hmember := Change.member none (Table.get?_of_contains hnew) htype
      (by simp [metadataMethod, metadataSymbol]) (by simp [metadataMethod, metadataSymbol]) hmethod
      fun _ => htitled _ (isMethodOf_metadataMethod type name list arguments)
    have hcalls := calls_metadataMethod hholds hnamed hname type.qualifiedName list arguments
    have henriches := enriches_putMember (Table.get?_of_contains hnew) ⟨rfl, rfl⟩ hcalls hmetadata
    exact ⟨hmember.grows, henriches, rfl, rfl⟩
  next hother =>
    simp only [ensures_bind, ensures_addMember]
    intro hnew
    have hcalls := calls_metadataVariable hholds hnamed hname type.qualifiedName hkind
    rw [ensures_ite]
    constructor
    · intro hproperty
      have hproperty : kind = .property := by simpa using hproperty
      subst hproperty
      simp only [addMetadataAccessors, addMetadataAccessor, ensures_bind, ensures_modify,
        ensures_pure, ensures_addMember]
      intro hget hset
      have hgetter := addsAccessor_metadata type.id
        (metadataVariable type type.qualifiedName name .property).id
        (Table.get?_of_contains hget) rfl rfl
      have hsetter := addsAccessor_metadata type.id
        (metadataVariable type type.qualifiedName name .property).id
        (Table.get?_of_contains hset) rfl rfl
      have hchange := Change.property (Table.get?_of_contains hnew) htype rfl rfl hgetter hsetter
      have henriches := enriches_property hmetadata (Table.get?_of_contains hnew)
        (Table.get?_of_contains hget) (Table.get?_of_contains hset) ⟨rfl, rfl⟩ ⟨rfl, rfl⟩ ⟨rfl, rfl⟩
        hcalls (fun symbols => calls_metadataAccessor symbols type _ _ _ (.inl rfl))
        fun symbols => calls_metadataAccessor symbols type _ _ _ (.inr rfl)
      exact ⟨hchange.grows, henriches, rfl, rfl⟩
    · intro hproperty
      have hproperty : kind ≠ .property := by simpa using hproperty
      have hmethod : kind ≠ .method := hother
      rw [ensures_pure]
      have hmember := Change.member (s := metadataVariable type type.qualifiedName name kind) none
        (Table.get?_of_contains hnew) htype hkind hproperty rfl
        (by simp [Symbol.IsPlainMethod, metadataVariable, metadataSymbol, hmethod])
      have henriches := enriches_putMember (Table.get?_of_contains hnew) ⟨rfl, rfl⟩ hcalls hmetadata
      exact ⟨hmember.grows, henriches, rfl, rfl⟩

theorem resolve_advances (reference place : String) {kind : Option SymbolKind}
    (hkind : kind ≠ some .namedType) (arguments : Option Nat) :
    Advances (resolve reference place kind arguments) := by
  intro d hd
  refine Ensures.and ?_ ?_
  · exact (resolve_ensures hd reference place hkind arguments).imp fun _ _ h => h.1.sound
  · unfold resolve
    simp only []
    split
    next => exact ensures_lift_refuse
    next typeName name hparts =>
      refine ((Declaration.ensureType_advances typeName .classType d hd).and
        ((Declaration.ensureType_ensures hd typeName .classType).and
          (Declaration.ensureType_names d typeName .classType))).bind ?_
      rintro type d₁ ⟨⟨hd₁, hfirst⟩, ⟨-, htype⟩, hname⟩
      simp only [ensures_bind, ensures_get]
      split
      next => exact ensures_pure.mpr hfirst
      next => exact ensures_lift_refuse
      next =>
        split
        next hmetadata =>
          split
          next symbol hsymbol =>
            obtain rfl : symbol.id = type := hd₁.ids.get? hsymbol
            have htitled : ∀ m : Symbol, m.IsMethodOf symbol → d₁.Titled symbol.id m :=
              fun m hm => ⟨symbol, typeName, hsymbol, hm,
                Signature.ne_empty_of_splitMember? hparts, hname⟩
            have hmember : kind.getD .method ≠ .namedType := by
              cases kind with
              | none => simp
              | some kind =>
                  intro hnamed
                  exact hkind (congrArg some hnamed)
            have hmetadata := List.contains_iff_mem.mp hmetadata
            have hnamed := htype.kind_eq hsymbol
            have hname := Signature.isMember_of_splitMember? hparts
            refine (declareMetadata_evolves hsymbol hnamed hmetadata htitled hname _ hmember
              arguments).imp ?_
            intro _ d₂ hlast
            exact hfirst.trans hlast
          next => simp only [ensures_throw]
        next => exact ensures_lift_refuse

end MemberName

/-! ## Links -/

namespace Link

open Building Draft Tables

variable {d : Draft}

/-- Links declare nothing. -/
theorem evolves_links (d : Draft) (baseTypes : Table String)
    (declaredInterfaces : Table (List String)) (sourceDefinitions overridden : Table String)
    (explicitImplementations : Table (List String)) :
    d.Evolves { d with baseTypes, declaredInterfaces, sourceDefinitions, overridden,
                       explicitImplementations } :=
  SameDeclarations.evolves ⟨rfl, rfl, rfl, rfl, rfl, rfl⟩ rfl rfl rfl rfl rfl fun _ => Or.inl rfl

theorem linkBase_evolves (hd : d.Sound) (type : String) (data : Value) :
    Ensures (linkBase type data) d fun _ d' => d.Evolves d' := by
  unfold linkBase
  rw [ensures_ite]
  constructor
  · intro _
    refine Ensures.after ?_ _
    refine (Declaration.ensureType_advances _ _).evolves_bind hd ?_
    intro id d' _
    rw [ensures_modify]
    exact evolves_links _ _ _ _ _ _
  · intro _
    exact ensures_pure.mpr (Evolves.refl d)

theorem ensureInterface_advances (name : Value) : Advances (ensureInterface name) :=
  chains_advances.after _ (Declaration.ensureType_advances name.plain .interface)

theorem linkInterfaces_evolves (hd : d.Sound) (type : String) (data : Value) :
    Ensures (linkInterfaces type data) d fun _ d' => d.Evolves d' := by
  unfold linkInterfaces
  refine (advances_lift _).evolves_bind hd ?_
  intro items d₁ hd₁
  refine (advances_forAll ensureInterface_advances items).evolves_bind hd₁ ?_
  intro interfaces d₂ _
  rw [ensures_modify]
  split
  next => exact Evolves.refl d₂
  next => exact evolves_links _ _ _ _ _ _

theorem linkSource_evolves (d : Draft) (type : String) (data : Value) :
    Ensures (linkSource type data) d fun _ d' => d.Evolves d' := by
  unfold linkSource
  rw [ensures_ite]
  constructor
  · intro _
    refine Ensures.after ?_ _
    simp only [ensures_bind, ensures_get]
    split
    next =>
      rw [ensures_set]
      exact evolves_links _ _ _ _ _ _
    next => exact ensures_lift_refuse
  · intro _
    exact ensures_pure.mpr (Evolves.refl d)

theorem linkType_evolves (hd : d.Sound) {type : String}
    (htype : KnownAs d.symbols .namedType type) (data : Value) :
    Ensures (linkType type data) d fun _ d' => d.Evolves d' := by
  unfold linkType
  refine ((linkBase_evolves hd type data).and (linkBase_ensures hd htype data)).bind ?_
  rintro _ d₁ ⟨hbase, hd₁⟩
  refine (linkInterfaces_evolves hd₁.sound type data).bind ?_
  intro _ d₂ hinterfaces
  refine (linkSource_evolves d₂ type data).imp ?_
  intro _ d₃ hsource
  exact hbase.trans (hinterfaces.trans hsource)

theorem evolves_putOverridden (d : Draft) (member target : String) :
    d.Evolves (d.putOverridden member target) :=
  evolves_links _ _ _ _ _ _

theorem linkOverridden_evolves (hd : d.Sound) {member : Symbol} (hkind : member.kind ≠ .namedType)
    (data : Value) : Ensures (linkOverridden member data) d fun _ d' => d.Evolves d' := by
  unfold linkOverridden
  simp only []
  rw [ensures_ite]
  constructor
  · intro _
    have hsome := (Option.some_injective SymbolKind).ne hkind
    refine Ensures.after ?_ _
    refine (MemberName.resolve_advances _ _ hsome none).evolves_bind hd ?_
    intro target d' _
    exact ensures_modify.mpr (evolves_putOverridden d' _ _)
  · intro _
    rw [ensures_ite]
    constructor
    · intro _
      rw [ensures_modify]
      split
      next => exact evolves_putOverridden d _ _
      next => exact Evolves.refl d
    · intro _
      exact ensures_pure.mpr (Evolves.refl d)

theorem linkAccessor_evolves (d : Draft) (own base : Option String) :
    d.Evolves (linkAccessor d own base) := by
  unfold linkAccessor
  split
  next => exact evolves_putOverridden d _ _
  next => exact Evolves.refl d

theorem linkProperty_evolves (d : Draft) (property : String) :
    d.Evolves (linkProperty d property) := by
  unfold linkProperty linkAccessors
  split
  next => exact (linkAccessor_evolves d _ _).trans (linkAccessor_evolves _ _ _)
  next => exact Evolves.refl d

theorem linkOverride_evolves (hd : d.Sound) {member : Symbol} (hkind : member.kind ≠ .namedType)
    (data : Value) : Ensures (linkOverride member data) d fun _ d' => d.Evolves d' := by
  unfold linkOverride
  refine (linkOverridden_evolves hd hkind data).bind ?_
  intro _ d' hlinked
  rw [ensures_ite]
  constructor
  · intro _
    exact ensures_modify.mpr (hlinked.trans (linkProperty_evolves d' member.id))
  · intro _
    exact ensures_pure.mpr hlinked

theorem implemented_advances {member : Symbol} (hkind : member.kind ≠ .namedType) (name : Value) :
    Advances (implemented member name) := by
  have hsome := (Option.some_injective SymbolKind).ne hkind
  exact chains_advances.after _ (MemberName.resolve_advances name.plain member.display hsome none)

theorem linkImplementations_evolves (hd : d.Sound) {member : Symbol}
    (hkind : member.kind ≠ .namedType) (data : Value) :
    Ensures (linkImplementations member data) d fun _ d' => d.Evolves d' := by
  unfold linkImplementations
  rw [ensures_ite]
  constructor
  · intro _
    refine (advances_forAll (implemented_advances hkind) _).evolves_bind hd ?_
    intro targets d' _
    rw [ensures_modify]
    exact evolves_links _ _ _ _ _ _
  · intro _
    exact ensures_pure.mpr (Evolves.refl d)

theorem linkMember_evolves (hd : d.Sound) {id : String} (hid : KnownMember d.symbols id)
    (data : Value) : Ensures (linkMember id data) d fun _ d' => d.Evolves d' := by
  obtain ⟨member, hmember, hkind, hknown⟩ := hd.exists_member hid
  unfold linkMember
  simp only [ensures_bind, ensures_get]
  rw [hmember]
  refine ((linkOverride_evolves hd hkind data).and
    (linkOverride_ensures hd hknown hkind data)).bind ?_
  rintro _ d' ⟨hlinked, hd'⟩
  refine (linkImplementations_evolves hd'.sound hkind data).imp ?_
  intro _ d'' himplemented
  exact hlinked.trans himplemented

end Link

/-! ## Bodies -/

namespace Body

open Building

theorem read_advances (place : Place) (node : Value) : Advances (Body.read place node) :=
  read_of_chains chains_advances
    (fun reference place _ arguments hkind =>
      MemberName.resolve_advances reference place hkind arguments)
    place node

end Body

/-! ## Passes over what has been put off -/

namespace Building

open Draft

variable {α : Type} {d : Draft}

theorem forEach_evolves (hd : d.Sound) {step : α → Building Unit} {items : List α}
    (hstep : ∀ a ∈ items, ∀ d', d.Becomes d' → d.Evolves d' →
      Ensures (step a) d' fun _ d'' => d'.Becomes d'' ∧ d'.Evolves d'') :
    Ensures (forEach step items) d fun _ d' => d.Becomes d' ∧ d.Evolves d' := by
  refine forEach_keeps ⟨hd.becomes, Evolves.refl d⟩ ?_
  rintro a ha d' ⟨hbecomes, hevolved⟩
  refine (hstep a ha d' hbecomes hevolved).imp ?_
  rintro _ d'' ⟨hlast, hmore⟩
  exact ⟨hbecomes.trans hlast, hevolved.trans hmore⟩

end Building

namespace Index

open Building Draft Tables

variable {d : Draft}

theorem linkTypes_evolves (hd : d.Sound) :
    Ensures (forEach (fun (id, data) => Link.linkType id data) d.pendingLinks) d fun _ d' =>
      d.Becomes d' ∧ d.Evolves d' := by
  refine forEach_evolves hd ?_
  intro pending hpending d' hbefore _
  have htype := hd.links_mono hbefore.kept pending hpending
  exact (Link.linkType_ensures hbefore.sound htype _).and
    (Link.linkType_evolves hbefore.sound htype _)

theorem linkMembers_evolves (hd : d.Sound) :
    Ensures (forEach (fun (id, data) => Link.linkMember id data) d.pendingMembers) d fun _ d' =>
      d.Becomes d' ∧ d.Evolves d' := by
  refine forEach_evolves hd ?_
  intro pending hpending d' hbefore _
  have hmember := hd.members_mono hbefore.kept pending hpending
  exact (Link.linkMember_ensures hbefore.sound hmember _).and
    (Link.linkMember_evolves hbefore.sound hmember _)

theorem evolves_putBody {pending : PendingBody} (hpending : pending ∈ d.pendingBodies)
    (body : Operation) : d.Evolves (d.putBody pending.method body) := by
  refine SameDeclarations.evolves ⟨rfl, rfl, rfl, rfl, rfl, rfl⟩ rfl rfl rfl rfl rfl ?_
  intro id
  have hget : (d.putBody pending.method body).bodies.get? id =
      if pending.method = id then some body else d.bodies.get? id := Table.get?_insert _ _ _ _
  rw [hget]
  split
  next heq => exact Or.inr (List.mem_map.mpr ⟨pending, hpending, heq⟩)
  next => exact Or.inl rfl

theorem readBody_evolves (hd : d.Sound) (root : String) {pending : PendingBody}
    (hpending : pending ∈ d.pendingBodies) :
    Ensures (readBody root pending) d fun _ d' => d.Evolves d' := by
  unfold readBody
  simp only [ensures_bind, ensures_get]
  split
  next => exact ensures_throw.mpr trivial
  next =>
    refine (Body.read_advances _ _ d hd).bind ?_
    rintro tree d' ⟨-, hread⟩
    rw [ensures_modify]
    rw [← hread.bodies] at hpending
    exact hread.trans (evolves_putBody hpending tree)

theorem readBodies_evolves (hd : d.Sound) (root : String) :
    Ensures (forEach (readBody root) d.pendingBodies) d fun _ d' =>
      d.Becomes d' ∧ d.Evolves d' := by
  refine forEach_evolves hd ?_
  intro pending hpending d' hbefore hevolved
  have hmethod := hd.bodies_mono hbefore.kept pending hpending
  rw [← hevolved.bodies] at hpending
  exact (readBody_ensures hbefore.sound root hmethod).and
    (readBody_evolves hbefore.sound root hpending)

theorem referencedId_advances (name : String) : Advances (referencedId name) := by
  unfold referencedId
  refine advances_get.bind ?_
  intro d
  split
  next => exact advances_pure _
  next =>
    refine (MemberName.resolve_advances _ _ (by decide) _).bind ?_
    intro s
    exact advances_pure _

/-! ## Documents -/

theorem declareTypes_grows (root : String) (types : List Value) :
    Ensures (forEach (Declaration.declareType root) types) Draft.empty fun _ d' =>
      d'.Sound ∧ Draft.empty.Grows d' := by
  refine forEach_keeps ⟨Sound.empty, Grows.refl _⟩ ?_
  rintro type _ d ⟨hd, hgrown⟩
  refine ((Declaration.declareType_ensures hd root type).and
    (Declaration.declareType_grows hd root type)).imp ?_
  rintro _ d' ⟨hbecomes, hmore⟩
  exact ⟨hbecomes.sound, hgrown.trans hmore⟩

/-- The passes over types, links and bodies, which come before the references. -/
def readTypes (root : String) (data : Value) : Building Unit := do
  let types ← typesOf data
  forEach (Declaration.declareType root) types
  forEach (fun (id, data) => Link.linkType id data) (← get).pendingLinks
  forEach (fun (id, data) => Link.linkMember id data) (← get).pendingMembers
  forEach (readBody root) (← get).pendingBodies

theorem readTypes_grows (root : String) (data : Value) :
    Ensures (readTypes root data) Draft.empty fun _ d' => d'.Sound ∧ Draft.empty.Grows d' := by
  unfold readTypes
  simp only [ensures_bind, ensures_lift, ensures_get]
  intro types _
  refine (declareTypes_grows root types).imp ?_
  rintro _ d₁ ⟨hd₁, hgrown₁⟩
  refine (linkTypes_evolves hd₁).imp ?_
  rintro _ d₂ ⟨hbecomes₂, hevolved₂⟩
  refine (linkMembers_evolves hbecomes₂.sound).imp ?_
  rintro _ d₃ ⟨hbecomes₃, hevolved₃⟩
  refine (readBodies_evolves hbecomes₃.sound root).imp ?_
  rintro _ d₄ ⟨hbecomes₄, hevolved₄⟩
  have hevolved := hevolved₂.trans (hevolved₃.trans hevolved₄)
  exact ⟨hbecomes₄.sound, hgrown₁.trans hevolved.grows⟩

/-- An entry of the references lists places at the end; a name in it may bring in metadata first. -/
theorem readReferences_evolves (hd : d.Sound) (root : String) (entry : Value) :
    Ensures (readReferences root entry) d fun _ d' =>
      ∃ before id locations, d.Evolves before ∧ d' = before.putReferences id locations := by
  unfold readReferences
  simp only [ensures_bind, ensures_refuseIf, ensures_lift, ensures_modify]
  intro _ given _ _ _
  refine (referencedId_advances _ d hd).imp ?_
  rintro id d₁ ⟨hd₁, hfirst⟩ items _
  refine (advances_forAll (fun _ => advances_lift _) items d₁ hd₁).imp ?_
  rintro locations d₂ ⟨-, hlast⟩
  exact ⟨d₂, id, locations, hfirst.trans hlast, rfl⟩

theorem readReferences_keeps {P : Draft → Prop}
    (hchange : ∀ {d d'}, P d → Change d d' → P d')
    (hlist : ∀ {d} id locations, P d → P (d.putReferences id locations)) (hd : d.Sound)
    (hinv : P d) (root : String) (entry : Value) :
    Ensures (readReferences root entry) d fun _ d' => d'.Sound ∧ P d' := by
  refine ((readReferences_ensures hd root entry).and (readReferences_evolves hd root entry)).imp ?_
  rintro _ _ ⟨hbecomes, before, id, locations, hevolved, rfl⟩
  exact ⟨hbecomes.sound, hlist id locations (hevolved.grows.keeps hchange hinv)⟩

theorem same_putSourceLines (d : Draft) (file : String) (lines : List String) :
    SameDeclarations d (d.putSourceLines file lines) :=
  ⟨rfl, rfl, rfl, rfl, rfl, rfl⟩

theorem readFiles_same (root : String) (data : Value) :
    Ensures (readFiles root data) d fun _ d' => SameDeclarations d d' := by
  unfold readFiles
  simp only [ensures_bind, ensures_lift]
  intro files _
  refine forEach_keeps (SameDeclarations.refl d) ?_
  intro entry _ d' hbefore
  exact readFile_ensures fun file lines => hbefore.trans (same_putSourceLines d' file lines)

theorem same_addSourceFile (disk : Disk) (d : Draft) (file : String) :
    SameDeclarations d (addSourceFile disk d file) := by
  unfold addSourceFile
  split
  next => exact SameDeclarations.refl d
  next =>
    split
    next => exact same_putSourceLines d file _
    next => exact SameDeclarations.refl d

theorem same_foldl_addSourceFile (disk : Disk) (d : Draft) (files : List String) :
    SameDeclarations d (files.foldl (addSourceFile disk) d) := by
  refine List.foldlRecOn (motive := SameDeclarations d) files _ (SameDeclarations.refl d) ?_
  intro d' hbefore file _
  exact hbefore.trans (same_addSourceFile disk d' file)

/-- The texts of source files, which come last. -/
def readSources (disk : Disk) (root : String) (data : Value) : Building Unit := do
  readFiles root data
  modify fun d => (mentionedFiles d.toTables).foldl (addSourceFile disk) d

theorem readSources_same (disk : Disk) (root : String) (data : Value) :
    Ensures (readSources disk root data) d fun _ d' => SameDeclarations d d' := by
  unfold readSources
  simp only [ensures_bind, ensures_modify]
  refine (readFiles_same root data).imp ?_
  intro _ d' hfiles
  exact hfiles.trans (same_foldl_addSourceFile disk d' _)

theorem readDocument_eq (disk : Disk) (root : String) (data : Value) :
    readDocument disk root data = (do
      readTypes root data
      let entries ← allowing (data.field "references").itemsIfPresent
      forEach (readReferences root) entries
      readSources disk root data) := by
  unfold readDocument readTypes readSources
  simp only [bind_assoc]

/-- What holds of the empty draft and is kept by every change and by every listed reference holds
when a document has been read. -/
theorem readDocument_keeps {P : Draft → Prop} (hempty : P Draft.empty)
    (hchange : ∀ {d d'}, P d → Change d d' → P d')
    (hlist : ∀ {d} id locations, P d → P (d.putReferences id locations)) (disk : Disk)
    (root : String) (data : Value) :
    Ensures (readDocument disk root data) Draft.empty fun _ d' => P d' := by
  rw [readDocument_eq]
  simp only [ensures_bind, ensures_lift]
  refine (readTypes_grows root data).imp ?_
  rintro _ d₁ ⟨hd₁, hgrown⟩ entries _
  refine (forEach_keeps (P := fun d => d.Sound ∧ P d)
    ⟨hd₁, hgrown.keeps hchange hempty⟩ ?_).imp ?_
  · rintro entry _ d' ⟨hd', hinv'⟩
    exact readReferences_keeps hchange hlist hd' hinv' root entry
  rintro _ d₂ ⟨-, hinv₂⟩
  refine (readSources_same disk root data).imp ?_
  intro _ d₃ hsame
  exact hchange hinv₂ (.other hsame)

end Index
end SymbolAtlas
