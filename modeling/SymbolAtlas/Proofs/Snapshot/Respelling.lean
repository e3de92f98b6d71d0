import SymbolAtlas.Proofs.Index.Link
import SymbolAtlas.Proofs.Respelling.Reading
import SymbolAtlas.Proofs.Snapshot.Dispatch
import SymbolAtlas.Snapshot.Usage
import Mathlib.Tactic

/-!
# Snapshots of respelled documents

Snapshots whose tables resemble each other answer alike as long as no query looks at how parameter
types are spelled.  Members are matched with those of interfaces by the types as written, so for
implementations and indirect callers the two snapshots also have to agree on which signatures are
equal.  Documents that spell every type in one way do.
-/

namespace SymbolAtlas
namespace Snapshot

open Tables

/-- The symbols that two snapshots have under one id. -/
def Counterparts (s s' : Snapshot) (a a' : Symbol) : Prop :=
  ∃ id, s.symbol? id = some a ∧ s'.symbol? id = some a'

/-- Two members have equal signatures in one snapshot exactly if they do in the other. -/
def AgreeOnSignatures (s s' : Snapshot) : Prop :=
  ∀ {a a' b b'}, s.Counterparts s' a a' → s.Counterparts s' b b' →
    (a'.signature = b'.signature ↔ a.signature = b.signature)

/-- Signatures of the same name and the same types are spelled in the same way. -/
def SpellsUniformly (s : Snapshot) : Prop :=
  ∀ a ∈ s.tables.symbols.values, ∀ b ∈ s.tables.symbols.values, a.name = b.name →
    Signature.typesMatch a.parameterTypes b.parameterTypes = true →
      a.parameterTypes = b.parameterTypes

instance (s : Snapshot) : Decidable s.SpellsUniformly :=
  inferInstanceAs (Decidable (∀ a ∈ s.tables.symbols.values, ∀ b ∈ s.tables.symbols.values,
    a.name = b.name → Signature.typesMatch a.parameterTypes b.parameterTypes = true →
      a.parameterTypes = b.parameterTypes))

variable {s s' : Snapshot} {m m' : Symbol}

/-! ## Counterparts -/

theorem Counterparts.resembles (hm : s.Counterparts s' m m')
    (h : s.tables.Resembles s'.tables) : m.Resembles m' := by
  obtain ⟨id, hfirst, hsecond⟩ := hm
  change s.tables.symbols.get? id = some m at hfirst
  change s'.tables.symbols.get? id = some m' at hsecond
  rcases h.symbols.get?_cases id with ⟨hnone, -⟩ | ⟨a, a', ha, ha', hsame⟩
  · rw [hnone] at hfirst
    cases hfirst
  · obtain rfl := Option.some.inj (ha.symm.trans hfirst)
    obtain rfl := Option.some.inj (ha'.symm.trans hsecond)
    exact hsame

theorem rel_symbol? (h : s.tables.Resembles s'.tables) (id : String) :
    Option.Rel (s.Counterparts s') (s.symbol? id) (s'.symbol? id) := by
  unfold symbol?
  rcases h.symbols.get?_cases id with ⟨hnone, hnone'⟩ | ⟨a, a', ha, ha', -⟩
  · rw [hnone, hnone']
    exact .none
  · rw [ha, ha']
    exact .some ⟨id, ha, ha'⟩

theorem counterparts_symbolsOf (h : s.tables.Resembles s'.tables) (ids : List String) :
    List.Forall₂ (s.Counterparts s') (s.tables.symbolsOf ids) (s'.tables.symbolsOf ids) := by
  refine List.rel_filterMap (R := Eq) ?_ (List.forall₂_same.mpr fun _ _ => rfl)
  rintro id _ rfl
  exact rel_symbol? h id

theorem counterparts_membersOf (h : s.tables.Resembles s'.tables) (type : String) :
    List.Forall₂ (s.Counterparts s') (s.tables.membersOf type) (s'.tables.membersOf type) := by
  unfold Tables.membersOf
  rw [h.members]
  exact counterparts_symbolsOf h _

theorem map_id_counterparts (h : s.tables.Resembles s'.tables) {symbols others : List Symbol}
    (hsymbols : List.Forall₂ (s.Counterparts s') symbols others) :
    others.map Symbol.id = symbols.map Symbol.id :=
  map_eq_of_rel hsymbols fun _ _ hpair => (hpair.resembles h).id

/-- Lists of the same ids come to symbols of the same ids, in whatever order they are shown. -/
theorem map_id_sorted_perm (h : s.tables.Resembles s'.tables) {ids ids' : List String}
    (hids : ∀ id, id ∈ ids' ↔ id ∈ ids) :
    ((s'.sorted ids').map Symbol.id).Perm ((s.sorted ids).map Symbol.id) := by
  have hdistinct : (Link.distinct ids').Perm (Link.distinct ids) := by
    rw [List.perm_ext_iff_of_nodup (Link.nodup_distinct ids') (Link.nodup_distinct ids)]
    intro id
    rw [Link.mem_distinct, Link.mem_distinct, hids id]
  have hsame : (s'.symbolsOf (Link.distinct ids)).map Symbol.id =
      (s.symbolsOf (Link.distinct ids)).map Symbol.id :=
    map_id_counterparts h (counterparts_symbolsOf h _)
  have hsymbols : ((s'.symbolsOf (Link.distinct ids')).map Symbol.id).Perm
      ((s.symbolsOf (Link.distinct ids)).map Symbol.id) := by
    rw [← hsame]
    exact (hdistinct.filterMap _).map Symbol.id
  have hfirst := (List.mergeSort_perm (s.symbolsOf (Link.distinct ids)) Symbol.precedes).map
    Symbol.id
  have hsecond := (List.mergeSort_perm (s'.symbolsOf (Link.distinct ids')) Symbol.precedes).map
    Symbol.id
  exact hsecond.trans (hsymbols.trans hfirst.symm)

/-! ## Queries along the tables -/

theorem baseChain_eq (h : s.tables.Resembles s'.tables) (type : String) :
    s'.baseChain type = s.baseChain type := by
  unfold baseChain
  rw [h.baseTypes]

theorem interfaceIds_eq (h : s.tables.Resembles s'.tables) (type : String) :
    s'.interfaceIds type = s.interfaceIds type := by
  unfold interfaceIds
  rw [h.declaredInterfaces, baseChain_eq h]

theorem overriddenChain_eq (h : s.tables.Resembles s'.tables) (member : String) :
    s'.overriddenChain member = s.overriddenChain member := by
  unfold overriddenChain
  rw [h.overridden]

theorem overridesOf_perm (h : s.tables.Resembles s'.tables) (hm : m.Resembles m') :
    ((s'.overridesOf m').map Symbol.id).Perm ((s.overridesOf m).map Symbol.id) := by
  unfold overridesOf
  rw [h.overridden, hm.id]
  exact map_id_sorted_perm h fun _ => Iff.rfl

theorem implementers_perm (h : s.tables.Resembles s'.tables) (interface : String) :
    ((s'.implementers interface).map Symbol.id).Perm
      ((s.implementers interface).map Symbol.id) := by
  have hconcrete : ∀ type, ((s'.symbol? type).any fun t => t.typeKind.any TypeKind.isConcrete) =
      (s.symbol? type).any fun t => t.typeKind.any TypeKind.isConcrete := by
    intro type
    unfold symbol?
    rcases h.symbols.get?_cases type with ⟨hnone, hnone'⟩ | ⟨t, t', ht, ht', hsame⟩
    · rw [hnone, hnone']
    · rw [ht, ht', Option.any_some, Option.any_some, hsame.typeKind]
  unfold implementers
  simp only [h.typeNames, hconcrete, interfaceIds_eq h]
  exact map_id_sorted_perm h fun _ => Iff.rfl

/-! ## Queries that match signatures -/

theorem signature_beq (hagree : s.AgreeOnSignatures s') {a a' b b' : Symbol}
    (ha : s.Counterparts s' a a') (hb : s.Counterparts s' b b') :
    (a'.signature == b'.signature) = (a.signature == b.signature) := by
  rw [Bool.eq_iff_iff, beq_iff_eq, beq_iff_eq]
  exact hagree ha hb

theorem matchingMember?_eq (h : s.tables.Resembles s'.tables) (hagree : s.AgreeOnSignatures s')
    (hm : s.Counterparts s' m m') (owners : List String) :
    s'.matchingMember? m'.signature owners = s.matchingMember? m.signature owners := by
  unfold matchingMember?
  congr 1
  funext owner
  refine map_find?_eq_of_rel (counterparts_membersOf h owner) ?_ fun _ _ hc => (hc.resembles h).id
  intro c c' hc
  rw [signature_beq hagree hc hm, (hc.resembles h).id, h.explicitImplementations]

theorem memberImplementations_perm (h : s.tables.Resembles s'.tables)
    (hagree : s.AgreeOnSignatures s') (hm : s.Counterparts s' m m') :
    ((s'.memberImplementations m').map Symbol.id).Perm
      ((s.memberImplementations m).map Symbol.id) := by
  unfold memberImplementations
  rw [(hm.resembles h).id, h.containing, h.explicitImplementations]
  split
  next => exact .refl _
  next interface _ =>
    apply map_id_sorted_perm h
    intro id
    have hmatched : ∀ t : Snapshot, ∀ signature,
        (t.implementers interface).filterMap (fun type =>
          t.matchingMember? signature (type.id :: t.baseChain type.id)) =
        ((t.implementers interface).map Symbol.id).filterMap fun type =>
          t.matchingMember? signature (type :: t.baseChain type) := by
      intro t signature
      rw [List.filterMap_map]
      rfl
    have hperm := (implementers_perm h interface).filterMap fun type =>
      s.matchingMember? m.signature (type :: s.baseChain type)
    rw [hmatched, hmatched, List.mem_append, List.mem_append]
    simp only [matchingMember?_eq h hagree hm, baseChain_eq h, hperm.mem_iff]

/-- Where signatures do not matter, or the snapshots agree on them, the same ids implement. -/
theorem implementationsOf_perm (h : s.tables.Resembles s'.tables)
    (hm : s.Counterparts s' m m') (hagree : m.kind = .namedType ∨ s.AgreeOnSignatures s') :
    ((s'.implementationsOf m').map Symbol.id).Perm ((s.implementationsOf m).map Symbol.id) := by
  have hsame := hm.resembles h
  unfold implementationsOf
  rw [hsame.kind, hsame.id]
  by_cases hkind : m.kind = .namedType
  · rw [hkind]
    exact implementers_perm h m.id
  · rw [if_neg (by simpa using hkind), if_neg (by simpa using hkind)]
    exact memberImplementations_perm h (hagree.resolve_left hkind) hm

theorem map_id_implementedMembers_eq (h : s.tables.Resembles s'.tables)
    (hagree : s.AgreeOnSignatures s') (hm : s.Counterparts s' m m') :
    (s'.implementedMembers m').map Symbol.id = (s.implementedMembers m).map Symbol.id := by
  unfold implementedMembers
  rw [(hm.resembles h).id, h.explicitImplementations, h.containing]
  split
  next =>
    split
    next => rfl
    next type _ =>
      rw [interfaceIds_eq h, List.map_flatMap, List.map_flatMap]
      congr 1
      funext interface
      apply map_id_counterparts h
      refine List.rel_filter ?_ (counterparts_membersOf h interface)
      intro c c' hc
      exact Bool.eq_iff_iff.mp (signature_beq hagree hc hm).symm
  next => exact map_id_counterparts h (counterparts_symbolsOf h _)

/-! ## Callers -/

theorem calls_eq_of_resembles (h : s.tables.Resembles s'.tables) : s'.calls = s.calls := by
  have hcalls : List.Forall₂ Eq s.tables.calls s'.tables.calls := by
    refine List.rel_flatMap h.bodies ?_
    rintro ⟨_, body⟩ ⟨method, body'⟩ ⟨rfl, hbody⟩
    rw [List.forall₂_eq_eq_eq]
    exact (hbody _).symm
  rw [List.forall₂_eq_eq_eq] at hcalls
  rw [s.calls_eq, s'.calls_eq, hcalls]

theorem callersBehind_eq (h : s.tables.Resembles s'.tables) (isDirect : Bool)
    (calls : List CallSite) :
    (s'.callersBehind isDirect calls).map (fun c => (c.method.id, c.isDirect)) =
      (s.callersBehind isDirect calls).map fun c => (c.method.id, c.isDirect) := by
  unfold callersBehind
  rw [List.map_filterMap, List.map_filterMap]
  congr 1
  funext entry
  obtain ⟨caller, places⟩ := entry
  unfold symbol?
  simp only []
  rcases h.symbols.get?_cases caller with ⟨hnone, hnone'⟩ | ⟨a, a', ha, ha', hsame⟩
  · rw [hnone, hnone']
  · simp only [ha, ha', Option.map_some, hsame.id]

theorem callersOf_perm (h : s.tables.Resembles s'.tables) (hagree : s.AgreeOnSignatures s')
    (hm : s.Counterparts s' m m') :
    ((s'.callersOf m').map fun c => (c.method.id, c.isDirect)).Perm
      ((s.callersOf m).map fun c => (c.method.id, c.isDirect)) := by
  have htargets : s'.dispatchTargets m' = s.dispatchTargets m := by
    unfold dispatchTargets
    rw [(hm.resembles h).id, overriddenChain_eq h, map_id_implementedMembers_eq h hagree hm]
  have hcalls : s'.callsTo = s.callsTo := by
    funext target
    unfold callsTo
    rw [calls_eq_of_resembles h]
  have hsorted : ∀ callers : List Caller,
      ((callers.mergeSort callerPrecedes).map fun c => (c.method.id, c.isDirect)).Perm
        (callers.map fun c => (c.method.id, c.isDirect)) :=
    fun callers => (List.mergeSort_perm callers callerPrecedes).map _
  unfold callersOf
  rw [htargets, hcalls, (hm.resembles h).id]
  refine (hsorted _).trans (List.Perm.trans (.of_eq ?_) (hsorted _).symm)
  rw [List.map_append, List.map_append, callersBehind_eq h, callersBehind_eq h]

/-! ## Respelled documents -/

theorem ofDocument_follows {data other : Value} (h : Index.RespelledDocument data other)
    (disk : Disk) (root : String) (sourcePath : Option String) :
    Attempt.Follows (fun s s' : Snapshot => s.tables.Resembles s'.tables)
      (ofDocument disk data root sourcePath) (ofDocument disk other root sourcePath) := by
  unfold ofDocument
  apply (Index.tables_follow h disk root).bind
  intro t t' ht
  rw [h.field_eq (by decide)]
  apply Attempt.follows_bind_same
  intro _
  exact Attempt.follows_pure ht

/-- Snapshots of respelled documents agree on signatures if each of them spells uniformly. -/
theorem agreeOnSignatures_of_spellsUniformly (h : s.tables.Resembles s'.tables)
    (hs : s.SpellsUniformly) (hs' : s'.SpellsUniformly) : s.AgreeOnSignatures s' := by
  intro a a' b b' ha hb
  have hsameA := ha.resembles h
  have hsameB := hb.resembles h
  obtain ⟨x, hx, hx'⟩ := ha
  obtain ⟨y, hy, hy'⟩ := hb
  have hvalue : ∀ (t : Snapshot) (id : String) (c : Symbol), t.symbol? id = some c →
      c ∈ t.tables.symbols.values :=
    fun t id c hc => Table.mem_values_iff.mpr ⟨id, Table.mem_of_find? hc⟩
  have hmatch := Signature.typesMatch_congr hsameA.canonicals hsameB.canonicals
  unfold Symbol.signature
  rw [Prod.mk.injEq, Prod.mk.injEq, hsameA.name, hsameB.name]
  constructor
  · rintro ⟨hname, htypes⟩
    refine ⟨hname, hs a (hvalue s x a hx) b (hvalue s y b hy) hname ?_⟩
    rw [← hmatch, htypes, Signature.typesMatch_iff]
  · rintro ⟨hname, htypes⟩
    refine ⟨hname, hs' a' (hvalue s' x a' hx') b' (hvalue s' y b' hy') ?_ ?_⟩
    · rw [hsameA.name, hsameB.name, hname]
    · rw [hmatch, htypes, Signature.typesMatch_iff]

/-- If a document loads then so does every respelling of it, with the same symbols and the same
overridden members.  The same ids override each member and implement each type.  Where the two
snapshots agree on signatures, the same ids implement each member and the same methods call it,
directly or not. -/
theorem answers_of_respelledDocument {disk : Disk} {data other : Value} {root : String}
    {sourcePath : Option String} (hother : Index.RespelledDocument data other)
    (hs : ofDocument disk data root sourcePath = .ok s) :
    ∃ s', ofDocument disk other root sourcePath = .ok s' ∧
      s'.tables.symbols.keys = s.tables.symbols.keys ∧
      s'.tables.overridden = s.tables.overridden ∧
      ∀ id m, s.symbol? id = some m → ∃ m', s'.symbol? id = some m' ∧
        ((s'.overridesOf m').map Symbol.id).Perm ((s.overridesOf m).map Symbol.id) ∧
        (m.kind = .namedType ∨ s.AgreeOnSignatures s' →
          ((s'.implementationsOf m').map Symbol.id).Perm
            ((s.implementationsOf m).map Symbol.id)) ∧
        (s.AgreeOnSignatures s' →
          ((s'.callersOf m').map fun c => (c.method.id, c.isDirect)).Perm
            ((s.callersOf m).map fun c => (c.method.id, c.isDirect))) := by
  obtain ⟨s', hs', h⟩ := ofDocument_follows hother disk root sourcePath s hs
  refine ⟨s', hs', h.symbols.keys, h.overridden, ?_⟩
  intro id m hm
  rcases h.symbols.get?_cases id with ⟨hnone, -⟩ | ⟨a, m', ha, hm', hsame⟩
  · have hsome : s.tables.symbols.get? id = some m := hm
    rw [hnone] at hsome
    cases hsome
  · obtain rfl : a = m := Option.some.inj (ha.symm.trans hm)
    have hpair : s.Counterparts s' a m' := ⟨id, hm, hm'⟩
    refine ⟨m', hm', overridesOf_perm h hsame, ?_, ?_⟩
    · intro hagree
      exact implementationsOf_perm h hpair hagree
    · intro hagree
      exact callersOf_perm h hagree hpair

/-- A method with one parameter, whose type is spelled as given. -/
def runningMember (spelling : String) : Value :=
  .mapping [(.text "name", .text "Run"), (.text "parameters",
    .list [.mapping [(.text "name", .text "speed"), (.text "type", .text spelling)]])]

def runningType (name : String) (more : Value × Value) (spelling : String) : Value :=
  .mapping [(.text "name", .text name), more,
    (.text "members", .list [runningMember spelling])]

/-- An interface with a method, and a class that declares the same method. -/
def engineDocument (declared implemented : String) : Value :=
  .mapping [(.text "types", .list [
    runningType "IRunner" (.text "kind", .text "interface") declared,
    runningType "Engine" (.text "interfaces", .list [.text "IRunner"]) implemented])]

theorem respelled_runningMember {a b : String} (h : Index.RespelledText (.text a) (.text b)) :
    Index.RespelledMember (runningMember a) (runningMember b) := by
  have hparameter : Index.RespelledParameter
      (.mapping [(.text "name", .text "speed"), (.text "type", .text a)])
      (.mapping [(.text "name", .text "speed"), (.text "type", .text b)]) :=
    .mapping (.cons ⟨rfl, .inl rfl⟩ (.cons ⟨rfl, .inr ⟨rfl, h⟩⟩ .nil))
  refine .mapping (.cons ⟨rfl, .inl rfl⟩ (.cons ⟨rfl, .inr ⟨rfl, .list ?_⟩⟩ .nil))
  exact .cons hparameter .nil

theorem respelled_runningType (name : String) (more : Value × Value) {a b : String}
    (h : Index.RespelledText (.text a) (.text b)) :
    Index.RespelledType (runningType name more a) (runningType name more b) := by
  refine .mapping (.cons ⟨rfl, .inl rfl⟩ (.cons ⟨rfl, .inl rfl⟩
    (.cons ⟨rfl, .inr ⟨rfl, .list ?_⟩⟩ .nil)))
  exact .cons (respelled_runningMember h) .nil

theorem respelled_engineDocument {a a' b b' : String}
    (ha : Index.RespelledText (.text a) (.text a'))
    (hb : Index.RespelledText (.text b) (.text b')) :
    Index.RespelledDocument (engineDocument a b) (engineDocument a' b') := by
  refine .mapping (.cons ⟨rfl, .inr ⟨rfl, .list ?_⟩⟩ .nil)
  exact .cons (respelled_runningType _ _ ha) (.cons (respelled_runningType _ _ hb) .nil)

theorem respelled_int : Index.RespelledText (.text "int") (.text "System.Int32") :=
  .text (by decide +kernel) (by decide)

/-- With one spelling on both sides, the class implements the interface. -/
theorem implements_engineDocument : ∃ s run,
    ofDocument .empty (engineDocument "int" "int") "/work" none = .ok s ∧
      s.symbol? "M:IRunner.Run(System.Int32)" = some run ∧ s.SpellsUniformly ∧
        "M:Engine.Run(System.Int32)" ∈ (s.implementationsOf run).map Symbol.id := by
  have hfacts : (ofDocument .empty (engineDocument "int" "int") "/work" none).toOption.any
      (fun s => decide (
        (s.symbol? "M:IRunner.Run(System.Int32)").any (fun m => decide (m.kind ≠ .namedType ∧
          s.matchingMember? m.signature ["T:Engine"] = some "M:Engine.Run(System.Int32)")) = true ∧
        (∀ id ∈ ["M:Engine.Run(System.Int32)"], s.tables.symbols.contains id = true) ∧
        (s.symbol? "T:Engine").any (fun type => type.typeKind.any TypeKind.isConcrete) = true ∧
        "T:Engine" ∈ s.tables.typeNames.values ∧
        s.tables.containing.get? "M:IRunner.Run(System.Int32)" = some "T:IRunner" ∧
        s.tables.baseTypes.entries = [] ∧
        s.tables.declaredInterfaces.entries = [("T:Engine", ["T:IRunner"])] ∧
        s.SpellsUniformly)) = true := by
    decide +kernel
  obtain ⟨s, hs, hfacts⟩ := Attempt.exists_ok_of_any hfacts
  obtain ⟨hrunFacts, hengineKnown, hengineType, hnamed, hcontainer, hbases, hdeclared,
    huniform⟩ := of_decide_eq_true hfacts
  have hwell := wellFormed_of_ofDocument hs
  obtain ⟨run, hrun, hrunId, hrunFacts⟩ := hwell.closed.exists_holds_of_any hrunFacts
  obtain ⟨hkind, hmatch⟩ := of_decide_eq_true hrunFacts
  obtain ⟨type, htype, htypeId, hconcrete⟩ := hwell.closed.exists_holds_of_any hengineType
  obtain ⟨engine, hengine, hengineId⟩ := hwell.closed.exists_holds hengineKnown _
    (List.mem_singleton_self _)
  have hsearches : s.baseChain "T:Engine" = [] ∧ s.interfaceIds "T:Engine" = ["T:IRunner"] := by
    unfold interfaceIds baseChain Reach.single
    rw [hbases, hdeclared]
    refine ⟨?_, ?_⟩ <;> cbv
  rw [← hrunId] at hcontainer
  rw [← htypeId] at hnamed hmatch hsearches
  have himplements : engine ∈ s.implementationsOf run := by
    apply mem_implementationsOf_of_matching hwell hengine hkind htype hnamed hconcrete ?_ hcontainer
    · rw [hsearches.1, hmatch, hengineId]
    · rw [hsearches.2]
      exact List.mem_singleton_self _
  refine ⟨s, run, hs, ?_, huniform, ?_⟩
  · rw [← hrunId]
    exact hrun
  · rw [← hengineId]
    exact List.mem_map_of_mem himplements

/-- With another spelling on both sides, the class implements the interface as well. -/
theorem answers_of_respelledDocument_engine : ∃ s s' run run',
    Index.RespelledDocument (engineDocument "int" "int")
        (engineDocument "System.Int32" "System.Int32") ∧
      ofDocument .empty (engineDocument "int" "int") "/work" none = .ok s ∧
      ofDocument .empty (engineDocument "System.Int32" "System.Int32") "/work" none = .ok s' ∧
      s.symbol? "M:IRunner.Run(System.Int32)" = some run ∧
      s'.symbol? "M:IRunner.Run(System.Int32)" = some run' ∧ s.AgreeOnSignatures s' ∧
      "M:Engine.Run(System.Int32)" ∈ (s.implementationsOf run).map Symbol.id ∧
      "M:Engine.Run(System.Int32)" ∈ (s'.implementationsOf run').map Symbol.id := by
  have hfacts : (ofDocument .empty (engineDocument "System.Int32" "System.Int32") "/work"
      none).toOption.any (fun s => decide s.SpellsUniformly) = true := by
    decide +kernel
  obtain ⟨other, hloaded, hfacts⟩ := Attempt.exists_ok_of_any hfacts
  obtain ⟨s, run, hs, hrun, huniform, himplements⟩ := implements_engineDocument
  have hrespelled := respelled_engineDocument respelled_int respelled_int
  obtain ⟨s', hs', -, -, hanswers⟩ := answers_of_respelledDocument hrespelled hs
  obtain ⟨run', hrun', -, himplementations, -⟩ := hanswers _ run hrun
  obtain rfl : other = s' := Except.ok.inj (hloaded.symm.trans hs')
  obtain ⟨t, ht, hresembles⟩ := ofDocument_follows hrespelled .empty "/work" none s hs
  obtain rfl : other = t := Except.ok.inj (hs'.symm.trans ht)
  have hagree : s.AgreeOnSignatures other :=
    agreeOnSignatures_of_spellsUniformly hresembles huniform (of_decide_eq_true hfacts)
  refine ⟨s, other, run, run', hrespelled, hs, hs', hrun, hrun', hagree, himplements, ?_⟩
  exact (himplementations (Or.inr hagree)).mem_iff.mpr himplements

/-- The same document with two spellings of one type: the class still has a member of the right
name and type, but it is no longer found to implement that of the interface. -/
theorem not_implements_of_respelled : ∃ s s' run run',
    Index.RespelledDocument (engineDocument "int" "int") (engineDocument "int" "System.Int32") ∧
      ofDocument .empty (engineDocument "int" "int") "/work" none = .ok s ∧
      ofDocument .empty (engineDocument "int" "System.Int32") "/work" none = .ok s' ∧
      s.symbol? "M:IRunner.Run(System.Int32)" = some run ∧
      s'.symbol? "M:IRunner.Run(System.Int32)" = some run' ∧
      "M:Engine.Run(System.Int32)" ∈ (s.implementationsOf run).map Symbol.id ∧
      "M:Engine.Run(System.Int32)" ∉ (s'.implementationsOf run').map Symbol.id := by
  have hfacts : (ofDocument .empty (engineDocument "int" "System.Int32") "/work"
      none).toOption.any (fun s => decide (
        (s.symbol? "M:IRunner.Run(System.Int32)").any (fun m => decide (m.kind ≠ .namedType ∧
          (s.symbol? "M:Engine.Run(System.Int32)").all fun x =>
            decide (x.signature ≠ m.signature))) = true ∧
        s.tables.explicitImplementations.listAt "M:Engine.Run(System.Int32)" = [])) = true := by
    decide +kernel
  obtain ⟨s', hs', hfacts⟩ := Attempt.exists_ok_of_any hfacts
  obtain ⟨hrunFacts, hunnamed⟩ := of_decide_eq_true hfacts
  have hwell := wellFormed_of_ofDocument hs'
  obtain ⟨run', hrun', hrunId, hrunFacts⟩ := hwell.closed.exists_holds_of_any hrunFacts
  obtain ⟨hkind, hapart⟩ := of_decide_eq_true hrunFacts
  obtain ⟨s, run, hs, hrun, -, himplements⟩ := implements_engineDocument
  have hkept : Index.RespelledText (.text "int") (.text "int") := .text rfl id
  have hrespelled := respelled_engineDocument hkept respelled_int
  refine ⟨s, s', run, run', hrespelled, hs, hs', hrun, ?_, himplements, ?_⟩
  · rw [← hrunId]
    exact hrun'
  · intro hmem
    obtain ⟨engine, hengine, hengineId⟩ := List.mem_map.mp hmem
    rw [implementationsOf_member hkind] at hengine
    have hheld := holds_of_mem_memberImplementations hwell.closed hengine
    obtain ⟨-, -, hnamed | ⟨type, -, hmatch⟩⟩ :=
      (mem_memberImplementations_iff hwell hheld).mp hengine
    · rw [hengineId, hunnamed] at hnamed
      cases hnamed
    · have hsignature := (of_matchingMember hwell.closed hheld hmatch).1
      have hfound : s'.symbol? "M:Engine.Run(System.Int32)" = some engine := by
        rw [← hengineId]
        exact hheld
      rw [hfound] at hapart
      exact of_decide_eq_true hapart hsignature

end Snapshot
end SymbolAtlas
