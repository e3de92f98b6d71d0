import SymbolAtlas.Proofs.Attempt
import SymbolAtlas.Proofs.Index.Link
import SymbolAtlas.Proofs.Reach
import SymbolAtlas.Proofs.Value.Text
import SymbolAtlas.Snapshot.Usage
import Mathlib.Tactic

/-!
# Ids that queries look up

Looking up known ids gives one symbol for each of them.  In closed tables all ids are known that
the tables list, that links lead to, that bodies mention and that calls come from.
-/

namespace SymbolAtlas

namespace Tables

variable {t : Tables} {ids : List String}

theorem Closed.holds (ht : t.Closed) {s : Symbol} (hs : s ∈ t.symbols.values) :
    Holds t.symbols s := by
  rcases Table.mem_values_iff.mp hs with ⟨key, hkey⟩
  have hid : s.id = key := ht.ids (key, s) hkey
  unfold Holds
  rw [hid]
  exact Table.find?_of_mem ht.unique hkey

theorem Closed.mem_values_iff (ht : t.Closed) {s : Symbol} :
    s ∈ t.symbols.values ↔ Holds t.symbols s :=
  ⟨ht.holds, fun hs => Table.mem_values_iff.mpr ⟨s.id, Table.mem_of_find? hs⟩⟩

/-- No symbol stands under two ids. -/
theorem Closed.nodup_values (ht : t.Closed) : t.symbols.values.Nodup := by
  have hids : t.symbols.values.map Symbol.id = t.symbols.keys := by
    unfold Table.values Table.keys
    rw [List.map_map]
    exact List.map_congr_left fun entry hentry => ht.ids entry hentry
  apply List.Nodup.of_map Symbol.id
  rw [hids]
  exact ht.unique

theorem Closed.exists_holds_of_any (ht : t.Closed) {id : String} {p : Symbol → Bool}
    (hid : (t.symbols.get? id).any p = true) :
    ∃ s, Holds t.symbols s ∧ s.id = id ∧ p s = true := by
  obtain ⟨s, hs, hp⟩ := (Option.any_eq_true p _).mp hid
  have hsid : s.id = id := ht.ids.get? hs
  refine ⟨s, ?_, hsid, hp⟩
  unfold Holds
  rw [hsid]
  exact hs

theorem Closed.exists_holds (ht : t.Closed)
    (hids : ∀ id ∈ ids, t.symbols.contains id = true) :
    ∀ id ∈ ids, ∃ s, Holds t.symbols s ∧ s.id = id := by
  intro id hid
  obtain ⟨found, hfound⟩ := Table.contains_iff.mp (hids id hid)
  have hany : (t.symbols.get? id).any (fun _ => true) = true := by
    rw [hfound]
    rfl
  obtain ⟨s, hs, hsid, -⟩ := ht.exists_holds_of_any hany
  exact ⟨s, hs, hsid⟩

theorem map_id_symbolsOf (ht : t.Closed) (hids : ∀ id ∈ ids, Known t.symbols id) :
    (t.symbolsOf ids).map Symbol.id = ids := by
  induction ids with
  | nil => rfl
  | cons id rest ih =>
      rcases hids id List.mem_cons_self with ⟨s, hs⟩
      have hid : s.id = id := ht.ids.get? hs
      have hrest := ih (fun other hother => hids other (List.mem_cons_of_mem id hother))
      unfold symbolsOf at hrest ⊢
      rw [List.filterMap_cons_some hs, List.map_cons, hrest, hid]

theorem map_id_bind (ht : t.Closed) {found : Option String}
    (hfound : ∀ id ∈ found, Known t.symbols id) :
    (found.bind t.symbols.get?).map Symbol.id = found := by
  cases found with
  | none => rfl
  | some id =>
      rcases hfound id rfl with ⟨s, hs⟩
      have hid : s.id = id := ht.ids.get? hs
      rw [Option.bind_some, hs, Option.map_some, hid]

/-! ## Mentions and calls -/

theorem known_of_mem_tokenMention {s : Symbol} (hs : Known t.symbols s.id)
    {location : Option Location} {m : Mention} (hm : m ∈ tokenMention s location) :
    Known t.symbols m.symbol := by
  unfold tokenMention at hm
  cases location with
  | none => cases hm
  | some l =>
      rw [List.mem_singleton.mp hm]
      exact hs

theorem known_of_mem_mentionsIn (ht : t.Closed) {op : Operation}
    (hop : ∀ s, op.Names s → Holds t.symbols s) {m : Mention} (hm : m ∈ t.mentionsIn op) :
    Known t.symbols m.symbol := by
  unfold mentionsIn at hm
  split at hm
  next target _ _ _ =>
    have htarget := hop target (Or.inr rfl)
    exact known_of_mem_tokenMention htarget.known hm
  next constructor _ _ _ =>
    simp only [] at hm
    rcases List.mem_append.mp hm with htype | hself
    · rcases List.mem_flatMap.mp htype with ⟨s, hs, hm⟩
      have hholds := holds_of_mem_symbolsOf ht.ids hs
      exact known_of_mem_tokenMention hholds.known hm
    · rcases List.mem_map.mp hself with ⟨l, -, rfl⟩
      exact (hop constructor (Or.inr rfl)).known
  next property _ _ _ =>
    have hproperty := hop property (Or.inl rfl)
    exact known_of_mem_tokenMention hproperty.known hm
  next field _ _ =>
    have hfield := hop field (Or.inl rfl)
    exact known_of_mem_tokenMention hfield.known hm
  next event _ _ =>
    have hevent := hop event (Or.inl rfl)
    exact known_of_mem_tokenMention hevent.known hm
  next => cases hm

theorem known_of_mem_mentions (ht : t.Closed) {m : Mention} (hm : m ∈ t.mentions) :
    Known t.symbols m.symbol := by
  rcases List.mem_append.mp hm with hbody | hlisted
  · rcases List.mem_flatMap.mp hbody with ⟨entry, hentry, hm⟩
    rcases List.mem_flatMap.mp hm with ⟨op, hop, hm⟩
    have hsettled := (ht.refers.bodies entry hentry).2
    exact known_of_mem_mentionsIn ht (hsettled op hop) hm
  · rcases List.mem_flatMap.mp hlisted with ⟨entry, -, hm⟩
    rcases List.mem_flatMap.mp hm with ⟨s, hs, hm⟩
    rcases List.mem_flatMap.mp hm with ⟨l, -, hm⟩
    exact known_of_mem_tokenMention (holds_of_mem_symbolsOf ht.ids hs).known hm

theorem known_of_mem_calls (ht : t.Closed) {c : CallSite} (hc : c ∈ t.calls) :
    Known t.symbols c.caller := by
  rcases List.mem_flatMap.mp hc with ⟨entry, hentry, hc⟩
  rcases List.mem_flatMap.mp hc with ⟨op, -, hc⟩
  have hmethod := (ht.refers.bodies entry hentry).1.known
  unfold callsIn at hc
  split at hc
  next =>
    rw [List.mem_singleton.mp hc]
    exact hmethod
  next =>
    rw [List.mem_singleton.mp hc]
    exact hmethod
  next => cases hc

end Tables

theorem Mention.mem_of_mem_distinctFrom {seen mentions : List Mention} {m : Mention}
    (hm : m ∈ distinctFrom seen mentions) : m ∈ seen ∨ m ∈ mentions := by
  induction mentions generalizing seen with
  | nil => exact Or.inl (List.mem_reverse.mp hm)
  | cons first rest ih =>
      unfold distinctFrom at hm
      split at hm
      next => exact (ih hm).imp_right (List.mem_cons_of_mem first)
      next =>
        rcases ih hm with hseen | hrest
        · rcases List.mem_cons.mp hseen with rfl | hold
          · exact Or.inr List.mem_cons_self
          · exact Or.inl hold
        · exact Or.inr (List.mem_cons_of_mem first hrest)

namespace Snapshot

open Tables

variable {s : Snapshot} {ids : List String}

/-- A document loads if it gives tables and its name can be written. -/
theorem ofDocument_eq_ok {disk : Disk} {data : Value} {root : String}
    {sourcePath : Option String} :
    ofDocument disk data root sourcePath = .ok s ↔ ∃ t, Index.tables disk root data = .ok t ∧
      (data.field "name").isWritable = true ∧
        s = ofTables (nameOf data root) root sourcePath t := by
  unfold ofDocument
  rw [Attempt.bind_eq_ok]
  constructor
  · rintro ⟨t, ht, hs⟩
    obtain ⟨_, hname, hs⟩ := Attempt.bind_eq_ok.mp hs
    exact ⟨t, ht, Entry.mustWrite_eq_ok.mp hname, (Attempt.pure_eq_ok.mp hs).symm⟩
  · rintro ⟨t, ht, hname, rfl⟩
    exact ⟨t, ht, Attempt.bind_eq_ok.mpr ⟨(), Entry.mustWrite_eq_ok.mpr hname, rfl⟩⟩

theorem tables_of_ofDocument {disk : Disk} {data : Value} {root : String}
    {sourcePath : Option String} (hs : ofDocument disk data root sourcePath = .ok s) :
    Index.tables disk root data = .ok s.tables := by
  obtain ⟨t, ht, -, rfl⟩ := ofDocument_eq_ok.mp hs
  exact ht

theorem map_id_sorted (hs : s.tables.Closed) (hids : ∀ id ∈ ids, Known s.tables.symbols id) :
    ((s.sorted ids).map Symbol.id).Perm (Link.distinct ids) := by
  have hdistinct : ∀ id ∈ Link.distinct ids, Known s.tables.symbols id := by
    intro id hid
    exact hids id ((Link.mem_distinct ids id).mp hid)
  have hfound := map_id_symbolsOf hs hdistinct
  have hsorted := List.mergeSort_perm (s.symbolsOf (Link.distinct ids)) Symbol.precedes
  rw [← hfound]
  exact hsorted.map Symbol.id

theorem known_of_mem_mentions (hs : s.tables.Closed) {m : Mention} (hm : m ∈ s.mentions) :
    Known s.tables.symbols m.symbol := by
  rw [s.mentions_eq] at hm
  have hmem := (Mention.mem_of_mem_distinctFrom hm).resolve_left List.not_mem_nil
  exact Tables.known_of_mem_mentions hs hmem

theorem known_of_mem_calls (hs : s.tables.Closed) {c : CallSite} (hc : c ∈ s.calls) :
    Known s.tables.symbols c.caller := by
  rw [s.calls_eq] at hc
  exact Tables.known_of_mem_calls hs hc

theorem known_of_mem_typeNames (hs : s.tables.Closed) {type : String}
    (htype : type ∈ s.tables.typeNames.values) : Known s.tables.symbols type := by
  rcases (hs.typeNames type).mp htype with ⟨symbol, hsymbol, -, rfl⟩
  exact (hs.holds hsymbol).known

/-! ## Links -/

theorem leadInto_interfaces (hs : s.tables.Closed) :
    Reach.LeadInto s.tables.declaredInterfaces.entries (Known s.tables.symbols) := by
  intro entry hentry
  exact (hs.refers.declaredInterfaces entry hentry).2

theorem known_of_mem_interfaceIds (hs : s.tables.Closed) {type id : String}
    (hid : id ∈ s.interfaceIds type) : Known s.tables.symbols id := by
  have hmem := List.mem_of_mem_filter hid
  exact (leadInto_interfaces hs).explore (type :: s.baseChain type) id hmem

theorem leadInto_extensionLinks (hs : s.tables.Closed) :
    Reach.LeadInto s.extensionLinks (Known s.tables.symbols) := by
  refine List.foldlRecOn (motive := Reach.LinksInto (Known s.tables.symbols)) _ _
    (Reach.linksInto_empty _) ?_
  intro r hr entry hentry
  have htype := (hs.refers.declaredInterfaces entry hentry).1
  simp only []
  split
  next =>
    refine List.foldlRecOn (motive := Reach.LinksInto (Known s.tables.symbols)) _ _ hr ?_
    intro r' hr' interface _
    exact hr'.append interface htype
  next => exact hr

theorem leadInto_derived (hs : s.tables.Closed) :
    Reach.LeadInto (Reach.reversed s.tables.baseTypes) (Known s.tables.symbols) :=
  Reach.leadInto_reversed (hs.refers.baseTypes.mono fun _ _ h => h.1)

theorem leadInto_overriding (hs : s.tables.Closed) :
    Reach.LeadInto (Reach.reversed s.tables.overridden) (Known s.tables.symbols) :=
  Reach.leadInto_reversed (hs.refers.overridden.mono fun _ _ h => h.1)

theorem known_of_mem_keysWhere (hs : s.tables.Closed) {p : List String → Bool} {id : String}
    (hid : id ∈ s.tables.explicitImplementations.keysWhere p) : Known s.tables.symbols id := by
  rcases List.mem_map.mp hid with ⟨entry, hentry, rfl⟩
  exact (hs.refers.explicitImplementations entry (List.mem_of_mem_filter hentry)).1

theorem known_of_matchingMember (hs : s.tables.Closed) {signature : String × List String}
    {owners : List String} {id : String} (hid : s.matchingMember? signature owners = some id) :
    Known s.tables.symbols id := by
  rcases List.exists_of_findSome?_eq_some hid with ⟨owner, -, howner⟩
  rcases Option.map_eq_some_iff.mp howner with ⟨m, hm, rfl⟩
  have hmem := List.mem_of_find?_eq_some hm
  exact (holds_of_mem_symbolsOf hs.ids hmem).known

end Snapshot
end SymbolAtlas
