import SymbolAtlas.Proofs.Index.Metadata
import SymbolAtlas.Proofs.Reordering.Answer
import Mathlib.Tactic

/-!
# What a type declares by itself

Declaring a type over a draft does what it does over the empty draft, beside what is there already.
A draft is joined from a base and a draft of its own if each of its tables answers with its own
answer first and the base's otherwise, and nothing that is its own is known in the base.  The steps
that declare members respect this in both ways: they succeed over the base if and only if they
succeed by themselves with ids that are new to the base.
-/

namespace SymbolAtlas
namespace Draft

open Tables

/-- A draft holds a base and, beside it, a draft of its own. -/
structure Joined (base own d : Draft) : Prop where
  symbols : ∀ id, d.symbols.get? id = (own.symbols.get? id).or (base.symbols.get? id)
  typeNames : ∀ name,
    d.typeNames.get? name = (own.typeNames.get? name).or (base.typeNames.get? name)
  members : ∀ type, d.members.get? type = (own.members.get? type).or (base.members.get? type)
  containing : ∀ id, Apart id →
    d.containing.get? id = (own.containing.get? id).or (base.containing.get? id)
  accessors : ∀ id, d.accessors.get? id = (own.accessors.get? id).or (base.accessors.get? id)
  spans : ∀ id, d.spans.get? id = (own.spans.get? id).or (base.spans.get? id)
  metadataTypes : d.metadataTypes = base.metadataTypes ++ own.metadataTypes
  pendingLinks : d.pendingLinks = base.pendingLinks ++ own.pendingLinks
  pendingMembers : d.pendingMembers = base.pendingMembers ++ own.pendingMembers
  pendingBodies : d.pendingBodies = base.pendingBodies ++ own.pendingBodies
  links : SameLinks ∅ base d
  fresh : ∀ id, Known own.symbols id → base.symbols.get? id = none
  freshNames : ∀ name id, own.typeNames.get? name = some id → base.typeNames.get? name = none

/-- The own draft has the type, with members that are its own. -/
def Lists (own : Draft) (type : String) : Prop :=
  ∃ ids, own.members.get? type = some ids ∧ ∀ id ∈ ids, Known own.symbols id

variable {base own d : Draft} {type : String}

theorem get?_insert_or {α : Type} {t u : Table α} {other : String} {b : Option α} (key : String)
    (value : α) (h : t.get? other = (u.get? other).or b) :
    (t.insert key value).get? other = ((u.insert key value).get? other).or b := by
  rw [Table.get?_insert, Table.get?_insert]
  split
  next => rw [Option.some_or]
  next => exact h

theorem known_insert {symbols : Table Symbol} {id : String} (h : Known symbols id) (s : Symbol) :
    Known (symbols.insert s.id s) id := by
  obtain ⟨x, hx⟩ := h
  unfold Known
  rw [Table.get?_insert]
  split
  next => exact ⟨s, rfl⟩
  next => exact ⟨x, hx⟩

theorem Joined.membersOf (h : Joined base own d) (hlists : own.Lists type) :
    d.membersOf type = own.membersOf type := by
  obtain ⟨ids, hids, hknown⟩ := hlists
  have hget : d.members.get? type = own.members.get? type := by
    rw [h.members, hids, Option.some_or]
  unfold Tables.membersOf Tables.symbolsOf
  rw [Table.listAt_congr hget]
  refine List.filterMap_congr ?_
  intro id hid
  unfold Table.listAt at hid
  rw [hids] at hid
  obtain ⟨s, hs⟩ := hknown id hid
  rw [h.symbols, hs, Option.some_or]

theorem Joined.putSpan (h : Joined base own d) (id : String) (span : Option Span) :
    Joined base (own.putSpan id span) (d.putSpan id span) := by
  cases span with
  | none => exact h
  | some span =>
      exact { h with
        spans := fun other => get?_insert_or id span (h.spans other)
        links := { h.links with } }

theorem Joined.putMember (h : Joined base own d) (hlists : own.Lists type) {s : Symbol}
    (hnew : base.symbols.get? s.id = none) (span : Option Span) :
    Joined base (own.putMember type s span) (d.putMember type s span) := by
  obtain ⟨ids, hids, -⟩ := hlists
  have hlist : d.members.listAt type = own.members.listAt type := by
    refine Table.listAt_congr ?_
    rw [h.members, hids, Option.some_or]
  refine Joined.putSpan ?_ s.id span
  refine { h with
    symbols := fun id => get?_insert_or s.id s (h.symbols id)
    members := ?_
    containing := fun id hid => get?_insert_or s.id type (h.containing id hid)
    links := { h.links with }
    fresh := ?_ }
  · intro other
    change (d.members.insert type (d.members.listAt type ++ [s.id])).get? other = _
    rw [hlist]
    exact get?_insert_or type _ (h.members other)
  · rintro id ⟨x, hx⟩
    obtain ⟨rfl, -⟩ | hold := get?_insert_cases hx
    · exact hnew
    · exact h.fresh id ⟨x, hold⟩

theorem Lists.putMember (h : own.Lists type) (s : Symbol) (span : Option Span) :
    (own.putMember type s span).Lists type := by
  obtain ⟨ids, hids, hknown⟩ := h
  have hlist : own.members.listAt type = ids := by
    unfold Table.listAt
    rw [hids]
    rfl
  have hput : Lists
      { own with
        symbols := own.symbols.insert s.id s
        members := own.members.append type s.id
        containing := own.containing.insert s.id type } type := by
    refine ⟨ids ++ [s.id], ?_, ?_⟩
    · change (own.members.insert type (own.members.listAt type ++ [s.id])).get? type = _
      rw [hlist, Table.get?_insert, if_pos rfl]
    · intro id hid
      obtain hold | hlast := List.mem_append.mp hid
      · exact known_insert (hknown id hold) s
      · rw [List.mem_singleton.mp hlast]
        exact ⟨s, get?_insert_self _ _⟩
  unfold Draft.putMember
  cases span with
  | none => exact hput
  | some span => exact hput

theorem Joined.putContaining (h : Joined base own d) (id container : String) :
    Joined base (own.putContaining id container) (d.putContaining id container) :=
  { h with
    containing := fun other hother => get?_insert_or id container (h.containing other hother)
    links := { h.links with } }

theorem Joined.putAccessors (h : Joined base own d) (property : String)
    (getter setter : Option String) :
    Joined base (own.putAccessors property getter setter)
      (d.putAccessors property getter setter) :=
  { h with
    accessors := fun id => get?_insert_or property (getter, setter) (h.accessors id)
    links := { h.links with } }

theorem append_eq_append {α : Type} {all before own : List α} (h : all = before ++ own)
    (more : List α) : all ++ more = before ++ (own ++ more) := by
  rw [h, List.append_assoc]

theorem Joined.deferBody (h : Joined base own d) (method : String) (file : Option String)
    (data : Value) :
    Joined base (own.deferBody method file data) (d.deferBody method file data) := by
  unfold Draft.deferBody
  simp only []
  split
  next => exact h
  next =>
    exact { h with
      pendingBodies := append_eq_append h.pendingBodies _
      links := { h.links with } }

theorem Joined.deferMember (h : Joined base own d) (member : String) (data : Value) :
    Joined base (own.deferMember member data) (d.deferMember member data) :=
  { h with
    pendingMembers := append_eq_append h.pendingMembers _
    links := { h.links with } }

theorem Joined.deferLink (h : Joined base own d) (type : String) (data : Value) :
    Joined base (own.deferLink type data) (d.deferLink type data) :=
  { h with
    pendingLinks := append_eq_append h.pendingLinks _
    links := { h.links with } }

end Draft

namespace Building

open Draft Tables

variable {α β : Type} {base : Draft} {type : String}

/-- A joined draft whose own part has the type. -/
def JoinedAt (base : Draft) (type : String) (d own : Draft) : Prop :=
  Joined base own d ∧ own.Lists type

/-- The step succeeds over a base exactly if it does by itself and its ids are new to the base. -/
structure Joins (base : Draft) (type : String) (step : Building α) : Prop where
  grows : ∀ d, Ensures step d fun _ e => ∀ id, Known d.symbols id → Known e.symbols id
  splits : Respects (JoinedAt base type) step
  joins : ∀ d own, JoinedAt base type d own → Ensures step own fun a own' =>
    (∀ id, Known own'.symbols id → base.symbols.get? id = none) →
      ∃ e, step d = .ok (a, e) ∧ JoinedAt base type e own'

theorem chains_joins (base : Draft) (type : String) : Chains (Joins base type) where
  pure a :=
    { grows := fun d => ensures_pure.mpr fun _ h => h
      splits := follows_pure rfl
      joins := fun d own h => ensures_pure.mpr fun _ => ⟨d, rfl, h⟩ }
  lift x :=
    { grows := by
        intro d
        rw [ensures_lift]
        intro _ _ _ h
        exact h
      splits := follows_lift_same x
      joins := by
        intro d own h
        rw [ensures_lift]
        rintro a rfl _
        exact ⟨d, rfl, h⟩ }
  bind {_ _ step next} hstep hnext :=
    { grows := by
        intro d
        refine (hstep.grows d).bind ?_
        intro a d' hfirst
        refine ((hnext a).grows d').imp ?_
        intro _ _ hlast id hid
        exact hlast id (hfirst id hid)
      splits := hstep.splits.bind_same fun a => (hnext a).splits
      joins := by
        intro d own h _ own₂ hrun hfresh
        obtain ⟨a, own₁, hrun₁, hrun₂⟩ := bind_run_eq_ok.mp hrun
        have hgrown := (hnext a).grows own₁ _ own₂ hrun₂
        obtain ⟨e₁, hfirst, h₁⟩ := hstep.joins d own h a own₁ hrun₁ fun id hid =>
          hfresh id (hgrown id hid)
        obtain ⟨e₂, hlast, h₂⟩ := (hnext a).joins e₁ own₁ h₁ _ own₂ hrun₂ hfresh
        exact ⟨e₂, bind_run_eq_ok.mpr ⟨a, e₁, hfirst, hlast⟩, h₂⟩ }

theorem joins_modify {f : Draft → Draft} (hsymbols : ∀ d, (f d).symbols = d.symbols)
    (hlists : ∀ own : Draft, own.Lists type → (f own).Lists type)
    (h : ∀ own d, Joined base own d → Joined base (f own) (f d)) :
    Joins base type (modify f : Building PUnit) where
  grows d := by
    rw [ensures_modify, hsymbols]
    exact fun _ h => h
  splits := respects_modify fun d own hjoined => ⟨h own d hjoined.1, hlists own hjoined.2⟩
  joins d own hjoined := by
    rw [ensures_modify]
    intro _
    exact ⟨f d, rfl, h own d hjoined.1, hlists own hjoined.2⟩

theorem addMember_run {d : Draft} {s : Symbol} (hnew : d.symbols.get? s.id = none) (type : String)
    (span : Option Span) : addMember type s span d = .ok ((), d.putMember type s span) := by
  refine bind_run_eq_ok.mpr ⟨d, d, rfl, ?_⟩
  rw [Table.contains, hnew]
  rfl

theorem symbols_putMember (d : Draft) (type : String) (s : Symbol) (span : Option Span) :
    (d.putMember type s span).symbols = d.symbols.insert s.id s := by
  cases span <;> rfl

theorem addMember_joins (s : Symbol) (span : Option Span) :
    Joins base type (addMember type s span) where
  grows d := by
    rw [ensures_addMember, symbols_putMember]
    intro _ id hid
    exact known_insert hid s
  splits d own h := by
    rw [ensures_addMember]
    intro hnew
    have hnone := Table.get?_of_contains hnew
    rw [h.1.symbols, Option.or_eq_none_iff] at hnone
    exact ⟨(), _, addMember_run hnone.1 type span, rfl, h.1.putMember h.2 hnone.2 span,
      h.2.putMember s span⟩
  joins d own h := by
    rw [ensures_addMember, symbols_putMember]
    intro hnew hfresh
    have hown := Table.get?_of_contains hnew
    have hbase := hfresh s.id ⟨s, get?_insert_self _ _⟩
    have hnone : d.symbols.get? s.id = none := by
      rw [h.1.symbols, hown, hbase, Option.or_none]
    exact ⟨_, addMember_run hnone type span, h.1.putMember h.2 hbase span, h.2.putMember s span⟩

end Building
end SymbolAtlas
