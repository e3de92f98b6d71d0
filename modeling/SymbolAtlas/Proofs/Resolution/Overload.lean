import SymbolAtlas.Proofs.Resolution.Address
import Mathlib.Tactic

/-!
# Overloads do not depend on their order

Two methods of one type with one name whose parameter types match have the same id, and no type
lists an id twice.  So the overloads of a name are told apart by their parameter types, and a list
of such types chooses the same overload wherever it stands among the others.
-/

namespace SymbolAtlas

open Tables

namespace Resolution

/-- No two methods have parameter types that match. -/
def TellApart (methods : List Symbol) : Prop :=
  methods.Pairwise fun m x => Signature.typesMatch m.parameterTypes x.parameterTypes = false

variable {methods others : List Symbol}

/-- Of methods that are told apart, a list of types matches one at most. -/
theorem TellApart.length_filter_le (hapart : TellApart methods) (wanted : List String) :
    (methods.filter fun m => Signature.typesMatch wanted m.parameterTypes).length ≤ 1 := by
  have hmatching := hapart.filter fun m => Signature.typesMatch wanted m.parameterTypes
  cases hfound : methods.filter fun m => Signature.typesMatch wanted m.parameterTypes with
  | nil => simp
  | cons m rest =>
      cases rest with
      | nil => simp
      | cons x rest =>
          have hall : ∀ y ∈ m :: x :: rest,
              Signature.typesMatch wanted y.parameterTypes = true := by
            intro y hy
            rw [← hfound] at hy
            exact (List.mem_filter.mp hy).2
          have hm := Signature.typesMatch_iff.mp (hall m (by simp))
          have hx := Signature.typesMatch_iff.mp (hall x (by simp))
          have hmatch : Signature.typesMatch m.parameterTypes x.parameterTypes = true :=
            Signature.typesMatch_iff.mpr (hm.symm.trans hx)
          rw [hfound, List.pairwise_cons] at hmatching
          have hapart := hmatching.1 x (by simp)
          simp [hmatch] at hapart

theorem eq_of_perm_of_length_le {α : Type} {l l' : List α} (hperm : l'.Perm l)
    (hlength : l.length ≤ 1) : l' = l := by
  match l, hlength with
  | [], _ => exact List.perm_nil.mp hperm
  | [x], _ => exact List.perm_singleton.mp hperm

/-- The order of methods that are told apart does not matter to what a list chooses. -/
theorem TellApart.choose?_perm (hapart : TellApart methods) (hperm : others.Perm methods)
    (list : Option String) : choose? others list = choose? methods list := by
  cases list with
  | none =>
      by_cases hlength : methods.length ≤ 1
      · rw [eq_of_perm_of_length_le hperm hlength]
      · have hnone : ∀ several : List Symbol, 1 < several.length →
            choose? several none = none := by
          intro several hseveral
          match several, hseveral with
          | first :: second :: rest, _ => rfl
        rw [hnone methods (by omega), hnone others (by rw [hperm.length_eq]; omega)]
  | some list =>
      have hfiltered := hperm.filter fun m =>
        Signature.typesMatch (Signature.parameters list) m.parameterTypes
      have hsame := eq_of_perm_of_length_le hfiltered (hapart.length_filter_le _)
      simp only [choose?, ← List.head?_filter, hsame]

end Resolution

namespace Snapshot

open Resolution

variable {s : Snapshot} {type : Symbol}

/-- The methods of a type that have a name and are no accessors. -/
def overloads (s : Snapshot) (type : Symbol) (name : String) : List Symbol :=
  (s.membersNamed type name).filter fun m => m.kind == .method && !m.isAccessor

theorem mem_overloads_iff {name : String} {m : Symbol} : m ∈ s.overloads type name ↔
    m ∈ s.membersOf type ∧ m.name = name ∧ m.kind = .method ∧ m.isAccessor = false := by
  simp [overloads, membersNamed]
  tauto

theorem nodup_membersOf (hclosed : s.tables.Closed) (howned : s.tables.Owned) :
    (s.membersOf type).Nodup := by
  have hids : ∀ id ∈ s.tables.members.listAt type.id, Known s.tables.symbols id := by
    intro id hid
    exact (howned.lists type.id id hid).2.known
  apply List.Nodup.of_map Symbol.id
  rw [show (s.membersOf type).map Symbol.id = s.tables.members.listAt type.id from
    map_id_symbolsOf hclosed hids]
  exact howned.once type.id

theorem WellTitled.tellApart (hs : s.WellTitled) (htype : Holds s.tables.symbols type)
    (name : String) : TellApart (s.overloads type name) := by
  have hdistinct : (s.overloads type name).Nodup :=
    ((nodup_membersOf hs.closed hs.owned).filter _).filter _
  apply hdistinct.imp_of_mem
  intro m x hm hx hne
  obtain ⟨hm, hname, hkind, hplain⟩ := mem_overloads_iff.mp hm
  obtain ⟨hx, hsame, hother, hplainOther⟩ := mem_overloads_iff.mp hx
  rw [Bool.eq_false_iff]
  intro hmatch
  apply hne
  have hcalled := hs.isMethodOf htype hm ⟨.inl hkind, hplain⟩
  have hcalledOther := hs.isMethodOf htype hx ⟨.inl hother, hplainOther⟩
  exact (eq_of_typesMatch hs.closed hm hx hcalled hcalledOther (hsame.trans hname.symm)
    hmatch).symm

/-- In every loaded document the overloads of a name are told apart by their parameter types, so
that the order in which a type lists them does not matter. -/
theorem choose?_of_perm {disk : Disk} {data : Value} {root : String} {sourcePath : Option String}
    (hs : ofDocument disk data root sourcePath = .ok s) (htype : Holds s.tables.symbols type)
    (name : String) :
    TellApart (s.overloads type name) ∧
      ∀ methods list, methods.Perm (s.overloads type name) →
        choose? methods list = choose? (s.overloads type name) list := by
  have hapart := (wellTitled_of_ofDocument hs).tellApart htype name
  constructor
  · exact hapart
  · intro methods list hperm
    exact hapart.choose?_perm hperm list

/-- A till that is opened with a sum, with a currency, or with both. -/
def tillDocument : Value :=
  let opening (types : List String) : Value :=
    .mapping [(.text "kind", .text "constructor"), (.text "parameters", .list (types.map .text))]
  .mapping [(.text "types", .list [.mapping [(.text "name", .text "Shop.Till"),
    (.text "members", .list [opening ["int"], opening ["string"],
      opening ["System.Int32", "string"]])]])]

theorem choose?_of_perm_till : ∃ s type, ofDocument .empty tillDocument "/work" none = .ok s ∧
    Holds s.tables.symbols type ∧ (s.overloads type ".ctor").length = 3 ∧
      TellApart (s.overloads type ".ctor") ∧
        choose? (s.overloads type ".ctor").reverse (some "System.String") =
          choose? (s.overloads type ".ctor") (some "System.String") := by
  have hfacts : (ofDocument .empty tillDocument "/work" none).toOption.any (fun s =>
      (s.symbol? "T:Shop.Till").any fun type => (s.overloads type ".ctor").length == 3) = true := by
    decide +kernel
  obtain ⟨s, hs, hfacts⟩ := Attempt.exists_ok_of_any hfacts
  obtain ⟨type, htype, -, hlength⟩ :=
    (wellFormed_of_ofDocument hs).closed.exists_holds_of_any hfacts
  obtain ⟨hapart, hany⟩ := choose?_of_perm hs htype ".ctor"
  exact ⟨s, type, hs, htype, beq_iff_eq.mp hlength, hapart,
    hany _ _ (List.reverse_perm (s.overloads type ".ctor"))⟩

end Snapshot
end SymbolAtlas
