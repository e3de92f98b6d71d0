import SymbolAtlas.Proofs.Index.Method
import SymbolAtlas.Proofs.Index.Parameter
import SymbolAtlas.Proofs.Snapshot.Hierarchy
import Mathlib.Tactic

/-!
# Parameters of loaded methods

A method or constructor of a document is loaded with its parameters in their order.  Of a parameter
that is written as a text, the passing mode is always read right, and the type and the name as long
as the text gives a name or a type without spaces.
-/

namespace SymbolAtlas
namespace Snapshot

open Index Declaration Entry

variable {s : Snapshot} {disk : Disk} {data : Value} {root : String} {path : Option String}

/-- A text parameter of a loaded method is never refused, wherever it stands, and has the mode that
it spells.  It has the type and the name that it spells, or a name for its position, just when the
text gives a name or the type has no spaces. -/
theorem parameter_spelled (hs : ofDocument disk data root path = .ok s) {types : List Value}
    (htypes : typesOf data = .ok types) {entry : Value} (hentry : entry ∈ types)
    {members : List Value} (hmembers : (entry.field "members").itemsIfPresent = .ok members)
    {member : Value} (hmember : member ∈ members) {method : String}
    (hmethod : methodNamed? member (memberKind member) = some method) {items : List Value}
    (hitems : (member.field "parameters").itemsIfPresent = .ok items) {i : Nat} {mode : Passing}
    {type : String} {name : Option String} (htype : IsTypeText type)
    (hname : ∀ n ∈ name, IsNameText n) (hitem : items[i]? = some (.text (spelled mode type name))) :
    ∃ m p, s.symbol? (methodId (typeName entry) method m.parameters) = some m ∧
      m.parameters[i]? = some p ∧ p.passing = mode ∧
      (∀ place, parameter i (.text (spelled mode type name)) place = .ok p) ∧
      (p = ⟨name.getD (positionalName i), type, mode⟩ ↔
        name.isSome = true ∨ ' ' ∉ type.toList) := by
  obtain ⟨others, hothers, hdeclares⟩ := declaresAll_of_tables (tables_of_ofDocument hs)
  obtain rfl : types = others := Except.ok.inj (htypes.symm.trans hothers)
  obtain ⟨_, _, -, hmethods⟩ :=
    hdeclares entry hentry members (by rw [hmembers]; rfl) member hmember
  obtain ⟨parameters, m, hparameters, hid, rfl, hhas⟩ := hmethods.own method hmethod
  obtain ⟨p, hp, hread⟩ := parameters_eq_ok hitems hparameters hitem
  obtain ⟨q, hspelled, hmode, hright⟩ := exists_parameter_spelled htype mode hname i
  obtain rfl : p = q := Except.ok.inj (hread.symm.trans (hspelled _))
  exact ⟨m, p, hid ▸ hhas.holds, hp, hmode, hspelled, hright⟩

/-- A method that puts something into a cache. -/
def cachePutMember (parameters : List Value) : Value :=
  .mapping [(.text "name", .text "Put"), (.text "parameters", .list parameters)]

def cachePutEntry (parameters : List Value) : Value :=
  .mapping [(.text "name", .text "Cache"), (.text "members", .list [cachePutMember parameters])]

def cachePutDocument (parameters : List Value) : Value :=
  .mapping [(.text "types", .list [cachePutEntry parameters])]

/-- The entries of the cache by reference, and a type without spaces that has no name. -/
def namedParameters : List Value :=
  [.text "ref Dictionary<string, int> entries", .text "string"]

theorem isTypeText_dictionary : IsTypeText "Dictionary<string, int>" :=
  ⟨by decide, by decide +kernel, by decide +kernel, fun mode => by cases mode <;> decide⟩

theorem parameter_spelled_put : ∃ s,
    ofDocument .empty (cachePutDocument namedParameters) "/work" none = .ok s ∧
      IsTypeText "Dictionary<string, int>" ∧ IsNameText "entries" ∧
      namedParameters[0]? =
        some (.text (spelled .byRef "Dictionary<string, int>" (some "entries"))) ∧
      ∃ m, s.symbol? (methodId "Cache" "Put" m.parameters) = some m ∧
        m.parameters[0]? = some ⟨"entries", "Dictionary<string, int>", .byRef⟩ := by
  have hloads : (ofDocument .empty (cachePutDocument namedParameters) "/work" none).toOption.any
      (fun _ => true) = true := by
    decide +kernel
  obtain ⟨s, hs, -⟩ := Attempt.exists_ok_of_any hloads
  have hname : IsNameText "entries" := ⟨by decide, by decide +kernel⟩
  have hmethod : methodNamed? (cachePutMember namedParameters)
      (memberKind (cachePutMember namedParameters)) = some "Put" := by
    decide +kernel
  have hspelled : spelled .byRef "Dictionary<string, int>" (some "entries") =
      "ref Dictionary<string, int> entries" := by
    decide +kernel
  have hitem : namedParameters[0]? =
      some (.text (spelled .byRef "Dictionary<string, int>" (some "entries"))) := by
    rw [hspelled]
    rfl
  have hnames : ∀ n ∈ some "entries", IsNameText n := by
    rintro _ ⟨⟩
    exact hname
  obtain ⟨m, p, hm, hp, -, -, hright⟩ := parameter_spelled hs rfl (List.mem_singleton_self _) rfl
    (List.mem_singleton_self _) hmethod rfl isTypeText_dictionary hnames hitem
  exact ⟨s, hs, isTypeText_dictionary, hname, hitem, m, hm, hright.mpr (.inl rfl) ▸ hp⟩

/-- Without a name, what stands behind the last space of a type is taken for the name. -/
theorem type_split_without_name : ∃ s m,
    ofDocument .empty (cachePutDocument [.text "Dictionary<string, int>"]) "/work" none = .ok s ∧
      IsTypeText "Dictionary<string, int>" ∧
      spelled .byValue "Dictionary<string, int>" none = "Dictionary<string, int>" ∧
      s.symbol? "M:Cache.Put(Dictionary<System.String,)" = some m ∧
      m.parameters = [⟨"int>", "Dictionary<string,", .byValue⟩] := by
  have hfacts : (ofDocument .empty (cachePutDocument [.text "Dictionary<string, int>"]) "/work"
      none).toOption.any (fun s =>
        (s.symbol? "M:Cache.Put(Dictionary<System.String,)").any fun m =>
          decide (m.parameters = [⟨"int>", "Dictionary<string,", .byValue⟩])) = true := by
    decide +kernel
  obtain ⟨s, hs, hmethod⟩ := Attempt.exists_ok_of_any hfacts
  obtain ⟨m, hm, hparameters⟩ := Option.any_eq_true _ _ |>.mp hmethod
  exact ⟨s, m, hs, isTypeText_dictionary, by decide +kernel, hm, of_decide_eq_true hparameters⟩

end Snapshot
end SymbolAtlas
