import SymbolAtlas.Proofs.Index.Frame
import SymbolAtlas.Proofs.Index.Metadata
import Mathlib.Tactic

/-!
# Symbols of a document are called by their types

The entries of a document call all that they bring in by its type, and so does metadata later on.
The names that entries give to members are single segments as far as the document says so; metadata
takes its names from behind the last dot.
-/

namespace SymbolAtlas

open Building Draft Tables Index

namespace Index

/-- No member that a document lists has a name with a dot. -/
def UndottedMembers (data : Value) : Prop :=
  ∀ types ∈ (typesOf data).toOption, ∀ entry ∈ types,
    Declaration.NamesMembers (fun name => '.' ∉ name.toList) entry

instance (data : Value) : Decidable (UndottedMembers data) :=
  inferInstanceAs (Decidable (∀ types ∈ (typesOf data).toOption, ∀ entry ∈ types,
    ∀ items ∈ (allowing (entry.field "members").itemsIfPresent).toOption, ∀ item ∈ items,
      '.' ∉ (item.field "name").plain.toList))

end Index

namespace Draft

/-- All symbols are called by their types and ids, and the type is there. -/
structure CallsWith (type : Symbol) (d : Draft) : Prop where
  holds : Holds d.symbols type
  all : CallsAll d.symbols

variable {type : Symbol} {d d' : Draft}

theorem CallsWith.of_symbols (h : d.CallsWith type) (hsymbols : d'.symbols = d.symbols) :
    d'.CallsWith type :=
  ⟨hsymbols ▸ h.holds, hsymbols ▸ h.all⟩

/-- What metadata adds is called as all the rest is. -/
theorem Enriches.callsAll (h : d.Enriches d') (hd : CallsAll d.symbols) : CallsAll d'.symbols := by
  intro id s hs
  cases hold : d.symbols.get? id with
  | none => exact (h.added id s hold hs).2.1
  | some t =>
      obtain rfl := Option.some.inj ((h.kept id t hold).symm.trans hs)
      exact (hd id t hold).mono h.kept

end Draft

namespace Declaration

variable {owner : Owner} {s : Symbol} {symbols : Table Symbol}

theorem Owner.Admits.calls (h : owner.Admits (fun name => '.' ∉ name.toList) s)
    (hkind : owner.type.kind = .namedType) (hholds : Holds symbols owner.type) :
    Calls symbols s := by
  cases haccessor : s.isAccessor with
  | true => exact .accessor h.kind haccessor
  | false =>
      exact .member owner.type hholds hkind h.kind (h.inside haccessor) (h.named haccessor)

theorem declares_calls (hkind : owner.type.kind = .namedType) :
    DeclaresContents owner (fun name => '.' ∉ name.toList)
      (Relates fun d d' => d.CallsWith owner.type → d'.CallsWith owner.type) where
  chains := chains_of_trans (fun _ h => h) fun hfirst hlast h => hlast (hfirst h)
  addMember s span hadmits d := by
    rw [ensures_addMember]
    intro hnew hd
    have hnone := Table.get?_of_contains hnew
    have hput : CallsWith owner.type { d with symbols := d.symbols.insert s.id s } :=
      ⟨hd.holds.mono (kept_insert hnone), hd.all.insert hnone (hadmits.calls hkind hd.holds)⟩
    exact hput.of_symbols (by cases span <;> rfl)
  putContaining id container data _ := relates_modify fun d h =>
    h.of_symbols (same_deferBody (d.putContaining id container) id owner.file data).symbols
  putAccessors _ _ _ := relates_modify fun _ h => h.of_symbols rfl
  deferBody method data := relates_modify fun d h =>
    h.of_symbols (same_deferBody d method owner.file data).symbols
  deferMember _ _ := relates_modify fun _ h => h.of_symbols rfl
  membersOf := relates_get_bind fun _ => ensures_pure.mpr fun h => h
  putSpan span := relates_modify fun d h => h.of_symbols (same_putSpan d _ span).symbols
  nest := relates_modify fun d h => h.of_symbols <| by
    split
    next => split <;> rfl
    next => rfl
  deferLink _ := relates_modify fun _ h => h.of_symbols rfl

theorem declareType_calls {d : Draft} (hd : d.Sound) (hcalls : CallsAll d.symbols) (root : String)
    {entry : Value} (hnames : NamesMembers (fun name => '.' ∉ name.toList) entry) :
    Ensures (declareType root entry) d fun _ d' => CallsAll d'.symbols := by
  rintro ⟨⟩ e hrun
  obtain ⟨kind, location, modifiers, -, hnew, hbody⟩ := declareType_eq_ok.mp hrun
  have hnone := hd.typeId_new (Table.contains_of_get? hnew)
  have hheaded : (headed entry kind location modifiers d).CallsWith
      (declaredType (typeName entry) kind location modifiers entry) :=
    ⟨get?_insert_self _ _, hcalls.insert hnone (.type (typeName entry) rfl rfl rfl rfl)⟩
  let owner : Owner := ⟨declaredType (typeName entry) kind location modifiers entry,
    typeName entry, typeFile root entry, root, isMetadata entry⟩
  have hdeclares : DeclaresContents owner _ _ := declares_calls rfl
  have hcontents := hdeclares.declareContents hnames location _ _ _ _ hbody
  exact (hcontents hheaded).all

end Declaration

namespace Index

/-- In a document whose members have names without dots all symbols are called by their types. -/
theorem callsAll_of_tables {disk : Disk} {root : String} {data : Value} {t : Tables}
    (hnames : UndottedMembers data) (ht : tables disk root data = .ok t) : CallsAll t.symbols := by
  obtain ⟨e, hrun, rfl⟩ := exists_run_of_tables ht
  have hall : Ensures (readDocument disk root data) Draft.empty fun _ e => CallsAll e.symbols := by
    rw [readDocument_eq_rest]
    simp only [ensures_bind, ensures_lift]
    intro types htypes
    have hlisted := hnames types (Attempt.mem_toOption_iff.mpr htypes)
    have hempty : CallsAll Draft.empty.symbols := by
      intro id s hs
      cases hs
    refine (forEach_keeps (P := fun d => d.Sound ∧ CallsAll d.symbols) ⟨Sound.empty, hempty⟩
      ?_).imp ?_
    · rintro entry hentry d ⟨hd, hcalls⟩
      refine ((Declaration.declareType_ensures hd root entry).and
        (Declaration.declareType_calls hd hcalls root (hlisted entry hentry))).imp ?_
      exact fun _ _ h => ⟨h.1.sound, h.2⟩
    · rintro _ d ⟨hd, hcalls⟩
      exact (readRest_enriches hd disk root data).imp fun _ _ henriches =>
        henriches.callsAll hcalls
  exact hall () e hrun

end Index
end SymbolAtlas
