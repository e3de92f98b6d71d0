import SymbolAtlas.Proofs.Index.MethodForm
import SymbolAtlas.Proofs.Index.Ownership
import Mathlib.Tactic

/-!
# Methods are called by the types that list them

However a draft has grown, a method that a type lists has the id and the display that this type
gives it.  So two methods of one type with one name whose parameter types have the same canonical
forms have the same id, and are one.
-/

namespace SymbolAtlas
namespace Tables

open Draft

/-- The types that list methods call them. -/
def AllTitled (t : Tables) : Prop :=
  ∀ type, ∀ id ∈ t.members.listAt type, ∀ m, t.symbols.get? id = some m →
    m.IsPlainMethod → t.Titled type m

variable {t t' : Tables} {type container : String} {s m : Symbol} {d d' : Draft}

theorem Titled.mono (hsymbols : Kept t.symbols t'.symbols)
    (hnames : ∀ name id, t.typeNames.get? name = some id → t'.typeNames.get? name = some id)
    (h : t.Titled type m) : t'.Titled type m := by
  obtain ⟨owner, name, howner, hm, hnonempty, hname⟩ := h
  exact ⟨owner, name, hsymbols type owner howner, hm, hnonempty, hnames name type hname⟩

theorem AllTitled.empty : Draft.empty.AllTitled := by
  simp [AllTitled, Draft.empty, Table.listAt]

theorem AllTitled.of_same (h : t.AllTitled) (hsymbols : t'.symbols = t.symbols)
    (hnames : t'.typeNames = t.typeNames) (hmembers : t'.members = t.members) :
    t'.AllTitled := by
  unfold AllTitled Titled at h ⊢
  rw [hsymbols, hnames, hmembers]
  exact h

theorem AllTitled.gains (h : t.AllTitled) (howned : t.Owned)
    (hgains : Gains t type container s t') (hnew : t.symbols.get? s.id = none)
    (hs : s.IsPlainMethod → t.Titled type s) : t'.AllTitled := by
  have hnames : ∀ name id, t.typeNames.get? name = some id → t'.typeNames.get? name = some id := by
    rw [hgains.typeNames]
    exact fun _ _ hname => hname
  intro other id hid m hm hplain
  rcases hgains.listed_cases howned hnew hid with ⟨hlisted, hsame, -⟩ | ⟨rfl, -, hself, -⟩
  · have hold := h other id hlisted m (hsame ▸ hm) hplain
    exact hold.mono (hgains.kept hnew) hnames
  · obtain rfl := Option.some.inj (hself.symm.trans hm)
    exact (hs hplain).mono (hgains.kept hnew) hnames

theorem AllTitled.putType (h : d.AllTitled) (howned : d.Owned) {name : String}
    (hnew : d.symbols.get? s.id = none) (hname : d.typeNames.contains name = false)
    (isMetadata : Bool) : (d.putType name s isMetadata).AllTitled := by
  intro type id hid m hm hplain
  rw [howned.listAt_putType name hnew] at hid
  have hknown := (howned.lists type id hid).2.known
  have hold : d.symbols.get? id = some m := (get?_insert_of_known hnew hknown).symm.trans hm
  exact (h type id hid m hold hplain).mono (kept_insert hnew)
    fun _ _ hfound => get?_registerTypeName d hname hfound

theorem AllTitled.addsAccessor (h : d.AllTitled) (howned : d.Owned) {property : String}
    {kind : MethodKind} (hkind : kind = .propertyGet ∨ kind = .propertySet) {id : Option String}
    (hadds : AddsAccessor type property kind d id d') : d'.AllTitled := by
  cases hadds with
  | none => exact h
  | @some a span _ hnew hmethod haccessor hsame =>
      refine h.gains howned (gains_accessor hsame) hnew ?_
      rintro ⟨-, hplain⟩
      rcases hkind with rfl | rfl <;> simp [Symbol.isAccessor, haccessor] at hplain

/-- Every change leaves methods called by their types. -/
theorem AllTitled.change (h : d.AllTitled) (howned : d.Owned) (hchange : Change d d') :
    d'.AllTitled := by
  cases hchange with
  | type isMetadata hnew hname hid hkind => exact h.putType howned hnew hname isMetadata
  | nested => exact h.of_same rfl rfl rfl
  | member span hnew htype hkind hproperty haccessor htitled =>
      exact h.gains howned (gains_putMember d _ _ span) hnew htitled
  | @property type p span _ _ _ _ hnew htype hkind hmethod hget hset =>
      have hplain : p.isAccessor = false := by
        simp [Symbol.isAccessor, hmethod]
      have hgains := gains_putMember d type p span
      have hadded := howned.gains hgains hnew htype (by simp [hkind]) (.plain hplain)
      have hthere := hgains.propertyIn hnew htype hkind
      have hput := h.gains howned hgains hnew (by simp [Symbol.IsPlainMethod, hkind, hmethod])
      have hgot := (hadded.addsAccessor hthere (Or.inl rfl) hget).1
      have hdone := (hput.addsAccessor hadded (Or.inl rfl) hget).addsAccessor hgot (Or.inr rfl) hset
      exact hdone.of_same rfl rfl rfl
  | other hsame => exact h.of_same hsame.symbols hsame.typeNames hsame.members

/-- A type under whose id methods are called has a name in its id. -/
theorem two_lt_length (howned : t.Owned) (h : t.Titled type m) : 2 < type.length := by
  obtain ⟨owner, name, -, -, hnonempty, hname⟩ := h
  have hlength : 0 < name.length := by
    rw [Nat.pos_iff_ne_zero, Ne, String.length_eq_zero_iff]
    exact hnonempty
  rw [(howned.named name type hname).2]
  omega

end Tables

namespace Index

open Tables

theorem allTitled_of_tables {disk : Disk} {root : String} {data : Value} {t : Tables}
    (ht : tables disk root data = .ok t) : t.AllTitled := by
  obtain ⟨d, hrun, rfl⟩ := exists_run_of_tables ht
  refine (readDocument_keeps (P := fun d => d.Owned ∧ d.AllTitled)
    ⟨Owned.empty, AllTitled.empty⟩ ?_ ?_ disk root data () d hrun).2
  · rintro d d' ⟨howned, htitled⟩ hchange
    exact ⟨howned.change hchange, htitled.change howned hchange⟩
  · rintro d id locations ⟨howned, htitled⟩
    exact ⟨howned.of_same rfl rfl rfl rfl, htitled.of_same rfl rfl rfl⟩

end Index
end SymbolAtlas
