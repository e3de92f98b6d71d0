import SymbolAtlas.Proofs.Attempt
import SymbolAtlas.Value.Basic
import Mathlib.Tactic

/-!
# Values that agree

Mappings whose entries are related one by one, with the same keys, hold related values under every
key.  Two mappings may thus agree in all but what stands under some keys, and two lists in all but
their items; what is read from other keys is the same for both.
-/

namespace SymbolAtlas
namespace Value

/-- The values are the same, or mappings with the same keys in the same order, whose values are the
same as well or else related in the way of their key. -/
inductive AgreeUnder (R : String → Value → Value → Prop) : Value → Value → Prop where
  | same (v : Value) : AgreeUnder R v v
  | mapping {entries others : List (Value × Value)}
      (hentries : List.Forall₂
        (fun e o => e.1 = o.1 ∧ (e.2 = o.2 ∨ ∃ key, e.1 = text key ∧ R key e.2 o.2))
        entries others) :
      AgreeUnder R (mapping entries) (mapping others)

/-- The values are the same, or mappings with the same keys in the same order, whose values are the
same as well or else related and under the given key. -/
inductive AgreeBut (key : String) (R : Value → Value → Prop) : Value → Value → Prop where
  | same (v : Value) : AgreeBut key R v v
  | mapping {entries others : List (Value × Value)}
      (hentries : List.Forall₂
        (fun e o => e.1 = o.1 ∧ (e.2 = o.2 ∨ e.1 = text key ∧ R e.2 o.2)) entries others) :
      AgreeBut key R (mapping entries) (mapping others)

/-- The values are the same, or lists of related items. -/
inductive AgreeEach (R : Value → Value → Prop) : Value → Value → Prop where
  | same (v : Value) : AgreeEach R v v
  | list {items others : List Value} (hitems : List.Forall₂ R items others) :
      AgreeEach R (list items) (list others)

/-- The values hold the same under each of the keys. -/
def SameAt (keys : List String) (v w : Value) : Prop :=
  ∀ key ∈ keys, w.get? key = v.get? key

variable {keys : List String} {key : String} {v w : Value}

theorem SameAt.mono {fewer : List String} (h : SameAt keys v w)
    (hkeys : ∀ key ∈ fewer, key ∈ keys) : SameAt fewer v w :=
  fun key hkey => h key (hkeys key hkey)

theorem SameAt.field_eq (h : SameAt keys v w) (hkey : key ∈ keys) : w.field key = v.field key := by
  unfold field
  rw [h key hkey]

theorem SameAt.fieldOr_eq (h : SameAt keys v w) (hkey : key ∈ keys) (missing : Value) :
    w.fieldOr key missing = v.fieldOr key missing := by
  unfold fieldOr
  rw [h key hkey]

/-- Related entries with the same keys are found together. -/
theorem get?_cases {S : Value × Value → Value × Value → Prop} (hkeys : ∀ e o, S e o → o.1 = e.1)
    {entries others : List (Value × Value)} (h : List.Forall₂ S entries others) (key : String) :
    ((mapping entries).get? key = none ∧ (mapping others).get? key = none) ∨
      ∃ v w, (mapping entries).get? key = some v ∧ (mapping others).get? key = some w ∧
        S (text key, v) (text key, w) := by
  unfold get? entry?
  simp only []
  induction h with
  | nil => exact Or.inl ⟨rfl, rfl⟩
  | @cons e o _ _ hfirst _ ih =>
      have hkey := hkeys e o hfirst
      rw [List.find?_cons, List.find?_cons, hkey]
      cases hfound : e.1.text? == some key with
      | false => simpa using ih
      | true =>
          have htext : e.1 = text key := by
            cases hvalue : e.1 with
            | text s =>
                rw [hvalue] at hfound
                rw [Option.some.inj (beq_iff_eq.mp hfound)]
            | _ => rw [hvalue] at hfound; cases hfound
          obtain ⟨k, v⟩ := e
          obtain ⟨l, w⟩ := o
          subst htext
          obtain rfl : l = text key := hkey
          exact Or.inr ⟨v, w, rfl, rfl, hfirst⟩

/-! ## Agreement but for some keys -/

namespace AgreeUnder

variable {R : String → Value → Value → Prop}

theorem isMapping_eq (h : AgreeUnder R v w) : w.isMapping = v.isMapping := by
  cases h <;> rfl

theorem isPresent_eq (h : AgreeUnder R v w) : w.isPresent = v.isPresent := by
  cases h with
  | same => rfl
  | mapping hentries => cases hentries <;> rfl

theorem get?_cases (h : AgreeUnder R v w) (key : String) :
    w.get? key = v.get? key ∨
      ∃ x y, v.get? key = some x ∧ w.get? key = some y ∧ R key x y := by
  cases h with
  | same => exact Or.inl rfl
  | mapping hentries =>
      rcases Value.get?_cases (fun e o he => he.1.symm) hentries key with
        ⟨hnone, hnone'⟩ | ⟨x, y, hx, hy, -, hsame | ⟨other, htext, hR⟩⟩
      · exact Or.inl (hnone'.trans hnone.symm)
      · obtain rfl : x = y := hsame
        exact Or.inl (hy.trans hx.symm)
      · obtain rfl : key = other := text.inj htext
        exact Or.inr ⟨x, y, hx, hy, hR⟩

theorem get?_eq (h : AgreeUnder R v w) (hkey : ∀ x y, ¬R key x y) : w.get? key = v.get? key := by
  rcases h.get?_cases key with hsame | ⟨x, y, -, -, hR⟩
  · exact hsame
  · exact absurd hR (hkey x y)

theorem field_rel (h : AgreeUnder R v w) (key : String) :
    v.field key = w.field key ∨ R key (v.field key) (w.field key) := by
  unfold field
  rcases h.get?_cases key with hsame | ⟨x, y, hx, hy, hR⟩
  · rw [hsame]
    exact Or.inl rfl
  · rw [hx, hy]
    exact Or.inr hR

end AgreeUnder

namespace AgreeBut

variable {R : Value → Value → Prop}

theorem agreeUnder (h : AgreeBut key R v w) :
    AgreeUnder (fun other v w => other = key ∧ R v w) v w := by
  cases h with
  | same => exact .same v
  | mapping hentries =>
      refine .mapping (hentries.imp ?_)
      rintro e o ⟨hkey, hsame | ⟨htext, hR⟩⟩
      · exact ⟨hkey, Or.inl hsame⟩
      · exact ⟨hkey, Or.inr ⟨key, htext, rfl, hR⟩⟩

theorem isMapping (h : AgreeBut key R v w) : w.isMapping = v.isMapping :=
  h.agreeUnder.isMapping_eq

theorem get?_eq (h : AgreeBut key R v w) {other : String} (hother : other ≠ key) :
    w.get? other = v.get? other :=
  h.agreeUnder.get?_eq fun _ _ hR => hother hR.1

theorem sameAt (h : AgreeBut key R v w) (hkeys : key ∉ keys) : SameAt keys v w :=
  fun _ hother => h.get?_eq (ne_of_mem_of_not_mem hother hkeys)

/-- Under the key itself the values are the same or related. -/
theorem field_rel (h : AgreeBut key R v w) :
    v.field key = w.field key ∨ R (v.field key) (w.field key) :=
  (h.agreeUnder.field_rel key).imp_right And.right

/-- The value under the key is the same, or a list of related items. -/
theorem agreeEach_field (h : AgreeBut key (AgreeEach R) v w) :
    AgreeEach R (v.field key) (w.field key) := by
  rcases h.field_rel with hsame | heach
  · rw [← hsame]
    exact .same _
  · exact heach

theorem field_eq (h : AgreeBut key R v w) {other : String} (hother : other ≠ key) :
    w.field other = v.field other := by
  unfold field
  rw [h.get?_eq hother]

theorem fieldOr_eq (h : AgreeBut key R v w) {other : String} (hother : other ≠ key)
    (missing : Value) : w.fieldOr other missing = v.fieldOr other missing := by
  unfold fieldOr
  rw [h.get?_eq hother]

end AgreeBut

/-! ## Items -/

/-- Related values have related items. -/
theorem AgreeEach.items_agree {R : Value → Value → Prop} (h : AgreeEach R v w)
    (hrefl : ∀ item, R item item) :
    Attempt.Agrees (List.Forall₂ R) (allowing v.itemsIfPresent) (allowing w.itemsIfPresent) := by
  cases h with
  | same => exact Attempt.agrees_refl (fun items => List.forall₂_same.mpr fun i _ => hrefl i) _
  | list hitems =>
      have hlisted : ∀ listed, allowing (Value.list listed).itemsIfPresent = .ok listed := by
        intro listed
        cases listed <;> rfl
      rw [hlisted, hlisted]
      exact .ok hitems

end Value
end SymbolAtlas
