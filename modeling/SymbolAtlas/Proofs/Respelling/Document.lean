import SymbolAtlas.Proofs.Index.Field
import Mathlib.Tactic

/-!
# Respelled documents

Two documents are respellings of each other if they differ in nothing but how the types of
parameters are spelled, and the spellings of every pair have the same canonical form.  Such
documents agree on every other field of their types and members, and their parameters are the same
up to the spelling of their types.
-/

namespace SymbolAtlas

namespace Index

open Value

/-- Two spellings of one type.  A type must not be spelled by the empty text. -/
inductive RespelledText : Value → Value → Prop where
  | text {a b : String} (hcanonical : TypeName.canonical a = TypeName.canonical b)
      (hempty : b = "" → a = "") : RespelledText (.text a) (.text b)

def RespelledParameter : Value → Value → Prop :=
  AgreeBut "type" RespelledText

def RespelledMember : Value → Value → Prop :=
  AgreeBut "parameters" (AgreeEach RespelledParameter)

def RespelledType : Value → Value → Prop :=
  AgreeBut "members" (AgreeEach RespelledMember)

/-- Two documents differ only in how the parameters of declared members spell their types. -/
def RespelledDocument : Value → Value → Prop :=
  AgreeBut "types" (AgreeEach RespelledType)

end Index

/-! ## Entries that agree -/

namespace Entry

open Value Attempt

/-- Two declarations that agree in all fields of their own: the members of a type and the
parameters of a member are left out. -/
structure Similar (data other : Value) : Prop where
  isMapping : other.isMapping = data.isMapping
  get?_eq : ∀ key, key ≠ "members" → key ≠ "parameters" → other.get? key = data.get? key

variable {data other : Value}

theorem Similar.refl (data : Value) : Similar data data :=
  ⟨rfl, fun _ _ _ => rfl⟩

theorem similar_of_respelledType (h : Index.RespelledType data other) : Similar data other :=
  ⟨h.isMapping, fun _ hmembers _ => h.get?_eq hmembers⟩

theorem similar_of_respelledMember (h : Index.RespelledMember data other) : Similar data other :=
  ⟨h.isMapping, fun _ _ hparameters => h.get?_eq hparameters⟩

theorem Similar.field_eq (h : Similar data other) {key : String} (hmembers : key ≠ "members")
    (hparameters : key ≠ "parameters") : other.field key = data.field key := by
  unfold field
  rw [h.get?_eq key hmembers hparameters]

theorem Similar.fieldOr_eq (h : Similar data other) {key : String} (hmembers : key ≠ "members")
    (hparameters : key ≠ "parameters") (missing : Value) :
    other.fieldOr key missing = data.fieldOr key missing := by
  unfold fieldOr
  rw [h.get?_eq key hmembers hparameters]

theorem Similar.sameAt (h : Similar data other) {keys : List String}
    (hkeys : ∀ key ∈ keys, key ≠ "members" ∧ key ≠ "parameters") : SameAt keys data other :=
  fun key hkey => h.get?_eq key (hkeys key hkey).1 (hkeys key hkey).2

end Entry

/-! ## Parameters -/

/-- Two parameters of the same type, passed in the same way. -/
structure Parameter.Resembles (p q : Parameter) : Prop where
  passing : q.passing = p.passing
  canonical : TypeName.canonical q.type = TypeName.canonical p.type

namespace Entry

open Value Attempt Index

theorem required_type_follows {item other : Value} (h : RespelledParameter item other)
    (place : String) :
    Follows (fun v w => mustWrite w = mustWrite v ∧
        TypeName.canonical w.plain = TypeName.canonical v.plain)
      (required item "type" place) (required other "type" place) := by
  have hfield := h.field_rel
  unfold required
  generalize item.field "type" = v at hfield
  generalize other.field "type" = w at hfield
  rcases hfield with rfl | hrespelled
  · exact fun type htype => ⟨type, htype, rfl, rfl⟩
  · cases hrespelled with
    | @text a b hcanonical hempty =>
        simp only []
        by_cases ha : a.isEmpty
        · rw [if_pos ha]
          exact follows_refuse _ _
        · have hb : ¬b.isEmpty := by
            intro hb
            exact ha (String.isEmpty_iff.mpr (hempty (String.isEmpty_iff.mp hb)))
          rw [if_neg ha, if_neg hb]
          exact follows_ok ⟨rfl, hcanonical.symm⟩

theorem parameter_follows {item other : Value} (h : RespelledParameter item other) (i : Nat)
    (place : String) :
    Follows Parameter.Resembles (parameter i item place) (parameter i other place) := by
  unfold parameter
  rw [h.isMapping, h.fieldOr_eq (by decide), h.fieldOr_eq (by decide)]
  split
  next =>
    apply follows_bind_same
    intro passing
    apply follows_bind_same
    intro _
    refine (required_type_follows h place).bind ?_
    rintro type type' ⟨hwrite, htype⟩
    rw [hwrite]
    apply follows_bind_same
    intro _
    exact follows_pure ⟨rfl, htype⟩
  next hmapping =>
    cases h with
    | same => exact fun p hp => ⟨p, hp, rfl, rfl⟩
    | mapping => exact absurd rfl hmapping

theorem parametersFrom_follows {items others : List Value}
    (h : List.Forall₂ RespelledParameter items others) (place : String) (i : Nat) :
    Follows (List.Forall₂ Parameter.Resembles) (parametersFrom place i items)
      (parametersFrom place i others) := by
  induction h generalizing i with
  | nil => exact follows_ok .nil
  | cons hfirst _ ih =>
      unfold parametersFrom
      refine (parameter_follows hfirst i place).bind ?_
      intro p q hpq
      refine (ih (i + 1)).bind ?_
      intro ps qs hrest
      exact follows_pure (.cons hpq hrest)

theorem parameters_follows {data other : Value} (h : RespelledMember data other)
    (place : String) :
    Follows (List.Forall₂ Parameter.Resembles) (parameters (data.field "parameters") place)
      (parameters (other.field "parameters") place) := by
  unfold parameters
  apply (h.agreeEach_field.items_agree fun item => .same item).follows.bind
  intro items others hitems
  exact parametersFrom_follows hitems place 0

end Entry
end SymbolAtlas
