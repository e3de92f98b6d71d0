import SymbolAtlas.Failure

/-!
# Attempts that succeed

A chain of attempts succeeds exactly if every attempt in it does.  An attempt follows another one
if it succeeds wherever the other does, and two attempts agree if in addition they end with the same
fault where they do not.
-/

namespace SymbolAtlas
namespace Attempt

variable {α β : Type}

theorem bind_eq_ok {x : Attempt α} {f : α → Attempt β} {b : β} :
    (x >>= f) = .ok b ↔ ∃ a, x = .ok a ∧ f a = .ok b := by
  cases x with
  | error fault =>
      constructor
      · intro h
        exact nomatch h
      · rintro ⟨a, ha, -⟩
        exact nomatch ha
  | ok a =>
      constructor
      · intro h
        exact ⟨a, rfl, h⟩
      · rintro ⟨a', ha, hb⟩
        cases ha
        exact hb

theorem pure_eq_ok {a b : α} : (pure a : Attempt α) = .ok b ↔ a = b := by
  constructor
  · intro h
    cases h
    rfl
  · rintro rfl
    rfl

theorem exists_ok_of_any {x : Attempt α} {p : α → Bool} (h : x.toOption.any p = true) :
    ∃ a, x = .ok a ∧ p a = true := by
  cases x with
  | error fault => cases h
  | ok a => exact ⟨a, rfl, h⟩

theorem mem_toOption_iff {x : Attempt α} {a : α} : a ∈ x.toOption ↔ x = .ok a := by
  cases x <;> simp [Except.toOption]

/-! ## Attempts that follow each other -/

section Following

variable {γ δ : Type} {R : α → β → Prop} {S : γ → δ → Prop}

/-- Wherever an attempt succeeds, another one does so with a related result. -/
def Follows (R : α → β → Prop) (x : Attempt α) (y : Attempt β) : Prop :=
  ∀ a, x = .ok a → ∃ b, y = .ok b ∧ R a b

theorem follows_ok {a : α} {b : β} (h : R a b) : Follows R (.ok a) (.ok b) := by
  intro a' ha
  cases ha
  exact ⟨b, rfl, h⟩

theorem follows_pure {a : α} {b : β} (h : R a b) : Follows R (pure a) (pure b) :=
  follows_ok h

theorem follows_error (fault : Fault) (y : Attempt β) :
    Follows R (.error fault : Attempt α) y := by
  intro a ha
  cases ha

theorem follows_refuse (cause : InvalidInput) (y : Attempt β) :
    Follows R (refuse cause : Attempt α) y :=
  follows_error _ y

theorem follows_same (x : Attempt α) : Follows Eq x x :=
  fun a ha => ⟨a, ha, rfl⟩

theorem Follows.bind {x : Attempt α} {y : Attempt β} {f : α → Attempt γ} {g : β → Attempt δ}
    (hxy : Follows R x y) (hfg : ∀ a b, R a b → Follows S (f a) (g b)) :
    Follows S (x >>= f) (y >>= g) := by
  intro c hc
  obtain ⟨a, ha, hfa⟩ := bind_eq_ok.mp hc
  obtain ⟨b, hb, hab⟩ := hxy a ha
  obtain ⟨e, he, hce⟩ := hfg a b hab c hfa
  exact ⟨e, bind_eq_ok.mpr ⟨b, hb, he⟩, hce⟩

/-- The same attempt, followed by something that may differ. -/
theorem follows_bind_same {x : Attempt α} {f : α → Attempt γ} {g : α → Attempt δ}
    (hfg : ∀ a, Follows S (f a) (g a)) : Follows S (x >>= f) (x >>= g) := by
  refine (follows_same x).bind ?_
  rintro a _ rfl
  exact hfg a

end Following

/-! ## Attempts that agree -/

section Agreeing

variable {γ δ : Type} {R : α → β → Prop} {S : γ → δ → Prop}

/-- Both attempts succeed with related results, or both end with the same fault. -/
inductive Agrees (R : α → β → Prop) : Attempt α → Attempt β → Prop where
  | ok {a : α} {b : β} : R a b → Agrees R (.ok a) (.ok b)
  | error (fault : Fault) : Agrees R (.error fault) (.error fault)

theorem agrees_refl {R : α → α → Prop} (hrefl : ∀ a, R a a) (x : Attempt α) : Agrees R x x := by
  cases x with
  | error fault => exact .error fault
  | ok a => exact .ok (hrefl a)

theorem Agrees.follows {x : Attempt α} {y : Attempt β} (h : Agrees R x y) : Follows R x y := by
  cases h with
  | ok hab => exact follows_ok hab
  | error fault => exact follows_error fault _

theorem Agrees.bind {x : Attempt α} {y : Attempt β} {f : α → Attempt γ} {g : β → Attempt δ}
    (hxy : Agrees R x y) (hfg : ∀ a b, R a b → Agrees S (f a) (g b)) :
    Agrees S (x >>= f) (y >>= g) := by
  cases hxy with
  | ok hab => exact hfg _ _ hab
  | error fault => exact .error fault

/-- The same attempt, followed by something that may differ. -/
theorem agrees_bind_same {x : Attempt α} {f : α → Attempt γ} {g : α → Attempt δ}
    (hfg : ∀ a, Agrees S (f a) (g a)) : Agrees S (x >>= f) (x >>= g) := by
  refine (agrees_refl (fun _ => rfl) x).bind ?_
  rintro a _ rfl
  exact hfg a

end Agreeing

end Attempt
end SymbolAtlas
