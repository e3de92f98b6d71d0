import SymbolAtlas.Proofs.Attempt
import SymbolAtlas.Proofs.Index.Building
import Mathlib.Tactic

/-!
# Attempts that only refuse

A fault is a refusal if it says what is wrong with the input; every other fault comes from a value
that was used against its shape.  A chain of steps only refuses if each of its steps does, on every
draft that the steps before it may leave behind.
-/

namespace SymbolAtlas

/-- The fault says what is wrong with an input. -/
def Fault.IsRefusal (fault : Fault) : Prop :=
  ∃ cause, fault = .failure (.invalidInput cause)

namespace Attempt

variable {α β : Type} {x : Attempt α}

def OnlyRefuses (x : Attempt α) : Prop :=
  ∀ fault, x = .error fault → fault.IsRefusal

@[simp] theorem onlyRefuses_ok (a : α) : OnlyRefuses (.ok a : Attempt α) := by
  intro fault h
  cases h

@[simp] theorem onlyRefuses_pure (a : α) : OnlyRefuses (pure a : Attempt α) :=
  onlyRefuses_ok a

@[simp] theorem onlyRefuses_refuse (cause : InvalidInput) :
    OnlyRefuses (refuse cause : Attempt α) := by
  intro fault h
  cases h
  exact ⟨cause, rfl⟩

theorem OnlyRefuses.bind {f : α → Attempt β} (hx : x.OnlyRefuses)
    (hf : ∀ a, x = .ok a → (f a).OnlyRefuses) : OnlyRefuses (x >>= f) := by
  cases x with
  | error fault =>
      intro other h
      cases h
      exact hx fault rfl
  | ok a => exact hf a rfl

theorem OnlyRefuses.map (hx : x.OnlyRefuses) (f : α → β) : OnlyRefuses (x.map f) := by
  cases x with
  | error fault =>
      intro other h
      cases h
      exact hx fault rfl
  | ok a => exact onlyRefuses_ok (f a)

end Attempt

namespace Building

variable {α β : Type} {d : Draft}

def OnlyRefuses (step : Building α) (d : Draft) : Prop :=
  Attempt.OnlyRefuses (step d)

theorem Ensures.of_forall {step : Building α} {post : α → Draft → Prop}
    (h : ∀ a d', post a d') : Ensures step d post :=
  fun a d' _ => h a d'

@[simp] theorem onlyRefuses_pure (a : α) : OnlyRefuses (pure a) d :=
  Attempt.onlyRefuses_ok _

@[simp] theorem onlyRefuses_refuse (cause : InvalidInput) :
    OnlyRefuses (refuse cause : Building α) d :=
  Attempt.onlyRefuses_refuse cause

theorem onlyRefuses_lift {x : Attempt α} (hx : x.OnlyRefuses) :
    OnlyRefuses (liftM x : Building α) d := by
  cases x with
  | error fault =>
      intro other h
      cases h
      exact hx fault rfl
  | ok a => exact Attempt.onlyRefuses_ok _

theorem onlyRefuses_bind {step : Building α} {next : α → Building β}
    (hstep : OnlyRefuses step d)
    (hnext : Ensures step d fun a d' => OnlyRefuses (next a) d') :
    OnlyRefuses (step >>= next) d := by
  refine Attempt.OnlyRefuses.bind hstep ?_
  intro result hresult
  exact hnext result.1 result.2 hresult

/-- A step that refuses nothing but its input, before one that does so on every draft. -/
theorem OnlyRefuses.bind {step : Building α} {next : α → Building β}
    (hstep : OnlyRefuses step d) (hnext : ∀ a d', OnlyRefuses (next a) d') :
    OnlyRefuses (step >>= next) d :=
  onlyRefuses_bind hstep (Ensures.of_forall hnext)

theorem onlyRefuses_lift_bind {x : Attempt α} {next : α → Building β} (hx : x.OnlyRefuses)
    (hnext : ∀ a, x = .ok a → OnlyRefuses (next a) d) :
    OnlyRefuses (liftM x >>= next) d :=
  onlyRefuses_bind (onlyRefuses_lift hx) (ensures_lift.mpr hnext)

variable {P : Draft → Prop}

end Building
end SymbolAtlas
