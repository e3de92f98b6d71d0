import SymbolAtlas.Proofs.Attempt
import SymbolAtlas.Proofs.Index.Building
import Mathlib.Tactic

/-!
# Steps that follow each other

A step of reading follows another one if it succeeds wherever the other does, on every draft that is
related to the other's, with a related result and a related draft again; how either of them fails
makes no difference.  The two agree if, besides, they end with the same fault wherever one of them
does.  Chains of steps follow each other or agree if their steps do one by one, and so do runs over
lists of related items.
-/

namespace SymbolAtlas
namespace Building

variable {α β γ δ : Type} {D : Draft → Draft → Prop} {R : α → β → Prop} {S : γ → δ → Prop}

/-- Whenever a step ends without a fault, another one does so on every related draft, with a related
result. -/
def FollowsOn (D : Draft → Draft → Prop) (R : α → β → Prop) (step : Building α)
    (other : Building β) : Prop :=
  ∀ d d' : Draft, D d d' →
    Ensures step d fun a e => ∃ b e', other d' = .ok (b, e') ∧ R a b ∧ D e e'

theorem follows_pure {a : α} {b : β} (h : R a b) : FollowsOn D R (pure a) (pure b) := by
  intro d d' hd
  rw [ensures_pure]
  exact ⟨b, d', rfl, h, hd⟩

theorem FollowsOn.bind {step : Building α} {other : Building β} {next : α → Building γ}
    {next' : β → Building δ} (hstep : FollowsOn D R step other)
    (hnext : ∀ a b, R a b → FollowsOn D S (next a) (next' b)) :
    FollowsOn D S (step >>= next) (other >>= next') := by
  intro d d' hd
  refine (hstep d d' hd).bind ?_
  rintro a e ⟨b, e', hother, hab, he⟩
  refine (hnext a b hab e e' he).imp ?_
  rintro c f ⟨c', f', hlast, hresult⟩
  refine ⟨c', f', ?_, hresult⟩
  change (other d' >>= fun (b, e) => next' b e) = .ok (c', f')
  rw [hother]
  exact hlast

theorem follows_get : FollowsOn D D (get : Building Draft) get := by
  intro d d' hd
  rw [ensures_get]
  exact ⟨d', d', rfl, hd, hd⟩

theorem follows_set {e e' : Draft} (h : D e e') :
    FollowsOn D Eq (set e : Building PUnit) (set e') := by
  intro d d' _
  rw [ensures_set]
  exact ⟨⟨⟩, e', rfl, rfl, h⟩

theorem follows_modify {f g : Draft → Draft} (h : ∀ d d', D d d' → D (f d) (g d')) :
    FollowsOn D Eq (modify f : Building PUnit) (modify g) := by
  intro d d' hd
  rw [ensures_modify]
  exact ⟨⟨⟩, g d', rfl, rfl, h d d' hd⟩

theorem follows_throw (fault : Fault) (other : Building β) :
    FollowsOn D R (throw fault : Building α) other := by
  intro d d' _
  exact ensures_throw.mpr trivial

theorem follows_refuse (cause : InvalidInput) (other : Building β) :
    FollowsOn D R (refuse cause : Building α) other :=
  follows_throw _ other

theorem follows_refuseIf (holds : Bool) (cause cause' : InvalidInput) :
    FollowsOn D Eq (refuseIf holds cause) (refuseIf holds cause') := by
  unfold refuseIf
  cases holds with
  | true => exact follows_refuse _ _
  | false => exact follows_pure rfl

theorem follows_lift {x : Attempt α} {y : Attempt β} (h : Attempt.Follows R x y) :
    FollowsOn D R (liftM x : Building α) (liftM y) := by
  intro d d' hd
  rw [ensures_lift]
  intro a ha
  obtain ⟨b, hb, hab⟩ := h a ha
  subst hb
  exact ⟨b, d', rfl, hab, hd⟩

/-- A step that follows itself with the same result, before steps that follow each other. -/
theorem FollowsOn.bind_same {step other : Building α} {next : α → Building γ}
    {next' : α → Building δ} (hstep : FollowsOn D Eq step other)
    (hnext : ∀ a, FollowsOn D S (next a) (next' a)) :
    FollowsOn D S (step >>= next) (other >>= next') := by
  refine hstep.bind ?_
  rintro a _ rfl
  exact hnext a

theorem follows_lift_same (x : Attempt α) : FollowsOn D Eq (liftM x : Building α) (liftM x) :=
  follows_lift (Attempt.follows_same x)

/-- The same attempt before steps that follow each other, which do not use its result. -/
theorem FollowsOn.after {next : Building γ} {next' : Building δ} (h : FollowsOn D S next next')
    (x : Attempt α) : FollowsOn D S (liftM x >>= fun _ => next) (liftM x >>= fun _ => next') :=
  (follows_lift_same x).bind_same fun _ => h

/-! ## Runs over lists -/

theorem forEach_follows {step : α → Building Unit} {other : β → Building Unit}
    (hstep : ∀ a b, R a b → FollowsOn D Eq (step a) (other b)) {items : List α} {others : List β}
    (hitems : List.Forall₂ R items others) :
    FollowsOn D Eq (forEach step items) (forEach other others) := by
  induction hitems with
  | nil =>
      unfold forEach
      exact follows_pure rfl
  | cons hfirst _ ih =>
      unfold forEach
      refine (hstep _ _ hfirst).bind_same ?_
      intro _
      exact ih

theorem forAll_follows {step : α → Building γ} {other : β → Building δ}
    (hstep : ∀ a b, R a b → FollowsOn D S (step a) (other b)) {items : List α} {others : List β}
    (hitems : List.Forall₂ R items others) :
    FollowsOn D (List.Forall₂ S) (forAll step items) (forAll other others) := by
  induction hitems with
  | nil =>
      unfold forAll
      exact follows_pure .nil
  | cons hfirst _ ih =>
      unfold forAll
      refine (hstep _ _ hfirst).bind ?_
      intro c c' hc
      refine ih.bind ?_
      intro cs cs' hcs
      exact follows_pure (.cons hc hcs)

/-- The same run on both sides, whose steps follow themselves. -/
theorem forEach_follows_same {step other : α → Building Unit}
    (hstep : ∀ a, FollowsOn D Eq (step a) (other a)) (items : List α) :
    FollowsOn D Eq (forEach step items) (forEach other items) := by
  refine forEach_follows (R := Eq) ?_ (List.forall₂_same.mpr fun _ _ => rfl)
  rintro a _ rfl
  exact hstep a

theorem forAll_follows_same {step : α → Building γ} {other : α → Building δ}
    (hstep : ∀ a, FollowsOn D S (step a) (other a)) (items : List α) :
    FollowsOn D (List.Forall₂ S) (forAll step items) (forAll other items) := by
  refine forAll_follows (R := Eq) ?_ (List.forall₂_same.mpr fun _ _ => rfl)
  rintro a _ rfl
  exact hstep a

theorem forAll_follows_eq {step other : α → Building γ}
    (hstep : ∀ a, FollowsOn D Eq (step a) (other a)) (items : List α) :
    FollowsOn D Eq (forAll step items) (forAll other items) := by
  have hall := forAll_follows_same hstep items
  rw [List.forall₂_eq_eq_eq] at hall
  exact hall

/-! ## Steps that agree -/

/-- On related drafts both steps end with related results and drafts, or with the same fault. -/
def AgreeOn (D : Draft → Draft → Prop) (R : α → β → Prop) (step : Building α)
    (other : Building β) : Prop :=
  ∀ d d' : Draft, D d d' →
    Attempt.Agrees (fun p q => R p.1 q.1 ∧ D p.2 q.2) (step d) (other d')

theorem agree_pure {a : α} {b : β} (h : R a b) : AgreeOn D R (pure a) (pure b) :=
  fun _ _ hd => .ok ⟨h, hd⟩

theorem AgreeOn.bind {step : Building α} {other : Building β} {next : α → Building γ}
    {next' : β → Building δ} (hstep : AgreeOn D R step other)
    (hnext : ∀ a b, R a b → AgreeOn D S (next a) (next' b)) :
    AgreeOn D S (step >>= next) (other >>= next') := by
  intro d d' hd
  refine (hstep d d' hd).bind ?_
  rintro ⟨a, e⟩ ⟨b, e'⟩ ⟨hab, he⟩
  exact hnext a b hab e e' he

/-- Steps with the same result, before steps that agree. -/
theorem AgreeOn.bind_same {step other : Building α} {next : α → Building γ}
    {next' : α → Building δ} (hstep : AgreeOn D Eq step other)
    (hnext : ∀ a, AgreeOn D S (next a) (next' a)) :
    AgreeOn D S (step >>= next) (other >>= next') := by
  refine hstep.bind ?_
  rintro a _ rfl
  exact hnext a

theorem agree_get : AgreeOn D D (get : Building Draft) get :=
  fun _ _ hd => .ok ⟨hd, hd⟩

theorem agree_modify {f g : Draft → Draft} (h : ∀ d d', D d d' → D (f d) (g d')) :
    AgreeOn D Eq (modify f : Building PUnit) (modify g) :=
  fun d d' hd => .ok ⟨rfl, h d d' hd⟩

theorem agree_throw (fault : Fault) :
    AgreeOn D R (throw fault : Building α) (throw fault : Building β) :=
  fun _ _ _ => .error fault

theorem agree_refuse (cause : InvalidInput) :
    AgreeOn D R (refuse cause : Building α) (refuse cause : Building β) :=
  agree_throw _

theorem agree_refuseIf (holds : Bool) (cause : InvalidInput) :
    AgreeOn D Eq (refuseIf holds cause) (refuseIf holds cause) := by
  unfold refuseIf
  cases holds with
  | true => exact agree_refuse cause
  | false => exact agree_pure rfl

theorem agree_lift {x : Attempt α} {y : Attempt β} (h : Attempt.Agrees R x y) :
    AgreeOn D R (liftM x : Building α) (liftM y) := by
  intro d d' hd
  cases h with
  | ok hab => exact .ok ⟨hab, hd⟩
  | error fault => exact .error fault

theorem agree_lift_same (x : Attempt α) : AgreeOn D Eq (liftM x : Building α) (liftM x) :=
  agree_lift (Attempt.agrees_refl (fun _ => rfl) x)

/-- The same attempt before steps that agree, which do not use its result. -/
theorem AgreeOn.after {next : Building γ} {next' : Building δ} (h : AgreeOn D S next next')
    (x : Attempt α) : AgreeOn D S (liftM x >>= fun _ => next) (liftM x >>= fun _ => next') :=
  (agree_lift_same x).bind_same fun _ => h

theorem forEach_agree {step : α → Building Unit} {other : β → Building Unit}
    (hstep : ∀ a b, R a b → AgreeOn D Eq (step a) (other b)) {items : List α} {others : List β}
    (hitems : List.Forall₂ R items others) :
    AgreeOn D Eq (forEach step items) (forEach other others) := by
  induction hitems with
  | nil => exact agree_pure rfl
  | cons hfirst _ ih =>
      unfold forEach
      exact (hstep _ _ hfirst).bind_same fun _ => ih

end Building
end SymbolAtlas
