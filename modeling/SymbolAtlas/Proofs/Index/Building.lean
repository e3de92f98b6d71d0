import SymbolAtlas.Proofs.Attempt
import SymbolAtlas.Proofs.Index.Draft
import Mathlib.Tactic

/-!
# Steps of reading

A step that ends without a fault ensures a condition on its result and the draft that it leaves.
A chain of steps ensures what its last step ensures behind what the steps before it do, and a run
over a list ensures what every step of it ensures of the draft it finds.
-/

namespace SymbolAtlas
namespace Building

variable {α β : Type} {d : Draft}

/-- Whatever result and draft a step ends with satisfy a condition. -/
def Ensures (step : Building α) (d : Draft) (post : α → Draft → Prop) : Prop :=
  ∀ a d', step d = .ok (a, d') → post a d'

theorem Ensures.imp {step : Building α} {post other : α → Draft → Prop}
    (h : Ensures step d post) (himp : ∀ a d', post a d' → other a d') :
    Ensures step d other :=
  fun a d' hstep => himp a d' (h a d' hstep)

@[simp] theorem ensures_pure {a : α} {post : α → Draft → Prop} :
    Ensures (pure a) d post ↔ post a d := by
  constructor
  · intro h
    exact h a d rfl
  · intro h b d' hstep
    cases hstep
    exact h

@[simp] theorem ensures_bind {step : Building α} {next : α → Building β}
    {post : β → Draft → Prop} :
    Ensures (step >>= next) d post ↔
      Ensures step d fun a d' => Ensures (next a) d' post := by
  constructor
  · intro h a d' hstep b d'' hnext
    apply h b d''
    change (step d >>= fun (a, d') => next a d') = .ok (b, d'')
    rw [hstep]
    exact hnext
  · intro h b d'' hchain
    have hchain : (step d >>= fun (a, d') => next a d') = .ok (b, d'') := hchain
    cases hstep : step d with
    | error fault =>
        rw [hstep] at hchain
        cases hchain
    | ok result =>
        rw [hstep] at hchain
        exact h result.1 result.2 hstep b d'' hchain

@[simp] theorem ensures_get {post : Draft → Draft → Prop} :
    Ensures (get : Building Draft) d post ↔ post d d := by
  constructor
  · intro h
    exact h d d rfl
  · intro h b d' hstep
    cases hstep
    exact h

@[simp] theorem ensures_set {new : Draft} {post : PUnit → Draft → Prop} :
    Ensures (set new : Building PUnit) d post ↔ post ⟨⟩ new := by
  constructor
  · intro h
    exact h ⟨⟩ new rfl
  · intro h b d' hstep
    cases hstep
    exact h

@[simp] theorem ensures_modify {f : Draft → Draft} {post : PUnit → Draft → Prop} :
    Ensures (modify f : Building PUnit) d post ↔ post ⟨⟩ (f d) := by
  constructor
  · intro h
    exact h ⟨⟩ (f d) rfl
  · intro h b d' hstep
    cases hstep
    exact h

@[simp] theorem ensures_throw {fault : Fault} {post : α → Draft → Prop} :
    Ensures (throw fault : Building α) d post ↔ True := by
  refine iff_true_intro ?_
  intro a d' hstep
  cases hstep

@[simp] theorem ensures_refuse {cause : InvalidInput} {post : α → Draft → Prop} :
    Ensures (refuse cause : Building α) d post ↔ True :=
  ensures_throw

@[simp] theorem ensures_lift {x : Attempt α} {post : α → Draft → Prop} :
    Ensures (liftM x : Building α) d post ↔ ∀ a, x = .ok a → post a d := by
  cases x with
  | error fault =>
      constructor
      · intro _ a ha
        cases ha
      · intro _ a d' hstep
        cases hstep
  | ok a =>
      constructor
      · intro h b hb
        cases hb
        exact h a d rfl
      · intro h b d' hstep
        cases hstep
        exact h a rfl

theorem ensures_lift_refuse {cause : InvalidInput} {post : α → Draft → Prop} :
    Ensures (liftM (SymbolAtlas.refuse cause : Attempt α) : Building α) d post := by
  rw [ensures_lift]
  intro a ha
  cases ha

/-- A check before a step. -/
theorem Ensures.after {step : Building β} {post : β → Draft → Prop} (h : Ensures step d post)
    (x : Attempt α) : Ensures (liftM x >>= fun _ => step) d post := by
  rw [ensures_bind, ensures_lift]
  intro _ _
  exact h

/-- Wherever the step succeeds it has this result and leaves the draft as it is. -/
def Returns (step : Building α) (a : α) : Prop :=
  ∀ d, Ensures step d fun b d' => b = a ∧ d' = d

theorem returns_pure (a : α) : Returns (pure a) a :=
  fun _ => ensures_pure.mpr ⟨rfl, rfl⟩

theorem Returns.after {step : Building α} {a : α} (h : Returns step a) (x : Attempt β) :
    Returns (liftM x >>= fun _ => step) a :=
  fun d => (h d).after x

theorem Ensures.bind {step : Building α} {next : α → Building β} {post : α → Draft → Prop}
    {other : β → Draft → Prop} (h : Ensures step d post)
    (hnext : ∀ a d', post a d' → Ensures (next a) d' other) :
    Ensures (step >>= next) d other :=
  ensures_bind.mpr (h.imp hnext)

theorem Ensures.and {step : Building α} {post other : α → Draft → Prop}
    (h : Ensures step d post) (hother : Ensures step d other) :
    Ensures step d fun a d' => post a d' ∧ other a d' :=
  fun a d' hstep => ⟨h a d' hstep, hother a d' hstep⟩

instance decidableEnsures (step : Building α) (d : Draft) (post : α → Draft → Prop)
    [∀ a d', Decidable (post a d')] : Decidable (Ensures step d post) :=
  match hrun : step d with
  | .error _ => isTrue fun a d' hok => by
      rw [hrun] at hok
      cases hok
  | .ok (a, d') => decidable_of_iff (post a d') ⟨fun hpost b e hok => by
      rw [hrun] at hok
      cases hok
      exact hpost, fun hensures => hensures a d' hrun⟩

theorem ensures_ite {c : Prop} [Decidable c] {x y : Building α} {post : α → Draft → Prop} :
    Ensures (if c then x else y) d post ↔
      (c → Ensures x d post) ∧ (¬c → Ensures y d post) := by
  by_cases hc : c <;> simp [hc]

@[simp] theorem ensures_refuseIf {holds : Bool} {cause : InvalidInput}
    {post : Unit → Draft → Prop} :
    Ensures (refuseIf holds cause) d post ↔ (holds = false → post () d) := by
  unfold refuseIf
  cases holds <;> simp

theorem get_bind_run (next : Draft → Building α) (d : Draft) :
    ((get : Building Draft) >>= next) d = next d d :=
  rfl

theorem bind_run_eq_ok {step : Building α} {next : α → Building β} {b : β} {e : Draft} :
    (step >>= next) d = .ok (b, e) ↔
      ∃ a d₁, step d = .ok (a, d₁) ∧ next a d₁ = .ok (b, e) := by
  change (step d >>= fun (a, d₁) => next a d₁) = .ok (b, e) ↔ _
  rw [Attempt.bind_eq_ok]
  constructor
  · rintro ⟨⟨a, d₁⟩, hstep, hnext⟩
    exact ⟨a, d₁, hstep, hnext⟩
  · rintro ⟨a, d₁, hstep, hnext⟩
    exact ⟨(a, d₁), hstep, hnext⟩

theorem forEach_keeps {P : Draft → Prop} {step : α → Building Unit} {items : List α}
    (hd : P d)
    (hstep : ∀ a ∈ items, ∀ d', P d' → Ensures (step a) d' fun _ d'' => P d'') :
    Ensures (forEach step items) d fun _ d' => P d' := by
  induction items generalizing d with
  | nil =>
      unfold forEach
      rw [ensures_pure]
      exact hd
  | cons a rest ih =>
      unfold forEach
      refine (hstep a List.mem_cons_self d hd).bind ?_
      intro _ d' hd'
      exact ih hd' fun b hb => hstep b (List.mem_cons_of_mem a hb)

/-! ## Steps on sound drafts -/

open Draft Tables

theorem addMember_ensures (hd : d.Sound) {type : String} {s : Symbol}
    (htype : Known d.symbols type) (hkind : s.kind ≠ .namedType) (hapart : Apart s.id)
    (span : Option Span) :
    Ensures (addMember type s span) d fun _ d' => d.Becomes d' ∧ Holds d'.symbols s := by
  unfold addMember
  simp only [ensures_bind, ensures_get, ensures_refuseIf, ensures_set]
  intro hnew
  have hnone : d.symbols.get? s.id = none := by
    rw [← Option.not_isSome_iff_eq_none, Bool.not_eq_true]
    exact hnew
  exact hd.putMember hnone htype hkind hapart span

theorem forEach_ensures (hd : d.Sound) {step : α → Building Unit} {items : List α}
    (hstep : ∀ a ∈ items, ∀ d', d.Becomes d' →
      Ensures (step a) d' fun _ d'' => d'.Becomes d'') :
    Ensures (forEach step items) d fun _ d' => d.Becomes d' := by
  refine forEach_keeps hd.becomes ?_
  intro a ha d' hbefore
  exact (hstep a ha d' hbefore).imp fun _ _ hlast => hbefore.trans hlast

theorem forAll_ensures (hd : d.Sound) {p : Table Symbol → β → Prop}
    (hmono : ∀ {before after b}, Kept before after → p before b → p after b)
    {step : α → Building β} {items : List α}
    (hstep : ∀ a ∈ items, ∀ d', d.Becomes d' →
      Ensures (step a) d' fun b d'' => d'.Becomes d'' ∧ p d''.symbols b) :
    Ensures (forAll step items) d fun bs d' => d.Becomes d' ∧ ∀ b ∈ bs, p d'.symbols b := by
  induction items generalizing d with
  | nil =>
      unfold forAll
      rw [ensures_pure]
      refine ⟨hd.becomes, ?_⟩
      intro b hb
      cases hb
  | cons a rest ih =>
      unfold forAll
      refine (hstep a List.mem_cons_self d hd.becomes).bind ?_
      rintro first d' ⟨hfirst, hp⟩
      have hrest := ih hfirst.sound (fun b hb d'' hbetween =>
        hstep b (List.mem_cons_of_mem a hb) d'' (hfirst.trans hbetween))
      refine hrest.bind ?_
      rintro others d'' ⟨hlast, hall⟩
      rw [ensures_pure]
      refine ⟨hfirst.trans hlast, ?_⟩
      intro b hb
      rcases List.mem_cons.mp hb with rfl | hb
      · exact hmono hlast.kept hp
      · exact hall b hb

end Building
end SymbolAtlas
