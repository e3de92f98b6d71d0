import SymbolAtlas.Proofs.Reordering.Frame
import Mathlib.Tactic

/-!
# Runs in another order

Two steps may change places if what either of them writes is neither read nor written by the other.
A run over a list whose steps may change places pairwise ends alike in every order of the list, by
induction on how the order is changed: a step is put in front, or two neighbours change places.
-/

namespace SymbolAtlas
namespace Building

open Draft

variable {α : Type} {R : Draft → Draft → Prop} {P : Draft → Prop} {step : α → Building Unit}
  {first second : Building Unit} {d d' : Draft}

/-- The step leads from drafts with a property to drafts with it. -/
def Keeps (P : Draft → Prop) (step : Building Unit) : Prop :=
  ∀ d : Draft, P d → Ensures step d fun _ e => P e

/-- On related drafts with a property, the step ends alike. -/
def RespectsOn (P : Draft → Prop) (R : Draft → Draft → Prop) (step : Building Unit) : Prop :=
  ∀ d d' : Draft, P d → P d' → R d d' →
    Ensures step d fun _ e => ∃ e', step d' = .ok ((), e') ∧ R e e'

/-- The second step may be taken before the first. -/
def Swaps (P : Draft → Prop) (R : Draft → Draft → Prop) (first second : Building Unit) : Prop :=
  ∀ d : Draft, P d → Ensures (do first; second) d fun _ e =>
    ∃ e', (do second; first : Building Unit) d = .ok ((), e') ∧ R e e'

theorem Keeps.bind (hfirst : Keeps P first) (hsecond : Keeps P second) :
    Keeps P (do first; second) := by
  intro d hd
  exact (hfirst d hd).bind fun _ e he => hsecond e he

theorem Keeps.forEach {items : List α} (hstep : ∀ a ∈ items, Keeps P (step a)) :
    Keeps P (forEach step items) :=
  fun _ hd => forEach_keeps hd hstep

theorem RespectsOn.bind (hfirst : RespectsOn P R first) (hkeeps : Keeps P first)
    (hsecond : RespectsOn P R second) :
    RespectsOn P R (do first; second) := by
  intro d d' hd hd' halike
  refine ((hfirst d d' hd hd' halike).and (hkeeps d hd)).bind ?_
  rintro _ e ⟨⟨e', hrun', he⟩, hkept⟩
  refine (hsecond e e' hkept (hkeeps d' hd' _ e' hrun') he).imp ?_
  rintro _ f ⟨f', hlast', hf⟩
  exact ⟨f', bind_run_eq_ok.mpr ⟨(), e', hrun', hlast'⟩, hf⟩

theorem RespectsOn.forEach {items : List α}
    (hkeeps : ∀ a ∈ items, Keeps P (step a))
    (hstep : ∀ a ∈ items, RespectsOn P R (step a)) : RespectsOn P R (forEach step items) := by
  induction items with
  | nil =>
      intro d d' _ _ halike
      exact ensures_pure.mpr ⟨d', rfl, halike⟩
  | cons a rest ih =>
      refine (hstep a List.mem_cons_self).bind (hkeeps a List.mem_cons_self) ?_
      exact ih (fun b hb => hkeeps b (List.mem_cons_of_mem a hb))
        fun b hb => hstep b (List.mem_cons_of_mem a hb)

theorem forEach_perm (hrefl : ∀ d, R d d) (htrans : ∀ a b c, R a b → R b c → R a c)
    {items others : List α} (hperm : items.Perm others)
    (hkeeps : ∀ a ∈ items, Keeps P (step a))
    (hstep : ∀ a ∈ items, RespectsOn P R (step a))
    (hswaps : items.Pairwise fun a b => Swaps P R (step a) (step b) ∧ Swaps P R (step b) (step a))
    (hd : P d) (hd' : P d') (halike : R d d') :
    Ensures (forEach step items) d fun _ e =>
      ∃ e', forEach step others d' = .ok ((), e') ∧ R e e' := by
  induction hperm generalizing d d' with
  | nil => exact ensures_pure.mpr ⟨d', rfl, halike⟩
  | @cons a rest others _ ih =>
      have hfirst := hstep a List.mem_cons_self d d' hd hd' halike
      refine (hfirst.and (hkeeps a List.mem_cons_self d hd)).bind ?_
      rintro _ e ⟨⟨e', hrun', he⟩, hkept⟩
      have hkept' := hkeeps a List.mem_cons_self d' hd' _ e' hrun'
      refine (ih (fun b hb => hkeeps b (List.mem_cons_of_mem a hb))
        (fun b hb => hstep b (List.mem_cons_of_mem a hb)) (List.pairwise_cons.mp hswaps).2
        hkept hkept' he).imp ?_
      rintro _ f ⟨f', hlast', hf⟩
      exact ⟨f', bind_run_eq_ok.mpr ⟨(), e', hrun', hlast'⟩, hf⟩
  | swap a b rest =>
      have ha : a ∈ b :: a :: rest := List.mem_cons_of_mem b List.mem_cons_self
      have hb : b ∈ b :: a :: rest := List.mem_cons_self
      have hrest : ∀ c ∈ rest, c ∈ b :: a :: rest := fun c hc =>
        List.mem_cons_of_mem b (List.mem_cons_of_mem a hc)
      have hkept : Keeps P (do step a; step b) := (hkeeps a ha).bind (hkeeps b hb)
      have hswap := ((List.pairwise_cons.mp hswaps).1 a List.mem_cons_self).1
      intro _ e hrun
      obtain ⟨_, d₁, hrun₁, hrun⟩ := bind_run_eq_ok.mp hrun
      obtain ⟨_, d₂, hrun₂, hrun₃⟩ := bind_run_eq_ok.mp hrun
      have hd₂ : P d₂ := hkeeps a ha d₁ (hkeeps b hb d hd _ d₁ hrun₁) _ d₂ hrun₂
      obtain ⟨d₂', hother, he₂⟩ := hswap d hd _ d₂ (bind_run_eq_ok.mpr ⟨(), d₁, hrun₁, hrun₂⟩)
      have hboth := (hstep a ha).bind (hkeeps a ha) (hstep b hb)
      obtain ⟨d₃, hboth, he₃⟩ := hboth d d' hd hd' halike _ d₂' hother
      have hlast := RespectsOn.forEach (fun c hc => hkeeps c (hrest c hc)) fun c hc =>
        hstep c (hrest c hc)
      obtain ⟨e', hlast, he'⟩ := hlast d₂ d₃ hd₂ (hkept d' hd' _ d₃ hboth)
        (htrans _ _ _ he₂ he₃) _ e hrun₃
      obtain ⟨_, d₄, hrun₄, hrun₅⟩ := bind_run_eq_ok.mp hboth
      have hrun' : forEach step (b :: rest) d₄ = .ok ((), e') :=
        bind_run_eq_ok.mpr ⟨(), d₃, hrun₅, hlast⟩
      exact ⟨e', bind_run_eq_ok.mpr ⟨(), d₄, hrun₄, hrun'⟩, he'⟩
  | @trans items middle others hfirst _ ih₁ ih₂ =>
      have hmem : ∀ a ∈ middle, a ∈ items := fun a ha => hfirst.mem_iff.mpr ha
      have hmiddle := ih₁ hkeeps hstep hswaps hd hd (hrefl d)
      intro _ e hrun
      obtain ⟨e₁, hrun₁, he₁⟩ := hmiddle _ e hrun
      have hswaps' := (hfirst.pairwise_iff fun h => And.symm h).mp hswaps
      obtain ⟨e₂, hrun₂, he₂⟩ := ih₂ (fun a ha => hkeeps a (hmem a ha))
        (fun a ha => hstep a (hmem a ha)) hswaps' hd hd' halike _ e₁ hrun₁
      exact ⟨e₂, hrun₂, htrans _ _ _ he₁ he₂⟩

/-! ## Steps that write at different slots -/

variable {K L N : Set Slot}

/-- Steps may change places if each respects drafts that differ where the other one writes. -/
theorem swaps_of_disjoint
    (hfirst : ∀ d, P d → Ensures first d fun _ e => P e ∧ Alike K d e)
    (hsecond : ∀ d, P d → Ensures second d fun _ e => P e ∧ Alike L d e)
    (hdisjoint : K ∩ L = ∅) (hL : RespectsOn P (Alike L) first)
    (hK : RespectsOn P (Alike K) second) : Swaps P (Alike N) first second := by
  intro d hd _ d₁₂ hrun
  obtain ⟨_, d₁, hrun₁, hrun₁₂⟩ := bind_run_eq_ok.mp hrun
  obtain ⟨hd₁, hfirst₁⟩ := hfirst d hd _ d₁ hrun₁
  obtain ⟨hd₁₂, hsecond₁₂⟩ := hsecond d₁ hd₁ _ d₁₂ hrun₁₂
  -- The second step does on the first draft what it does behind the first step.
  obtain ⟨d₂, hrun₂, hK₂⟩ := hK d₁ d hd₁ hd hfirst₁.symm _ d₁₂ hrun₁₂
  obtain ⟨hd₂, hsecond₂⟩ := hsecond d hd _ d₂ hrun₂
  obtain ⟨d₂₁, hrun₂₁, hL₂₁⟩ := hL d d₂ hd hd₂ hsecond₂ _ d₁ hrun₁
  obtain ⟨-, hfirst₂₁⟩ := hfirst d₂ hd₂ _ d₂₁ hrun₂₁
  refine ⟨d₂₁, bind_run_eq_ok.mpr ⟨(), d₂, hrun₂, hrun₂₁⟩, ?_⟩
  have hsameK : Alike K d₁₂ d₂₁ := hK₂.trans hfirst₂₁
  have hsameL : Alike L d₁₂ d₂₁ := hsecond₁₂.symm.trans hL₂₁
  refine (hsameK.inter hsameL).mono ?_
  rw [hdisjoint]
  exact Set.empty_subset N

end Building
end SymbolAtlas
