import Mathlib.Data.Option.Basic
import Mathlib.Data.List.Forall2

/-- A deterministic machine: an operation fails, or it leads to a state and an output. -/
abbrev Transducer (σ α ω : Type*) := σ → α → Option (σ × ω)

namespace Transducer

variable {σ σ' α α' ω ω' : Type*}

def trace (step : Transducer σ α ω) (s : σ) : List α → Option (List (σ × ω))
  | [] => some []
  | a :: as => (step s a).bind fun next ↦ (trace step next.1 as).map (next :: ·)

/-- Two machines that meet every operation with related outputs, and go from
related states to related states. -/
def Lockstep (step : Transducer σ α ω) (step' : Transducer σ' α ω') (R : σ → σ' → Prop)
    (Q : ω → ω' → Prop) : Prop :=
  ∀ s s' a, R s s' → ∃ next next', step s a = some next ∧ step' s' a = some next' ∧
    R next.1 next'.1 ∧ Q next.2 next'.2

variable {step : Transducer σ α ω} {step' : Transducer σ' α ω'} {R : σ → σ' → Prop}
  {Q : ω → ω' → Prop}

theorem trace_map (step : Transducer σ α ω) (g : α' → α) (s : σ) (as : List α') :
    trace step s (as.map g) = trace (fun s a ↦ step s (g a)) s as := by
  induction as generalizing s with
  | nil => rfl
  | cons a as ih => simp only [List.map_cons, trace, ih]

theorem Lockstep.trace (h : Lockstep step step' R Q) (as : List α) {s : σ} {s' : σ'}
    (hs : R s s') : ∃ t t', step.trace s as = some t ∧ step'.trace s' as = some t' ∧
      List.Forall₂ (fun x x' ↦ R x.1 x'.1 ∧ Q x.2 x'.2) t t' := by
  induction as generalizing s s' with
  | nil => exact ⟨[], [], rfl, rfl, .nil⟩
  | cons a as ih =>
    obtain ⟨next, next', ha, ha', hr, hq⟩ := h s s' a hs
    obtain ⟨t, t', ht, ht', hall⟩ := ih hr
    refine ⟨next :: t, next' :: t', ?_, ?_, .cons ⟨hr, hq⟩ hall⟩
    · rw [Transducer.trace, ha, Option.bind_some, ht, Option.map_some]
    · rw [Transducer.trace, ha', Option.bind_some, ht', Option.map_some]

/-- Two machines in step with a common third are in step with each other. -/
theorem Lockstep.of_common {τ υ : Type*} {abs : Transducer τ α υ} {S : σ → τ → Prop}
    {S' : σ' → τ → Prop} {out : υ → ω} {out' : υ → ω'}
    (h : Lockstep step abs S fun o u ↦ o = out u)
    (h' : Lockstep step' abs S' fun o u ↦ o = out' u) :
    Lockstep step step' (fun s s' ↦ ∃ t, S s t ∧ S' s' t)
      fun o o' ↦ ∃ u, o = out u ∧ o' = out' u := by
  rintro s s' a ⟨t, hs, hs'⟩
  obtain ⟨next, tnext, ha, hat, hr, hq⟩ := h s t a hs
  obtain ⟨next', tnext', ha', hat', hr', hq'⟩ := h' s' t a hs'
  cases hat.symm.trans hat'
  exact ⟨next, next', ha, ha', ⟨tnext.1, hr, hr'⟩, ⟨tnext.2, hq, hq'⟩⟩

end Transducer
