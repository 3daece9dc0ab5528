import WireDock.Library.Transition
import Mathlib.Data.List.Forall2

namespace LabelledSystem

variable {σ τ α β : Type*} {S : System σ α} {T : System τ β} {L : α → β → Prop} {R : σ → τ → Prop}

theorem Reachable.run {s : σ} (h : Reachable S s) : ∃ hist, Run S hist s := by
  induction h with
  | init hi => exact ⟨[], .init hi⟩
  | step _ _ hs ih =>
    obtain ⟨hist, hr⟩ := ih
    exact ⟨_, hr.step hs⟩

theorem forall₂_append_singleton {l : List α} {a : α} {l' : List β}
    (h : List.Forall₂ L (l ++ [a]) l') : ∃ m b, l' = m ++ [b] ∧ List.Forall₂ L l m ∧ L a b := by
  induction l generalizing l' with
  | nil =>
    cases h with
    | cons hab h =>
      cases h
      exact ⟨[], _, rfl, .nil, hab⟩
  | cons x l ih =>
    cases h with
    | cons hx h =>
      obtain ⟨m, b, rfl, hm, hb⟩ := ih h
      exact ⟨_ :: m, b, rfl, .cons hx hm, hb⟩

/-- `T` follows every step of `S` with a step of any label that goes with the label
of that step, from related states to related states. -/
structure Simulation (S : System σ α) (T : System τ β) (L : α → β → Prop) (R : σ → τ → Prop) :
    Prop where
  init : ∀ s, S.init s → ∃ t, T.init t ∧ R s t
  step : ∀ s a s' t b, Reachable S s → R s t → L a b → S.step s a s' →
    ∃ t', T.step t b t' ∧ R s' t'

/-- Every run of `S` is followed, stage by stage, by a run of `T` with any labels
that go with those of the run. -/
theorem Simulation.run (h : Simulation S T L R) {hist : List (σ × α)} {s : σ}
    (hr : Run S hist s) {labels : List β} (hl : List.Forall₂ L (hist.map Prod.snd) labels) :
    ∃ hist' t, Run T hist' t ∧ hist'.map Prod.snd = labels ∧ R s t ∧
      List.Forall₂ (fun p q ↦ Reachable S p.1 ∧ R p.1 q.1 ∧ L p.2 q.2) hist hist' := by
  induction hr generalizing labels with
  | init hi =>
    obtain ⟨t, ht, hR⟩ := h.init _ hi
    cases hl
    exact ⟨[], t, .init ht, rfl, hR, .nil⟩
  | @step hist s s' a hr hs ih =>
    rw [List.map_append, List.map_singleton] at hl
    obtain ⟨before, b, rfl, hbefore, hb⟩ := forall₂_append_singleton hl
    obtain ⟨hist', t, hrun, hlabels, hR, hall⟩ := ih hbefore
    obtain ⟨t', hstep, hR'⟩ := h.step _ _ _ t b hr.reachable hR hb hs
    refine ⟨_, t', hrun.step hstep, by simp [hlabels], hR', ?_⟩
    exact List.rel_append hall (.cons ⟨hr.reachable, hR, hb⟩ .nil)

end LabelledSystem
