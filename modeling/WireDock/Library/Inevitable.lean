import WireDock.Library.Transition
import Mathlib.Order.WellFounded

namespace LabelledSystem

variable {σ α ρ : Type*} {S : System σ α} {own : α → Prop} {P : σ → Prop}

/-- However the actions in `own` follow each other, `P` comes about after finitely
many of them: as long as it has not, one of them is possible. -/
inductive Inevitable (S : System σ α) (own : α → Prop) (P : σ → Prop) : σ → Prop
  | here {s : σ} (hp : P s) : Inevitable S own P s
  | later {s : σ} (hmove : ∃ a t, own a ∧ S.step s a t)
      (hall : ∀ a t, own a → S.step s a t → Inevitable S own P t) : Inevitable S own P s

/-- The rule of ranks: until `P` holds some action in `own` is possible, and each of
them keeps the invariant and lowers the rank. -/
theorem Inevitable.of_rank {r : ρ → ρ → Prop} (hwf : WellFounded r) (rank : σ → ρ) {I : σ → Prop}
    (hmove : ∀ s, I s → ¬P s → ∃ a t, own a ∧ S.step s a t)
    (hstep : ∀ s a t, I s → ¬P s → own a → S.step s a t → I t ∧ r (rank t) (rank s))
    {s : σ} (hs : I s) : Inevitable S own P s := by
  induction hr : rank s using hwf.induction generalizing s with
  | _ x ih =>
    subst hr
    by_cases hp : P s
    · exact .here hp
    · refine .later (hmove s hs hp) fun a t ha hst ↦ ?_
      obtain ⟨ht, hlt⟩ := hstep s a t hs hp ha hst
      exact ih _ hlt ht rfl

end LabelledSystem
