import Mathlib.Data.Finset.Dedup
import Mathlib.Data.Fintype.EquivFin

/-- No two elements of a list share a key. An element may have none. -/
def DistinctKeys {α κ : Type*} (key : α → Option κ) (l : List α) : Prop :=
  ∀ e ∈ l, ∀ e' ∈ l, ∀ k, key e = some k → key e' = some k → e = e'

namespace DistinctKeys

variable {α κ : Type*} {key : α → Option κ} {l l' : List α}

theorem nil : DistinctKeys key [] := fun _ h ↦ by cases h

theorem append_keyless (h : DistinctKeys key l) (hnone : ∀ e ∈ l', key e = none) :
    DistinctKeys key (l ++ l') := by
  have hold : ∀ e ∈ l ++ l', ∀ k, key e = some k → e ∈ l := by
    intro e hm k hk
    refine (List.mem_append.mp hm).resolve_right fun hm ↦ ?_
    cases (hnone e hm).symm.trans hk
  exact fun e hm e' hm' k hk hk' ↦ h e (hold e hm k hk) e' (hold e' hm' k hk') k hk hk'

theorem append_fresh (h : DistinctKeys key l) {e₀ : α} {k₀ : κ} (h₀ : key e₀ = some k₀)
    (hfresh : ∀ e ∈ l, key e ≠ some k₀) (hone : ∀ e ∈ l', e = e₀ ∨ key e = none) :
    DistinctKeys key (l ++ l') := by
  have hnew : ∀ e ∈ l ++ l', ∀ k, key e = some k → e ∈ l ∧ k ≠ k₀ ∨ e = e₀ ∧ k = k₀ := by
    intro e hm k hk
    rcases List.mem_append.mp hm with hm | hm
    · exact .inl ⟨hm, fun he ↦ hfresh e hm (he ▸ hk)⟩
    · rcases hone e hm with rfl | hnone
      · exact .inr ⟨rfl, Option.some.inj (hk.symm.trans h₀)⟩
      · cases hnone.symm.trans hk
  intro e hm e' hm' k hk hk'
  rcases hnew e hm k hk with ⟨hm, hne⟩ | ⟨rfl, he⟩ <;>
    rcases hnew e' hm' k hk' with ⟨hm', hne'⟩ | ⟨rfl, he'⟩
  · exact h e hm e' hm' k hk hk'
  · exact (hne he').elim
  · exact (hne' he).elim
  · rfl

theorem exists_unused [Infinite κ] (key : α → Option κ) (l : List α) :
    ∃ k, ∀ e ∈ l, key e ≠ some k := by
  classical
  obtain ⟨k, hk⟩ := Infinite.exists_notMem_finset (l.filterMap key).toFinset
  refine ⟨k, fun e he hs ↦ hk ?_⟩
  rw [List.mem_toFinset, List.mem_filterMap]
  exact ⟨e, he, hs⟩

end DistinctKeys
