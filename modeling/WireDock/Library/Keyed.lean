import WireDock.Library.FiniteMap

namespace FiniteMap

variable {α κ β γ : Type*}

/-- A finite map whose keys are spelled by `key`: what it holds under the key
of `a` is `v a`, and it has no other keys. -/
structure Keyed [DecidableEq κ] (key : α → κ) (v : α → Option β) (m : HashMap κ β) : Prop where
  lookup : ∀ a, m.lookup (key a) = v a
  spelled : ∀ k ∈ m, ∃ a, k = key a

def Paired [DecidableEq κ] (key key' : α → κ) (g : β → γ) (m : HashMap κ β)
    (m' : HashMap κ γ) : Prop :=
  ∃ v, Keyed key v m ∧ Keyed key' (fun a ↦ (v a).map g) m'

namespace Keyed

variable [DecidableEq κ] {key : α → κ} {v : α → Option β} {m : HashMap κ β}

theorem empty (key : α → κ) : Keyed key (fun _ ↦ none) (∅ : HashMap κ β) where
  lookup _ := rfl
  spelled _ h := (Finmap.notMem_empty h).elim

variable [DecidableEq α]

theorem insert (h : Keyed key v m) (hkey : Function.Injective key) (a : α) (b : β) :
    Keyed key (Function.update v a (some b)) (m.insert (key a) b) where
  lookup a' := by
    simp only [lookup_insert, Function.update_apply, h.lookup, hkey.eq_iff]
  spelled k hk := by
    rcases Finmap.mem_insert.mp hk with rfl | hk
    · exact ⟨a, rfl⟩
    · exact h.spelled k hk

theorem erase (h : Keyed key v m) (hkey : Function.Injective key) (a : α) :
    Keyed key (Function.update v a none) (m.erase (key a)) where
  lookup a' := by
    simp only [lookup_erase, Function.update_apply, h.lookup, hkey.eq_iff]
  spelled k hk := h.spelled k (Finmap.mem_erase.mp hk).2

end Keyed

end FiniteMap
