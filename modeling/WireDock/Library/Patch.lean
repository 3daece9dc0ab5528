import WireDock.Library.FiniteMap

/-- Entries to set, or with `none` to remove, in a finite map. The first
entry for a key counts. -/
abbrev Patch (α β : Type*) := List (α × Option β)

namespace Patch

variable {α β : Type*}

def keys (p : Patch α β) : List α := p.map Prod.fst

@[simp] theorem keys_nil : keys ([] : Patch α β) = [] := rfl

@[simp] theorem keys_cons (e : α × Option β) (p : Patch α β) :
    keys (e :: p) = e.1 :: keys p := rfl

variable [DecidableEq α]

def apply : Patch α β → HashMap α β → HashMap α β
  | [], m => m
  | (a, some b) :: p, m => (apply p m).insert a b
  | (a, none) :: p, m => (apply p m).erase a

def applySet : Patch α β → Finset α → Finset α
  | [], s => s
  | (a, some _) :: p, s => insert a (applySet p s)
  | (a, none) :: p, s => (applySet p s).erase a

theorem lookup_apply_of_not_mem {p : Patch α β} {k : α} (h : k ∉ keys p) (m : HashMap α β) :
    (apply p m).lookup k = m.lookup k := by
  induction p with
  | nil => rfl
  | cons e p ih =>
    obtain ⟨hk, hp⟩ := not_or.mp (mt List.mem_cons.mpr h)
    obtain ⟨a, _ | b⟩ := e
    · rw [apply, FiniteMap.lookup_erase, if_neg hk, ih hp]
    · rw [apply, FiniteMap.lookup_insert, if_neg hk, ih hp]

/-- Under its keys a patch forgets what was there. -/
theorem lookup_apply_congr {p : Patch α β} {k : α} (h : k ∈ keys p) (m m' : HashMap α β) :
    (apply p m).lookup k = (apply p m').lookup k := by
  induction p with
  | nil => cases h
  | cons e p ih =>
    obtain ⟨a, _ | b⟩ := e <;>
      simp only [apply, FiniteMap.lookup_erase, FiniteMap.lookup_insert]
    · split_ifs with hk
      · rfl
      · exact ih ((List.mem_cons.mp h).resolve_left hk)
    · split_ifs with hk
      · rfl
      · exact ih ((List.mem_cons.mp h).resolve_left hk)

theorem mem_applySet_of_not_mem {p : Patch α β} {k : α} (h : k ∉ keys p) (s : Finset α) :
    k ∈ applySet p s ↔ k ∈ s := by
  induction p with
  | nil => rfl
  | cons e p ih =>
    obtain ⟨hk, hp⟩ := not_or.mp (mt List.mem_cons.mpr h)
    obtain ⟨a, _ | b⟩ := e
    · rw [applySet, Finset.mem_erase, ih hp]
      exact and_iff_right hk
    · rw [applySet, Finset.mem_insert, ih hp]
      exact or_iff_right hk

theorem mem_applySet_congr {p : Patch α β} {k : α} (h : k ∈ keys p) (s s' : Finset α) :
    k ∈ applySet p s ↔ k ∈ applySet p s' := by
  induction p with
  | nil => cases h
  | cons e p ih =>
    by_cases hk : k = e.1
    · obtain ⟨a, _ | b⟩ := e <;> simp [applySet, show k = a from hk]
    · have hp := ih ((List.mem_cons.mp h).resolve_left hk)
      obtain ⟨a, _ | b⟩ := e <;> simp [applySet, show k ≠ a from hk, hp]

variable {p q : Patch α β}

theorem apply_comm (h : List.Disjoint (keys p) (keys q)) (m : HashMap α β) :
    apply p (apply q m) = apply q (apply p m) := by
  refine Finmap.ext_lookup fun k ↦ ?_
  by_cases hp : k ∈ keys p
  · rw [lookup_apply_of_not_mem (h hp), lookup_apply_congr hp]
  · rw [lookup_apply_of_not_mem hp]
    by_cases hq : k ∈ keys q
    · exact lookup_apply_congr hq _ _
    · rw [lookup_apply_of_not_mem hq, lookup_apply_of_not_mem hq, lookup_apply_of_not_mem hp]

theorem applySet_comm (h : List.Disjoint (keys p) (keys q)) (s : Finset α) :
    applySet p (applySet q s) = applySet q (applySet p s) := by
  ext k
  by_cases hp : k ∈ keys p
  · rw [mem_applySet_of_not_mem (h hp), mem_applySet_congr hp]
  · rw [mem_applySet_of_not_mem hp]
    by_cases hq : k ∈ keys q
    · exact mem_applySet_congr hq _ _
    · rw [mem_applySet_of_not_mem hq, mem_applySet_of_not_mem hq, mem_applySet_of_not_mem hp]

end Patch
