import Mathlib.Data.Finmap

/-- An unordered finite map, as a hash map is one to its callers: nothing
depends on the order of its entries unless an `IterationOrder` is given. -/
abbrev HashMap (α β : Type*) := Finmap fun _ : α ↦ β

namespace FiniteMap

variable {α β : Type*} [DecidableEq α]

def modify (a : α) (f : β → β) (m : HashMap α β) : HashMap α β :=
  match m.lookup a with
  | some b => m.insert a (f b)
  | none => m

theorem lookup_insert (a k : α) (b : β) (m : HashMap α β) :
    (m.insert a b).lookup k = if k = a then some b else m.lookup k := by
  split_ifs with h
  · rw [h, Finmap.lookup_insert]
  · exact Finmap.lookup_insert_of_ne m h

theorem lookup_erase (a k : α) (m : HashMap α β) :
    (m.erase a).lookup k = if k = a then none else m.lookup k := by
  split_ifs with h
  · rw [h, Finmap.lookup_erase]
  · exact Finmap.lookup_erase_ne h

theorem lookup_modify (a k : α) (f : β → β) (m : HashMap α β) :
    (modify a f m).lookup k = if k = a then (m.lookup a).map f else m.lookup k := by
  unfold modify
  cases h : m.lookup a with
  | none =>
    split_ifs with hk
    · rw [hk, h, Option.map_none]
    · rfl
  | some b => simp only [lookup_insert, Option.map_some]

theorem mem_iff_lookup {a : α} {m : HashMap α β} : a ∈ m ↔ ∃ b, m.lookup a = some b :=
  Finmap.mem_iff

theorem mem_of_lookup {a : α} {b : β} {m : HashMap α β} (h : m.lookup a = some b) : a ∈ m :=
  Finmap.mem_of_lookup_eq_some h

theorem not_mem_iff_lookup {a : α} {m : HashMap α β} : a ∉ m ↔ m.lookup a = none :=
  Finmap.lookup_eq_none.symm

theorem mem_iff_of_lookup_map {a : α} {f : β → β} {m m' : HashMap α β}
    (h : m'.lookup a = (m.lookup a).map f) : a ∈ m' ↔ a ∈ m := by
  rw [← Finmap.lookup_isSome, h, Option.isSome_map, Finmap.lookup_isSome]

theorem erase_of_not_mem {a : α} {m : HashMap α β} (h : a ∉ m) : m.erase a = m := by
  refine Finmap.ext_lookup fun k ↦ ?_
  rw [lookup_erase]
  split_ifs with hk
  · rw [hk, not_mem_iff_lookup.mp h]
  · rfl

theorem card_keys_insert_of_not_mem {a : α} {b : β} {m : HashMap α β} (h : a ∉ m) :
    (m.insert a b).keys.card = m.keys.card + 1 := by
  have hk : (m.insert a b).keys = insert a m.keys := by
    ext k
    simp only [Finmap.mem_keys, Finmap.mem_insert, Finset.mem_insert]
  rw [hk, Finset.card_insert_of_notMem (by simpa only [Finmap.mem_keys] using h)]

theorem card_keys_insert_of_mem {a : α} {b : β} {m : HashMap α β} (h : a ∈ m) :
    (m.insert a b).keys.card = m.keys.card := by
  have hk : (m.insert a b).keys = m.keys := by
    ext k
    simp only [Finmap.mem_keys, Finmap.mem_insert]
    exact ⟨fun hk ↦ hk.elim (fun he ↦ he ▸ h) id, Or.inr⟩
  rw [hk]

theorem card_keys_erase_of_mem {a : α} {m : HashMap α β} (h : a ∈ m) :
    (m.erase a).keys.card + 1 = m.keys.card := by
  rw [Finmap.keys_erase]
  exact Finset.card_erase_add_one (Finmap.mem_keys.mpr h)

theorem existsUnique_of_card_eq_one {α : Type*} {s : Finset α} (h : s.card = 1) :
    ∃! a, a ∈ s ∧ True := by
  obtain ⟨a, rfl⟩ := Finset.card_eq_one.mp h
  exact ⟨a, by simp⟩

def single? {α : Type*} (s : Finset α) : Option α :=
  if h : s.card = 1 then some (s.choose (fun _ ↦ True) (existsUnique_of_card_eq_one h)) else none

theorem single?_eq_some {α : Type*} {s : Finset α} {a : α} : single? s = some a ↔ s = {a} := by
  unfold single?
  split_ifs with h
  · rw [Option.some_inj]
    obtain ⟨b, rfl⟩ := Finset.card_eq_one.mp h
    rw [Finset.mem_singleton.mp (Finset.choose_mem _ _ _), Finset.singleton_inj]
  · simp only [false_iff]
    exact fun hs ↦ h (hs ▸ Finset.card_singleton a)

end FiniteMap

/-- One order in which the elements of every finite set are visited. A hash
set promises no more than this. -/
structure IterationOrder (α : Type*) where
  visit : Finset α → List α
  nodup : ∀ s, (visit s).Nodup
  mem_visit : ∀ s a, a ∈ visit s ↔ a ∈ s

namespace IterationOrder

variable {α : Type*}

noncomputable def first [DecidableEq α] (hint : List α) : IterationOrder α where
  visit s := hint.dedup.filter (· ∈ s) ++
    if s ⊆ hint.toFinset then [] else (s \ hint.toFinset).toList
  nodup s := by
    refine List.Nodup.append ((List.nodup_dedup hint).filter _) ?_ fun a ha ha' ↦ ?_
    · split_ifs
      · exact List.nodup_nil
      · exact Finset.nodup_toList _
    · split_ifs at ha'
      · cases ha'
      · have hhint : a ∈ hint := List.mem_dedup.mp (List.mem_of_mem_filter ha)
        rw [Finset.mem_toList, Finset.mem_sdiff, List.mem_toFinset] at ha'
        exact ha'.2 hhint
  mem_visit s a := by
    rw [List.mem_append, List.mem_filter, List.mem_dedup, decide_eq_true_eq]
    split_ifs with hs
    · simp only [List.not_mem_nil, or_false]
      exact ⟨And.right, fun ha ↦ ⟨List.mem_toFinset.mp (hs ha), ha⟩⟩
    · rw [Finset.mem_toList, Finset.mem_sdiff, List.mem_toFinset]
      tauto

theorem visit_first [DecidableEq α] {hint : List α} {s : Finset α} (hn : hint.Nodup)
    (h : ∀ a, a ∈ hint ↔ a ∈ s) : (first hint).visit s = hint := by
  have hfilter : hint.dedup.filter (· ∈ s) = hint := by
    rw [hn.dedup, List.filter_eq_self]
    exact fun a ha ↦ decide_eq_true ((h a).mp ha)
  have hsub : s ⊆ hint.toFinset := fun a ha ↦ List.mem_toFinset.mpr ((h a).mpr ha)
  simp only [first, hfilter, if_pos hsub, List.append_nil]

theorem visit_perm (order order' : IterationOrder α) (s : Finset α) :
    (order.visit s).Perm (order'.visit s) :=
  (List.perm_ext_iff_of_nodup (order.nodup s) (order'.nodup s)).mpr fun a ↦
    (order.mem_visit s a).trans (order'.mem_visit s a).symm

end IterationOrder
