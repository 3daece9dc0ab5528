import Mathlib.Data.List.Nodup
import Mathlib.Order.Lattice

variable {α β κ : Type*} [LinearOrder κ] {key : α → κ}

def Ascending (key : α → κ) (l : List α) : Prop := l.Pairwise fun a b ↦ key a ≤ key b

def sortByKey (key : α → κ) (l : List α) : List α :=
  l.mergeSort fun a b ↦ decide (key a ≤ key b)

section Sorting

variable {l l' : List α}

theorem sortByKey_perm (key : α → κ) (l : List α) : (sortByKey key l).Perm l :=
  List.mergeSort_perm l _

theorem mem_sortByKey {a : α} : a ∈ sortByKey key l ↔ a ∈ l := (sortByKey_perm key l).mem_iff

theorem ascending_sortByKey (key : α → κ) (l : List α) : Ascending key (sortByKey key l) := by
  have htrans : ∀ a b c : α, decide (key a ≤ key b) = true → decide (key b ≤ key c) = true →
      decide (key a ≤ key c) = true := by
    intro a b c hab hbc
    exact decide_eq_true (le_trans (of_decide_eq_true hab) (of_decide_eq_true hbc))
  have htotal : ∀ a b : α, (decide (key a ≤ key b) || decide (key b ≤ key a)) = true := by
    intro a b
    simpa using le_total (key a) (key b)
  exact (List.pairwise_mergeSort htrans htotal l).imp of_decide_eq_true

theorem sortByKey_of_ascending (h : Ascending key l) : sortByKey key l = l :=
  List.mergeSort_of_pairwise (h.imp decide_eq_true)

/-- Where elements of one key have one image, the images of an ascending list
do not depend on the order of its elements. -/
theorem Ascending.map_eq_of_perm (h : Ascending key l) (h' : Ascending key l') (hp : l.Perm l')
    {f : α → β} (hf : ∀ a ∈ l, ∀ b ∈ l, key a = key b → f a = f b) : l.map f = l'.map f := by
  have hkeys : ∀ {l : List α}, Ascending key l →
      (l.map fun a ↦ (key a, f a)).Pairwise fun p q ↦ p.1 ≤ q.1 := fun h ↦ List.pairwise_map.mpr h
  have hpairs : l.map (fun a ↦ (key a, f a)) = l'.map (fun a ↦ (key a, f a)) := by
    refine List.Perm.eq_of_pairwise ?_ (hkeys h) (hkeys h') (hp.map _)
    intro p q hp' hq' hpq hqp
    obtain ⟨a, ha, rfl⟩ := List.mem_map.mp hp'
    obtain ⟨b, hb, rfl⟩ := List.mem_map.mp hq'
    have hkey : key a = key b := le_antisymm hpq hqp
    exact Prod.ext hkey (hf a ha b (hp.mem_iff.mpr hb) hkey)
  have hsnd := congrArg (List.map Prod.snd) hpairs
  rwa [List.map_map, List.map_map] at hsnd

theorem map_sortByKey_of_perm (hp : l.Perm l') {f : α → β}
    (hf : ∀ a ∈ l, ∀ b ∈ l, key a = key b → f a = f b) :
    (sortByKey key l).map f = (sortByKey key l').map f := by
  refine (ascending_sortByKey key l).map_eq_of_perm (ascending_sortByKey key l') ?_ ?_
  · exact (sortByKey_perm key l).trans (hp.trans (sortByKey_perm key l').symm)
  · exact fun a ha b hb ↦ hf a (mem_sortByKey.mp ha) b (mem_sortByKey.mp hb)

theorem sortByKey_eq_of_perm (hp : l.Perm l')
    (hinj : ∀ a ∈ l, ∀ b ∈ l, key a = key b → a = b) : sortByKey key l = sortByKey key l' := by
  have hmap : (sortByKey key l).map id = (sortByKey key l').map id := map_sortByKey_of_perm hp hinj
  rwa [List.map_id, List.map_id] at hmap

end Sorting

section Ties

variable {a b : α} {p q : List α}

theorem Ascending.swap (h : Ascending key (p ++ a :: b :: q)) (hk : key a = key b) :
    Ascending key (p ++ b :: a :: q) := by
  unfold Ascending at h ⊢
  simp only [List.pairwise_append, List.pairwise_cons, List.mem_cons] at h ⊢
  obtain ⟨hp, ⟨ha, hb, hq⟩, hcross⟩ := h
  refine ⟨hp, ⟨?_, fun c hc ↦ ha c (.inr hc), hq⟩, fun c hc d hd ↦ hcross c hc d ?_⟩
  · rintro c (rfl | hc)
    · exact le_of_eq hk.symm
    · exact hb c hc
  · tauto

/-- The only two elements of one key are neighbours in an ascending list. -/
theorem Ascending.neighbours {m : List α} (h : Ascending key (p ++ a :: (m ++ b :: q)))
    (hn : (p ++ a :: (m ++ b :: q)).Nodup) (hk : key a = key b)
    (honly : ∀ c ∈ m, key c = key a → c = a ∨ c = b) : m = [] := by
  refine List.eq_nil_iff_forall_not_mem.mpr fun c hc ↦ ?_
  have hac : key a ≤ key c := by
    have hpair := (List.pairwise_cons.mp (List.pairwise_append.mp h).2.1).1
    exact hpair c (List.mem_append_left _ hc)
  have hcb : key c ≤ key b := by
    have hrest := (List.pairwise_cons.mp (List.pairwise_append.mp h).2.1).2
    exact (List.pairwise_append.mp hrest).2.2 c hc b List.mem_cons_self
  have hna := (List.nodup_cons.mp (List.nodup_append.mp hn).2.1).1
  have hnb := (List.nodup_append.mp (List.nodup_cons.mp (List.nodup_append.mp hn).2.1).2).2.2
  rcases honly c hc (le_antisymm (hk ▸ hcb) hac) with rfl | rfl
  · exact hna (List.mem_append_left _ hc)
  · exact hnb c hc c List.mem_cons_self rfl

theorem Ascending.exists_neighbours {l : List α} (h : Ascending key l) (hn : l.Nodup)
    (ha : a ∈ l) (hb : b ∈ l) (hab : a ≠ b) (hk : key a = key b)
    (honly : ∀ c ∈ l, key c = key a → c = a ∨ c = b) :
    ∃ p q, l = p ++ a :: b :: q ∨ l = p ++ b :: a :: q := by
  obtain ⟨p, r, rfl⟩ := List.append_of_mem ha
  rcases List.mem_append.mp hb with hb | hb
  · obtain ⟨p, m, rfl⟩ := List.append_of_mem hb
    rw [List.append_assoc, List.cons_append] at h hn honly ⊢
    have hm : m = [] := h.neighbours hn hk.symm fun c hc hck ↦
      (honly c (by simp [hc]) (hck.trans hk.symm)).symm
    subst hm
    exact ⟨p, r, .inr rfl⟩
  · obtain ⟨m, q, rfl⟩ := List.append_of_mem ((List.mem_cons.mp hb).resolve_left hab.symm)
    have hm : m = [] := h.neighbours hn hk fun c hc ↦ honly c (by simp [hc])
    subst hm
    exact ⟨p, q, .inl rfl⟩

end Ties
