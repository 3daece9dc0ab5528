import WireDock.Library.Simulation
import Mathlib.Logic.Relation

namespace LabelledSystem

variable {σ α β ν : Type*} {I : α → α → Prop} {l l' m : List α} {a b : α}

inductive Swap (I : α → α → Prop) : List α → List α → Prop
  | swap (before after : List α) {a b : α} :
      I a b → Swap I (before ++ a :: b :: after) (before ++ b :: a :: after)

/-- Orders of the same steps, each had from the other by exchanging independent neighbours. -/
def TraceEquiv (I : α → α → Prop) : List α → List α → Prop := Relation.ReflTransGen (Swap I)

namespace TraceEquiv

theorem refl (l : List α) : TraceEquiv I l l := Relation.ReflTransGen.refl

theorem trans (h : TraceEquiv I l l') (h' : TraceEquiv I l' m) : TraceEquiv I l m :=
  Relation.ReflTransGen.trans h h'

theorem cons (a : α) (h : TraceEquiv I l l') : TraceEquiv I (a :: l) (a :: l') := by
  induction h with
  | refl => exact refl _
  | tail _ hs ih =>
    obtain ⟨before, after, hI⟩ := hs
    exact ih.tail (.swap (a :: before) after hI)

/-- A step moves past those that are independent of it. -/
theorem cons_append (h : ∀ b ∈ l, I a b) : TraceEquiv I (a :: (l ++ m)) (l ++ a :: m) := by
  induction l with
  | nil => exact refl _
  | cons b l ih =>
    have hswap : TraceEquiv I (a :: b :: (l ++ m)) (b :: a :: (l ++ m)) :=
      .single (.swap [] (l ++ m) (h b List.mem_cons_self))
    exact hswap.trans ((ih fun c hc ↦ h c (List.mem_cons_of_mem b hc)).cons b)

/-- A choice of steps in which no two are independent stays in order. -/
theorem filter_eq {p : α → Bool} (h : TraceEquiv I l l') (hp : ∀ a b, I a b → ¬(p a ∧ p b)) :
    l.filter p = l'.filter p := by
  induction h with
  | refl => rfl
  | tail _ hs ih =>
    obtain @⟨before, after, a, b, hI⟩ := hs
    have hab := hp a b hI
    rw [ih, List.filter_append, List.filter_append]
    by_cases ha : p a <;> by_cases hb : p b <;> simp_all

theorem of_map {f : β → α} {l : List β} {m : List α} (h : TraceEquiv I (l.map f) m) :
    ∃ l', TraceEquiv (fun a b ↦ I (f a) (f b)) l l' ∧ l'.map f = m := by
  induction h with
  | refl => exact ⟨l, refl l, rfl⟩
  | tail _ hs ih =>
    obtain ⟨l', hl, hf⟩ := ih
    obtain @⟨before, after, a, b, hI⟩ := hs
    obtain ⟨before, rest, rfl, rfl, hx⟩ := List.map_eq_append_iff.mp hf
    obtain ⟨x, rest, rfl, rfl, hy⟩ := List.map_eq_cons_iff.mp hx
    obtain ⟨y, after, rfl, rfl, rfl⟩ := List.map_eq_cons_iff.mp hy
    exact ⟨before ++ y :: x :: after, hl.tail (.swap before after hI), by simp⟩

end TraceEquiv

section Views

theorem filter_eq_nil_of_first {sees : ν → α → Bool} {p : List α} {u v : ν}
    (hp : p.filter (sees v) = []) (hv : sees v a) {l q : List α}
    (h : (a :: l).filter (sees u) = (p ++ a :: q).filter (sees u)) (hu : sees u a) :
    p.filter (sees u) = [] := by
  rw [List.filter_cons_of_pos hu, List.filter_append] at h
  cases hf : p.filter (sees u) with
  | nil => rfl
  | cons b r =>
    rw [hf] at h
    have hab : a = b := (List.cons.inj h).1
    have hb : b ∈ p := List.mem_of_mem_filter (hf ▸ List.mem_cons_self)
    exact (List.filter_eq_nil_iff.mp hp b hb (hab ▸ hv)).elim

/-- Orders that look alike in every view are equivalent, where steps that no view
shows together are independent. -/
theorem traceEquiv_of_views (sees : ν → α → Bool) (hseen : ∀ a, ∃ v, sees v a)
    (hI : ∀ a ∈ l, ∀ b ∈ l, (∀ v, sees v a → ¬sees v b) → I a b)
    (h : ∀ v, l.filter (sees v) = l'.filter (sees v)) : TraceEquiv I l l' := by
  induction l generalizing l' with
  | nil =>
    cases l' with
    | nil => exact .refl _
    | cons b l' =>
      obtain ⟨v, hv⟩ := hseen b
      have hb := h v
      rw [List.filter_nil, List.filter_cons_of_pos hv] at hb
      cases hb
  | cons a l ih =>
    obtain ⟨v, hv⟩ := hseen a
    have hfirst := h v
    rw [List.filter_cons_of_pos hv] at hfirst
    obtain ⟨p, q, rfl, hp, -⟩ := List.filter_eq_cons_iff.mp hfirst.symm
    have hp : p.filter (sees v) = [] := List.filter_eq_nil_iff.mpr hp
    have hbefore : ∀ u, sees u a → p.filter (sees u) = [] :=
      fun u hu ↦ filter_eq_nil_of_first hp hv (h u) hu
    have hmem : ∀ b ∈ p, b ∈ a :: l := by
      intro b hb
      obtain ⟨u, hu⟩ := hseen b
      have hm : b ∈ (p ++ a :: q).filter (sees u) :=
        List.mem_filter.mpr ⟨List.mem_append_left _ hb, hu⟩
      exact List.mem_of_mem_filter (h u ▸ hm)
    have hrest : ∀ u, l.filter (sees u) = (p ++ q).filter (sees u) := by
      intro u
      have hu := h u
      rw [List.filter_append] at hu ⊢
      by_cases ha : sees u a
      · rw [hbefore u ha, List.filter_cons_of_pos ha, List.filter_cons_of_pos ha] at hu
        rw [hbefore u ha]
        exact (List.cons.inj hu).2
      · rwa [List.filter_cons_of_neg ha, List.filter_cons_of_neg ha] at hu
    have htail := ih (fun b hb c hc ↦ hI b (List.mem_cons_of_mem a hb) c (List.mem_cons_of_mem a hc))
      hrest
    refine (htail.cons a).trans (TraceEquiv.cons_append fun b hb ↦ ?_)
    exact hI a List.mem_cons_self b (hmem b hb) fun u hu ↦
      List.filter_eq_nil_iff.mp (hbefore u hu) b hb

end Views

def System.within (S : System σ α) (P : σ → Prop) : System σ α where
  init := S.init
  step s a t := S.step s a t ∧ P t

section Within

variable {S : System σ α} {P : σ → Prop} {hist : List (σ × α)} {s : σ}

theorem Run.within (hr : Run S hist s) (hback : ∀ s a t, S.step s a t → P t → P s) (hP : P s) :
    Run (S.within P) hist s := by
  induction hr with
  | init hi => exact .init hi
  | step _ hs ih => exact (ih (hback _ _ _ hs hP)).step ⟨hs, hP⟩

theorem Run.of_within (hr : Run (S.within P) hist s) : Run S hist s := by
  induction hr with
  | init hi => exact .init hi
  | step _ hs ih => exact ih.step hs.1

end Within

/-- Independent steps may be taken in either order, up to `R`, which the system respects. -/
structure Commuting (S : System σ α) (I : α → α → Prop) (R : σ → σ → Prop) : Prop where
  refl : ∀ s, R s s
  trans : ∀ s t u, R s t → R t u → R s u
  follow : ∀ s a s' t, Reachable S s → R s t → S.step s a s' → ∃ t', S.step t a t' ∧ R s' t'
  swap : ∀ s a t b u, Reachable S s → I a b → S.step s a t → S.step t b u →
    ∃ t' u', S.step s b t' ∧ S.step t' a u' ∧ R u u'

section Commuting

variable {S : System σ α} {R : σ → σ → Prop} {hist : List (σ × α)} {s : σ}

theorem Run.of_labels (hr : Run S hist s) (hl : hist.map Prod.snd = l ++ [a]) :
    ∃ hist' s', Run S hist' s' ∧ hist'.map Prod.snd = l ∧ S.step s' a s := by
  cases hr with
  | init => simp at hl
  | @step hist s' _ a' hr hs =>
    rw [List.map_append, List.map_singleton] at hl
    obtain ⟨hbefore, ha⟩ := List.append_inj' hl rfl
    cases ha
    exact ⟨hist, s', hr, hbefore, hs⟩

theorem Commuting.run_swap (h : Commuting S I R) {before after : List α} (hI : I a b)
    (hr : Run S hist s) (hl : hist.map Prod.snd = before ++ a :: b :: after) :
    ∃ hist' s', Run S hist' s' ∧ hist'.map Prod.snd = before ++ b :: a :: after ∧ R s s' := by
  induction after using List.reverseRecOn generalizing hist s with
  | nil =>
    rw [← List.singleton_append, ← List.append_assoc] at hl
    obtain ⟨h₁, t, hr₁, hl₁, ht⟩ := hr.of_labels hl
    obtain ⟨h₀, s₀, hr₀, hl₀, hs₀⟩ := hr₁.of_labels hl₁
    obtain ⟨t', u', ht', hu', hR⟩ := h.swap s₀ a t b s hr₀.reachable hI hs₀ ht
    exact ⟨_, u', (hr₀.step ht').step hu', by simp [hl₀], hR⟩
  | append_singleton after c ih =>
    rw [show before ++ a :: b :: (after ++ [c]) = before ++ a :: b :: after ++ [c] by simp] at hl
    obtain ⟨h₁, t, hr₁, hl₁, hc⟩ := hr.of_labels hl
    obtain ⟨hist', t', hr', hl', hR⟩ := ih hr₁ hl₁
    obtain ⟨s', hs', hR'⟩ := h.follow t c s t' hr₁.reachable hR hc
    exact ⟨_, s', hr'.step hs', by simp [hl'], hR'⟩

/-- What can be done in one order can be done in every equivalent one, to the same end. -/
theorem Commuting.run (h : Commuting S I R) (hr : Run S hist s) {labels : List α}
    (hl : TraceEquiv I (hist.map Prod.snd) labels) :
    ∃ hist' s', Run S hist' s' ∧ hist'.map Prod.snd = labels ∧ R s s' := by
  induction hl with
  | refl => exact ⟨hist, s, hr, rfl, h.refl s⟩
  | tail _ hs ih =>
    obtain ⟨hist₁, t, hr₁, hl₁, hR₁⟩ := ih
    obtain ⟨before, after, hI⟩ := hs
    obtain ⟨hist', s', hr', hl', hR'⟩ := h.run_swap hI hr₁ hl₁
    exact ⟨hist', s', hr', hl', h.trans s t s' hR₁ hR'⟩

end Commuting

end LabelledSystem
