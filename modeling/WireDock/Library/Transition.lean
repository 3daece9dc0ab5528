import Mathlib.Order.Basic
import Mathlib.Data.List.Induction

namespace LabelledSystem

structure System (σ α : Type*) where
  init : σ → Prop
  step : σ → α → σ → Prop

variable {σ τ α β : Type*}

/-- The states reached by the runs whose steps all meet `ok`, a condition on
the state before the step and on its label. -/
inductive ReachableBy (S : System σ α) (ok : σ → α → Prop) : σ → Prop
  | init {s : σ} : S.init s → ReachableBy S ok s
  | step {s t : σ} {a : α} : ReachableBy S ok s → ok s a → S.step s a t → ReachableBy S ok t

def Reachable (S : System σ α) : σ → Prop := ReachableBy S fun _ _ ↦ True

variable {S : System σ α} {ok ok' : σ → α → Prop}

theorem Reachable.init {s : σ} (h : S.init s) : Reachable S s := ReachableBy.init h

theorem Reachable.step {s t : σ} {a : α} (h : Reachable S s) (hs : S.step s a t) :
    Reachable S t := ReachableBy.step h trivial hs

theorem ReachableBy.mono (h : ∀ s a, ok s a → ok' s a) {s : σ} (hs : ReachableBy S ok s) :
    ReachableBy S ok' s := by
  induction hs with
  | init hi => exact .init hi
  | step _ hok hst ih => exact .step ih (h _ _ hok) hst

theorem ReachableBy.reachable {s : σ} (hs : ReachableBy S ok s) : Reachable S s :=
  hs.mono fun _ _ _ ↦ trivial

/-- The invariant rule. A step may use that its source is reached by a run
meeting `ok`, so facts already known of such states are at hand. -/
theorem ReachableBy.invariant {P : σ → Prop} (hinit : ∀ s, S.init s → P s)
    (hstep : ∀ s a t, ReachableBy S ok s → P s → ok s a → S.step s a t → P t)
    {s : σ} (hs : ReachableBy S ok s) : P s := by
  induction hs with
  | init hi => exact hinit _ hi
  | step hr hok hst ih => exact hstep _ _ _ hr ih hok hst

theorem Reachable.invariant {P : σ → Prop} (hinit : ∀ s, S.init s → P s)
    (hstep : ∀ s a t, Reachable S s → P s → S.step s a t → P t)
    {s : σ} (hs : Reachable S s) : P s :=
  ReachableBy.invariant hinit (fun s a t hr hp _ hst ↦ hstep s a t hr hp hst) hs

theorem Reachable.reachableBy (h : ∀ s a t, Reachable S s → S.step s a t → ok s a) {s : σ}
    (hs : Reachable S s) : ReachableBy S ok s := by
  induction hs with
  | init hi => exact .init hi
  | step hr _ hst ih => exact .step ih (h _ _ _ hr hst) hst

/-- A run from a start state, with the state and the label of each step it took. -/
inductive Run (S : System σ α) : List (σ × α) → σ → Prop
  | init {s : σ} : S.init s → Run S [] s
  | step {h : List (σ × α)} {s t : σ} {a : α} :
      Run S h s → S.step s a t → Run S (h ++ [(s, a)]) t

namespace Run

variable {h h' : List (σ × α)} {s t : σ} {a : α}

theorem reachable (hr : Run S h s) : Reachable S s := by
  induction hr with
  | init hi => exact .init hi
  | step _ hs ih => exact ih.step hs

theorem of_append_singleton (hr : Run S (h ++ [(s, a)]) t) : Run S h s ∧ S.step s a t := by
  generalize he : h ++ [(s, a)] = k at hr
  cases hr with
  | init => simp at he
  | step hr hs =>
    obtain ⟨rfl, hp⟩ := List.append_inj' he rfl
    obtain ⟨rfl, rfl⟩ := Prod.mk.inj (List.singleton_inj.mp hp)
    exact ⟨hr, hs⟩

theorem of_append_cons (hr : Run S (h ++ (s, a) :: h') t) : Run S h s ∧ ∃ s', S.step s a s' := by
  induction h' using List.reverseRecOn generalizing t with
  | nil =>
    obtain ⟨hr, hs⟩ := hr.of_append_singleton
    exact ⟨hr, t, hs⟩
  | append_singleton l p ih =>
    rw [← List.cons_append, ← List.append_assoc] at hr
    exact ih hr.of_append_singleton.1

/-- Between a step that ends without `p` and a state with it, some step brings `p` about. -/
theorem exists_turn {p : σ → Prop} (hr : Run S (h ++ (s, a) :: h') t)
    (hs : ∀ s', S.step s a s' → ¬p s') (ht : p t) :
    ∃ before u b after u', h' = before ++ (u, b) :: after ∧ S.step u b u' ∧ ¬p u ∧ p u' := by
  induction h' using List.reverseRecOn generalizing t with
  | nil => exact (hs t hr.of_append_singleton.2 ht).elim
  | append_singleton l q ih =>
    obtain ⟨u, b⟩ := q
    rw [← List.cons_append, ← List.append_assoc] at hr
    obtain ⟨hr, hstep⟩ := hr.of_append_singleton
    by_cases hu : p u
    · obtain ⟨before, v, c, after, v', rfl, hv⟩ := ih hr hu
      exact ⟨before, v, c, after ++ [(u, b)], v', by simp, hv⟩
    · exact ⟨l, u, b, [], t, rfl, hstep, hu, ht⟩

/-- What a step brings about and every step preserves holds at each later step of the run. -/
theorem forall_after {p : σ → Prop} (hr : Run S (h ++ (s, a) :: h') t)
    (hs : ∀ s', S.step s a s' → p s') (hp : ∀ u b u', p u → S.step u b u' → p u') :
    p t ∧ ∀ q ∈ h', p q.1 ∧ ∃ u', S.step q.1 q.2 u' := by
  induction h' using List.reverseRecOn generalizing t with
  | nil => exact ⟨hs t hr.of_append_singleton.2, fun q hq ↦ (by cases hq)⟩
  | append_singleton l q ih =>
    obtain ⟨u, b⟩ := q
    rw [← List.cons_append, ← List.append_assoc] at hr
    obtain ⟨hr, hstep⟩ := hr.of_append_singleton
    obtain ⟨hu, hl⟩ := ih hr
    refine ⟨hp u b t hu hstep, fun q hq ↦ ?_⟩
    rcases List.mem_append.mp hq with hq | hq
    · exact hl q hq
    · rw [List.mem_singleton.mp hq]
      exact ⟨hu, t, hstep⟩

end Run

/-- `T` simulates `S` through `f`: a step of `S` is a step of `T` or leaves
the image of the state as it was. -/
structure Projection (S : System σ α) (T : System τ β) (f : σ → τ) : Prop where
  init : ∀ s, S.init s → T.init (f s)
  step : ∀ s a t, S.step s a t → (∃ b, T.step (f s) b (f t)) ∨ f t = f s

theorem Projection.reachable {T : System τ β} {f : σ → τ} (h : Projection S T f) {s : σ}
    (hs : Reachable S s) : Reachable T (f s) := by
  refine Reachable.invariant (P := fun s ↦ Reachable T (f s))
    (fun s hi ↦ .init (h.init s hi)) ?_ hs
  intro s a t _ hp hst
  rcases h.step s a t hst with ⟨b, hb⟩ | he
  · exact hp.step hb
  · rwa [he]

theorem Projection.reachableBy {T : System τ β} {f : σ → τ} {okT : τ → β → Prop}
    (hinit : ∀ s, S.init s → T.init (f s))
    (hstep : ∀ s a t, ok s a → S.step s a t →
      (∃ b, okT (f s) b ∧ T.step (f s) b (f t)) ∨ f t = f s)
    {s : σ} (hs : ReachableBy S ok s) : ReachableBy T okT (f s) := by
  induction hs with
  | init hi => exact .init (hinit _ hi)
  | step _ hok hst ih =>
    rcases hstep _ _ _ hok hst with ⟨b, hb, hT⟩ | he
    · exact .step ih hb hT
    · rwa [he]

def System.ofNext (init : σ → Prop) (next : σ → α → Option σ) : System σ α where
  init := init
  step s a t := next s a = some t

/-- Take the given steps, as long as each is possible and `guard` lets it pass. -/
def run (next : σ → α → Option σ) (guard : σ → α → Bool) (s : σ) : List α → Option σ
  | [] => some s
  | a :: as => if guard s a then (next s a).bind fun t ↦ run next guard t as else none

theorem reachableBy_run {init : σ → Prop} {next : σ → α → Option σ} {guard : σ → α → Bool}
    (hg : ∀ s a, guard s a = true → ok s a) {as : List α} {s t : σ}
    (hs : ReachableBy (.ofNext init next) ok s) (hr : run next guard s as = some t) :
    ReachableBy (.ofNext init next) ok t := by
  induction as generalizing s with
  | nil =>
    cases hr
    exact hs
  | cons a as ih =>
    unfold run at hr
    split_ifs at hr with ha
    obtain ⟨s', hs', hr⟩ := Option.bind_eq_some_iff.mp hr
    exact ih (.step hs (hg s a ha) hs') hr

def trail (next : σ → α → Option σ) (s : σ) : List α → List (σ × α)
  | [] => []
  | a :: as => (s, a) :: ((next s a).map fun t ↦ trail next t as).getD []

theorem Run.append_trail {init : σ → Prop} {next : σ → α → Option σ} {guard : σ → α → Bool}
    {as : List α} {hist : List (σ × α)} {s t : σ} (hs : Run (.ofNext init next) hist s)
    (hr : run next guard s as = some t) : Run (.ofNext init next) (hist ++ trail next s as) t := by
  induction as generalizing s hist with
  | nil =>
    cases hr
    rwa [trail, List.append_nil]
  | cons a as ih =>
    unfold run at hr
    split_ifs at hr with ha
    obtain ⟨s', hs', hr⟩ := Option.bind_eq_some_iff.mp hr
    rw [trail, hs', Option.map_some, Option.getD_some]
    have hrest := ih (hs.step hs') hr
    rwa [List.append_assoc, List.singleton_append] at hrest

theorem map_snd_trail {next : σ → α → Option σ} {guard : σ → α → Bool} {as : List α} {s t : σ}
    (hr : run next guard s as = some t) : (trail next s as).map Prod.snd = as := by
  induction as generalizing s with
  | nil => rfl
  | cons a as ih =>
    unfold run at hr
    split_ifs at hr with ha
    obtain ⟨s', hs', hr⟩ := Option.bind_eq_some_iff.mp hr
    rw [trail, hs', Option.map_some, Option.getD_some, List.map_cons, ih hr]

theorem Run.of_run {init : σ → Prop} {next : σ → α → Option σ} {guard : σ → α → Bool}
    {as : List α} {hist : List (σ × α)} {s t : σ} (hs : Run (.ofNext init next) hist s)
    (hr : run next guard s as = some t) :
    ∃ hist', Run (.ofNext init next) hist' t ∧ hist'.map Prod.snd = hist.map Prod.snd ++ as :=
  ⟨_, hs.append_trail hr, by rw [List.map_append, map_snd_trail hr]⟩

end LabelledSystem
