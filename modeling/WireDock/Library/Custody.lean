import Mathlib.Data.List.Infix
import Mathlib.Data.List.Nodup

namespace Custody

inductive Mark
  | acquired
  | released
deriving DecidableEq, Repr

variable {τ κ : Type*} [DecidableEq τ]

def history (t : τ) (events : List (τ × Mark)) : List Mark :=
  (events.filter fun e ↦ e.1 = t).map Prod.snd

@[simp] theorem history_nil (t : τ) : history t [] = [] := rfl

@[simp] theorem history_append (t : τ) (events events' : List (τ × Mark)) :
    history t (events ++ events') = history t events ++ history t events' := by
  rw [history, List.filter_append, List.map_append]
  rfl

theorem history_cons (t : τ) (e : τ × Mark) (events : List (τ × Mark)) :
    history t (e :: events) = if e.1 = t then e.2 :: history t events else history t events := by
  simp only [history, List.filter_cons, decide_eq_true_eq]
  split_ifs <;> rfl

theorem mem_history {t : τ} {m : Mark} {events : List (τ × Mark)} :
    m ∈ history t events ↔ (t, m) ∈ events := by
  induction events with
  | nil => simp
  | cons e events ih =>
    obtain ⟨t', m'⟩ := e
    rw [history_cons, List.mem_cons, ← ih, Prod.mk.injEq]
    split_ifs with h
    · simp [h.symm]
    · simp [Ne.symm h]

theorem history_released (t : τ) {freed : List τ} (hnd : freed.Nodup) :
    history t (freed.map fun t ↦ (t, .released)) = if t ∈ freed then [.released] else [] := by
  induction freed with
  | nil => rfl
  | cons t' freed ih =>
    obtain ⟨hnot, hnd⟩ := List.nodup_cons.mp hnd
    rw [List.map_cons, history_cons, ih hnd]
    by_cases h : t' = t
    · subst h
      simp [hnot]
    · simp [h, Ne.symm h]

/-- The discipline of handles: each is acquired at most once, released at most
once and only after that, and what an owner has is acquired, not released and
nobody else's. -/
structure Kept (owner : κ → Option τ) (events : List (τ × Mark)) : Prop where
  once : ∀ t, history t events <+: [.acquired, .released]
  held : ∀ k t, owner k = some t → history t events = [.acquired]
  distinct : ∀ k k' t, owner k = some t → owner k' = some t → k = k'

namespace Kept

variable {owner owner' : κ → Option τ} {events : List (τ × Mark)}

theorem nil (h : ∀ k, owner k = none) : Kept owner [] where
  once _ := List.nil_prefix
  held k t hk := by rw [h k] at hk; cases hk
  distinct k _ t hk := by rw [h k] at hk; cases hk

/-- Owners come and go or change places, and no handle is touched. -/
theorem keep (h : Kept owner events) {f : κ → κ} (hf : Function.Injective f)
    (ho : ∀ k t, owner' k = some t → owner (f k) = some t) : Kept owner' events where
  once := h.once
  held k t hk := h.held (f k) t (ho k t hk)
  distinct k k' t hk hk' := hf (h.distinct _ _ t (ho k t hk) (ho k' t hk'))

theorem history_eq_nil (h : Kept owner events) {t : τ} (hfresh : (t, .acquired) ∉ events) :
    history t events = [] := by
  have hnot : Mark.acquired ∉ history t events := fun hm ↦ hfresh (mem_history.mp hm)
  have honce := h.once t
  cases hh : history t events with
  | nil => rfl
  | cons m rest =>
    rw [hh] at hnot honce
    obtain ⟨rest', he⟩ := honce
    have hm : m = .acquired := (List.cons.inj he).1
    exact (hnot (hm ▸ List.mem_cons_self)).elim

/-- An owner, in the place of another one or not, takes a new handle. -/
theorem acquire (h : Kept owner events) {j : κ} {t₀ : τ} (hfresh : (t₀, .acquired) ∉ events)
    (ho : ∀ k t, owner' k = some t → k = j ∧ t = t₀ ∨ owner k = some t) :
    Kept owner' (events ++ [(t₀, .acquired)]) := by
  have hnil := h.history_eq_nil hfresh
  have hone : ∀ t, history t (events ++ [(t₀, .acquired)]) =
      if t = t₀ then [.acquired] else history t events := by
    intro t
    rw [history_append, history_cons, history_nil]
    by_cases he : t = t₀
    · subst he
      simp [hnil]
    · rw [if_neg (Ne.symm he), if_neg he, List.append_nil]
  have hother : ∀ k t, owner k = some t → t ≠ t₀ := by
    rintro k t hk rfl
    cases hnil.symm.trans (h.held k t hk)
  constructor
  · intro t
    rw [hone]
    split_ifs
    · exact ⟨[.released], rfl⟩
    · exact h.once t
  · intro k t hk
    rw [hone]
    rcases ho k t hk with ⟨-, rfl⟩ | hk
    · exact if_pos rfl
    · rw [if_neg (hother k t hk), h.held k t hk]
  · intro k k' t hk hk'
    rcases ho k t hk with ⟨rfl, rfl⟩ | hk <;> rcases ho k' t hk' with ⟨rfl, he⟩ | hk'
    · rfl
    · exact (hother k' t hk' rfl).elim
    · exact (hother k t hk he).elim
    · exact h.distinct k k' t hk hk'

/-- Owned handles are released, each once, by owners that give them up. -/
theorem release (h : Kept owner events) {freed : List τ} (hnd : freed.Nodup)
    (howned : ∀ t ∈ freed, ∃ k, owner k = some t)
    (ho : ∀ k t, owner' k = some t → owner k = some t ∧ t ∉ freed) :
    Kept owner' (events ++ freed.map fun t ↦ (t, .released)) where
  once t := by
    rw [history_append, history_released t hnd]
    split_ifs with hm
    · obtain ⟨k, hk⟩ := howned t hm
      rw [h.held k t hk]
      exact List.prefix_rfl
    · rw [List.append_nil]
      exact h.once t
  held k t hk := by
    obtain ⟨hk, hm⟩ := ho k t hk
    rw [history_append, history_released t hnd, if_neg hm, List.append_nil, h.held k t hk]
  distinct k k' t hk hk' := h.distinct k k' t (ho k t hk).1 (ho k' t hk').1

end Kept

end Custody
