import Mathlib.Logic.Basic

/-- A computation that makes calls and may fail, with the record of the calls it made. -/
abbrev Asking (γ ε α : Type) := ExceptT ε (StateM (List γ)) α

namespace Asking

variable {γ ε α β : Type}

/-- Make a call. A refusal ends the computation, and the call stays on record. -/
def ask (call : γ) (answer : Except ε α) : Asking γ ε α := do
  modify (· ++ [call])
  ExceptT.mk (pure answer)

def result (p : Asking γ ε α) : Except ε α := (StateT.run p.run []).1

def calls (p : Asking γ ε α) : List γ := (StateT.run p.run []).2

def Yields (p : Asking γ ε α) (log : List γ) (a : α) (log' : List γ) : Prop :=
  StateT.run p.run log = (.ok a, log')

def Fails (p : Asking γ ε α) (log log' : List γ) : Prop :=
  ∃ e, StateT.run p.run log = (.error e, log')

variable {p : Asking γ ε α} {f : α → Asking γ ε β} {log log' : List γ} {a a' : α} {b : β}

theorem yields_of_result (h : p.result = .ok a) : p.Yields [] a p.calls := Prod.ext h rfl

theorem yields_or_fails (p : Asking γ ε α) :
    (∃ a, p.Yields [] a p.calls) ∨ p.Fails [] p.calls := by
  cases h : p.result with
  | ok a => exact .inl ⟨a, Prod.ext h rfl⟩
  | error e => exact .inr ⟨e, Prod.ext h rfl⟩

theorem yields_pure : (pure a' : Asking γ ε α).Yields log a log' ↔ a = a' ∧ log' = log := by
  change (Except.ok a', log) = (Except.ok a, log') ↔ _
  grind

theorem yields_ask {call : γ} {answer : Except ε α} :
    (ask call answer).Yields log a log' ↔ answer = .ok a ∧ log' = log ++ [call] := by
  change (answer, log ++ [call]) = (Except.ok a, log') ↔ _
  grind

theorem fails_ask {call : γ} {answer : Except ε α} (h : (ask call answer).Fails log log') :
    (∃ e, answer = .error e) ∧ log' = log ++ [call] := by
  obtain ⟨e, h⟩ := h
  change (answer, log ++ [call]) = (Except.error e, log') at h
  grind

theorem run_bind : StateT.run (p >>= f).run log = match StateT.run p.run log with
    | (.ok a, mid) => StateT.run (f a).run mid
    | (.error e, mid) => (.error e, mid) := by
  change StateT.run (ExceptT.run p >>= ExceptT.bindCont f) log = _
  rw [StateT.run_bind]
  change StateT.run (ExceptT.bindCont f (StateT.run p.run log).1) (StateT.run p.run log).2 = _
  rcases StateT.run p.run log with ⟨_ | _, _⟩ <;> rfl

theorem yields_bind :
    (p >>= f).Yields log b log' ↔ ∃ a mid, p.Yields log a mid ∧ (f a).Yields mid b log' := by
  unfold Yields
  rw [run_bind]
  rcases StateT.run p.run log with ⟨_ | a, mid⟩ <;> grind

theorem fails_bind (h : (p >>= f).Fails log log') :
    p.Fails log log' ∨ ∃ a mid, p.Yields log a mid ∧ (f a).Fails mid log' := by
  obtain ⟨e, h⟩ := h
  rw [run_bind] at h
  cases hp : StateT.run p.run log with
  | mk result mid =>
    rw [hp] at h
    cases result with
    | ok a => exact .inr ⟨a, mid, hp, e, h⟩
    | error e' =>
      cases h
      exact .inl ⟨e, hp⟩

end Asking
