import WireDock.Registry.Closing
import WireDock.System.Mailbox

namespace WireDock

open LabelledSystem

/-- What the peer sent, or an error; not the end of the connection. -/
def NetEvent.isTraffic : NetEvent → Bool
  | received _ _ | error _ _ => true
  | _ => false

/-- No entry is closed before all that its tasks have sent is handled. -/
def DrainsFirst (m : Machine) (a : Action) : Prop :=
  ∀ p ∈ m.pending a, ∀ id ∈ m.world.reg.closes p.2.input, ∀ msg ∈ m.queue.tail,
    ∀ task ∈ msg.sender, ∀ ev ∈ msg.eventOf task, ev.isTraffic = true → ¬m.world.reg.Owns id task

instance (m : Machine) (a : Action) : Decidable (DrainsFirst m a) :=
  inferInstanceAs (Decidable (∀ p ∈ m.pending a, ∀ id ∈ m.world.reg.closes p.2.input,
    ∀ msg ∈ m.queue.tail, ∀ task ∈ msg.sender, ∀ ev ∈ msg.eventOf task, _ → _))

/-- Nothing is shown for what is left of a connection that was removed, until
its id is registered again. -/
def SilentOnceRemoved (m : Machine) : Prop :=
  ∀ (answers : Answers) msg rest task ev, m.world.phase = .running → m.queue = msg :: rest →
    msg.eventOf task = some ev → ev.isTraffic = true → .abort task ∈ m.world.log →
    ev.id ∉ m.world.reg.registered → m.world.lines (answers.environment m.fs, msg.input) = []

def Drained (m : Machine) : Prop :=
  m.world.phase = .running → ∀ msg ∈ m.queue, ∀ task ev, msg.eventOf task = some ev →
    ev.isTraffic = true → .abort task ∉ m.world.log

section Runs

variable {capacity : ℕ} {m : Machine}

theorem drained_of_reachable (hm : ReachableBy (machineSystem capacity) DrainsFirst m) :
    Drained m := by
  refine machine_invariant ?_ ?_ hm
  · rintro m ⟨-, hq, -⟩ - msg hmem
    rw [hq] at hmem
    cases hmem
  intro m a m' hr h hok hstep hrunning' msg hmem task ev hev htraffic habort
  rcases queue_step hstep with ⟨hworld, new, hq, -, hnew⟩ | ⟨answers, head, rfl, hq, hrunning, hworld⟩
  · rw [hworld] at hrunning' habort
    rw [hq, List.mem_append] at hmem
    refine hmem.elim (fun hmem ↦ h hrunning' msg hmem task ev hev htraffic habort) fun hmem ↦ ?_
    have hsender := (eventOf_eq_some.mp hev).2
    cases hnew msg hmem with
    | command | shutdown => cases hsender
    | task hlive =>
      cases hsender
      exact hlive habort
  · rw [hworld] at hrunning' habort
    have hw := wellFormed_of_reachable (world_reachable_any hr)
    rcases abort_of_handle (a := (answers.environment m.fs, head.input)) hw hrunning' habort with
      ha | ⟨id, hcloses, howns, -⟩
    · exact h hrunning msg (hq ▸ List.mem_cons_of_mem _ hmem) task ev hev htraffic ha
    · refine hok _ (Machine.pending_handle hq) id hcloses msg ?_ task
        (eventOf_eq_some.mp hev).2 ev hev htraffic howns
      rw [hq]
      exact hmem

end Runs

end WireDock
