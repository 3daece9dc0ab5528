import WireDock.Registry.Teardown
import WireDock.System.Machine

namespace WireDock

open FiniteMap LabelledSystem

/-- What a queued message says about the task that sent it: a connection comes
from an accept task of its server, a `Closed` from the read task it names. -/
structure Message.Backed (log : List Effect) (msg : Message) : Prop where
  accepted : ∀ parent child peerInfo stream, msg.input = .accepted parent child peerInfo stream →
    ∃ task listener, msg.sender = some task ∧ .spawnAccept task parent listener ∈ log
  closed : ∀ id task, msg.input = .event (.closed id) → msg.sender = some task →
    ∃ stream, .spawnRead task id stream ∈ log

structure Machine.Backed (m : Machine) : Prop where
  queued : ∀ msg ∈ m.queue, msg.Backed m.world.log
  sending : ∀ task events, m.readers task = .sending events → ∀ id, .closed id ∈ events →
    ∃ stream, .spawnRead task id stream ∈ m.world.log

theorem Message.Backed.mono {log log' : List Effect} {msg : Message} (h : msg.Backed log)
    (hsub : ∀ e ∈ log, e ∈ log') : msg.Backed log' where
  accepted parent child peerInfo stream hi := by
    obtain ⟨task, listener, hs, hl⟩ := h.accepted parent child peerInfo stream hi
    exact ⟨task, listener, hs, hsub _ hl⟩
  closed id task hi hs := by
    obtain ⟨stream, hl⟩ := h.closed id task hi hs
    exact ⟨stream, hsub _ hl⟩

theorem mem_log_handle {w : World} {env : Environment} {input : RegistryInput} {e : Effect}
    (h : e ∈ w.log) : e ∈ (w.handle env input).log := by
  obtain ⟨effects, he⟩ := exists_log_handle w env input
  rw [he]
  exact List.mem_append_left _ h

/-- An accept task hands over connections of its own server, or reports an error. -/
theorem acceptMessage_eq_some {server : ConnectionId}
    {answer : Except DomainError AcceptedStream} {input : RegistryInput}
    (h : acceptMessage server answer = some input) :
    (∃ child peerInfo stream, input = .accepted server child peerInfo stream) ∨
      ∃ message, input = .event (.error server message) := by
  unfold acceptMessage at h
  split at h
  · split at h
    · obtain ⟨_, -, rfl⟩ := Option.map_eq_some_iff.mp h
      exact .inl ⟨_, _, _, rfl⟩
    · cases h
      exact .inl ⟨_, _, _, rfl⟩
    · cases h
  · cases h
    exact .inr ⟨_, rfl⟩

theorem closed_mem_readEvents {id k : ConnectionId} {answer : Except String (List UInt8)}
    (h : .closed k ∈ readEvents id answer) : k = id := by
  unfold readEvents at h
  split at h <;> simp_all

namespace Machine.Backed

variable {m : Machine}

theorem enqueue (h : m.Backed) {msg : Message} (hm : msg.Backed m.world.log) :
    (m.enqueue msg).Backed where
  queued msg' hmem := by
    rcases List.mem_append.mp hmem with hmem | hmem
    · exact h.queued msg' hmem
    · rwa [List.mem_singleton.mp hmem]
  sending := h.sending

theorem setAcceptor (h : m.Backed) (task : JoinHandle)
    (met : Option (Except DomainError AcceptedStream)) : (m.setAcceptor task met).Backed :=
  ⟨h.queued, h.sending⟩

theorem setReader (h : m.Backed) {task : JoinHandle} {reader : Reader}
    (hr : ∀ events, reader = .sending events → ∀ id, .closed id ∈ events →
      ∃ stream, .spawnRead task id stream ∈ m.world.log) : (m.setReader task reader).Backed where
  queued := h.queued
  sending t events hs id hc := by
    simp only [Machine.setReader, Function.update_apply] at hs
    split_ifs at hs with ht
    · exact ht ▸ hr events hs id hc
    · exact h.sending t events hs id hc

end Machine.Backed

theorem sent_eq_sending {ev : NetEvent} {events rest : List NetEvent}
    (h : Reader.sent ev events = .sending rest) : rest = events := by
  unfold Reader.sent at h
  split at h <;> cases h
  rfl

theorem backed_of_reachable {capacity : ℕ} {ok : Machine → Action → Prop} {m : Machine}
    (hm : ReachableBy (machineSystem capacity) ok m) : m.Backed := by
  refine machine_invariant ?_ ?_ hm
  · rintro m ⟨-, hq, hr, -⟩
    refine ⟨?_, ?_⟩
    · rw [hq]
      exact fun _ hmem ↦ (by cases hmem)
    · intro task events hs
      rw [hr] at hs
      cases hs
  intro m a m' _ h _ hstep
  cases hstep with
  | command cmd =>
    exact h.enqueue ⟨fun _ _ _ _ he ↦ (by cases he), fun _ _ he ↦ (by cases he)⟩
  | interrupt =>
    exact h.enqueue ⟨fun _ _ _ _ he ↦ (by cases he), fun _ _ he ↦ (by cases he)⟩
  | accept => exact h.setAcceptor _ _
  | handOver hspawn _ _ hinput =>
    refine (h.setAcceptor _ _).enqueue ?_
    rcases acceptMessage_eq_some hinput with ⟨child, peerInfo, stream, rfl⟩ | ⟨message, rfl⟩
    · refine ⟨fun parent _ _ _ he ↦ ?_, fun _ _ he ↦ (by cases he)⟩
      cases he
      exact ⟨_, _, rfl, hspawn⟩
    · exact ⟨fun _ _ _ _ he ↦ (by cases he), fun _ _ he ↦ (by cases he)⟩
  | read hspawn =>
    refine h.setReader fun events he k hk ↦ ?_
    cases he
    exact ⟨_, closed_mem_readEvents hk ▸ hspawn⟩
  | @forward task ev events _ hsending =>
    have hev := h.sending task _ hsending
    have hrest : (m.setReader task (.sent ev events)).Backed := h.setReader fun rest he k hk ↦
      hev k (List.mem_cons_of_mem _ (sent_eq_sending he ▸ hk))
    refine hrest.enqueue ⟨fun _ _ _ _ he ↦ (by cases he), fun id t he ht ↦ ?_⟩
    cases he
    cases ht
    exact hev id List.mem_cons_self
  | handle hqueue =>
    refine ⟨fun msg' hmem ↦ ?_, fun task events hs id hc ↦ ?_⟩
    · have hmem' : msg' ∈ m.queue := by
        rw [hqueue]
        exact List.mem_cons_of_mem _ hmem
      exact (h.queued msg' hmem').mono fun _ ↦ mem_log_handle
    · obtain ⟨stream, hl⟩ := h.sending task events hs id hc
      exact ⟨stream, mem_log_handle hl⟩

def Effect.acceptTask (server : ConnectionId) : Effect → Option JoinHandle
  | spawnAccept task sid _ => if sid = server then some task else none
  | _ => none

def Machine.Accepting (m : Machine) (server : ConnectionId) : Prop :=
  ∃ e ∈ m.world.log, ∃ task ∈ e.acceptTask server, .abort task ∉ m.world.log

instance (m : Machine) (server : ConnectionId) : Decidable (m.Accepting server) :=
  inferInstanceAs (Decidable (∃ e ∈ m.world.log, ∃ task ∈ e.acceptTask server, _))

/-- A connection is taken off the channel while an accept task of its server
runs: the one that sent it, or one started since for the same id. -/
def HandedOverAlive (m : Machine) (a : Action) : Prop :=
  ∀ p ∈ m.pending a, ∀ b ∈ Registry.acceptedBase? p.2.input, m.Accepting b.server

instance (m : Machine) (a : Action) : Decidable (HandedOverAlive m a) :=
  inferInstanceAs (Decidable (∀ p ∈ m.pending a, _))

theorem mem_servers_of_accepting {capacity : ℕ} {ok : Machine → Action → Prop} {m : Machine}
    (hm : ReachableBy (machineSystem capacity) ok m) {server : ConnectionId}
    (h : m.Accepting server) : server ∈ m.world.reg.servers := by
  obtain ⟨e, he, task, htask, hlive⟩ := h
  unfold Effect.acceptTask at htask
  split at htask
  · split_ifs at htask with hs
    · subst hs
      cases htask
      rcases (serversOwned_of_reachable (world_reachable_any hm)).accounted _ _ _ he with
        ha | ⟨path, ho⟩
      · exact (hlive ha).elim
      · obtain ⟨srv, hsrv, -⟩ := Option.map_eq_some_iff.mp ho
        exact mem_of_lookup hsrv
    · cases htask
  · cases htask

/-- In every run in which each connection is handled while an accept task of
its server runs, the registry task does not panic. -/
theorem no_panic_of_reachable {capacity : ℕ} {m : Machine}
    (hm : ReachableBy (machineSystem capacity) HandedOverAlive m) : m.world.phase ≠ .panicked := by
  refine machine_invariant (P := fun m ↦ m.world.phase ≠ .panicked) ?_ ?_ hm
  · intro m hi he
    rw [hi.1] at he
    cases he
  intro m a m' hr h hok hstep
  cases hstep with
  | @handle answers msg rest hqueue =>
    intro hphase
    have hpanic : m.world.reg.handleInput (answers.environment m.fs) msg.input = .panicked := by
      cases hh : m.world.reg.handleInput (answers.environment m.fs) msg.input <;>
        simp [Machine.handle, World.handle, hh] at hphase ⊢
    obtain ⟨parent, child, peerInfo, stream, b, hi, hb, hs⟩ := Registry.handleInput_panicked.mp hpanic
    have hlive := hok _ (Machine.pending_handle hqueue) b (by rw [hi]; exact hb)
    exact hs (mem_servers_of_accepting hr hlive)
  | _ => exact h

theorem no_panic_before_close :
    ∃ m, run (Machine.next 1024) (fun m a ↦ decide (HandedOverAlive m a)) (.idle .empty)
        [.command (.openTcpServer 3000), .handle (.granting 0 []), .accept 0 (tcpPeer 10015 7),
          .handOver 0, .command (.close "3000"), .handle (.granting 1 []),
          .handle (.granting 2 [.acceptedTcp 3000 10015 none])] = some m ∧
      m.queue = [] ∧ m.world.phase ≠ .panicked := by
  have hrun : ∃ m ∈ run (Machine.next 1024) (fun m a ↦ decide (HandedOverAlive m a)) (.idle .empty)
      [.command (.openTcpServer 3000), .handle (.granting 0 []), .accept 0 (tcpPeer 10015 7),
        .handOver 0, .command (.close "3000"), .handle (.granting 1 []),
        .handle (.granting 2 [.acceptedTcp 3000 10015 none])], m.queue = [] := by decide +kernel
  obtain ⟨m, hm, hq⟩ := hrun
  exact ⟨m, hm, hq, no_panic_of_reachable
    (reachableBy_of_run (fun _ _ hg ↦ of_decide_eq_true hg) hm)⟩

/-- The connection is handed over after `close` was typed and before it is handled. -/
theorem panic_after_close :
    ∃ m, run (Machine.next 1024) (fun _ _ ↦ true) (.idle .empty)
        [.command (.openTcpServer 3000), .handle (.granting 0 []), .command (.close "3000"),
          .accept 0 (tcpPeer 10015 7), .handOver 0, .handle (.granting 1 []),
          .handle (.granting 2 [])] = some m ∧
      m.world.phase = .panicked := by
  change ∃ m ∈ run (Machine.next 1024) (fun _ _ ↦ true) (.idle .empty)
      [.command (.openTcpServer 3000), .handle (.granting 0 []), .command (.close "3000"),
        .accept 0 (tcpPeer 10015 7), .handOver 0, .handle (.granting 1 []),
        .handle (.granting 2 [])], m.world.phase = .panicked
  decide +kernel

end WireDock
