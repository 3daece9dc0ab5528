import WireDock.System.SocketFiles

namespace WireDock

open FiniteMap LabelledSystem

def Machine.Finished (m : Machine) (task : JoinHandle) : Prop :=
  m.readers task = .ended ∨ .abort task ∈ m.world.log

structure TasksOwned (m : Machine) : Prop where
  reads : ∀ task id stream, .spawnRead task id stream ∈ m.world.log →
    m.Finished task ∨ ∃ k s, m.world.reg.streams.lookup k = some s ∧ s.readTask = task
  accepts : ∀ task sid listener, .spawnAccept task sid listener ∈ m.world.log →
    .abort task ∈ m.world.log ∨
      ∃ srv, m.world.reg.servers.lookup sid = some srv ∧ srv.acceptTask = task

/-- What is left once the registry was shut down: nothing. -/
structure TornDown (m : Machine) : Prop where
  tasks : ∀ e ∈ m.world.log, ∀ task, e.spawned = some task → m.Finished task
  servers : m.world.reg.servers = ∅
  streams : m.world.reg.streams = ∅
  labels : m.world.reg.labels = ∅
  files : ∀ entry ∈ m.fs.created, m.fs.nodes entry = none

/-- No step enters a connection under the id of a registered one, and no unlink
redirects the path of a registered server. -/
def KeepsLedger (m : Machine) (a : Action) : Prop :=
  (∀ p ∈ m.pending a, DisplacesNone m.world (p.1.environment m.fs, p.2.input)) ∧ KeepsPaths m a

instance (m : Machine) (a : Action) : Decidable (KeepsLedger m a) :=
  inferInstanceAs (Decidable ((∀ p ∈ m.pending a, DisplacesNone _ _) ∧ KeepsPaths m a))

section

variable {capacity : ℕ} {m : Machine}

theorem tasksOwned_of_reachable (hm : ReachableBy (machineSystem capacity) KeepsLedger m) :
    TasksOwned m where
  reads task id stream hs := by
    have hw : ReachableBy registrySystem DisplacesNone m.world :=
      world_reachable (fun _ _ hok p hp ↦ hok.1 p hp) hm
    rcases readsAccounted_of_reachable hw task id stream hs with ha | ⟨k, hk⟩
    · exact .inl (.inr ha)
    · obtain ⟨s, hl, ht⟩ := Option.map_eq_some_iff.mp hk
      exact .inr ⟨k, s, hl, ht⟩
  accepts task sid listener hs := by
    refine ((serversOwned_of_reachable (world_reachable_any hm)).accounted task sid listener
      hs).imp_right fun ⟨path, ho⟩ ↦ ?_
    obtain ⟨srv, hl, he⟩ := Option.map_eq_some_iff.mp ho
    exact ⟨srv, hl, (Prod.mk.inj he).1⟩

theorem tornDown_of_reachable (hm : ReachableBy (machineSystem capacity) KeepsLedger m)
    (hstopped : m.world.phase = .stopped) : TornDown m := by
  have hw : ReachableBy registrySystem DisplacesNone m.world :=
    world_reachable (fun _ _ hok p hp ↦ hok.1 p hp) hm
  obtain ⟨hservers, hstreams⟩ := stopped_empty hw hstopped
  have htasks := tasksOwned_of_reachable hm
  refine ⟨fun e he task hs ↦ ?_, hservers, hstreams,
    (labelsHeld_of_reachable hw).empty hservers hstreams, fun entry hmem ↦ ?_⟩
  · cases e with
    | spawnAccept t sid listener =>
      cases hs
      refine .inr ((htasks.accepts task sid listener he).resolve_right ?_)
      rintro ⟨srv, hl, -⟩
      rw [hservers, Finmap.lookup_empty] at hl
      cases hl
    | spawnRead t id stream =>
      cases hs
      refine (htasks.reads task id stream he).resolve_right ?_
      rintro ⟨k, s, hl, -⟩
      rw [hstreams, Finmap.lookup_empty] at hl
      cases hl
    | _ => cases hs
  · refine ((filesAccounted_of_reachable (hm.mono fun _ _ hok ↦ hok.2)).created entry
      hmem).resolve_right ?_
    rintro ⟨-, sid, t, p, ho, -⟩
    rw [Registry.owned, hservers, Finmap.lookup_empty] at ho
    cases ho

/-- In every run in which no connection displaces another and no unlink redirects the
path of a registered server, no task is left without an owner, and a shutdown leaves no
task, no entry and no socket file. -/
theorem ledger_of_reachable (hm : ReachableBy (machineSystem capacity) KeepsLedger m) :
    TasksOwned m ∧ (m.world.phase = .stopped → TornDown m) :=
  ⟨tasksOwned_of_reachable hm, tornDown_of_reachable hm⟩

end

theorem ledger_after_shutdown :
    ∃ m, run (Machine.next 1024) (fun m a ↦ decide (KeepsLedger m a)) (.idle .empty)
        [.command (.openTcpServer 3000), .handle (.granting 0 []), .accept 0 (tcpPeer 10015 7),
          .handOver 0, .handle (.granting 1 []), .accept 0 (tcpPeer 10015 8), .handOver 0,
          .handle (.granting 2 []), .command (.openIpcServer "/tmp/a.sock"),
          .handle (.granting 3 []),
          .interrupt, .handle (.granting 4 [])] = some m ∧
      m.world.phase = .stopped ∧ TasksOwned m ∧ (m.world.phase = .stopped → TornDown m) := by
  have hrun : ∃ m ∈ run (Machine.next 1024) (fun m a ↦ decide (KeepsLedger m a)) (.idle .empty)
      [.command (.openTcpServer 3000), .handle (.granting 0 []), .accept 0 (tcpPeer 10015 7),
        .handOver 0, .handle (.granting 1 []), .accept 0 (tcpPeer 10015 8), .handOver 0,
        .handle (.granting 2 []), .command (.openIpcServer "/tmp/a.sock"), .handle (.granting 3 []),
        .interrupt, .handle (.granting 4 [])], m.world.phase = .stopped := by decide +kernel
  obtain ⟨m, hm, hp⟩ := hrun
  exact ⟨m, hm, hp, ledger_of_reachable
    (reachableBy_of_run (fun _ _ hg ↦ of_decide_eq_true hg) hm)⟩

/-- The third connection of a base takes the id of the second, whose read task
runs on after the shutdown. -/
theorem read_task_leaked_by_third_accept :
    ∃ m, run (Machine.next 1024) (fun _ _ ↦ true) (.idle .empty)
        [.command (.openTcpServer 3000), .handle (.granting 0 []), .accept 0 (tcpPeer 10015 7),
          .handOver 0, .handle (.granting 1 []), .accept 0 (tcpPeer 10015 8), .handOver 0,
          .handle (.granting 2 []), .accept 0 (tcpPeer 10015 9), .handOver 0,
          .handle (.granting 3 []), .interrupt, .handle (.granting 4 [.tcpServer 3000,
          .acceptedTcp 3000 10015 (some 1),
          .acceptedTcp 3000 10015 (some 2)])] = some m ∧
      m.world.phase = .stopped ∧ ¬TasksOwned m ∧ ¬TornDown m := by
  have hrun : ∃ m ∈ run (Machine.next 1024) (fun _ _ ↦ true) (.idle .empty)
      [.command (.openTcpServer 3000), .handle (.granting 0 []), .accept 0 (tcpPeer 10015 7),
        .handOver 0, .handle (.granting 1 []), .accept 0 (tcpPeer 10015 8), .handOver 0,
        .handle (.granting 2 []), .accept 0 (tcpPeer 10015 9), .handOver 0,
        .handle (.granting 3 []), .interrupt, .handle (.granting 4 [.tcpServer 3000,
        .acceptedTcp 3000 10015 (some 1),
          .acceptedTcp 3000 10015 (some 2)])],
      m.world.phase = .stopped ∧
        .spawnRead 2 (.acceptedTcp 3000 10015 (some 2)) 8 ∈ m.world.log ∧
        m.readers 2 ≠ .ended ∧ .abort 2 ∉ m.world.log ∧
        m.world.reg.streams.keys = ∅ := by decide +kernel
  obtain ⟨m, hm, hp, hs, hr, ha, hk⟩ := hrun
  have hfinished : ¬m.Finished 2 := not_or.mpr ⟨hr, ha⟩
  refine ⟨m, hm, hp, fun h ↦ ?_, fun h ↦ hfinished (h.tasks _ hs 2 rfl)⟩
  obtain ⟨k, s, hl, -⟩ := (h.reads 2 _ _ hs).resolve_left hfinished
  have hmem := Finmap.mem_keys.mpr (mem_of_lookup hl)
  rw [hk] at hmem
  exact Finset.notMem_empty k hmem

/-- With the link `/tmp/d` unlinked, the socket file behind it outlives the shutdown. -/
example : ∃ m ∈ run (Machine.next 1024) (fun _ _ ↦ true) (.idle linkedFiles)
    [.command (.openIpcServer "/tmp/d/a.sock"), .handle (.granting 0 []),
      .command (.openIpcServer "/tmp/d"), .handle (.granting 1 []), .interrupt,
      .handle (.granting 2 [.ipcServer "/tmp/d/a.sock", .ipcServer "/tmp/d"])],
    m.world.phase = .stopped ∧ m.fs.nodes "/tmp/d" = none ∧
      m.fs.nodes "/tmp/real/a.sock" = some (.socket 0) := by decide +kernel

end WireDock
