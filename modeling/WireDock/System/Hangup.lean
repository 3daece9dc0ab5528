import WireDock.System.Handoff
import WireDock.Library.DistinctKeys

namespace WireDock

open FiniteMap LabelledSystem

theorem spawnsUnique_of_reachable {ok : World → Environment × RegistryInput → Prop} {w : World}
    (hw : ReachableBy registrySystem ok w) : DistinctKeys Effect.spawned w.log := by
  refine registry_invariant (P := fun _ log ↦ DistinctKeys Effect.spawned log) .nil ?_
    (fun _ _ _ _ h ↦ h.append_keyless Registry.spawned_dropServer)
    (fun _ _ _ h ↦ h.append_keyless Registry.spawned_dropStream) hw
  intro w env input effects reg' _ h _ hfresh hc
  rcases hc.spawns with hnone | ⟨e₀, hs₀, hone⟩
  · exact h.append_keyless hnone
  · exact h.append_fresh hs₀ hfresh hone

def KeepsSpawnIds (reg : Registry) (log : List Effect) : Prop :=
  ∀ id task, reg.readTask id = some task → ∃ stream, .spawnRead task id stream ∈ log

def RenamesNone (w : World) (a : Environment × RegistryInput) : Prop :=
  ∀ b ∈ Registry.acceptedBase? a.2, b.accepted none ∉ w.reg.streams

section SpawnIds

variable {reg reg' : Registry} {log effects : List Effect}

theorem KeepsSpawnIds.of_readTask (h : KeepsSpawnIds reg log)
    (hr : ∀ k task, reg'.readTask k = some task → reg.readTask k = some task) :
    KeepsSpawnIds reg' (log ++ effects) := by
  intro id task hid
  obtain ⟨stream, hs⟩ := h id task (hr id task hid)
  exact ⟨stream, List.mem_append_left _ hs⟩

theorem KeepsSpawnIds.insertStream (h : KeepsSpawnIds reg log) {s : StreamHandle}
    (hs : .spawnRead s.readTask s.state.id s.stream ∈ effects) :
    KeepsSpawnIds (reg.insertStream s) (log ++ effects) := by
  intro id task hid
  rw [Registry.readTask_insertStream] at hid
  split_ifs at hid with he
  · cases hid
    exact ⟨_, List.mem_append_right _ (he ▸ hs)⟩
  · obtain ⟨stream, hl⟩ := h id task hid
    exact ⟨stream, List.mem_append_left _ hl⟩

theorem Registry.Allocated.streams_eq {b : Base} {id : ConnectionId} {ev : Option NetEvent}
    (ht : Tracked reg) (ha : reg.Allocated b reg' id ev) (h : b.accepted none ∉ reg.streams) :
    reg'.streams = reg.streams := by
  cases ha with
  | first | next => rfl
  | second hsrv hold hstreams =>
    cases ht.lookup_base hsrv hold
    rw [hstreams]
    simp only [Registry.renameAcceptedTcp, not_mem_iff_lookup.mp h]

end SpawnIds

theorem keepsSpawnIds_of_reachable {w : World}
    (hw : ReachableBy registrySystem RenamesNone w) : KeepsSpawnIds w.reg w.log := by
  refine registry_invariant (P := KeepsSpawnIds) (fun _ _ h ↦ by cases h) ?_
    (fun _ _ _ _ h ↦ h.of_readTask fun _ _ ↦ Registry.readTask_of_dropServer)
    (fun _ _ _ h ↦ h.of_readTask fun _ _ ↦ Registry.readTask_of_dropStream) hw
  intro w env input effects reg' hr h hok _ hc
  cases hc with
  | silent => exact h.of_readTask fun _ _ hk ↦ hk
  | bindRefused => exact h.of_readTask fun _ _ hk ↦ hk
  | serverOpened => exact h.of_readTask fun _ _ hk ↦ hk
  | connectRefused => exact h.of_readTask fun _ _ hk ↦ hk
  | @clientOpened cmd id endpoint peer seq stream text ho =>
    have hseq : KeepsSpawnIds { w.reg with nextIpcClientSeq := seq } w.log := h
    exact hseq.insertStream (List.mem_cons_of_mem _ List.mem_cons_self)
  | labelled => exact h.of_readTask fun _ _ hk ↦ Registry.readTask_replaceLabel ▸ hk
  | streamDropped => exact h.of_readTask fun _ _ ↦ Registry.readTask_of_dropStream
  | serverDropped => exact h.of_readTask fun _ _ ↦ Registry.readTask_of_dropServer
  | @accepted _ _ _ _ b reg₁ id ev hb ha =>
    have hstreams := ha.streams_eq (tracked_of_reachable hr) (hok b hb)
    have hsame : KeepsSpawnIds reg₁ w.log := by
      intro k task hk
      rw [Registry.readTask, hstreams] at hk
      exact h k task hk
    exact hsame.insertStream (List.mem_append_right _ List.mem_cons_self)

/-- Between `w` and `w'` the stream `id` was removed and no other, one line says
so under its name, and its read task belongs to no stream any more. -/
structure ClosedTaken (w w' : World) (id : ConnectionId) (task : JoinHandle) : Prop where
  removed : w'.reg.streams = w.reg.streams.erase id
  shown : (w'.log.drop w.log.length).filterMap Effect.displayed =
    [⟨s!"[{w.reg.displayName id}] CLOSED"⟩]
  gone : ∀ k, w'.reg.readTask k ≠ some task

theorem handle_closed (w : World) (env : Environment) (k : ConnectionId) :
    w.handle env (.event (.closed k)) =
      ⟨(w.reg.onClosedEvent k).1, w.log ++ (w.reg.onClosedEvent k).2, .running⟩ := rfl

/-- The `Closed` of a read task takes the stream it belongs to if and only if
the stream still has the id the task was started with. -/
theorem closedTaken_iff {w : World} {id k : ConnectionId} {task : JoinHandle}
    {stream : BoxedStream} (hown : StreamsOwned w.reg w.log)
    (hunique : DistinctKeys Effect.spawned w.log)
    (hid : w.reg.readTask id = some task) (hk : .spawnRead task k stream ∈ w.log)
    (env : Environment) :
    ClosedTaken w (w.handle env (.event (.closed k))) id task ↔
      ∃ stream, .spawnRead task id stream ∈ w.log := by
  have hlive : id ∈ w.reg.streams := by
    by_contra hn
    cases (Registry.readTask_eq_none.mpr hn).symm.trans hid
  rw [handle_closed]
  constructor
  · rintro ⟨hremoved, -, -⟩
    have hgone : id ∉ (w.reg.onClosedEvent k).1.streams := by
      rw [hremoved, Finmap.mem_erase]
      exact fun h ↦ h.1 rfl
    unfold Registry.onClosedEvent at hgone
    split_ifs at hgone with hs
    · rw [Registry.dropStream_streams, Finmap.mem_erase, not_and_or, not_not] at hgone
      rcases hgone with rfl | hgone
      · exact ⟨stream, hk⟩
      · exact (hgone hlive).elim
    · exact (hgone hlive).elim
  · rintro ⟨stream', hs'⟩
    cases hunique _ hk _ hs' task rfl rfl
    have hclosed : w.reg.onClosedEvent id = ((w.reg.dropStream id).1,
        (w.reg.dropStream id).2 ++ [say s!"[{w.reg.displayName id}] CLOSED"]) := if_pos hlive
    refine ⟨?_, ?_, fun k' hk' ↦ ?_⟩
    · rw [hclosed]
      exact w.reg.dropStream_streams id
    · rw [hclosed, List.drop_left, List.filterMap_append, Registry.dropStream_effects]
      cases w.reg.streams.lookup id <;> rfl
    · rw [hclosed] at hk'
      simp only [Registry.readTask_dropStream] at hk'
      split_ifs at hk' with hne
      exact hne (hown.injective k' id task hk' hid)

def HangupsTaken (m : Machine) : Prop :=
  ∀ answers msg rest k task id, m.queue = msg :: rest → msg.input = .event (.closed k) →
    msg.sender = some task → m.world.reg.readTask id = some task →
    ClosedTaken m.world (m.handle answers msg.input rest).world id task

/-- No connection accepted meets a registered stream under its unsuffixed id. -/
def RekeysNone (m : Machine) (a : Action) : Prop :=
  ∀ p ∈ m.pending a, RenamesNone m.world (p.1.environment m.fs, p.2.input)

instance (m : Machine) (a : Action) : Decidable (RekeysNone m a) :=
  inferInstanceAs (Decidable (∀ p ∈ m.pending a, ∀ b ∈ Registry.acceptedBase? p.2.input,
    b.accepted none ∉ m.world.reg.streams))

theorem hangup_iff {capacity : ℕ} {m : Machine} (hm : Reachable (machineSystem capacity) m)
    {answers : Answers} {msg : Message} {rest : List Message} {k id : ConnectionId}
    {task : JoinHandle} (hq : m.queue = msg :: rest) (hi : msg.input = .event (.closed k))
    (hs : msg.sender = some task) (hid : m.world.reg.readTask id = some task) :
    ClosedTaken m.world (m.handle answers msg.input rest).world id task ↔
      ∃ stream, .spawnRead task id stream ∈ m.world.log := by
  have hw := world_reachable_any hm
  obtain ⟨stream, hk⟩ := ((backed_of_reachable hm).queued msg
    (by rw [hq]; exact List.mem_cons_self)).closed k task hi hs
  have hiff := closedTaken_iff (streamsOwned_of_reachable hw) (spawnsUnique_of_reachable hw) hid hk
    (answers.environment m.fs)
  rw [hi]
  exact hiff

/-- In every run that re-keys no registered stream the `Closed` of a read task
takes its stream; and in any run it does so exactly when the stream has not
been re-keyed since the task was started. -/
theorem hangups_taken (capacity : ℕ) :
    (∀ m, ReachableBy (machineSystem capacity) RekeysNone m → HangupsTaken m) ∧
    ∀ m, Reachable (machineSystem capacity) m → ∀ answers msg rest k task id,
      m.queue = msg :: rest → msg.input = .event (.closed k) → msg.sender = some task →
      m.world.reg.readTask id = some task →
      (ClosedTaken m.world (m.handle answers msg.input rest).world id task ↔
        ∃ stream, .spawnRead task id stream ∈ m.world.log) := by
  refine ⟨fun m hm answers msg rest k task id hq hi hs hid ↦ ?_,
    fun m hm answers msg rest k task id hq hi hs hid ↦ hangup_iff hm hq hi hs hid⟩
  have hw : ReachableBy registrySystem RenamesNone m.world :=
    world_reachable (fun _ _ hok p hp ↦ hok p hp) hm
  exact (hangup_iff hm.reachable hq hi hs hid).mpr (keepsSpawnIds_of_reachable hw id task hid)

theorem hangup_taken_at_accept :
    ∃ m, run (Machine.next 1024) (fun m a ↦ decide (RekeysNone m a)) (.idle .empty)
        [.command (.openTcpServer 3000), .handle (.granting 0 []), .accept 0 (tcpPeer 10015 7),
          .handOver 0, .handle (.granting 1 []), .read 1 (.ok []), .forward 1] = some m ∧
      m.queue ≠ [] ∧ HangupsTaken m := by
  have hrun : ∃ m ∈ run (Machine.next 1024) (fun m a ↦ decide (RekeysNone m a)) (.idle .empty)
      [.command (.openTcpServer 3000), .handle (.granting 0 []), .accept 0 (tcpPeer 10015 7),
        .handOver 0, .handle (.granting 1 []), .read 1 (.ok []), .forward 1],
        m.queue ≠ [] := by decide +kernel
  obtain ⟨m, hm, hq⟩ := hrun
  exact ⟨m, hm, hq, (hangups_taken 1024).1 m
    (reachableBy_of_run (fun _ _ hg ↦ of_decide_eq_true hg) hm)⟩

/-- The first of two connections hangs up after the second gave it its suffix:
its `Closed` names an id that is registered no more. -/
theorem hangup_lost_after_rename :
    ∃ m, run (Machine.next 1024) (fun _ _ ↦ true) (.idle .empty)
        [.command (.openTcpServer 3000), .handle (.granting 0 []), .accept 0 (tcpPeer 10015 7),
          .handOver 0, .handle (.granting 1 []), .accept 0 (tcpPeer 10015 8), .handOver 0,
          .handle (.granting 2 []), .read 1 (.ok []), .forward 1] = some m ∧ ¬HangupsTaken m := by
  have hrun : ∃ m ∈ run (Machine.next 1024) (fun _ _ ↦ true) (.idle .empty)
      [.command (.openTcpServer 3000), .handle (.granting 0 []), .accept 0 (tcpPeer 10015 7),
        .handOver 0, .handle (.granting 1 []), .accept 0 (tcpPeer 10015 8), .handOver 0,
        .handle (.granting 2 []), .read 1 (.ok []), .forward 1],
      m.queue = [⟨.event (.closed (.acceptedTcp 3000 10015 none)), some 1⟩] ∧
        m.world.reg.readTask (.acceptedTcp 3000 10015 (some 1)) = some 1 ∧
        (m.world.reg.onClosedEvent (.acceptedTcp 3000 10015 none)).1.readTask
          (.acceptedTcp 3000 10015 (some 1)) = some 1 := by decide +kernel
  obtain ⟨m, hm, hq, hid, hleft⟩ := hrun
  exact ⟨m, hm, fun h ↦
    (h (.granting 3 []) _ [] _ 1 _ hq rfl rfl hid).gone _ hleft⟩

end WireDock
