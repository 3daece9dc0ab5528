import WireDock.Registry.Broadcast
import WireDock.Registry.Writes
import WireDock.System.Session

namespace WireDock

open FiniteMap LabelledSystem

def Effect.payload (stream : BoxedStream) : Effect → Option (List UInt8)
  | write s bytes => if s = stream then some bytes else none
  | _ => none

/-- What the calls of `write_all` on a stream were given, in order, those that
failed included. -/
def writtenTo (stream : BoxedStream) (log : List Effect) : List (List UInt8) :=
  log.filterMap (Effect.payload stream)

def Command.payload : Command → Option (List UInt8)
  | send _ bytes => some bytes
  | _ => none

namespace Registry

variable (reg : Registry)

/-- A send to `id` is for the connection that the task reads: `id` is that connection
or the server that accepted it. -/
def Reaches (id : ConnectionId) (task : JoinHandle) : Prop :=
  ∃ k ∈ reg.streams.keys, reg.readTask k = some task ∧ (k = id ∨ reg.parentOf k = some id)

instance (id : ConnectionId) (task : JoinHandle) : Decidable (reg.Reaches id task) :=
  inferInstanceAs (Decidable (∃ k ∈ reg.streams.keys, _))

def payloadFor (task : JoinHandle) : Command → Option (List UInt8)
  | .send token bytes =>
    match reg.target token with
    | .ok id => if bytes ≠ [] ∧ reg.Reaches id task then some bytes else none
    | .error _ => none
  | _ => none

end Registry

def payloadsFor (task : JoinHandle) (hist : History) : List (List UInt8) :=
  hist.filterMap fun p ↦
    (p.1.handles p.2).bind fun h ↦ p.1.machine.world.reg.payloadFor task h.1

structure Registry.Serves (reg : Registry) (stream : BoxedStream) (task : JoinHandle) : Prop where
  stream_iff : ∀ k h, reg.streams.lookup k = some h → (h.stream = stream ↔ h.readTask = task)
  one : ∀ k k', reg.readTask k = some task → reg.readTask k' = some task → k = k'

section Turn

variable {reg : Registry} {env : Environment} {stream : BoxedStream} {task : JoinHandle}
  {id : ConnectionId} {bytes : List UInt8}

theorem writtenTo_append (log log' : List Effect) :
    writtenTo stream (log ++ log') = writtenTo stream log ++ writtenTo stream log' :=
  List.filterMap_append

theorem writtenTo_eq_nil {effects : List Effect} (h : ∀ bytes, .write stream bytes ∉ effects) :
    writtenTo stream effects = [] := by
  refine List.filterMap_eq_nil_iff.mpr fun e he ↦ ?_
  cases e with
  | write s bytes =>
    refine if_neg fun hs ↦ h bytes ?_
    rwa [hs] at he
  | _ => rfl

theorem flatMap_one {α β : Type*} {p : α → Prop} [DecidablePred p] {l : List α} (b : β)
    (hnd : l.Nodup) (hone : ∀ a ∈ l, ∀ a' ∈ l, p a → p a' → a = a') :
    (l.flatMap fun a ↦ if p a then [b] else []) = if ∃ a ∈ l, p a then [b] else [] := by
  induction l with
  | nil => simp
  | cons a l ih =>
    obtain ⟨hnot, hnd⟩ := List.nodup_cons.mp hnd
    have hrest := ih hnd fun x hx y hy ↦
      hone x (List.mem_cons_of_mem a hx) y (List.mem_cons_of_mem a hy)
    rw [List.flatMap_cons, hrest]
    by_cases ha : p a
    · have hnone : ¬∃ x ∈ l, p x := by
        intro hx
        obtain ⟨x, hx, hp⟩ := hx
        have hxa := hone a List.mem_cons_self x (List.mem_cons_of_mem a hx) ha hp
        exact hnot (hxa ▸ hx)
      rw [if_pos ha, if_neg hnone, if_pos ⟨a, List.mem_cons_self, ha⟩, List.append_nil]
    · simp [ha]

theorem writtenTo_sendTo {k : ConnectionId} {h : StreamHandle} :
    writtenTo stream (reg.sendTo env bytes k h) = if h.stream = stream then [bytes] else [] := by
  unfold Registry.sendTo writtenTo
  rw [List.filterMap_cons]
  cases env.write h.stream bytes <;> split_ifs with hs <;> simp [Effect.payload, say, hs]

/-- A send to a server writes once to each child, so once to the stream if it is a child's. -/
theorem writtenTo_broadcast (hw : WellFormed reg) (hserves : reg.Serves stream task)
    {srv : ServerHandle} (hsrv : reg.servers.lookup id = some srv) (env : Environment)
    (order : IterationOrder ConnectionId) :
    writtenTo stream (reg.broadcast env bytes (order.visit srv.children)) =
      if reg.Reaches id task then [bytes] else [] := by
  have hvisit := reg.visitsChildren hw hsrv order
  have hlive : ∀ k ∈ order.visit srv.children,
      ∃ h, reg.streams.lookup k = some h ∧ h.state.status = .connected := by
    intro k hk
    obtain ⟨h, hs, -⟩ := (hvisit.all k).mp hk
    exact ⟨h, hs, hw.stream_connected hs⟩
  have heach : ∀ k ∈ order.visit srv.children, writtenTo stream
      (((reg.streams.lookup k).map (reg.sendTo env bytes k)).getD []) =
        if reg.readTask k = some task then [bytes] else [] := by
    intro k hk
    obtain ⟨h, hs, -⟩ := hlive k hk
    rw [hs, Option.map_some, Option.getD_some, writtenTo_sendTo, Registry.readTask, hs]
    simp only [Option.map_some, Option.some.injEq, hserves.stream_iff k h hs]
  have hreaches : (∃ k ∈ order.visit srv.children, reg.readTask k = some task) ↔
      reg.Reaches id task := by
    constructor
    · intro hk
      obtain ⟨k, hk, htask⟩ := hk
      obtain ⟨h, hs, hp⟩ := (hvisit.all k).mp hk
      refine ⟨k, mem_of_lookup hs, htask, .inr ?_⟩
      rw [Registry.parentOf, hs, Option.bind_some, hp]
    · intro hk
      obtain ⟨k, hk, htask, rfl | hp⟩ := hk
      · have hserver := hw.isServer_of_mem (mem_of_lookup hsrv)
        rw [hw.not_isServer_of_mem hk] at hserver
        cases hserver
      · obtain ⟨h, hs, hp⟩ := Option.bind_eq_some_iff.mp hp
        exact ⟨k, (hvisit.all k).mpr ⟨h, hs, hp⟩, htask⟩
  rw [Registry.broadcast_eq _ hlive, writtenTo, List.filterMap_flatMap]
  simp only [← hreaches]
  rw [← flatMap_one bytes hvisit.once fun k _ k' _ ↦ hserves.one k k']
  exact List.flatMap_congr heach

theorem mem_servers_of_parentOf (hw : WellFormed reg) {k : ConnectionId}
    (hp : reg.parentOf k = some id) : id ∈ reg.servers := by
  obtain ⟨h, hs, hp⟩ := Option.bind_eq_some_iff.mp hp
  exact hw.parent_registered k id (mem_of_lookup hs) ((hw.parent_eq hs).symm.trans hp)

/-- A send to a client or to an accepted connection writes to its own stream. -/
theorem writtenTo_writeToStream (hw : WellFormed reg) (hserves : reg.Serves stream task)
    (hserver : ¬id.isServer = true) :
    writtenTo stream (reg.writeToStream env id bytes).2 =
      if reg.Reaches id task then [bytes] else [] := by
  have hself : ∀ k, k = id ∨ reg.parentOf k = some id → k = id := by
    intro k hk
    exact hk.resolve_right fun hp ↦ hserver (hw.isServer_of_mem (mem_servers_of_parentOf hw hp))
  cases hs : reg.streams.lookup id with
  | none =>
    have hnot : ¬reg.Reaches id task := by
      intro hreaches
      obtain ⟨k, hk, -, hid⟩ := hreaches
      exact not_mem_iff_lookup.mpr hs (hself k hid ▸ hk)
    rw [if_neg hnot, Registry.writeToStream, hs]
    rfl
  | some h =>
    have hreaches : reg.Reaches id task ↔ h.stream = stream := by
      rw [hserves.stream_iff id h hs]
      constructor
      · intro hreaches
        obtain ⟨k, -, htask, hid⟩ := hreaches
        rw [hself k hid, Registry.readTask, hs] at htask
        exact Option.some.inj htask
      · intro htask
        refine ⟨id, mem_of_lookup hs, ?_, .inl rfl⟩
        rw [Registry.readTask, hs, Option.map_some, htask]
    rw [Registry.writeToStream_connected hs (hw.stream_connected hs)]
    simp only [hreaches, writtenTo, List.filterMap_cons, List.filterMap_nil, Effect.payload]
    split_ifs <;> rfl

theorem writtenTo_sendBytes (hw : WellFormed reg) (hserves : reg.Serves stream task)
    (hbytes : bytes ≠ []) :
    writtenTo stream (reg.sendBytes env id bytes).2 =
      if reg.Reaches id task then [bytes] else [] := by
  unfold Registry.sendBytes
  rw [if_neg (by simpa using hbytes)]
  by_cases hserver : id.isServer = true
  · rw [if_pos hserver]
    cases hsrv : reg.servers.lookup id with
    | none =>
      have hnot : ¬reg.Reaches id task := by
        intro hreaches
        obtain ⟨k, hk, -, rfl | hp⟩ := hreaches
        · rw [hw.not_isServer_of_mem hk] at hserver
          cases hserver
        · exact not_mem_iff_lookup.mpr hsrv (mem_servers_of_parentOf hw hp)
      rw [if_neg hnot]
      rfl
    | some srv =>
      rw [← writtenTo_broadcast hw hserves hsrv env env.order]
      by_cases hempty : (env.order.visit srv.children).isEmpty
      · simp only [List.isEmpty_iff.mp hempty]
        rfl
      · simp only [if_neg hempty]
  · rw [if_neg hserver]
    exact writtenTo_writeToStream hw hserves hserver

/-- One turn writes to the stream what its input has for the connection, once. -/
theorem writtenTo_handleInput (hw : WellFormed reg) (hserves : reg.Serves stream task)
    (env : Environment) (input : RegistryInput) :
    writtenTo stream (reg.handleInput env input).effects =
      match input with
      | .command cmd => (reg.payloadFor task cmd).toList
      | _ => [] := by
  by_cases hsend : ∃ token bytes, input = .command (.send token bytes)
  · obtain ⟨token, bytes, rfl⟩ := hsend
    simp only [Registry.handleInput, Registry.handleCommand, Registry.payloadFor, Handling.effects]
    cases hr : reg.resolveId token defaultTokenParser with
    | error e =>
      rw [Registry.target, hr]
      rfl
    | ok typed =>
      simp only [Registry.target_of_resolved hr]
      generalize reg.entryOf token typed = id
      have hsent : writtenTo stream (reg.sendBytes env id bytes).2 =
          (if bytes ≠ [] ∧ reg.Reaches id task then some bytes else none).toList := by
        by_cases hbytes : bytes = []
        · subst hbytes
          rfl
        · rw [writtenTo_sendBytes hw hserves hbytes]
          split_ifs <;> simp_all
      cases hs : (reg.sendBytes env id bytes).1 <;> simpa only [hs] using hsent
  · have hother : ∀ token bytes, input ≠ .command (.send token bytes) :=
      fun token bytes he ↦ hsend ⟨token, bytes, he⟩
    rw [writtenTo_eq_nil fun bytes ↦ unwritten_handleInput hother]
    cases input with
    | command cmd =>
      cases cmd with
      | send token bytes => exact (hother token bytes rfl).elim
      | _ => rfl
    | _ => rfl

end Turn

section Runs

variable {caps : Capacities} {c c' : Console} {a : ConsoleAction} {hist : History}
  {stream : BoxedStream} {task : JoinHandle}

structure Paired (stream : BoxedStream) (task : JoinHandle) (log : List Effect) : Prop where
  task_eq : ∀ t k, .spawnRead t k stream ∈ log → t = task
  stream_eq : ∀ k s, .spawnRead task k s ∈ log → s = stream

theorem Paired.mono {log log' : List Effect} (h : Paired stream task log')
    (hsub : ∀ e ∈ log, e ∈ log') : Paired stream task log where
  task_eq t k hm := h.task_eq t k (hsub _ hm)
  stream_eq k s hm := h.stream_eq k s (hsub _ hm)

theorem serves_of_reachable {w : World} (hw : Reachable registrySystem w)
    (hrunning : w.phase = .running) (h : Paired stream task w.log) :
    w.reg.Serves stream task where
  stream_iff k s hs := by
    obtain ⟨id, hspawn⟩ := (attended_of_reachable hw hrunning).started k s hs
    constructor
    · intro hstream
      exact h.task_eq _ id (hstream ▸ hspawn)
    · intro htask
      exact h.stream_eq id _ (htask ▸ hspawn)
  one k k' := (streamsOwned_of_reachable hw).injective k k' task

theorem payloadsFor_append (p : Console × ConsoleAction) :
    payloadsFor task (hist ++ [p]) = payloadsFor task hist ++
      ((p.1.handles p.2).bind fun h ↦ p.1.machine.world.reg.payloadFor task h.1).toList := by
  rw [payloadsFor, List.filterMap_append, ← payloadsFor]
  cases h : (p.1.handles p.2).bind fun h ↦ p.1.machine.world.reg.payloadFor task h.1 <;> simp [h]

theorem handles_of_takes_none (h : c.takes a = none) : c.handles a = none := by
  cases a with
  | take answers => simp only [Console.handles, show c.machine.queue.head? = none from h]
  | _ => rfl

theorem written_of_run (hr : Run (consoleSystem caps) hist c)
    (hpaired : Paired stream task c.machine.world.log) :
    writtenTo stream c.machine.world.log = payloadsFor task hist := by
  induction hr with
  | init hi =>
    rw [hi.1.1]
    rfl
  | @step hist c c' a hr hn ih =>
    have hother : c'.machine.world = c.machine.world → c.handles a = none →
        writtenTo stream c'.machine.world.log = payloadsFor task (hist ++ [(c, a)]) := by
      intro hworld hhandles
      rw [hworld] at hpaired ⊢
      rw [payloadsFor_append, hhandles, Option.bind_none, Option.toList_none, List.append_nil]
      exact ih hpaired
    cases Console.step_of_next hn with
    | submitted line hrepl =>
      obtain ⟨repl, he⟩ := c.submit_eq line
      exact hother (by rw [he]) rfl
    | stopped hphase => exact hother rfl (handles_of_takes_none (stopped_unseen hn).1)
    | traffic _ hworld => exact hother hworld rfl
    | @took answers msg rest hregistry hqueue hrunning =>
      have hlog : (c.machine.handle answers msg.input rest).world.log = c.machine.world.log ++
          (c.handling answers msg.input).effects := log_handle _ _ _
      have hw := world_reachable_any (machine_reachable hr.reachable)
      have hbefore : Paired stream task c.machine.world.log :=
        hpaired.mono fun e he ↦ hlog ▸ List.mem_append_left _ he
      have hturn := writtenTo_handleInput (wellFormed_of_reachable hw)
        (serves_of_reachable hw hrunning hbefore) (answers.environment c.machine.fs) msg.input
      rw [hlog, writtenTo_append, ih hbefore, payloadsFor_append, handles_take hqueue]
      refine congrArg _ (hturn.trans ?_)
      obtain ⟨input, sender⟩ := msg
      cases input <;> rfl
    | _ => exact hother rfl rfl

theorem payload_of_payloadFor {reg : Registry} {cmd : Command} {bytes : List UInt8}
    (h : reg.payloadFor task cmd = some bytes) : cmd.payload = some bytes := by
  cases cmd with
  | send token payload =>
    simp only [Registry.payloadFor] at h
    split at h
    · split_ifs at h
      exact h
    · cases h
  | _ => cases h

theorem payloadsFor_sublist (hist : History) : (payloadsFor task hist).Sublist
    (((handled hist).map Prod.fst).filterMap Command.payload) := by
  induction hist using List.reverseRecOn with
  | nil => exact .slnil
  | append_singleton hist p ih =>
    rw [payloadsFor_append, handled_append, List.map_append, List.filterMap_append]
    refine ih.append ?_
    cases hh : p.1.handles p.2 with
    | none => exact .slnil
    | some h =>
      rw [Option.bind_some]
      cases hp : p.1.machine.world.reg.payloadFor task h.1 with
      | none => exact List.nil_sublist _
      | some bytes => simp [payload_of_payloadFor hp]

end Runs

/-- In every run, what was written to the stream of a connection is, each once and in
their order, the payloads of the sends handled that named it or its server, whatever
its id was then; while the registry task runs, of those typed in, in that order. -/
theorem sends_written_in_order {caps : Capacities} {hist : History} {c : Console}
    (hr : Run (consoleSystem caps) hist c) {task : JoinHandle} {id : ConnectionId}
    {stream : BoxedStream} (hs : .spawnRead task id stream ∈ c.machine.world.log)
    (hone : ∀ t k, .spawnRead t k stream ∈ c.machine.world.log → t = task) :
    writtenTo stream c.machine.world.log = payloadsFor task hist ∧
      (c.machine.world.phase = .running → (payloadsFor task hist).Sublist
        (((typed hist).filterMap command?).filterMap Command.payload)) := by
  have hw := world_reachable_any (machine_reachable hr.reachable)
  have hpaired : Paired stream task c.machine.world.log := by
    refine ⟨hone, fun k s hm ↦ ?_⟩
    cases spawnsUnique_of_reachable hw _ hm _ hs task rfl rfl
    rfl
  refine ⟨written_of_run hr hpaired, fun hrunning ↦ ?_⟩
  rw [(conversing_of_run hr hrunning).asked, List.filterMap_append]
  exact (payloadsFor_sublist hist).trans (List.sublist_append_left _ _)

theorem sends_written_after_rename :
    ∃ hist c, Run (consoleSystem ⟨1024, 1024, 20⟩) hist c ∧
      typed hist = ["open server 3000", "3000.10015 41", "3000.10015#2 42", "3000.10015#1 43 44"] ∧
      writtenTo 7 c.machine.world.log = [[65], [67, 68]] ∧
      writtenTo 7 c.machine.world.log = payloadsFor 1 hist ∧
      (payloadsFor 1 hist).Sublist (((typed hist).filterMap command?).filterMap Command.payload) := by
  have hrun : ∃ c ∈ run (Console.next ⟨1024, 1024, 20⟩) (fun _ _ ↦ true) .start
      [.submit "open server 3000", .send, .take (.granting 0 []), .emit, .answer, .reply, .display,
        .traffic (.accept 0 (tcpPeer 10015 7)), .traffic (.handOver 0), .take (.granting 1 []),
        .emit, .answer, .submit "3000.10015 41", .send, .take (.granting 2 []), .answer, .reply,
        .display, .traffic (.accept 0 (tcpPeer 10015 8)), .traffic (.handOver 0),
        .take (.granting 3 []), .emit, .emit, .answer, .submit "3000.10015#2 42", .send,
        .take (.granting 4 []), .answer, .reply, .display,
        .submit "3000.10015#1 43 44", .send, .take (.granting 5 []), .answer],
      c.machine.world.phase = .running ∧ writtenTo 7 c.machine.world.log = [[65], [67, 68]] ∧
        c.machine.world.log.filter (·.spawned.isSome) = [.spawnAccept 0 (.tcpServer 3000) 0,
          .spawnRead 1 (.acceptedTcp 3000 10015 none) 7,
          .spawnRead 3 (.acceptedTcp 3000 10015 (some 2)) 8] := by decide +kernel
  obtain ⟨c, hc, hrunning, hwritten, hspawned⟩ := hrun
  have hstart : Run (consoleSystem ⟨1024, 1024, 20⟩) [] .start := .init Console.start_initial
  obtain ⟨hist, hr, ha⟩ := hstart.of_run hc
  have htyped : typed hist =
      ["open server 3000", "3000.10015 41", "3000.10015#2 42", "3000.10015#1 43 44"] := by
    rw [typed_eq, ha]
    rfl
  have hs : .spawnRead 1 (.acceptedTcp 3000 10015 none) 7 ∈ c.machine.world.log :=
    List.mem_of_mem_filter (p := (·.spawned.isSome)) (by rw [hspawned]; simp)
  have hone : ∀ t k, .spawnRead t k 7 ∈ c.machine.world.log → t = 1 := by
    intro t k hm
    have hfiltered : .spawnRead t k 7 ∈ c.machine.world.log.filter (·.spawned.isSome) :=
      List.mem_filter.mpr ⟨hm, rfl⟩
    rw [hspawned] at hfiltered
    have hspawn : t = 1 ∧ k = .acceptedTcp 3000 10015 none := by simpa using hfiltered
    exact hspawn.1
  obtain ⟨hsent, hsub⟩ := sends_written_in_order hr hs hone
  exact ⟨hist, c, hr, htyped, hwritten, hsent, hsub hrunning⟩

end WireDock
