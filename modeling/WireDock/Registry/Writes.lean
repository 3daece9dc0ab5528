import WireDock.Registry.Closing
import WireDock.System.Hangup

namespace WireDock

open FiniteMap LabelledSystem

namespace Registry

variable {env : Environment} {reg : Registry} {e : Effect} {bytes : List UInt8}

inductive Sends (reg : Registry) : Effect → Prop
  | line (line : DisplayLine) : Sends reg (.display line)
  | write {k : ConnectionId} {s : StreamHandle} {bytes : List UInt8}
      (hs : reg.streams.lookup k = some s) : Sends reg (.write s.stream bytes)

theorem sends_of_mem_write {id : ConnectionId} (h : e ∈ (reg.writeToStream env id bytes).2) :
    reg.Sends e := by
  unfold writeToStream at h
  cases hs : reg.streams.lookup id with
  | none =>
    rw [hs] at h
    cases h
  | some s =>
    simp only [hs] at h
    split_ifs at h
    · cases h
    · cases hw : env.write s.stream bytes <;>
      · simp only [hw, List.mem_singleton] at h
        rw [h]
        exact .write hs

theorem sends_of_mem_broadcast {children : List ConnectionId}
    (h : e ∈ reg.broadcast env bytes children) : reg.Sends e := by
  induction children with
  | nil => cases h
  | cons c children ih =>
    rw [broadcast, List.mem_append, List.mem_append] at h
    rcases h with (h | h) | h
    · exact sends_of_mem_write h
    · cases hw : (reg.writeToStream env c bytes).1 with
      | ok u =>
        rw [hw] at h
        cases h
      | error err =>
        rw [hw] at h
        rw [List.mem_singleton.mp h]
        exact .line _
    · exact ih h

theorem sends_of_mem_sendBytes {id : ConnectionId} (h : e ∈ (reg.sendBytes env id bytes).2) :
    reg.Sends e := by
  unfold sendBytes at h
  split_ifs at h
  · cases h
  · cases hs : reg.servers.lookup id with
    | none =>
      rw [hs] at h
      cases h
    | some srv =>
      simp only [hs] at h
      split_ifs at h
      · cases h
      · exact sends_of_mem_broadcast h
  · exact sends_of_mem_write h

end Registry

/-- Every write was to a stream whose read task had been started and not aborted. -/
def WritesOpen (log : List Effect) : Prop :=
  ∀ before stream bytes after, log = before ++ .write stream bytes :: after →
    ∃ task id, .spawnRead task id stream ∈ before ∧ .abort task ∉ before

/-- The read task of a registered stream was started on that stream and is not
aborted, and only tasks that were started are. -/
structure Attended (reg : Registry) (log : List Effect) : Prop where
  started : ∀ k s, reg.streams.lookup k = some s → ∃ id, .spawnRead s.readTask id s.stream ∈ log
  live : ∀ k s, reg.streams.lookup k = some s → .abort s.readTask ∉ log
  aborted : ∀ task, .abort task ∈ log → ∃ e ∈ log, e.spawned = some task

section Steps

variable {reg reg' : Registry} {log effects : List Effect}

theorem WritesOpen.append (h : WritesOpen log)
    (he : ∀ before stream bytes after, effects = before ++ .write stream bytes :: after →
      ∃ task id, .spawnRead task id stream ∈ log ∧ .abort task ∉ log ++ before) :
    WritesOpen (log ++ effects) := by
  intro before stream bytes after hsplit
  rcases List.append_eq_append_iff.mp hsplit with ⟨mid, rfl, hmid⟩ | ⟨mid, hmid, htail⟩
  · obtain ⟨task, id, hspawn, hlive⟩ := he mid stream bytes after hmid
    exact ⟨task, id, List.mem_append_left _ hspawn, hlive⟩
  · cases mid with
    | nil =>
      rw [List.append_nil] at hmid
      subst hmid
      obtain ⟨task, id, hspawn, hlive⟩ := he [] stream bytes after htail.symm
      exact ⟨task, id, hspawn, by rwa [List.append_nil] at hlive⟩
    | cons e mid =>
      obtain ⟨rfl, -⟩ := List.cons.inj htail
      exact h before stream bytes mid hmid

theorem WritesOpen.append_unwritten (h : WritesOpen log)
    (he : ∀ stream bytes, .write stream bytes ∉ effects) : WritesOpen (log ++ effects) :=
  h.append fun before stream bytes after hs ↦ (he stream bytes (by rw [hs]; simp)).elim

theorem WritesOpen.send (h : WritesOpen log) (ha : Attended reg log)
    (he : ∀ e ∈ effects, reg.Sends e) : WritesOpen (log ++ effects) := by
  refine h.append fun before stream bytes after hs ↦ ?_
  cases he (.write stream bytes) (by rw [hs]; simp) with
  | @write k s _ hk =>
    obtain ⟨id, hspawn⟩ := ha.started k s hk
    refine ⟨s.readTask, id, hspawn, fun hm ↦ ?_⟩
    rcases List.mem_append.mp hm with hm | hm
    · exact ha.live k s hk hm
    · cases he _ (by rw [hs]; exact List.mem_append_left _ hm)

/-- The streams afterwards were registered before, under whatever ids, and keep
their read tasks. -/
theorem Attended.of_streams (h : Attended reg log)
    (hs : ∀ k s', reg'.streams.lookup k = some s' → ∃ k₀ s, reg.streams.lookup k₀ = some s ∧
      s'.stream = s.stream ∧ s'.readTask = s.readTask ∧ .abort s.readTask ∉ effects)
    (hd : ∀ task, .abort task ∈ effects → ∃ e ∈ log, e.spawned = some task) :
    Attended reg' (log ++ effects) where
  started k s' hk := by
    obtain ⟨k₀, s, hk₀, hstream, htask, -⟩ := hs k s' hk
    obtain ⟨id, hspawn⟩ := h.started k₀ s hk₀
    exact ⟨id, by rw [hstream, htask]; exact List.mem_append_left _ hspawn⟩
  live k s' hk hm := by
    obtain ⟨k₀, s, hk₀, -, htask, hkept⟩ := hs k s' hk
    rw [htask] at hm
    exact (List.mem_append.mp hm).elim (h.live k₀ s hk₀) hkept
  aborted task hm := by
    obtain ⟨e, he, hsp⟩ := (List.mem_append.mp hm).elim (h.aborted task) (hd task)
    exact ⟨e, List.mem_append_left _ he, hsp⟩

theorem Attended.insertStream (h : Attended reg log) {s : StreamHandle} {id : ConnectionId}
    (hfresh : ∀ e ∈ log, e.spawned ≠ some s.readTask)
    (hspawn : .spawnRead s.readTask id s.stream ∈ effects)
    (hd : ∀ task, .abort task ∉ effects) : Attended (reg.insertStream s) (log ++ effects) where
  started k s' hk := by
    replace hk := (lookup_insert _ _ _ _).symm.trans hk
    split_ifs at hk
    · cases hk
      exact ⟨id, List.mem_append_right _ hspawn⟩
    · obtain ⟨id, hs⟩ := h.started k s' hk
      exact ⟨id, List.mem_append_left _ hs⟩
  live k s' hk hm := by
    replace hm := (List.mem_append.mp hm).resolve_right (hd _)
    replace hk := (lookup_insert _ _ _ _).symm.trans hk
    split_ifs at hk
    · cases hk
      obtain ⟨e, he, hsp⟩ := h.aborted _ hm
      exact hfresh e he hsp
    · exact h.live k s' hk hm
  aborted task hm := by
    obtain ⟨e, he, hsp⟩ := h.aborted task ((List.mem_append.mp hm).resolve_right (hd _))
    exact ⟨e, List.mem_append_left _ he, hsp⟩

theorem Registry.Allocated.streams_before {b : Base} {id : ConnectionId} {ev : Option NetEvent}
    (ha : reg.Allocated b reg' id ev) {k : ConnectionId} {s' : StreamHandle}
    (hk : reg'.streams.lookup k = some s') : ∃ k₀ s, reg.streams.lookup k₀ = some s ∧
      s'.stream = s.stream ∧ s'.readTask = s.readTask := by
  cases ha with
  | first | next => exact ⟨k, s', hk, rfl, rfl⟩
  | @second srv old _ _ _ hstreams =>
    rw [hstreams, lookup_streams_rename] at hk
    cases hold : reg.streams.lookup old with
    | none =>
      rw [hold] at hk
      exact ⟨k, s', hk, rfl, rfl⟩
    | some s =>
      simp only [hold] at hk
      split_ifs at hk
      · cases hk
        exact ⟨old, s, hold, rfl, rfl⟩
      · exact ⟨k, s', hk, rfl, rfl⟩

end Steps

section Runs

variable {w : World} {env : Environment} {input : RegistryInput} {reg' : Registry}
  {effects : List Effect}

theorem spawned_of_abort (hw : Reachable registrySystem w)
    (hc : Registry.Change env w.reg input effects reg') {task : JoinHandle}
    (h : .abort task ∈ effects) : ∃ e ∈ w.log, e.spawned = some task := by
  have hread : ∀ k, w.reg.readTask k = some task → ∃ e ∈ w.log, e.spawned = some task := by
    intro k hk
    obtain ⟨id, stream, hs⟩ := (streamsOwned_of_reachable hw).spawned k task hk
    exact ⟨_, hs, rfl⟩
  obtain ⟨id, -, howns, -⟩ := hc.aborts (wellFormed_of_reachable hw) h
  rcases howns with hk | ⟨srv, hsrv, rfl | ⟨k, -, hk⟩⟩
  · exact hread id hk
  · have howned : w.reg.owned id = some (srv.acceptTask, srv.ipcPath) := by
      rw [Registry.owned, hsrv, Option.map_some]
    obtain ⟨-, listener, hs⟩ := (serversOwned_of_reachable hw).spawned id _ _ howned
    exact ⟨_, hs, rfl⟩
  · exact hread k hk

/-- A stream that a change keeps is not among those whose task it aborts. -/
theorem not_aborted_of_kept (hw : Reachable registrySystem w)
    (hc : Registry.Change env w.reg input effects reg') {k : ConnectionId} {s : StreamHandle}
    (hk : w.reg.streams.lookup k = some s) (hk' : k ∈ reg'.streams) :
    .abort s.readTask ∉ effects := by
  have howned := streamsOwned_of_reachable hw
  have htask : w.reg.readTask k = some s.readTask := by rw [Registry.readTask, hk, Option.map_some]
  intro h
  cases hc with
  | silent hs => exact hs _ h
  | bindRefused | serverOpened | connectRefused | clientOpened | labelled => simp [say] at h
  | @streamDropped _ id =>
    replace h := (List.mem_append.mp h).resolve_right (by simp [say])
    rw [Registry.dropStream_effects, Option.mem_toList, Option.map_eq_some_iff] at h
    obtain ⟨s', hs', he⟩ := h
    have hid : k = id := howned.injective k id _ htask (by
      rw [Registry.readTask, hs', Option.map_some, (Effect.abort.inj he)])
    rw [Registry.dropStream_streams, Finmap.mem_erase] at hk'
    exact hk'.1 hid
  | @serverDropped _ id srv _ _ hsrv =>
    replace h := (List.mem_append.mp h).resolve_right (by simp [say])
    rcases (Registry.mem_effects_dropServer hsrv).mp h with he | ⟨c, hc, s', hs', he⟩ | ⟨_, -, he⟩
    · -- an accept task is no read task
      obtain ⟨id₀, stream, hread⟩ := howned.spawned k _ htask
      have hserver : w.reg.owned id = some (srv.acceptTask, srv.ipcPath) := by
        rw [Registry.owned, hsrv, Option.map_some]
      obtain ⟨-, listener, haccept⟩ := (serversOwned_of_reachable hw).spawned id _ _ hserver
      have hsame := spawnsUnique_of_reachable hw _ hread _ haccept s.readTask rfl
        (by rw [Effect.abort.inj he]; rfl)
      cases hsame
    · have hid : k = c := howned.injective k c _ htask (by
        rw [Registry.readTask, hs', Option.map_some, (Effect.abort.inj he)])
      rw [mem_iff_lookup, Registry.lookup_streams_dropServer hsrv, if_pos (hid ▸ hc)] at hk'
      obtain ⟨_, hnone⟩ := hk'
      cases hnone
    · cases he
  | accepted => exact Registry.abort_not_mem_register h

theorem Attended.change (h : Attended w.reg w.log) (hw : Reachable registrySystem w)
    (hfresh : w.Fresh env.spawn) (hc : Registry.Change env w.reg input effects reg') :
    Attended reg' (w.log ++ effects) := by
  have hkept : (∀ k s', reg'.streams.lookup k = some s' → ∃ s, w.reg.streams.lookup k = some s ∧
      s'.stream = s.stream ∧ s'.readTask = s.readTask) → Attended reg' (w.log ++ effects) := by
    intro hs
    refine h.of_streams (fun k s' hk ↦ ?_) fun task ↦ spawned_of_abort hw hc
    obtain ⟨s, hk₀, hstream, htask⟩ := hs k s' hk
    exact ⟨k, s, hk₀, hstream, htask, not_aborted_of_kept hw hc hk₀ (mem_of_lookup hk)⟩
  cases hc with
  | silent | bindRefused | serverOpened | connectRefused =>
    exact hkept fun k s' hk ↦ ⟨s', hk, rfl, rfl⟩
  | @clientOpened cmd id endpoint peer seq stream =>
    have hseq : Attended { w.reg with nextIpcClientSeq := seq } w.log := ⟨h.1, h.2, h.3⟩
    exact hseq.insertStream (s := .spawned id stream (some peer) none env.spawn) hfresh
      (List.mem_cons_of_mem _ List.mem_cons_self) (by simp [say])
  | labelled =>
    refine hkept fun k s' hk ↦ ?_
    rw [Registry.lookup_streams_replaceLabel] at hk
    obtain ⟨s, hs, rfl⟩ := Option.map_eq_some_iff.mp hk
    refine ⟨s, hs, ?_⟩
    split_ifs <;> exact ⟨rfl, rfl⟩
  | streamDropped =>
    refine hkept fun k s' hk ↦ ?_
    rw [Registry.dropStream_streams, lookup_erase] at hk
    split_ifs at hk
    exact ⟨s', hk, rfl, rfl⟩
  | serverDropped _ hsrv =>
    refine hkept fun k s' hk ↦ ?_
    rw [Registry.lookup_streams_dropServer hsrv] at hk
    split_ifs at hk
    exact ⟨s', hk, rfl, rfl⟩
  | @accepted _ _ peerInfo stream b reg₁ id ev hb ha =>
    have hkeyed : Attended reg₁ (w.log ++ []) := h.of_streams (fun k s' hk ↦ by
      obtain ⟨k₀, s, hk₀, hstream, htask⟩ := ha.streams_before hk
      exact ⟨k₀, s, hk₀, hstream, htask, List.not_mem_nil⟩) fun _ hm ↦ by cases hm
    rw [List.append_nil] at hkeyed
    exact hkeyed.insertStream (s := .spawned id stream (some peerInfo) (some b.server) env.spawn)
      hfresh (List.mem_append_right _ List.mem_cons_self)
      fun _ ↦ Registry.abort_not_mem_register

theorem unwritten_dropStream {reg : Registry} {id : ConnectionId} {stream : BoxedStream}
    {bytes : List UInt8} : .write stream bytes ∉ (reg.dropStream id).2 := fun h ↦ by
  obtain ⟨task, he⟩ := Registry.abort_of_mem_dropStream h
  cases he

theorem unwritten_dropServer {reg : Registry} {order : IterationOrder ConnectionId}
    {id : ConnectionId} {stream : BoxedStream} {bytes : List UInt8} :
    .write stream bytes ∉ (reg.dropServer order id).2 := fun h ↦ by
  rcases Registry.abort_or_remove_of_mem_dropServer h with ⟨task, he⟩ | ⟨path, he⟩ <;> cases he

theorem unwritten_shutdown {reg : Registry} {order : IterationOrder ConnectionId}
    {stream : BoxedStream} {bytes : List UInt8} :
    .write stream bytes ∉ (reg.shutdown order).2 := by
  have hs : .write stream bytes ∉ [] ++ (reg.shutdown order).2 :=
    shutdown_invariant (P := fun _ log ↦ .write stream bytes ∉ log)
      (fun _ _ _ h hm ↦ (List.mem_append.mp hm).elim h unwritten_dropServer)
      (fun _ _ _ h hm ↦ (List.mem_append.mp hm).elim h unwritten_dropStream) List.not_mem_nil
  exact hs

theorem unwritten_register {parent : ConnectionId} {peerInfo : PeerInfo}
    {allocated : Registry × ConnectionId × Option NetEvent} {stream stream' : BoxedStream}
    {bytes : List UInt8} :
    .write stream bytes ∉ (Registry.register env parent peerInfo stream' allocated).2 := fun h ↦ by
  obtain ⟨reg, id, ev⟩ := allocated
  simp only [Registry.register, spawnStream, say, List.mem_append, List.mem_cons, reduceCtorEq,
    List.not_mem_nil, or_false] at h
  unfold Registry.renamedLine at h
  split at h
  · cases List.mem_singleton.mp h
  · cases h

theorem unwritten_handleEvent {reg : Registry} {ev : NetEvent} {stream : BoxedStream}
    {bytes : List UInt8} : .write stream bytes ∉ (reg.handleEvent ev).2 := fun h ↦ by
  cases ev with
  | received | error => cases List.mem_singleton.mp h
  | closed id =>
    simp only [Registry.handleEvent, Registry.onClosedEvent] at h
    split_ifs at h
    · exact (List.mem_append.mp h).elim unwritten_dropStream (by simp [say])
    · cases h
  | renamed => cases h

theorem unwritten_handleCommand {reg : Registry} {cmd : Command}
    (hother : ∀ token bytes, cmd ≠ .send token bytes) {stream : BoxedStream} {bytes : List UInt8} :
    .write stream bytes ∉ (reg.handleCommand env cmd).effects := fun h ↦ by
  have hopen : ∀ id endpoint path, .write stream bytes ∉
      (reg.openServer env id endpoint path).effects := by
    intro id endpoint path
    unfold Registry.openServer
    cases env.bind endpoint <;> simp [say]
  cases cmd with
  | openTcpServer | openIpcServer =>
    simp only [Registry.handleCommand] at h
    split_ifs at h
    · cases h
    · exact hopen _ _ _ h
  | openTcpClient localPort remoteHost remotePort =>
    simp only [Registry.handleCommand] at h
    split_ifs at h
    · cases h
    · cases hc : env.connect (.tcp localPort remoteHost remotePort) <;>
        simp [hc, say, spawnStream] at h
  | openIpcClient remotePath =>
    simp only [Registry.handleCommand] at h
    cases hc : env.connect (.ipc remotePath) <;> simp [hc, say, spawnStream] at h
  | close token =>
    simp only [Registry.handleCommand] at h
    cases hr : reg.resolveId token defaultTokenParser with
    | error e =>
      rw [hr] at h
      cases h
    | ok id =>
      simp only [hr] at h
      split_ifs at h
      · exact (List.mem_append.mp h).elim unwritten_dropServer (by simp [say])
      · exact (List.mem_append.mp h).elim unwritten_dropStream (by simp [say])
      · cases h
  | send token bytes => exact hother token bytes rfl
  | label token name =>
    simp only [Registry.handleCommand] at h
    cases hr : reg.resolveId token defaultTokenParser <;>
    · rw [hr] at h
      cases h
  | status => cases h

/-- Only the `send` command leads to writes. -/
theorem unwritten_handleInput {reg : Registry}
    (hother : ∀ token bytes, input ≠ .command (.send token bytes)) {stream : BoxedStream}
    {bytes : List UInt8} : .write stream bytes ∉ (reg.handleInput env input).effects := by
  cases input with
  | shutdown => exact unwritten_shutdown
  | event ev => exact unwritten_handleEvent
  | command cmd => exact unwritten_handleCommand fun token bytes he ↦ hother token bytes (he ▸ rfl)
  | accepted parent child peerInfo stream' =>
    unfold Registry.handleInput
    cases hb : Registry.acceptedBase parent child with
    | none => simp [Registry.handleAccepted_of_no_base hb, Handling.effects, say]
    | some b =>
      simp only [Registry.handleAccepted_of_base hb]
      cases reg.allocate b with
      | none => exact List.not_mem_nil
      | some allocated => exact unwritten_register

theorem sends_handleCommand {reg : Registry} {token : String} {bytes : List UInt8} {e : Effect}
    (h : e ∈ (reg.handleCommand env (.send token bytes)).effects) : reg.Sends e := by
  simp only [Registry.handleCommand] at h
  cases hr : reg.resolveId token defaultTokenParser with
  | error err =>
    rw [hr] at h
    cases h
  | ok id =>
    simp only [hr] at h
    cases hs : (reg.sendBytes env (reg.entryOf token id) bytes).1 <;>
    · simp only [hs] at h
      exact Registry.sends_of_mem_sendBytes h

theorem attended_of_reachable {w : World} (hw : Reachable registrySystem w) :
    w.phase = .running → Attended w.reg w.log := by
  refine Reachable.invariant (P := fun w ↦ w.phase = .running → Attended w.reg w.log) ?_ ?_ hw
  · intro s hi _
    cases hi
    exact ⟨fun _ _ h ↦ (by cases h), fun _ _ h ↦ (by cases h), fun _ h ↦ (by cases h)⟩
  · intro s a t hr h hstep hrunning
    obtain ⟨env, input⟩ := a
    obtain ⟨hbefore, hfresh, rfl⟩ := hstep
    cases hh : s.reg.handleInput env input with
    | running reg' effects reply =>
      rw [handle_running hh]
      exact (h hbefore).change hr hfresh (Registry.handleInput_change hh)
    | stopped | panicked =>
      simp only [World.handle, hh] at hrunning
      cases hrunning

end Runs

/-- In every run, bytes are only ever written to a stream between the start of its
read task and the abort of that task: never after it was closed, and never before
it was opened. -/
theorem writes_open_of_reachable {w : World} (hw : Reachable registrySystem w) :
    WritesOpen w.log := by
  refine Reachable.invariant (P := fun w ↦ WritesOpen w.log) ?_ ?_ hw
  · intro s hi before stream bytes after h
    cases hi
    simp [World.initial] at h
  · intro s a t hr h hstep
    obtain ⟨env, input⟩ := a
    obtain ⟨hrunning, -, rfl⟩ := hstep
    rw [log_handle]
    by_cases hsend : ∃ token bytes, input = .command (.send token bytes)
    · obtain ⟨token, bytes, rfl⟩ := hsend
      exact h.send (attended_of_reachable hr hrunning) fun e he ↦ sends_handleCommand he
    · exact h.append_unwritten fun stream bytes ↦
        unwritten_handleInput fun token bytes he ↦ hsend ⟨token, bytes, he⟩

theorem writes_open_after_close :
    ∃ w, World.initial.play (fun _ _ ↦ true) [.command (.openTcpServer 3000),
        tcpHandoff 3000 10015 7, tcpHandoff 3000 10016 8, .command (.send "3000.10015" [1]),
        .command (.close "3000.10015"), .command (.label "3000.10016" "peer"),
        .command (.send "peer" [2])] = some w ∧
      .write 7 [1] ∈ w.log ∧ .write 8 [2] ∈ w.log ∧ WritesOpen w.log := by
  have hrun : ∃ w ∈ World.initial.play (fun _ _ ↦ true) [.command (.openTcpServer 3000),
      tcpHandoff 3000 10015 7, tcpHandoff 3000 10016 8, .command (.send "3000.10015" [1]),
      .command (.close "3000.10015"), .command (.label "3000.10016" "peer"),
      .command (.send "peer" [2])],
      .write 7 [1] ∈ w.log ∧ .write 8 [2] ∈ w.log := by decide +kernel
  obtain ⟨w, hw, h₁, h₂⟩ := hrun
  exact ⟨w, hw, h₁, h₂, writes_open_of_reachable (reachable_play hw)⟩

end WireDock
