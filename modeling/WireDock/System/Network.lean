import WireDock.Infra.AcceptLoop
import WireDock.System.Identity
import WireDock.System.Intake

namespace WireDock

open Asking FiniteMap LabelledSystem

/-- The calls to the network that the registry task has made in `connect`, and those
that each accept task has made. -/
structure NetCalls where
  dials : List NetCall
  accepts : JoinHandle → List NetCall

namespace NetCalls

def none : NetCalls := ⟨[], fun _ ↦ []⟩

def dial (calls : NetCalls) (more : List NetCall) : NetCalls :=
  { calls with dials := calls.dials ++ more }

def accept (calls : NetCalls) (task : JoinHandle) (more : List NetCall) : NetCalls :=
  { calls with accepts := Function.update calls.accepts task (calls.accepts task ++ more) }

structure Grown (calls calls' : NetCalls) : Prop where
  dials : calls.dials <+: calls'.dials
  accepts : ∀ task, calls.accepts task <+: calls'.accepts task

variable {calls : NetCalls} {more : List NetCall}

theorem grown_dial : calls.Grown (calls.dial more) :=
  ⟨List.prefix_append _ _, fun _ ↦ List.prefix_refl _⟩

theorem accepts_accept (task t : JoinHandle) : (calls.accept task more).accepts t =
    if t = task then calls.accepts task ++ more else calls.accepts t := Function.update_apply ..

theorem grown_accept (task : JoinHandle) : calls.Grown (calls.accept task more) := by
  refine ⟨List.prefix_refl _, fun t ↦ ?_⟩
  rw [accepts_accept]
  split_ifs with ht
  · exact ht ▸ List.prefix_append _ _
  · exact List.prefix_refl _

end NetCalls

structure Network where
  machine : Machine
  calls : NetCalls

/-- The steps of the machine, where the network answers each call of its own. -/
inductive NetworkAction
  | command (cmd : Command)
  | interrupt
  | accept (task : JoinHandle) (answer : AcceptAnswer)
  | handOver (task : JoinHandle)
  | read (task : JoinHandle) (answer : Except String (List UInt8))
  | forward (task : JoinHandle)
  | handle (answer : ConnectAnswer) (answers : Answers)

def Answers.dialling (answers : Answers) (answer : ConnectAnswer) : Answers :=
  { answers with connect := fun endpoint ↦ (TokioConnector.connect answer endpoint).result }

def Effect.calls (answer : ConnectAnswer) : Effect → List NetCall
  | connect endpoint => (TokioConnector.connect answer endpoint).calls
  | _ => []

namespace Network

variable (capacity : ℕ) (n : Network)

def server (task : JoinHandle) : Option ConnectionId :=
  n.machine.world.log.findSome? (Effect.acceptor task)

def action : NetworkAction → Option Action
  | .command cmd => some (.command cmd)
  | .interrupt => some .interrupt
  | .accept task answer =>
    (n.server task).map fun server ↦ .accept task (AcceptLoop.accept task answer server).result
  | .handOver task => some (.handOver task)
  | .read task answer => some (.read task answer)
  | .forward task => some (.forward task)
  | .handle answer answers => some (.handle (answers.dialling answer))

def asked (machine : Machine) : NetworkAction → NetCalls
  | .accept task answer => n.calls.accept task <|
    ((n.server task).map fun server ↦ (AcceptLoop.accept task answer server).calls).getD []
  | .handle answer _ => n.calls.dial <|
    (machine.world.log.drop n.machine.world.log.length).flatMap (Effect.calls answer)
  | _ => n.calls

def next (a : NetworkAction) : Option Network := do
  let machine ← (n.action a).bind (n.machine.next capacity)
  return ⟨machine, n.asked machine a⟩

end Network

def networkSystem (capacity : ℕ) : System Network NetworkAction :=
  .ofNext (fun n ↦ n.machine.Initial ∧ n.calls = .none) (Network.next capacity)

section Steps

variable {capacity : ℕ} {n n' : Network} {a : NetworkAction}

theorem machine_step (h : n.next capacity a = some n') :
    ∃ b ∈ n.action a, ∃ machine, n.machine.next capacity b = some machine ∧
      n' = ⟨machine, n.asked machine a⟩ := by
  obtain ⟨machine, hm, h⟩ := Option.bind_eq_some_iff.mp h
  obtain ⟨b, hb, hm⟩ := Option.bind_eq_some_iff.mp hm
  exact ⟨b, hb, machine, hm, (Option.some.inj h).symm⟩

/-- Every run over the network is a run of the machine. -/
theorem Network.machine_reachable (hr : Reachable (networkSystem capacity) n) :
    Reachable (machineSystem capacity) n.machine := by
  have hproj : Projection (networkSystem capacity) (machineSystem capacity) Network.machine := by
    refine ⟨fun _ h ↦ h.1, fun n a n' h ↦ ?_⟩
    obtain ⟨b, -, machine, hb, rfl⟩ := machine_step h
    exact .inl ⟨b, hb⟩
  exact hproj.reachable hr

end Steps

/-- The calls that opened a socket, by the id and the peer it is filed under: those
of the registry task for a client, those of the accept task for a connection. -/
def Origin (calls : NetCalls) (log : List Effect) :
    ConnectionId → Option PeerInfo → BoxedStream → Prop
  | .tcpClient localPort, peer, stream => ∃ host remotePort remote others,
      peer = some (.tcpSocket s!"{host}:{remotePort}") ∧
        dialCalls localPort host remotePort remote others (.ok stream) <:+: calls.dials
  | .ipcClient _, peer, stream => ∃ path,
      peer = some (.ipcRemotePath path) ∧ .connectUnix path (.ok stream) ∈ calls.dials
  | .acceptedTcp port remotePort _, peer, stream => ∃ task listener addr,
      .spawnAccept task (.tcpServer port) listener ∈ log ∧
        .accept task (.ok (stream, addr)) ∈ calls.accepts task ∧ addr.port = remotePort ∧
        peer = some (.tcpSocket addr.display)
  | .acceptedIpc path pid _, peer, stream => ∃ task listener,
      .spawnAccept task (.ipcServer path) listener ∈ log ∧
        [.acceptUnix task (.ok stream), .peerCred stream (.ok (some pid))] <:+:
          calls.accepts task ∧
        peer = some (.ipcPid pid)
  | _, _, _ => False

namespace Origin

variable {calls calls' : NetCalls} {log : List Effect} {peer : Option PeerInfo}
  {stream : BoxedStream}

theorem base (b : Base) (d d' : Option UInt32) (h : Origin calls log (b.accepted d) peer stream) :
    Origin calls log (b.accepted d') peer stream := by
  cases b <;> exact h

theorem mono {id : ConnectionId} (h : Origin calls log id peer stream) {log' : List Effect}
    (hlog : ∀ e ∈ log, e ∈ log') (hcalls : calls.Grown calls') :
    Origin calls' log' id peer stream := by
  cases id with
  | tcpClient localPort =>
    obtain ⟨host, remotePort, remote, others, hpeer, hdial⟩ := h
    exact ⟨host, remotePort, remote, others, hpeer, hdial.trans hcalls.dials.isInfix⟩
  | ipcClient seq =>
    obtain ⟨path, hpeer, hconnect⟩ := h
    exact ⟨path, hpeer, hcalls.dials.mem hconnect⟩
  | acceptedTcp port remotePort d =>
    obtain ⟨task, listener, addr, hspawn, haccept, hport, hpeer⟩ := h
    exact ⟨task, listener, addr, hlog _ hspawn, (hcalls.accepts task).mem haccept, hport, hpeer⟩
  | acceptedIpc path pid d =>
    obtain ⟨task, listener, hspawn, haccept, hpeer⟩ := h
    exact ⟨task, listener, hlog _ hspawn, haccept.trans (hcalls.accepts task).isInfix, hpeer⟩
  | tcpServer | ipcServer => cases h

end Origin

def RegistryInput.Traceable (calls : NetCalls) (log : List Effect) (input : RegistryInput) : Prop :=
  ∀ parent child peer stream b, input = .accepted parent child peer stream →
    Registry.acceptedBase parent child = some b →
      Origin calls log (b.accepted none) (some peer) stream

theorem RegistryInput.Traceable.mono {calls calls' : NetCalls} {log log' : List Effect}
    {input : RegistryInput} (h : input.Traceable calls log) (hlog : ∀ e ∈ log, e ∈ log')
    (hcalls : calls.Grown calls') : input.Traceable calls' log' :=
  fun _ _ _ _ b hi hb ↦ (h _ _ _ _ b hi hb).mono hlog hcalls

section Accepting

variable {calls : NetCalls} {log : List Effect} {server : ConnectionId} {task : JoinHandle}
  {listener : AcceptLoop} {answer : AcceptAnswer}

theorem exists_display_eq (addr : SocketAddr) :
    ∃ host : String, addr.display = s!"{host}:{addr.port}" := by
  cases addr with
  | v4 ip port => exact ⟨ip, rfl⟩
  | v6 ip scopeId port =>
    by_cases hs : scopeId = 0
    · refine ⟨s!"[{ip}]", ?_⟩
      simp [SocketAddr.display, SocketAddr.port, hs, toString, ← String.toList_inj]
    · refine ⟨s!"[{ip}%{scopeId}]", ?_⟩
      simp [SocketAddr.display, SocketAddr.port, hs, toString, ← String.toList_inj]

theorem parseRemotePort_display (addr : SocketAddr) :
    parseRemotePort addr.display = some addr.port := by
  obtain ⟨host, hdisplay⟩ := exists_display_eq addr
  rw [hdisplay, parseRemotePort_render]

theorem traceable_accept {input : RegistryInput}
    (hspawn : .spawnAccept task server listener ∈ log)
    (h : acceptMessage server (AcceptLoop.accept task answer server).result = some input) :
    input.Traceable (calls.accept task (AcceptLoop.accept task answer server).calls) log := by
  rintro parent child peer stream b rfl hb
  have hcalls : (AcceptLoop.accept task answer server).calls <:+:
      (calls.accept task (AcceptLoop.accept task answer server).calls).accepts task := by
    rw [NetCalls.accepts_accept, if_pos rfl]
    exact (List.suffix_append _ _).isInfix
  cases hr : (AcceptLoop.accept task answer server).result with
  | error e =>
    rw [hr] at h
    cases h
  | ok accepted =>
    have hyields := yields_of_result hr
    rw [hr] at h
    cases server with
    | tcpServer port =>
      obtain ⟨addr, hpeer, hlog⟩ := AcceptLoop.acceptTcp_yields hyields
      obtain ⟨stream', peer'⟩ := accepted
      cases hpeer
      simp only [acceptMessage, parseRemotePort_display, Option.map_some, Option.some.injEq,
        RegistryInput.accepted.injEq] at h
      obtain ⟨rfl, rfl, rfl, rfl, rfl⟩ := h
      cases hb
      refine ⟨task, listener, addr, hspawn, hcalls.mem ?_, rfl, rfl⟩
      exact hlog ▸ List.mem_singleton_self _
    | ipcServer path =>
      obtain ⟨pid, hpeer, hlog⟩ := AcceptLoop.acceptIpc_yields hyields
      obtain ⟨stream', peer'⟩ := accepted
      cases hpeer
      cases h
      cases hb
      exact ⟨task, listener, hspawn, hlog ▸ hcalls, rfl⟩
    | _ => cases h

theorem result_acceptIpc {path : PathBuf} {stream : BoxedStream}
    (haccept : answer.acceptUnix = .ok stream) :
    (AcceptLoop.accept task answer (.ipcServer path)).result =
      ((peerPid (answer.peerCred stream)).mapError fun e ↦ peerCredError e.message).map
        fun pid ↦ ⟨stream, .ipcPid pid⟩ := by
  obtain ⟨tcp, unix, cred⟩ := answer
  cases haccept
  change (StateT.run (AcceptLoop.withPeerPid stream (cred stream)).run
    [.acceptUnix task (.ok stream)]).1 =
      ((peerPid (cred stream)).mapError fun e ↦ peerCredError e.message).map _
  rcases cred stream with e | _ | pid <;> rfl

/-- The loops of `TokioListener` only answer what an accept task can send on. -/
theorem acceptMessage_accept (task : JoinHandle) (answer : AcceptAnswer)
    (hserver : server.isServer = true) :
    ∃ input, acceptMessage server (AcceptLoop.accept task answer server).result = some input ∧
      input.handoff = answer.handed server ∧
      (answer.handed server = none → ∃ e,
        (AcceptLoop.accept task answer server).result = .error e ∧
          input = .event (.error server s!"accept failed: {e}")) := by
  cases server with
  | tcpServer port =>
    obtain ⟨tcp, unix, cred⟩ := answer
    rcases tcp with e | ⟨stream, addr⟩
    · exact ⟨_, rfl, rfl, fun _ ↦ ⟨_, rfl, rfl⟩⟩
    · refine ⟨.accepted (.tcpServer port) (.acceptedTcp port addr.port none)
        (.tcpSocket addr.display) stream, ?_, rfl, fun h ↦ by cases h⟩
      change (parseRemotePort addr.display).map _ = _
      rw [parseRemotePort_display, Option.map_some]
  | ipcServer path =>
    cases haccept : answer.acceptUnix with
    | error e =>
      obtain ⟨tcp, unix, cred⟩ := answer
      cases haccept
      exact ⟨_, rfl, rfl, fun _ ↦ ⟨_, rfl, rfl⟩⟩
    | ok stream =>
      rw [result_acceptIpc haccept]
      simp only [AcceptAnswer.handed, haccept]
      rcases answer.peerCred stream with e | _ | pid
      · exact ⟨_, rfl, rfl, fun _ ↦ ⟨_, rfl, rfl⟩⟩
      · exact ⟨_, rfl, rfl, fun _ ↦ ⟨_, rfl, rfl⟩⟩
      · exact ⟨_, rfl, rfl, fun h ↦ by cases h⟩
  | _ => cases hserver

/-- An opened client has its socket from the dialling of its own command. -/
theorem origin_opened {reg : Registry} {cmd : Command} {id : ConnectionId} {endpoint : Endpoint}
    {peer : PeerInfo} {seq : UInt32} {stream : BoxedStream} {net : ConnectAnswer}
    (ho : reg.opensClient cmd = some (id, endpoint, peer, seq))
    (hconnect : (TokioConnector.connect net endpoint).result = .ok stream) :
    Origin (calls.dial (TokioConnector.connect net endpoint).calls) log id (some peer) stream := by
  have hyields := yields_of_result hconnect
  have hcalls : (TokioConnector.connect net endpoint).calls <:+:
      (calls.dial (TokioConnector.connect net endpoint).calls).dials :=
    (List.suffix_append _ _).isInfix
  cases cmd with
  | openTcpClient localPort remoteHost remotePort =>
    cases ho
    obtain ⟨remote, others, hlog⟩ := TokioConnector.connectTcp_yields hyields
    exact ⟨remoteHost, remotePort, remote, others, rfl, hlog ▸ hcalls⟩
  | openIpcClient remotePath =>
    cases ho
    have hlog := TokioConnector.connectIpc_yields hyields
    exact ⟨remotePath, rfl, hcalls.mem (hlog ▸ List.mem_singleton_self _)⟩
  | _ => cases ho

end Accepting

theorem vouched_append {calls : NetCalls} {log : List Effect} {reg : Registry} {k : ℕ}
    {net : ConnectAnswer}
    (h : Vouched (Origin (calls.dial ((log.drop k).flatMap (Effect.calls net))) log) reg)
    (effects : List Effect) :
    Vouched (Origin (calls.dial (((log ++ effects).drop k).flatMap (Effect.calls net)))
      (log ++ effects)) reg := by
  refine h.mono fun _ _ _ ho ↦
    ho.mono (fun _ he ↦ List.mem_append_left _ he) ⟨?_, fun _ ↦ List.prefix_refl _⟩
  rw [List.drop_append, List.flatMap_append, NetCalls.dial, NetCalls.dial, ← List.append_assoc]
  exact List.prefix_append _ _

/-- Every open socket has its origin, and so has every one that waits in the channel
or that an accept task holds. -/
structure Network.Traced (n : Network) : Prop where
  opened : Vouched (Origin n.calls n.machine.world.log) n.machine.world.reg
  queued : ∀ msg ∈ n.machine.queue, msg.input.Traceable n.calls n.machine.world.log
  held : ∀ task answer, n.machine.acceptors task = some answer → ∃ server,
    n.server task = some server ∧ ∀ input, acceptMessage server answer = some input →
      input.Traceable n.calls n.machine.world.log

namespace Network.Traced

variable {capacity : ℕ} {n : Network} {machine : Machine} {calls : NetCalls}

theorem enqueue (h : n.Traced) {msg : Message}
    (hmsg : msg.input.Traceable n.calls n.machine.world.log) :
    Traced ⟨n.machine.enqueue msg, n.calls⟩ where
  opened := h.opened
  queued msg' hmem := by
    rcases List.mem_append.mp hmem with hmem | hmem
    · exact h.queued msg' hmem
    · rwa [List.mem_singleton.mp hmem]
  held := h.held

theorem setReader (h : n.Traced) (task : JoinHandle) (reader : Reader) :
    Traced ⟨n.machine.setReader task reader, n.calls⟩ := ⟨h.opened, h.queued, h.held⟩

theorem released (h : n.Traced) (task : JoinHandle) :
    Traced ⟨n.machine.setAcceptor task none, n.calls⟩ where
  opened := h.opened
  queued := h.queued
  held t answer hmet := by
    simp only [Machine.setAcceptor, Function.update_apply] at hmet
    split_ifs at hmet
    exact h.held t answer hmet

theorem accept (h : n.Traced) {task : JoinHandle} {answer : AcceptAnswer} {server : ConnectionId}
    (hserver : n.server task = some server) :
    Traced ⟨n.machine.setAcceptor task
        ((acceptMessage server (AcceptLoop.accept task answer server).result).map
          fun _ ↦ (AcceptLoop.accept task answer server).result),
      n.calls.accept task (AcceptLoop.accept task answer server).calls⟩ where
  opened := h.opened.mono fun _ _ _ ho ↦ ho.mono (fun _ he ↦ he) (NetCalls.grown_accept task)
  queued msg hmem := (h.queued msg hmem).mono (fun _ he ↦ he) (NetCalls.grown_accept task)
  held t met hmet := by
    simp only [Machine.setAcceptor, Function.update_apply] at hmet
    split_ifs at hmet with ht
    · subst ht
      obtain ⟨input, -, rfl⟩ := Option.map_eq_some_iff.mp hmet
      obtain ⟨listener, hspawn⟩ := Machine.acceptor_eq_some hserver
      exact ⟨server, hserver, fun _ hinput ↦ traceable_accept hspawn hinput⟩
    · obtain ⟨sid, hsid, hinput⟩ := h.held t met hmet
      exact ⟨sid, hsid, fun input hi ↦
        (hinput input hi).mono (fun _ he ↦ he) (NetCalls.grown_accept task)⟩

theorem handle (h : n.Traced) (hr : Reachable (networkSystem capacity) n)
    {net : ConnectAnswer} {answers : Answers} {msg : Message} {rest : List Message}
    (hqueue : n.machine.queue = msg :: rest) :
    let machine := n.machine.handle (answers.dialling net) msg.input rest
    Traced ⟨machine, n.asked machine (.handle net answers)⟩ := by
  intro machine
  have htracked : Tracked n.machine.world.reg :=
    tracked_of_reachable (world_reachable_any (Network.machine_reachable hr))
  have hlog : machine.world.log = n.machine.world.log ++ (n.machine.world.reg.handleInput
      ((answers.dialling net).environment n.machine.fs) msg.input).effects := log_handle _ _ _
  have hkept : ∀ e ∈ n.machine.world.log, e ∈ machine.world.log := fun e he ↦
    hlog ▸ List.mem_append_left _ he
  refine ⟨?_, fun msg' hmem ↦ ?_, fun task answer hmet ↦ ?_⟩
  · refine handle_invariant
      (P := fun reg log ↦ Vouched (Origin
        (n.calls.dial ((log.drop n.machine.world.log.length).flatMap (Effect.calls net))) log) reg)
      ?_ (fun effects reg' hc ↦ ?_) (fun order reg log id h ↦ ?_) fun reg log id h ↦ ?_
    · exact h.opened.mono fun _ _ _ ho ↦ ho.mono (fun _ he ↦ he) NetCalls.grown_dial
    · have hbefore : Vouched (Origin (n.calls.dial (effects.flatMap (Effect.calls net)))
          (n.machine.world.log ++ effects)) n.machine.world.reg :=
        h.opened.mono fun _ _ _ ho ↦
          ho.mono (fun _ he ↦ List.mem_append_left _ he) NetCalls.grown_dial
      rw [List.drop_left]
      refine hbefore.change (fun b d d' _ _ ↦ .base b d d') htracked hc ?_ ?_
      · rintro id endpoint peer seq stream cmd text ho hconnect rfl
        have hcalls : [.connect endpoint, .spawnRead answers.spawn id stream, say text].flatMap
            (Effect.calls net) = (TokioConnector.connect net endpoint).calls := by
          simp [Effect.calls, say]
        exact hcalls ▸ origin_opened ho hconnect
      · intro parent tentative peer stream b hi hb
        exact (h.queued msg (hqueue ▸ List.mem_cons_self) _ _ _ _ b hi hb).mono
          (fun _ he ↦ List.mem_append_left _ he) NetCalls.grown_dial
    · exact (vouched_append h _).dropServer order id
    · exact (vouched_append h _).dropStream id
  · exact (h.queued msg' (hqueue ▸ List.mem_cons_of_mem _ hmem)).mono hkept NetCalls.grown_dial
  · obtain ⟨server, hserver, hinput⟩ := h.held task answer hmet
    refine ⟨server, ?_, fun input hi ↦ (hinput input hi).mono hkept NetCalls.grown_dial⟩
    have hstill : machine.world.log.findSome? (Effect.acceptor task) = some server := by
      rw [hlog, List.findSome?_append, ← Network.server, hserver, Option.some_or]
    exact hstill

end Network.Traced

/-- Whoever is connected to, the calls before have found the address and bound a socket
of its family to the local port, for a command to connect there. -/
def Guarded (log : List Effect) (calls : List NetCall) : Prop :=
  ∀ before addr tried after, calls = before ++ .connect addr tried :: after →
    ∃ localPort host remotePort others, .connect (.tcp localPort host remotePort) ∈ log ∧
      dialCalls localPort host remotePort addr others tried <:+ before ++ [.connect addr tried]

namespace Guarded

variable {log log' : List Effect} {calls calls' : List NetCall}

theorem of_not_mem (h : ∀ addr tried, .connect addr tried ∉ calls) : Guarded log calls := by
  rintro before addr tried after rfl
  exact (h addr tried (List.mem_append_right _ List.mem_cons_self)).elim

theorem append (h : Guarded log calls) (h' : Guarded log calls') :
    Guarded log (calls ++ calls') := by
  intro before addr tried after he
  rcases List.append_eq_append_iff.mp he with ⟨mid, rfl, hmid⟩ | ⟨mid, rfl, hmid⟩
  · obtain ⟨localPort, host, remotePort, others, hlog, hs⟩ := h' mid addr tried after hmid
    refine ⟨localPort, host, remotePort, others, hlog, ?_⟩
    rw [List.append_assoc]
    exact hs.trans (List.suffix_append _ _)
  · cases mid with
    | nil =>
      obtain ⟨localPort, host, remotePort, others, hlog, hs⟩ := h' [] addr tried after hmid.symm
      refine ⟨localPort, host, remotePort, others, hlog, ?_⟩
      exact hs.trans (List.suffix_append before _)
    | cons c mid =>
      obtain ⟨rfl, -⟩ := List.cons.inj hmid
      exact h before addr tried mid rfl

theorem mono (h : Guarded log calls) (hlog : ∀ e ∈ log, e ∈ log') : Guarded log' calls := by
  intro before addr tried after he
  obtain ⟨localPort, host, remotePort, others, hmem, hs⟩ := h before addr tried after he
  exact ⟨localPort, host, remotePort, others, hlog _ hmem, hs⟩

theorem effect {net : ConnectAnswer} {e : Effect} (he : e ∈ log) : Guarded log (e.calls net) := by
  cases e with
  | connect endpoint =>
    cases endpoint with
    | ipc path => exact of_not_mem fun addr tried hm ↦ by cases List.mem_singleton.mp hm
    | tcp localPort host remotePort =>
      intro before addr tried after hcalls
      obtain ⟨others, hdial⟩ := TokioConnector.connectTcp_calls hcalls
      exact ⟨localPort, host, remotePort, others, he, hdial ▸ List.suffix_rfl⟩
  | _ => exact of_not_mem fun _ _ hm ↦ by cases hm

theorem effects {net : ConnectAnswer} {effects : List Effect} (h : ∀ e ∈ effects, e ∈ log) :
    Guarded log (effects.flatMap (Effect.calls net)) := by
  induction effects with
  | nil => exact of_not_mem fun _ _ hm ↦ by cases hm
  | cons e effects ih =>
    obtain ⟨he, heffects⟩ := List.forall_mem_cons.mp h
    exact (effect he).append (ih heffects)

end Guarded

section Play

def ConnectAnswer.granting (addrs : List SocketAddr) (stream : BoxedStream) : ConnectAnswer where
  lookupHost _ := .ok addrs
  newSocket _ := .ok ()
  bind _ := .ok ()
  connect _ := .ok stream
  connectUnix _ := .ok stream

def AcceptAnswer.granting (addr : SocketAddr) (stream : BoxedStream) : AcceptAnswer where
  accept := .ok (stream, addr)
  acceptUnix := .ok stream
  peerCred _ := .ok none

theorem reachable_of_network_run {capacity : ℕ} {fs : FileSystem} {actions : List NetworkAction}
    {n : Network}
    (hr : run (Network.next capacity) (fun _ _ ↦ true) ⟨.idle fs, .none⟩ actions = some n) :
    Reachable (networkSystem capacity) n :=
  reachableBy_run (fun _ _ _ ↦ trivial) (.init ⟨⟨rfl, rfl, rfl, rfl, rfl⟩, rfl⟩) hr

end Play

section Runs

variable {capacity : ℕ} {n : Network}

/-- A step of the registry task dials what its commands name; any other one dials nobody. -/
theorem dials_step {n' : Network} {a : NetworkAction} (hn : n.next capacity a = some n') :
    n'.machine.world.log = n.machine.world.log ∧ n'.calls.dials = n.calls.dials ∨
      ∃ net effects, n'.machine.world.log = n.machine.world.log ++ effects ∧
        n'.calls.dials = n.calls.dials ++ effects.flatMap (Effect.calls net) := by
  obtain ⟨b, hb, machine, hmachine, rfl⟩ := machine_step hn
  cases a with
  | handle net answers =>
    obtain ⟨effects, hlog⟩ := prefix_log_step (Machine.step_of_next hmachine)
    refine .inr ⟨net, effects, hlog.symm, ?_⟩
    simp only [Network.asked, NetCalls.dial, ← hlog, List.drop_left]
  | accept task answer =>
    obtain ⟨server, -, rfl⟩ := Option.map_eq_some_iff.mp hb
    cases Machine.step_of_next hmachine with
    | accept => exact .inl ⟨rfl, rfl⟩
  | _ =>
    cases hb
    cases Machine.step_of_next hmachine with
    | _ => exact .inl ⟨rfl, rfl⟩

theorem traced_of_reachable (hr : Reachable (networkSystem capacity) n) : n.Traced := by
  refine Reachable.invariant (P := Network.Traced) ?_ ?_ hr
  · rintro n ⟨⟨hworld, hqueue, -, hacceptors⟩, -⟩
    refine ⟨fun id s hl ↦ ?_, fun msg hmem ↦ ?_, fun task answer hmet ↦ ?_⟩
    · rw [hworld] at hl
      cases hl
    · rw [hqueue] at hmem
      cases hmem
    · rw [hacceptors] at hmet
      cases hmet
  intro n a n' hr h hn
  obtain ⟨b, hb, machine, hmachine, rfl⟩ := machine_step hn
  cases a with
  | command | interrupt =>
    cases hb
    cases Machine.eq_enqueue hmachine
    exact h.enqueue fun _ _ _ _ _ hi ↦ by cases hi
  | accept task answer =>
    obtain ⟨server, hserver, rfl⟩ := Option.map_eq_some_iff.mp hb
    cases Machine.step_of_next hmachine with
    | accept hserver' =>
      cases hserver.symm.trans hserver'
      have hasked : ∀ machine, n.asked machine (.accept task answer) =
          n.calls.accept task (AcceptLoop.accept task answer server).calls := by
        intro machine
        simp only [Network.asked, hserver, Option.map_some, Option.getD_some]
      rw [hasked]
      exact h.accept hserver
  | handOver task =>
    cases hb
    obtain ⟨answer, server, input, hmet, hserver, hinput, rfl⟩ := eq_of_handOver hmachine
    obtain ⟨server', hserver', htrace⟩ := h.held task answer hmet
    cases hserver.symm.trans hserver'
    exact (h.released task).enqueue (htrace input hinput)
  | read task answer =>
    cases hb
    cases Machine.step_of_next hmachine with
    | read => exact h.setReader task _
  | forward task =>
    cases hb
    cases Machine.step_of_next hmachine with
    | forward => exact (h.setReader task _).enqueue fun _ _ _ _ _ hi ↦ by cases hi
  | handle net answers =>
    cases hb
    cases Machine.step_of_next hmachine with
    | handle hqueue => exact h.handle hr hqueue

theorem guarded_of_reachable (hr : Reachable (networkSystem capacity) n) :
    Guarded n.machine.world.log n.calls.dials := by
  refine Reachable.invariant (P := fun n ↦ Guarded n.machine.world.log n.calls.dials) ?_ ?_ hr
  · rintro n ⟨-, hcalls⟩
    rw [hcalls]
    exact .of_not_mem fun _ _ hm ↦ by cases hm
  intro n a n' hr h hn
  rcases dials_step hn with ⟨hlog, hdials⟩ | ⟨net, effects, hlog, hdials⟩
  · rwa [hlog, hdials]
  · rw [hlog, hdials]
    exact (h.mono fun e he ↦ List.mem_append_left _ he).append
      (.effects fun e he ↦ List.mem_append_right _ he)

/-- In every state of every run each open socket comes from the calls its id and its peer
speak of: the registry task dialled a client from its own local port to the first address
found for its peer, an accepted connection was answered to an accept task of its server.
Nothing else is dialled: of the registry task's own calls each `connect` follows the
binding of the local port its command named. -/
theorem sockets_traced (hr : Reachable (networkSystem capacity) n) :
    (∀ id h, n.machine.world.reg.streams.lookup id = some h →
      Origin n.calls n.machine.world.log id h.state.peerInfo h.stream) ∧
    Guarded n.machine.world.log n.calls.dials :=
  ⟨(traced_of_reachable hr).opened, guarded_of_reachable hr⟩

theorem sockets_traced_after_dial :
    ∃ n h, Reachable (networkSystem 1024) n ∧
      n.machine.world.reg.streams.lookup (.tcpClient 4000) = some h ∧
      Origin n.calls n.machine.world.log (.tcpClient 4000) h.state.peerInfo h.stream ∧
      Guarded n.machine.world.log n.calls.dials := by
  have hrun : ∃ n ∈ run (Network.next 1024) (fun _ _ ↦ true) ⟨.idle .empty, .none⟩
      [.command (.openTcpServer 3000), .handle (.granting [] 0) (.granting 0 []),
        .accept 0 (.granting (.v6 "fe80::1" 2 10015) 7), .handOver 0,
        .handle (.granting [] 0) (.granting 1 []),
        .command (.openTcpClient 4000 "example.org" 80),
        .handle (.granting [.v6 "2001:db8::1" 0 80, .v4 "192.0.2.1" 80] 9) (.granting 2 [])],
      (n.machine.world.reg.streams.lookup (.tcpClient 4000)).isSome := by decide +kernel
  obtain ⟨n, hn, hs⟩ := hrun
  obtain ⟨h, hl⟩ := Option.isSome_iff_exists.mp hs
  have hr := reachable_of_network_run hn
  obtain ⟨horigin, hguarded⟩ := sockets_traced hr
  exact ⟨n, h, hr, hl, horigin _ h hl, hguarded⟩

theorem isServer_of_live {task : JoinHandle} {server : ConnectionId}
    (hr : Reachable (networkSystem capacity) n) (hserver : n.server task = some server)
    (hlive : .abort task ∉ n.machine.world.log) : server.isServer = true := by
  have hw := world_reachable_any (Network.machine_reachable hr)
  obtain ⟨listener, hspawn⟩ := Machine.acceptor_eq_some hserver
  rcases (serversOwned_of_reachable hw).accounted task server listener hspawn with
    habort | ⟨path, ho⟩
  · exact (hlive habort).elim
  · obtain ⟨srv, hsrv, -⟩ := Option.map_eq_some_iff.mp ho
    exact (wellFormed_of_reachable hw).isServer_of_mem (mem_of_lookup hsrv)

end Runs

end WireDock
