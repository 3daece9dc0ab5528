import WireDock.Registry.Provenance
import WireDock.System.Mailbox

namespace WireDock

open FiniteMap LabelledSystem

def Base.Names : Base → PeerInfo → Prop
  | tcp _ remotePort, peer => ∃ addr, peer = .tcpSocket addr ∧ parseRemotePort addr = some remotePort
  | ipc _ pid, peer => peer = .ipcPid pid

/-- What an id says about the other end: an accepted one the port or the pid it came
from, a client one that it was opened to there. -/
def Identified (log : List Effect) : ConnectionId → Option PeerInfo → Prop
  | .acceptedTcp port remotePort _, peer => ∃ p ∈ peer, (Base.tcp port remotePort).Names p
  | .acceptedIpc path pid _, peer => ∃ p ∈ peer, (Base.ipc path pid).Names p
  | .tcpClient localPort, peer => ∃ host remotePort,
      peer = some (.tcpSocket s!"{host}:{remotePort}") ∧
        .connect (.tcp localPort host remotePort) ∈ log
  | .ipcClient _, peer => ∃ path, peer = some (.ipcRemotePath path) ∧ .connect (.ipc path) ∈ log
  | _, _ => False

theorem identified_accepted {log : List Effect} {b : Base} {d : Option UInt32}
    {peer : Option PeerInfo} : Identified log (b.accepted d) peer ↔ ∃ p ∈ peer, b.Names p := by
  cases b <;> rfl

theorem Identified.mono {log log' : List Effect} (hsub : ∀ e ∈ log, e ∈ log') {id : ConnectionId}
    {peer : Option PeerInfo} (h : Identified log id peer) : Identified log' id peer := by
  cases id with
  | acceptedTcp | acceptedIpc => exact h
  | tcpClient localPort =>
    obtain ⟨host, remotePort, hp, hc⟩ := h
    exact ⟨host, remotePort, hp, hsub _ hc⟩
  | ipcClient seq =>
    obtain ⟨path, hp, hc⟩ := h
    exact ⟨path, hp, hsub _ hc⟩
  | tcpServer | ipcServer => cases h

/-- An address as it is printed gives its port back. -/
theorem parseRemotePort_render (host : String) (port : UInt16) :
    parseRemotePort s!"{host}:{port}" = some port := by
  have htext : s!"{host}:{port}".toList = host.toList ++ ':' :: (toString port).toList := by
    simp [toString, String.toList_append]
  have hcolon : ':' ∉ (toString port).toList := by
    intro hm
    rw [toList_toString_u16] at hm
    cases Text.isDigit_of_mem_toString hm
  rw [parseRemotePort, htext, Text.splitLast_append hcolon, Option.bind_some, parseU16_toString]

def RegistryInput.Truthful : RegistryInput → Prop
  | .accepted parent child peerInfo _ =>
    ∀ b, Registry.acceptedBase parent child = some b → b.Names peerInfo
  | _ => True

theorem truthful_acceptMessage {server : ConnectionId} {answer : Except DomainError AcceptedStream}
    {input : RegistryInput} (h : acceptMessage server answer = some input) : input.Truthful := by
  unfold acceptMessage at h
  split at h
  · split at h
    · obtain ⟨remotePort, hp, rfl⟩ := Option.map_eq_some_iff.mp h
      intro b hb
      cases hb
      exact ⟨_, rfl, hp⟩
    · cases h
      intro b hb
      cases hb
      rfl
    · cases h
  · cases h
    trivial

def PeersNamed (reg : Registry) (log : List Effect) : Prop :=
  ∀ id h, reg.streams.lookup id = some h → Identified log id h.state.peerInfo

namespace PeersNamed

variable {reg reg' : Registry} {log effects : List Effect}

theorem vouched (h : PeersNamed reg log) (effects : List Effect) :
    Vouched (fun id peer _ ↦ Identified (log ++ effects) id peer) reg := fun id s hk ↦
  (h id s hk).mono fun _ he ↦ List.mem_append_left effects he

theorem change (h : PeersNamed reg log) (ht : Tracked reg) {env : Environment}
    {input : RegistryInput} (hinput : input.Truthful)
    (hc : Registry.Change env reg input effects reg') : PeersNamed reg' (log ++ effects) := by
  refine (h.vouched effects).change (fun b d d' _ _ hb ↦ ?_) ht hc ?_ ?_
  · exact identified_accepted.mpr (identified_accepted.mp hb)
  · rintro id endpoint peer seq stream cmd text ho - rfl
    have hconnect : .connect endpoint ∈ log ++ [.connect endpoint, .spawnRead env.spawn id stream,
        say text] := List.mem_append_right _ List.mem_cons_self
    cases cmd with
    | openTcpClient localPort remoteHost remotePort =>
      cases ho
      exact ⟨remoteHost, remotePort, rfl, hconnect⟩
    | openIpcClient remotePath =>
      cases ho
      exact ⟨remotePath, rfl, hconnect⟩
    | _ => cases ho
  · rintro parent tentative peer stream b rfl hb
    exact identified_accepted.mpr ⟨peer, rfl, hinput b hb⟩

end PeersNamed

section Runs

variable {capacity : ℕ} {m : Machine}

theorem truthful_of_reachable {ok : Machine → Action → Prop}
    (hm : ReachableBy (machineSystem capacity) ok m) :
    ∀ msg ∈ m.queue, msg.input.Truthful := by
  refine machine_invariant (P := fun m ↦ ∀ msg ∈ m.queue, msg.input.Truthful) ?_ ?_ hm
  · intro m hi msg hmem
    rw [hi.queue] at hmem
    cases hmem
  intro m a m' _ h _ hstep
  have hsent : ∀ {msg : Message}, msg.input.Truthful →
      ∀ new ∈ m.queue ++ [msg], new.input.Truthful := by
    intro msg hmsg new hmem
    rcases List.mem_append.mp hmem with hmem | hmem
    · exact h new hmem
    · rwa [List.mem_singleton.mp hmem]
  cases hstep with
  | command | interrupt | forward => exact hsent trivial
  | handOver _ _ _ hinput => exact hsent (truthful_acceptMessage hinput)
  | accept | read => exact h
  | handle hqueue => exact fun msg hmem ↦ h msg (hqueue ▸ List.mem_cons_of_mem _ hmem)

theorem peersNamed_of_reachable (hm : Reachable (machineSystem capacity) m) :
    PeersNamed m.world.reg m.world.log := by
  have hok : ReachableBy (machineSystem capacity)
      (fun m _ ↦ ∀ msg ∈ m.queue, msg.input.Truthful) m :=
    Reachable.reachableBy (fun _ _ _ hr _ ↦ truthful_of_reachable hr) hm
  have hw : ReachableBy registrySystem (fun _ a ↦ a.2.Truthful) m.world := by
    refine world_reachable (fun m a hq p hp ↦ ?_) hok
    cases a with
    | handle answers =>
      obtain ⟨msg, hmsg, rfl⟩ := Option.map_eq_some_iff.mp hp
      exact hq msg (List.mem_of_mem_head? hmsg)
    | _ => cases hp
  refine registry_invariant (P := PeersNamed) (fun _ _ h ↦ by cases h) ?_
    (fun order _ _ id h ↦ (h.vouched _).dropServer order id)
    (fun _ _ id h ↦ (h.vouched _).dropStream id) hw
  intro w env input effects reg' hr h hinput _ hc
  exact h.change (tracked_of_reachable hr) hinput hc

end Runs

end WireDock
