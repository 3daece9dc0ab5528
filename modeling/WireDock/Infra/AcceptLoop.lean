import WireDock.Infra.Connector

namespace WireDock

open Asking

/-- What the kernel answers where an accept task waits for one connection. -/
structure AcceptAnswer where
  accept : Except IoError (BoxedStream × SocketAddr)
  acceptUnix : Except IoError BoxedStream
  peerCred : BoxedStream → Except IoError (Option Int32)

def peerPid : Except IoError (Option Int32) → Except IoError Int32
  | .ok (some pid) => .ok pid
  | .ok none => .error ⟨.other, "peer_cred returned no pid"⟩
  | .error e => .error e

def AcceptAnswer.handed (answer : AcceptAnswer) : ConnectionId → Option (Base × BoxedStream)
  | .tcpServer port =>
    match answer.accept with
    | .ok (stream, addr) => some (.tcp port addr.port, stream)
    | .error _ => none
  | .ipcServer path =>
    match answer.acceptUnix with
    | .ok stream =>
      match answer.peerCred stream with
      | .ok (some pid) => some (.ipc path pid, stream)
      | _ => none
    | .error _ => none
  | _ => none

namespace AcceptLoop

variable (task : JoinHandle) (answer : AcceptAnswer)

def acceptTcp : Dial AcceptedStream := do
  let (stream, addr) ← syscall (.accept task) answer.accept ioError
  return ⟨stream, .tcpSocket addr.display⟩

/-- `SO_PEERCRED` is mandatory: without a pid the connection is rejected. -/
def withPeerPid (stream : BoxedStream) (cred : Except IoError (Option Int32)) :
    Dial AcceptedStream := do
  let pid ← ask (.peerCred stream cred) ((peerPid cred).mapError fun e ↦ peerCredError e.message)
  return ⟨stream, .ipcPid pid⟩

def acceptIpc : Dial AcceptedStream := do
  let stream ← syscall (.acceptUnix task) answer.acceptUnix ioError
  withPeerPid stream (answer.peerCred stream)

def accept : ConnectionId → Dial AcceptedStream
  | .ipcServer _ => acceptIpc task answer
  | _ => acceptTcp task answer

variable {task answer} {log : List NetCall} {accepted : AcceptedStream}

theorem acceptTcp_yields (h : (acceptTcp task answer).Yields [] accepted log) :
    ∃ addr, accepted.peerInfo = .tcpSocket addr.display ∧
      log = [.accept task (.ok (accepted.stream, addr))] := by
  obtain ⟨⟨stream, addr⟩, _, haccept, hpure⟩ := yields_bind.mp h
  cases yields_syscall haccept
  obtain ⟨rfl, rfl⟩ := yields_pure.mp hpure
  exact ⟨addr, rfl, rfl⟩

theorem withPeerPid_yields {stream : BoxedStream} {cred : Except IoError (Option Int32)}
    {log' : List NetCall} (h : (withPeerPid stream cred).Yields log accepted log') :
    ∃ pid, accepted = ⟨stream, .ipcPid pid⟩ ∧
      log' = log ++ [.peerCred stream (.ok (some pid))] := by
  rcases cred with e | _ | pid <;> cases h
  exact ⟨pid, rfl, rfl⟩

theorem acceptIpc_yields (h : (acceptIpc task answer).Yields [] accepted log) :
    ∃ pid, accepted.peerInfo = .ipcPid pid ∧
      log = [.acceptUnix task (.ok accepted.stream),
        .peerCred accepted.stream (.ok (some pid))] := by
  obtain ⟨stream, _, haccept, h⟩ := yields_bind.mp h
  cases yields_syscall haccept
  obtain ⟨pid, rfl, rfl⟩ := withPeerPid_yields h
  exact ⟨pid, rfl, rfl⟩

end AcceptLoop

end WireDock
