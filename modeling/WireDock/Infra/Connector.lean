import WireDock.Infra.Listener
import WireDock.Library.Asking

namespace WireDock

open Asking

/-- `std::net::SocketAddr`; its IP address is the text it prints as. -/
inductive SocketAddr
  | v4 (ip : String) (port : UInt16)
  | v6 (ip : String) (scopeId : UInt32) (port : UInt16)
deriving DecidableEq, Repr

namespace SocketAddr

def isIpv6 : SocketAddr → Bool
  | v4 _ _ => false
  | v6 _ _ _ => true

def port : SocketAddr → UInt16
  | v4 _ port => port
  | v6 _ _ port => port

def display : SocketAddr → String
  | v4 ip port => s!"{ip}:{port}"
  | v6 ip scopeId port => if scopeId = 0 then s!"[{ip}]:{port}" else s!"[{ip}%{scopeId}]:{port}"

def unspecified (ipv6 : Bool) (port : UInt16) : SocketAddr :=
  if ipv6 then v6 "::" 0 port else v4 "0.0.0.0" port

end SocketAddr

/-- The calls to the resolver and the kernel that open a connection or wait for
one, with their answers. -/
inductive NetCall
  | lookupHost (host : String) (answer : Except IoError (List SocketAddr))
  | newSocket (ipv6 : Bool) (answer : Except IoError Unit)
  | bind (addr : SocketAddr) (answer : Except IoError Unit)
  | connect (addr : SocketAddr) (answer : Except IoError BoxedStream)
  | connectUnix (path : PathBuf) (answer : Except IoError BoxedStream)
  | accept (task : JoinHandle) (answer : Except IoError (BoxedStream × SocketAddr))
  | acceptUnix (task : JoinHandle) (answer : Except IoError BoxedStream)
  | peerCred (stream : BoxedStream) (answer : Except IoError (Option Int32))

structure ConnectAnswer where
  lookupHost : String → Except IoError (List SocketAddr)
  newSocket : Bool → Except IoError Unit
  bind : SocketAddr → Except IoError Unit
  connect : SocketAddr → Except IoError BoxedStream
  connectUnix : PathBuf → Except IoError BoxedStream

abbrev Dial := Asking NetCall DomainError

def ioError (e : IoError) : DomainError := InfraError.toDomain (.io e)

def invalidEndpoint (text : String) : DomainError := .io s!"invalid endpoint: {text}"

def peerCredError (text : String) : DomainError := .io s!"peercred failed: {text}"

def syscall {α : Type} (call : Except IoError α → NetCall) (answer : Except IoError α)
    (fault : IoError → DomainError) : Dial α :=
  ask (call answer) (answer.mapError fault)

namespace TokioConnector

variable (answer : ConnectAnswer)

def firstAddr (remoteStr : String) : List SocketAddr → Dial SocketAddr
  | remote :: _ => pure remote
  | [] => throw (invalidEndpoint remoteStr)

def connectTcp (localPort : UInt16) (remoteHost : String) (remotePort : UInt16) :
    Dial BoxedStream := do
  let remoteStr := s!"{remoteHost}:{remotePort}"
  let addrs ← syscall (.lookupHost remoteStr) (answer.lookupHost remoteStr) ioError
  let remote ← firstAddr remoteStr addrs
  syscall (.newSocket remote.isIpv6) (answer.newSocket remote.isIpv6) ioError
  let localAddr := SocketAddr.unspecified remote.isIpv6 localPort
  syscall (.bind localAddr) (answer.bind localAddr) (bindError s!"{localPort}")
  syscall (.connect remote) (answer.connect remote) ioError

def connectIpc (remotePath : PathBuf) : Dial BoxedStream :=
  syscall (.connectUnix remotePath) (answer.connectUnix remotePath) ioError

def connect : Endpoint → Dial BoxedStream
  | .tcp localPort remoteHost remotePort => connectTcp answer localPort remoteHost remotePort
  | .ipc remotePath => connectIpc answer remotePath

end TokioConnector

def dialCalls (localPort : UInt16) (remoteHost : String) (remotePort : UInt16) (remote : SocketAddr)
    (others : List SocketAddr) (answer : Except IoError BoxedStream) : List NetCall :=
  [.lookupHost s!"{remoteHost}:{remotePort}" (.ok (remote :: others)),
    .newSocket remote.isIpv6 (.ok ()),
    .bind (.unspecified remote.isIpv6 localPort) (.ok ()), .connect remote answer]

theorem yields_syscall {α : Type} {call : Except IoError α → NetCall}
    {answer : Except IoError α} {fault : IoError → DomainError} {log log' : List NetCall} {a : α}
    (h : (syscall call answer fault).Yields log a log') : log' = log ++ [call (.ok a)] := by
  obtain ⟨ha, rfl⟩ := yields_ask.mp h
  cases answer with
  | ok a' =>
    cases ha
    rfl
  | error e => cases ha

theorem fails_syscall {α : Type} {call : Except IoError α → NetCall}
    {answer : Except IoError α} {fault : IoError → DomainError} {log log' : List NetCall}
    (h : (syscall call answer fault).Fails log log') : ∃ e, log' = log ++ [call (.error e)] := by
  obtain ⟨⟨e', he⟩, rfl⟩ := fails_ask h
  cases answer with
  | ok a => cases he
  | error e => exact ⟨e, rfl⟩

namespace TokioConnector

variable {answer : ConnectAnswer} {localPort remotePort : UInt16} {remoteHost : String}
  {remotePath : PathBuf} {stream : BoxedStream} {log : List NetCall}

theorem firstAddr_yields {text : String} {addrs : List SocketAddr} {remote : SocketAddr}
    {log' : List NetCall} (h : (firstAddr text addrs).Yields log remote log') :
    ∃ others, addrs = remote :: others ∧ log' = log := by
  cases addrs with
  | nil => cases h
  | cons first others =>
    obtain ⟨rfl, rfl⟩ := yields_pure.mp h
    exact ⟨others, rfl, rfl⟩

theorem firstAddr_fails {text : String} {addrs : List SocketAddr} {log' : List NetCall}
    (h : (firstAddr text addrs).Fails log log') : log' = log := by
  obtain ⟨e, h⟩ := h
  cases addrs <;> cases h
  rfl

/-- A connection is made to the first address found, from a socket of its family
bound to the local port. -/
theorem connectTcp_yields
    (h : (connectTcp answer localPort remoteHost remotePort).Yields [] stream log) :
    ∃ remote others,
      log = dialCalls localPort remoteHost remotePort remote others (.ok stream) := by
  obtain ⟨addrs, _, hlookup, h⟩ := yields_bind.mp h
  obtain ⟨remote, _, hfirst, h⟩ := yields_bind.mp h
  obtain ⟨_, _, hsocket, h⟩ := yields_bind.mp h
  obtain ⟨_, _, hbind, hconnect⟩ := yields_bind.mp h
  cases yields_syscall hlookup
  obtain ⟨others, rfl, rfl⟩ := firstAddr_yields hfirst
  cases yields_syscall hsocket
  cases yields_syscall hbind
  cases yields_syscall hconnect
  exact ⟨remote, others, rfl⟩

/-- What is on record where a connection is refused: the calls up to the one that was. -/
theorem connectTcp_fails (h : (connectTcp answer localPort remoteHost remotePort).Fails [] log) :
    (∀ addr tried, .connect addr tried ∉ log) ∨ ∃ remote others e,
      log = dialCalls localPort remoteHost remotePort remote others (.error e) := by
  rcases fails_bind h with h | ⟨addrs, _, hlookup, h⟩
  · obtain ⟨e, rfl⟩ := fails_syscall h
    exact .inl (by simp)
  cases yields_syscall hlookup
  rcases fails_bind h with h | ⟨remote, _, hfirst, h⟩
  · cases firstAddr_fails h
    exact .inl (by simp)
  obtain ⟨others, rfl, rfl⟩ := firstAddr_yields hfirst
  rcases fails_bind h with h | ⟨_, _, hsocket, h⟩
  · obtain ⟨e, rfl⟩ := fails_syscall h
    exact .inl (by simp)
  cases yields_syscall hsocket
  rcases fails_bind h with h | ⟨_, _, hbind, h⟩
  · obtain ⟨e, rfl⟩ := fails_syscall h
    exact .inl (by simp)
  cases yields_syscall hbind
  obtain ⟨e, rfl⟩ := fails_syscall h
  exact .inr ⟨remote, others, e, rfl⟩

theorem dialCalls_eq_append {remote addr : SocketAddr} {others : List SocketAddr}
    {before after : List NetCall} {answer tried : Except IoError BoxedStream}
    (h : dialCalls localPort remoteHost remotePort remote others answer =
      before ++ .connect addr tried :: after) :
    dialCalls localPort remoteHost remotePort addr others tried =
      before ++ [.connect addr tried] := by
  rcases before with _ | ⟨_, _ | ⟨_, _ | ⟨_, _ | ⟨_, before⟩⟩⟩⟩
  · cases h
  · cases h
  · cases h
  · cases h
    rfl
  · simp [dialCalls] at h

/-- A connection is never tried from an unbound port, whatever fails. -/
theorem connectTcp_calls {addr : SocketAddr} {tried : Except IoError BoxedStream}
    {before after : List NetCall}
    (h : (connectTcp answer localPort remoteHost remotePort).calls =
      before ++ .connect addr tried :: after) :
    ∃ others, dialCalls localPort remoteHost remotePort addr others tried =
      before ++ [.connect addr tried] := by
  rcases yields_or_fails (connectTcp answer localPort remoteHost remotePort) with ⟨stream, hy⟩ | hf
  · obtain ⟨remote, others, hlog⟩ := connectTcp_yields hy
    exact ⟨others, dialCalls_eq_append (hlog.symm.trans h)⟩
  · rcases connectTcp_fails hf with hnone | ⟨remote, others, e, hlog⟩
    · rw [h] at hnone
      exact (hnone addr tried (by simp)).elim
    · exact ⟨others, dialCalls_eq_append (hlog.symm.trans h)⟩

theorem connectIpc_yields (h : (connectIpc answer remotePath).Yields [] stream log) :
    log = [.connectUnix remotePath (.ok stream)] := yields_syscall h

end TokioConnector

end WireDock
