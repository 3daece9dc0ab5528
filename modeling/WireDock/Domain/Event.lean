import WireDock.Domain.Id
import WireDock.Library.FiniteMap

namespace WireDock

/-- Handles of objects the runtime hands out: the write half of an open
socket, a spawned task, a listening socket. Only their identity matters. -/
abbrev BoxedStream := Nat

abbrev JoinHandle := Nat

abbrev AcceptLoop := Nat

inductive DomainError
  | unknownId (id : String)
  | idAlreadyInUse (id : String)
  | labelAlreadyInUse (label : String)
  | invalidHex (reason : String)
  | serverHasNoChildren (id : String)
  | emptyPayload
  | io (message : String)
  | logic (message : String)
deriving DecidableEq, Repr

def DomainError.message : DomainError → String
  | unknownId id => s!"unknown id: {id}"
  | idAlreadyInUse id => s!"id already in use: {id}"
  | labelAlreadyInUse label => s!"label already in use: {label}"
  | invalidHex reason => s!"invalid hex payload: {reason}"
  | serverHasNoChildren id => s!"server {id} has no active accepted connections"
  | emptyPayload => "empty payload"
  | io message => s!"io error: {message}"
  | logic message => s!"logic error: {message}"

instance : ToString DomainError := ⟨DomainError.message⟩

inductive Endpoint
  | tcp (localPort : UInt16) (remoteHost : String) (remotePort : UInt16)
  | ipc (remotePath : PathBuf)
deriving DecidableEq, Repr

inductive ServerEndpoint
  | tcp (port : UInt16)
  | ipc (path : PathBuf)
deriving DecidableEq, Repr

inductive PeerInfo
  | tcpSocket (addr : String)
  | ipcPid (pid : Int32)
  | ipcRemotePath (path : PathBuf)
deriving DecidableEq, Repr

def PeerInfo.render : PeerInfo → String
  | tcpSocket addr => addr
  | ipcPid pid => s!"pid={pid}"
  | ipcRemotePath path => path

structure AcceptedStream where
  stream : BoxedStream
  peerInfo : PeerInfo
deriving DecidableEq, Repr

inductive NetEvent
  | received (id : ConnectionId) (bytes : List UInt8)
  | closed (id : ConnectionId)
  | error (id : ConnectionId) (message : String)
  | renamed (newId oldId : ConnectionId)
deriving DecidableEq, Repr

def NetEvent.id : NetEvent → ConnectionId
  | received id _ | closed id | error id _ => id
  | renamed newId _ => newId

structure DisplayLine where
  text : String
deriving DecidableEq, Repr

structure CommandOutcome where
  success : Bool
  message : String
deriving DecidableEq, Repr

def CommandOutcome.ok (message : String) : CommandOutcome := ⟨true, message⟩

def CommandOutcome.err (message : String) : CommandOutcome := ⟨false, message⟩

inductive Command
  | openTcpServer (port : UInt16)
  | openIpcServer (path : PathBuf)
  | openTcpClient (localPort : UInt16) (remoteHost : String) (remotePort : UInt16)
  | openIpcClient (remotePath : PathBuf)
  | close (idToken : String)
  | send (idToken : String) (bytes : List UInt8)
  | label (idToken name : String)
  | status
deriving DecidableEq, Repr

/-- The merged input of the registry task. The reply channel of a command is
left to the task that waits on it. -/
inductive RegistryInput
  | command (cmd : Command)
  | event (ev : NetEvent)
  | accepted (parent child : ConnectionId) (peerInfo : PeerInfo) (stream : BoxedStream)
  | shutdown
deriving DecidableEq, Repr

/-- What handling an input asks of the runtime and the operating system, in
the order of the calls. -/
inductive Effect
  | display (line : DisplayLine)
  | bind (endpoint : ServerEndpoint)
  | connect (endpoint : Endpoint)
  | spawnAccept (task : JoinHandle) (server : ConnectionId) (listener : AcceptLoop)
  | spawnRead (task : JoinHandle) (id : ConnectionId) (stream : BoxedStream)
  | abort (task : JoinHandle)
  | write (stream : BoxedStream) (bytes : List UInt8)
  | removeFile (path : PathBuf)
deriving DecidableEq, Repr

namespace Effect

def spawned : Effect → Option JoinHandle
  | spawnAccept task _ _ => some task
  | spawnRead task _ _ => some task
  | _ => none

/-- Effects that neither start nor stop a task nor touch a listening socket or a file. -/
def Silent : Effect → Prop
  | display _ | connect _ | write _ _ => True
  | _ => False

def displayed : Effect → Option DisplayLine
  | display line => some line
  | _ => none

end Effect

/-- The answers of the runtime, the network and the operating system while one
input is handled, for a connector and a listener of any behaviour. -/
structure Environment where
  connect : Endpoint → Except DomainError BoxedStream
  bind : ServerEndpoint → Except DomainError AcceptLoop
  write : BoxedStream → List UInt8 → Except String Unit
  spawn : JoinHandle
  order : IterationOrder ConnectionId

inductive ConnectionStatus
  | connected
  | closing
  | closed
deriving DecidableEq, Repr

structure ConnectionState where
  id : ConnectionId
  status : ConnectionStatus
  label : Option String
  peerInfo : Option PeerInfo
deriving DecidableEq, Repr

def ConnectionState.newConnected (id : ConnectionId) (peerInfo : Option PeerInfo) :
    ConnectionState :=
  { id, status := .connected, label := none, peerInfo }

def ConnectionState.onClosed (state : ConnectionState) : ConnectionState :=
  { state with status := .closed }

end WireDock
