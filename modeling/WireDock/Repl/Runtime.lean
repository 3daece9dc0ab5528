import WireDock.Domain.Registry

namespace WireDock

/-- The outcome of a command, with the registry and the calls it leads to. -/
structure Handled where
  reg : Registry
  effects : List Effect
  outcome : CommandOutcome

inductive Handling
  | running (reg : Registry) (effects : List Effect) (reply : Option CommandOutcome)
  | stopped (reg : Registry) (effects : List Effect)
  | panicked

namespace Handling

def effects : Handling → List Effect
  | running _ effects _ | stopped _ effects => effects
  | panicked => []

def reply : Handling → Option CommandOutcome
  | running _ _ reply => reply
  | _ => none

end Handling

def StreamHandle.spawned (id : ConnectionId) (stream : BoxedStream) (peerInfo : Option PeerInfo)
    (parent : Option ConnectionId) (task : JoinHandle) : StreamHandle :=
  { state := .newConnected id peerInfo, stream, readTask := task, parent }

def spawnStream (env : Environment) (id : ConnectionId) (stream : BoxedStream)
    (peerInfo : Option PeerInfo) (parent : Option ConnectionId) : StreamHandle × Effect :=
  (.spawned id stream peerInfo parent env.spawn, .spawnRead env.spawn id stream)

def ServerHandle.opened (id : ConnectionId) (task : JoinHandle) (ipcPath : Option PathBuf) :
    ServerHandle :=
  { state := .newConnected id none, acceptTask := task, children := ∅, ipcPath,
    disambigNext := ∅, baseNoSuffix := ∅ }

namespace Registry

/-- The body both `open server` commands share once the id is known to be free. -/
def openServer (env : Environment) (reg : Registry) (id : ConnectionId)
    (endpoint : ServerEndpoint) (ipcPath : Option PathBuf) : Handled :=
  match env.bind endpoint with
  | .ok listener =>
    { reg := { reg with servers := reg.servers.insert id (.opened id env.spawn ipcPath) }
      effects := [.bind endpoint, .spawnAccept env.spawn id listener, say s!"[{id}] listening"]
      outcome := .ok s!"listening on {id}" }
  | .error e => { reg, effects := [.bind endpoint], outcome := .err e.message }

def handleCommand (env : Environment) (reg : Registry) : Command → Handled
  | .openTcpServer port =>
    let id := ConnectionId.tcpServer port
    if id ∈ reg.servers ∨ id ∈ reg.streams then
      { reg, effects := [], outcome := .err (DomainError.idAlreadyInUse s!"{port}").message }
    else reg.openServer env id (.tcp port) none
  | .openIpcServer path =>
    let id := ConnectionId.ipcServer path
    if reg.keyOf id ∈ reg.servers then
      { reg, effects := [], outcome := .err (DomainError.idAlreadyInUse path).message }
    else reg.openServer env id (.ipc path) (some path)
  | .openTcpClient localPort remoteHost remotePort =>
    let id := ConnectionId.tcpClient localPort
    if id ∈ reg.streams ∨ id ∈ reg.servers then
      { reg, effects := [], outcome := .err (DomainError.idAlreadyInUse s!"{localPort}").message }
    else
      let endpoint := Endpoint.tcp localPort remoteHost remotePort
      match env.connect endpoint with
      | .ok stream =>
        let peer := PeerInfo.tcpSocket s!"{remoteHost}:{remotePort}"
        let handle := spawnStream env id stream (some peer) none
        { reg := reg.insertStream handle.1
          effects := [.connect endpoint, handle.2,
            say s!"[{id}] connected to {remoteHost}:{remotePort}"]
          outcome := .ok s!"client {id} connected" }
      | .error e => { reg, effects := [.connect endpoint], outcome := .err e.message }
  | .openIpcClient remotePath =>
    let allocated := reg.allocIpcClientSeq
    let id := ConnectionId.ipcClient allocated.1
    let reg := allocated.2
    let endpoint := Endpoint.ipc remotePath
    match env.connect endpoint with
    | .ok stream =>
      let handle := spawnStream env id stream (some (.ipcRemotePath remotePath)) none
      { reg := reg.insertStream handle.1
        effects := [.connect endpoint, handle.2, say s!"[{id}] connected to {remotePath}"]
        outcome := .ok s!"ipc client {id} connected to {remotePath}" }
    | .error e => { reg, effects := [.connect endpoint], outcome := .err e.message }
  | .close idToken =>
    match reg.resolveId idToken defaultTokenParser with
    | .error e => { reg, effects := [], outcome := .err e.message }
    | .ok id =>
      let entry := reg.entryOf idToken id
      if entry ∈ reg.servers then
        let dropped := reg.dropServer env.order entry
        { reg := dropped.1, effects := dropped.2 ++ [say s!"[{id}] CLOSED"]
          outcome := .ok s!"closed server {id} and all its children" }
      else if entry ∈ reg.streams then
        let dropped := reg.dropStream entry
        { reg := dropped.1, effects := dropped.2 ++ [say s!"[{id}] CLOSED"]
          outcome := .ok s!"closed {id}" }
      else { reg, effects := [], outcome := .err (DomainError.unknownId idToken).message }
  | .send idToken bytes =>
    match reg.resolveId idToken defaultTokenParser with
    | .error e => { reg, effects := [], outcome := .err e.message }
    | .ok id =>
      let sent := reg.sendBytes env (reg.entryOf idToken id) bytes
      match sent.1 with
      | .ok () =>
        { reg, effects := sent.2, outcome := .ok s!"sent {bytes.length} bytes to {id}" }
      | .error e => { reg, effects := sent.2, outcome := .err (e.naming id).message }
  | .label idToken name =>
    match reg.resolveId idToken defaultTokenParser with
    | .error e => { reg, effects := [], outcome := .err e.message }
    | .ok id =>
      let labelled := reg.cmdLabel (reg.entryOf idToken id) id name
      { reg := labelled.1, effects := [], outcome := labelled.2 }
  | .status => { reg, effects := [], outcome := reg.cmdStatus env.order }

def handleEvent (reg : Registry) : NetEvent → Registry × List Effect
  | .received id bytes => (reg, reg.onReceived id bytes)
  | .closed id => reg.onClosedEvent id
  | .error id message => (reg, reg.onErrorEvent id message)
  | .renamed _ _ => (reg, [])

def renamedLine : Option NetEvent → List Effect
  | some (.renamed newId oldId) => [say s!"[{newId}] RENAMED {oldId}"]
  | _ => []

/-- The end of `handle_accepted`, once the final id is allocated. -/
def register (env : Environment) (parent : ConnectionId) (peerInfo : PeerInfo)
    (stream : BoxedStream) (allocated : Registry × ConnectionId × Option NetEvent) :
    Registry × List Effect :=
  let handle := spawnStream env allocated.2.1 stream (some peerInfo) (some parent)
  (allocated.1.insertStream handle.1,
    renamedLine allocated.2.2 ++
      [handle.2, say s!"[{allocated.2.1}] ACCEPT peer={peerInfo.render}"])

/-- `none` is the panic of an allocator. -/
def handleAccepted (env : Environment) (reg : Registry) (parent tentative : ConnectionId)
    (peerInfo : PeerInfo) (stream : BoxedStream) : Option (Registry × List Effect) :=
  match parent, tentative with
  | .tcpServer port, .acceptedTcp _ remotePort _ =>
    (reg.allocateAcceptedTcpId port remotePort).map (register env parent peerInfo stream)
  | .ipcServer path, .acceptedIpc _ pid _ =>
    (reg.allocateAcceptedIpcId path pid).map (register env parent peerInfo stream)
  | _, _ => some (reg, [say s!"[{parent}] ERROR internal: mismatched accepted id shape"])

/-- One turn of the loop of `run_registry`. -/
def handleInput (env : Environment) (reg : Registry) : RegistryInput → Handling
  | .shutdown =>
    let closed := reg.shutdown env.order
    .stopped closed.1 closed.2
  | .command cmd =>
    let handled := reg.handleCommand env cmd
    .running handled.reg handled.effects (some handled.outcome)
  | .event ev =>
    let handled := reg.handleEvent ev
    .running handled.1 handled.2 none
  | .accepted parent child peerInfo stream =>
    match reg.handleAccepted env parent child peerInfo stream with
    | some handled => .running handled.1 handled.2 none
    | none => .panicked

end Registry

def parseRemotePort (sockStr : String) : Option UInt16 :=
  (Text.splitLast ':' sockStr.toList).bind fun p ↦ parseU16 p.2

/-- What the accept loop of a server sends for one answer of `accept`. -/
def acceptMessage (server : ConnectionId) :
    Except DomainError AcceptedStream → Option RegistryInput
  | .ok { stream, peerInfo } =>
    match server, peerInfo with
    | .tcpServer port, .tcpSocket addr =>
      (parseRemotePort addr).map fun remotePort ↦
        .accepted server (.acceptedTcp port remotePort none) peerInfo stream
    | .ipcServer path, .ipcPid pid =>
      some (.accepted server (.acceptedIpc path pid none) peerInfo stream)
    | _, _ => none
  | .error e => some (.event (.error server s!"accept failed: {e}"))

/-- What the read loop of a stream sends for one answer of `read`: the bytes
read, or the error. No bytes are the end of the stream. -/
def readEvents (id : ConnectionId) : Except String (List UInt8) → List NetEvent
  | .ok [] => [.closed id]
  | .ok bytes => [.received id bytes]
  | .error e => [.error id e, .closed id]

end WireDock
