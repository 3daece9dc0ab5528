import WireDock.Domain.Hex

namespace WireDock

open FiniteMap (modify)

structure StreamHandle where
  state : ConnectionState
  stream : BoxedStream
  readTask : JoinHandle
  parent : Option ConnectionId
deriving DecidableEq

structure ServerHandle where
  state : ConnectionState
  acceptTask : JoinHandle
  children : Finset ConnectionId
  ipcPath : Option PathBuf
  disambigNext : HashMap String UInt32
  baseNoSuffix : HashMap String ConnectionId
deriving DecidableEq

def freeLabel (labels : HashMap String ConnectionId) : Option String → HashMap String ConnectionId
  | some l => labels.erase l
  | none => labels

def updateParent (servers : HashMap ConnectionId ServerHandle) (parent : Option ConnectionId)
    (f : ServerHandle → ServerHandle) : HashMap ConnectionId ServerHandle :=
  match parent with
  | some parent => modify parent f servers
  | none => servers

/-- The maps are keyed by ids as they were spelled when they were entered. The value of a
label is told apart into the id of the entry, in `labels`, and the id as it was typed when
the label was given, in `typed`, which is read for the labels there are. -/
structure Registry where
  streams : HashMap ConnectionId StreamHandle
  servers : HashMap ConnectionId ServerHandle
  labels : HashMap String ConnectionId
  typed : HashMap String ConnectionId
  nextIpcClientSeq : UInt32
deriving DecidableEq

/-- The error of a call on an entry, which names the id the call was made with. -/
def DomainError.naming (id : ConnectionId) : DomainError → DomainError
  | .unknownId _ => .unknownId s!"{id}"
  | .serverHasNoChildren _ => .serverHasNoChildren s!"{id}"
  | .logic _ => .logic s!"{id} is not writable"
  | e => e

def say (text : String) : Effect := .display ⟨text⟩

def renderStatusTag : ConnectionStatus → String
  | .connected => "CONNECTED"
  | .closing => "CLOSING"
  | .closed => "CLOSED"

def renderLabel (label : Option String) : String :=
  match label with
  | some n => s!"    label={n}"
  | none => ""

namespace Registry

def new : Registry :=
  { streams := ∅, servers := ∅, labels := ∅, typed := ∅, nextIpcClientSeq := 1 }

def registered (reg : Registry) : Finset ConnectionId := reg.streams.keys ∪ reg.servers.keys

/-- The key that a hash map finds for an id: the registered id that is the same, in
whichever spelling. An id that is not found is left as it is. -/
def keyOf (reg : Registry) (id : ConnectionId) : ConnectionId :=
  if id ∈ reg.registered then id
  else (FiniteMap.single? (reg.registered.filter (·.Same id))).getD id

/-- The sequence number handed out and the registry after it; the counter
stops at `u32::MAX`. -/
def allocIpcClientSeq (reg : Registry) : UInt32 × Registry :=
  let next := if reg.nextIpcClientSeq = 4294967295 then 4294967295 else reg.nextIpcClientSeq + 1
  (reg.nextIpcClientSeq, { reg with nextIpcClientSeq := next })

section Status

variable (order : IterationOrder ConnectionId) (reg : Registry)

def sortById (ids : List ConnectionId) : List ConnectionId :=
  ids.mergeSort fun a b ↦ decide (a.display ≤ b.display)

def clientRow (id : ConnectionId) (h : StreamHandle) : String :=
  let remote := match h.state.peerInfo with
    | some (.tcpSocket addr) => addr
    | some (.ipcRemotePath path) => path
    | some (.ipcPid _) => "(ipc peer)"
    | none => "?"
  s!"  {id} -> {remote}    [{renderStatusTag h.state.status}]{renderLabel h.state.label}\n"

def childRow (id : ConnectionId) (h : StreamHandle) : String :=
  let peer := match h.state.peerInfo with
    | some peer => peer.render
    | none => "?"
  s!"    {id}    peer={peer}    [{renderStatusTag h.state.status}]{renderLabel h.state.label}\n"

def clientIds : List ConnectionId :=
  sortById ((order.visit reg.streams.keys).filter fun id ↦
    (reg.streams.lookup id).any fun h ↦ h.parent.isNone)

def serverIds : List ConnectionId := sortById (order.visit reg.servers.keys)

def rows (row : ConnectionId → StreamHandle → String) (ids : List ConnectionId) : String :=
  String.join (ids.map fun id ↦ ((reg.streams.lookup id).map (row id)).getD "")

def serverRows (sid : ConnectionId) : String :=
  match reg.servers.lookup sid with
  | some srv => s!"  {sid}\n" ++ reg.rows childRow (sortById (order.visit srv.children))
  | none => ""

def renderStatus : String :=
  let clients := reg.clientIds order
  let servers := reg.serverIds order
  "CLIENTS\n" ++ (if clients.isEmpty then "  (none)\n" else reg.rows clientRow clients) ++
    "\nSERVERS\n" ++ (if servers.isEmpty then "  (none)\n"
      else String.join (servers.map (reg.serverRows order)))

end Status

/-- The id as it is spelled in the token, or was when the label was given. -/
def resolveId (reg : Registry) (token : String) (parser : String → List ConnectionId) :
    Except DomainError ConnectionId :=
  match reg.labels.lookup token with
  | some id => .ok ((reg.typed.lookup token).getD id)
  | none =>
    match (parser token).find? fun id ↦
        decide (reg.keyOf id ∈ reg.streams ∨ reg.keyOf id ∈ reg.servers) with
    | some id => .ok id
    | none => .error (.unknownId token)

/-- The entry that is found for what a token resolves to. -/
def entryOf (reg : Registry) (token : String) (id : ConnectionId) : ConnectionId :=
  reg.keyOf ((reg.labels.lookup token).getD id)

def displayName (reg : Registry) (id : ConnectionId) : String :=
  match (reg.streams.lookup id).bind (·.state.label) with
  | some l => l
  | none =>
    match (reg.servers.lookup id).bind (·.state.label) with
    | some l => l
    | none => id.display

def currentLabel (reg : Registry) (id : ConnectionId) : Option String :=
  match reg.streams.lookup id with
  | some h => h.state.label
  | none =>
    match reg.servers.lookup id with
    | some s => s.state.label
    | none => none

/-- The second half of `apply_label`: the old label goes before the target is
looked for. The target is the entry `id`, which the command has as `typed`. -/
def replaceLabel (reg : Registry) (id typed : ConnectionId) (name : String) :
    Registry × Except DomainError Unit :=
  let labels := freeLabel reg.labels (reg.currentLabel id)
  match reg.streams.lookup id with
  | some h =>
    let h := { h with state := { h.state with label := some name } }
    ({ reg with
        streams := reg.streams.insert id h
        labels := labels.insert name id
        typed := reg.typed.insert name typed }, .ok ())
  | none =>
    match reg.servers.lookup id with
    | some s =>
      let s := { s with state := { s.state with label := some name } }
      ({ reg with
          servers := reg.servers.insert id s
          labels := labels.insert name id
          typed := reg.typed.insert name typed }, .ok ())
    | none => ({ reg with labels }, .error (.unknownId s!"{typed}"))

def applyLabel (reg : Registry) (id typed : ConnectionId) (name : String) :
    Registry × Except DomainError Unit :=
  match reg.labels.lookup name with
  | some existing =>
    if reg.keyOf existing ≠ id then (reg, .error (.labelAlreadyInUse name))
    else reg.replaceLabel id typed name
  | none => reg.replaceLabel id typed name

def insertStream (reg : Registry) (handle : StreamHandle) : Registry :=
  let id := handle.state.id
  { reg with
    servers := updateParent reg.servers handle.parent fun srv ↦
      { srv with children := insert id srv.children }
    streams := reg.streams.insert id handle }

def dropStream (reg : Registry) (id : ConnectionId) : Registry × List Effect :=
  match reg.streams.lookup id with
  | none => (reg, [])
  | some h =>
    let h := { h with state := h.state.onClosed }
    ({ reg with
        streams := reg.streams.erase id
        servers := updateParent reg.servers h.parent fun srv ↦
          { srv with children := srv.children.erase id }
        labels := freeLabel reg.labels h.state.label },
      [.abort h.readTask])

def dropStreams (reg : Registry) : List ConnectionId → Registry × List Effect
  | [] => (reg, [])
  | c :: children =>
    let dropped := reg.dropStream c
    let rest := dropped.1.dropStreams children
    (rest.1, dropped.2 ++ rest.2)

def dropServer (order : IterationOrder ConnectionId) (reg : Registry) (id : ConnectionId) :
    Registry × List Effect :=
  match reg.servers.lookup id with
  | none => (reg, [])
  | some srv =>
    let dropped :=
      { reg with servers := reg.servers.erase id }.dropStreams (order.visit srv.children)
    let removed := match srv.ipcPath with
      | some path => [Effect.removeFile path]
      | none => []
    let labels := freeLabel dropped.1.labels srv.state.label
    ({ dropped.1 with labels }, .abort srv.acceptTask :: dropped.2 ++ removed)

def writeToStream (env : Environment) (reg : Registry) (id : ConnectionId) (bytes : List UInt8) :
    Except DomainError Unit × List Effect :=
  match reg.streams.lookup id with
  | none => (.error (.unknownId s!"{id}"), [])
  | some h =>
    if h.state.status = .closed ∨ h.state.status = .closing then
      (.error (.logic s!"{id} is not writable"), [])
    else
      match env.write h.stream bytes with
      | .ok () => (.ok (), [.write h.stream bytes])
      | .error e => (.error (.io e), [.write h.stream bytes])

def broadcast (env : Environment) (reg : Registry) (bytes : List UInt8) :
    List ConnectionId → List Effect
  | [] => []
  | c :: children =>
    let written := reg.writeToStream env c bytes
    let reported := match written.1 with
      | .ok () => []
      | .error e => [say s!"[{reg.displayName c}] ERROR {e}"]
    written.2 ++ reported ++ broadcast env reg bytes children

def sendBytes (env : Environment) (reg : Registry) (target : ConnectionId) (bytes : List UInt8) :
    Except DomainError Unit × List Effect :=
  if bytes.isEmpty then (.error .emptyPayload, [])
  else if target.isServer then
    match reg.servers.lookup target with
    | none => (.error (.unknownId s!"{target}"), [])
    | some s =>
      let children := env.order.visit s.children
      if children.isEmpty then (.error (.serverHasNoChildren s!"{target}"), [])
      else (.ok (), reg.broadcast env bytes children)
  else reg.writeToStream env target bytes

def onReceived (reg : Registry) (id : ConnectionId) (bytes : List UInt8) : List Effect :=
  [say s!"[{reg.displayName id}] RECV {Hex.formatHexSpaced bytes}"]

def onClosedEvent (reg : Registry) (id : ConnectionId) : Registry × List Effect :=
  if id ∈ reg.streams then
    let dropped := reg.dropStream id
    (dropped.1, dropped.2 ++ [say s!"[{reg.displayName id}] CLOSED"])
  else (reg, [])

def onErrorEvent (reg : Registry) (id : ConnectionId) (message : String) : List Effect :=
  [say s!"[{reg.displayName id}] ERROR {message}"]

def renameAcceptedTcp (reg : Registry) (old newId : ConnectionId) : Registry :=
  match reg.streams.lookup old with
  | none => reg
  | some h =>
    let h := { h with state := { h.state with id := newId } }
    { reg with
      servers := updateParent reg.servers h.parent fun srv ↦
        { srv with children := insert newId (srv.children.erase old) }
      streams := (reg.streams.erase old).insert newId h }

def renameAcceptedIpc (reg : Registry) (old newId : ConnectionId) : Registry :=
  reg.renameAcceptedTcp old newId

/-- The common body of the two allocators: `baseKey` names the base and
`accepted` builds its ids. `none` is the panic of an `expect`; the counter
wraps, as it does in a release build. -/
def allocateAccepted (reg : Registry) (parent : ConnectionId) (baseKey : String)
    (accepted : Option UInt32 → ConnectionId) :
    Option (Registry × ConnectionId × Option NetEvent) :=
  match reg.servers.lookup parent with
  | none => none
  | some srv =>
    if baseKey ∉ srv.baseNoSuffix ∧ baseKey ∉ srv.disambigNext then
      let srv := { srv with baseNoSuffix := srv.baseNoSuffix.insert baseKey (accepted none) }
      some ({ reg with servers := reg.servers.insert parent srv }, accepted none, none)
    else
      match srv.baseNoSuffix.lookup baseKey with
      | some old =>
        let srv := { srv with baseNoSuffix := srv.baseNoSuffix.erase baseKey }
        let reg := { reg with servers := reg.servers.insert parent srv }
        let reg := reg.renameAcceptedTcp old (accepted (some 1))
        match reg.servers.lookup parent with
        | none => none
        | some srv2 =>
          let srv2 := { srv2 with disambigNext := srv2.disambigNext.insert baseKey 2 }
          some ({ reg with servers := reg.servers.insert parent srv2 }, accepted (some 2),
            some (.renamed (accepted (some 1)) old))
      | none =>
        let this := (srv.disambigNext.lookup baseKey).getD 1
        let srv := { srv with disambigNext := srv.disambigNext.insert baseKey (this + 1) }
        some ({ reg with servers := reg.servers.insert parent srv }, accepted (some this), none)

def allocateAcceptedTcpId (reg : Registry) (parentPort remotePort : UInt16) :
    Option (Registry × ConnectionId × Option NetEvent) :=
  reg.allocateAccepted (.tcpServer parentPort) s!"{parentPort}.{remotePort}"
    (.acceptedTcp parentPort remotePort)

def allocateAcceptedIpcId (reg : Registry) (parentPath : PathBuf) (pid : Int32) :
    Option (Registry × ConnectionId × Option NetEvent) :=
  reg.allocateAccepted (.ipcServer parentPath) s!"{parentPath}.{pid}" (.acceptedIpc parentPath pid)

def dropServers (order : IterationOrder ConnectionId) (reg : Registry) :
    List ConnectionId → Registry × List Effect
  | [] => (reg, [])
  | sid :: ids =>
    let dropped := reg.dropServer order sid
    let rest := dropServers order dropped.1 ids
    (rest.1, dropped.2 ++ rest.2)

def shutdown (order : IterationOrder ConnectionId) (reg : Registry) : Registry × List Effect :=
  let dropped := reg.dropServers order (order.visit reg.servers.keys)
  let rest := dropped.1.dropStreams (order.visit dropped.1.streams.keys)
  (rest.1, dropped.2 ++ rest.2)

def cmdLabel (reg : Registry) (id typed : ConnectionId) (name : String) :
    Registry × CommandOutcome :=
  let applied := reg.applyLabel id typed name
  match applied.2 with
  | .ok () => (applied.1, .ok s!"labeled {typed} as {name}")
  | .error e => (applied.1, .err e.message)

def cmdStatus (order : IterationOrder ConnectionId) (reg : Registry) : CommandOutcome :=
  .ok (reg.renderStatus order)

end Registry

def parseU16 (s : List Char) : Option UInt16 :=
  (Text.unsigned s).bind fun n ↦ if n < 2 ^ 16 then some (UInt16.ofNat n) else none

def parseU32 (s : List Char) : Option UInt32 :=
  (Text.unsigned s).bind fun n ↦ if n < 2 ^ 32 then some (UInt32.ofNat n) else none

def parseI32 (s : List Char) : Option Int32 :=
  (Text.signed s).bind fun i ↦ if -2 ^ 31 ≤ i ∧ i < 2 ^ 31 then some (Int32.ofInt i) else none

def parseSuffixed (token : List Char) : Option ConnectionId := do
  let (left, right) ← Text.splitFirst '#' token
  let (p, r) ← Text.splitFirst '.' left
  let parentPort ← parseU16 p
  let remotePort ← parseU16 r
  let n ← parseU32 right
  return .acceptedTcp parentPort remotePort (some n)

def parseDotted (token : List Char) : List ConnectionId :=
  match Text.splitLast '.' token with
  | none => []
  | some (left, right) =>
    let tcp := match parseU16 left, parseU16 right with
      | some parentPort, some remotePort => [.acceptedTcp parentPort remotePort none]
      | _, _ => []
    let ipc := match left.head?, parseI32 right with
      | some '/', some pid => [.acceptedIpc (String.ofList left) pid none]
      | _, _ => []
    tcp ++ ipc

def defaultTokenParser (token : String) : List ConnectionId :=
  match (Text.dropPrefix "ipc:".toList token.toList).bind parseU32 with
  | some seq => [.ipcClient seq]
  | none =>
    match parseU16 token.toList with
    | some port => [.tcpServer port, .tcpClient port]
    | none =>
      match parseSuffixed token.toList with
      | some id => [id]
      | none =>
        parseDotted token.toList ++
          (if token.toList.head? = some '/' then [.ipcServer token] else [])

example : defaultTokenParser "/a.5" = [.acceptedIpc "/a" 5 none, .ipcServer "/a.5"] := by decide

end WireDock
