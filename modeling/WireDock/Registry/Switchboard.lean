import WireDock.Registry.AcceptNumbers
import WireDock.Registry.ClientNumbers

namespace WireDock

open LabelledSystem

/-- An open connection, whatever id it bears. -/
structure Line where
  stream : BoxedStream
  readTask : JoinHandle
  peerInfo : Option PeerInfo
  label : Option String

structure Station where
  acceptTask : JoinHandle
  label : Option String

/-- What a name or a token stands for: the id of the entry, and the same id as it was typed. -/
structure Naming where
  id : ConnectionId
  typed : ConnectionId

/-- What the registry is for: the connections and servers that are open, each
under one id, the names given to them, and how many connections there have
been on each base and how many attempts at an IPC client. A connection
belongs to the server its id names, and no more is said about it anywhere. -/
@[ext] structure Switchboard where
  lines : ConnectionId → Option Line
  stations : ConnectionId → Option Station
  labels : String → Option Naming
  accepts : Base → ℕ
  opens : ℕ

structure Lists {α : Type*} (l : List α) (s : Set α) : Prop where
  nodup : l.Nodup
  mem_iff : ∀ a, a ∈ l ↔ a ∈ s

/-- What one turn of the loop shows: the calls it makes, the reply and how it ends. -/
structure Observation where
  effects : List Effect
  reply : Option CommandOutcome
  phase : Phase

namespace Switchboard

def initial : Switchboard := ⟨fun _ ↦ none, fun _ ↦ none, fun _ ↦ none, fun _ ↦ 0, 0⟩

variable (board : Switchboard)

def label (id : ConnectionId) : Option String :=
  match board.lines id with
  | some line => line.label
  | none => (board.stations id).bind Station.label

def name (id : ConnectionId) : String := (board.label id).getD id.display

def present (id : ConnectionId) : Bool := (board.lines id).isSome || (board.stations id).isSome

open Classical in
/-- The entry that is the same as an id, which may be spelled otherwise. -/
noncomputable def keyOf (id : ConnectionId) : ConnectionId :=
  if board.present id then id
  else if h : ∃! k, board.present k ∧ k.Same id then h.choose else id

noncomputable def find (token : String) : Except DomainError Naming :=
  match board.labels token with
  | some naming => .ok { naming with id := board.keyOf naming.id }
  | none =>
    match (defaultTokenParser token).find? fun id ↦ board.present (board.keyOf id) with
    | some id => .ok ⟨board.keyOf id, id⟩
    | none => .error (.unknownId token)

def clients : Set ConnectionId := {id | (board.lines id).isSome ∧ id.parent? = none}

def servers : Set ConnectionId := {id | (board.stations id).isSome}

def members (sid : ConnectionId) : Set ConnectionId :=
  {id | (board.lines id).isSome ∧ id.parent? = some sid}

def group (sid : ConnectionId) : Set ConnectionId := {id | id = sid ∨ id.parent? = some sid}

/-- An order to go through the clients, the servers and the members of each. -/
structure Tour where
  clients : List ConnectionId
  servers : List ConnectionId
  members : ConnectionId → List ConnectionId
  lists_clients : Lists clients board.clients
  lists_servers : Lists servers board.servers
  lists_members : ∀ sid, (board.stations sid).isSome → Lists (members sid) (board.members sid)

noncomputable def remove (ids : Set ConnectionId) : Switchboard :=
  open Classical in
  { board with
    lines := fun id ↦ if id ∈ ids then none else board.lines id
    stations := fun id ↦ if id ∈ ids then none else board.stations id
    labels := fun n ↦ if ∃ id ∈ ids, board.label id = some n then none else board.labels n }

def connect (id : ConnectionId) (line : Line) : Switchboard :=
  { board with lines := Function.update board.lines id (some line) }

def install (id : ConnectionId) (task : JoinHandle) : Switchboard :=
  { board with
    stations := Function.update board.stations id (some ⟨task, none⟩)
    accepts := fun b ↦ if b.server = id then 0 else board.accepts b }

def move (old new : ConnectionId) : Switchboard :=
  match board.lines old with
  | some line =>
    { board with lines := Function.update (Function.update board.lines old none) new (some line) }
  | none => board

def rename (id typed : ConnectionId) (name : String) : Switchboard :=
  { board with
    lines := fun k ↦ (board.lines k).map fun line ↦
      if k = id then { line with label := some name } else line
    stations := fun k ↦ (board.stations k).map fun station ↦
      if k = id then { station with label := some name } else station
    labels := fun n ↦
      if n = name then some ⟨id, typed⟩
      else if board.label id = some n then none else board.labels n }

/-- The connection of the next accept on a base: the second one on it takes
the bare id back from the first. -/
def accept (b : Base) (line : Line) : Switchboard :=
  let k := board.accepts b
  let board := if k = 1 then board.move (b.accepted none) (b.accepted (some 1)) else board
  let board := board.connect (b.accepted (suffixAfter k)) line
  { board with accepts := Function.update board.accepts b (k + 1) }

def hangUp (ids : List ConnectionId) : List Effect :=
  ids.filterMap fun id ↦ (board.lines id).map fun line ↦ .abort line.readTask

def dismiss (members : List ConnectionId) (sid : ConnectionId) : List Effect :=
  match board.stations sid with
  | some station =>
    .abort station.acceptTask :: board.hangUp members ++
      (sid.socketPath.map Effect.removeFile).toList
  | none => []

def write (env : Environment) (bytes : List UInt8) (id : ConnectionId) : List Effect :=
  match board.lines id with
  | some line =>
    .write line.stream bytes :: match env.write line.stream bytes with
      | .ok () => []
      | .error e => [say s!"[{board.name id}] ERROR {DomainError.io e}"]
  | none => []

section Status

def clientRow (id : ConnectionId) (line : Line) : String :=
  let remote := match line.peerInfo with
    | some (.tcpSocket addr) => addr
    | some (.ipcRemotePath path) => path
    | some (.ipcPid _) => "(ipc peer)"
    | none => "?"
  s!"  {id} -> {remote}    [CONNECTED]{renderLabel line.label}\n"

def memberRow (id : ConnectionId) (line : Line) : String :=
  let peer := match line.peerInfo with
    | some peer => peer.render
    | none => "?"
  s!"    {id}    peer={peer}    [CONNECTED]{renderLabel line.label}\n"

def rows (row : ConnectionId → Line → String) (ids : List ConnectionId) : String :=
  String.join (ids.map fun id ↦ ((board.lines id).map (row id)).getD "")

def status (tour : board.Tour) : String :=
  let clients := Registry.sortById tour.clients
  let servers := Registry.sortById tour.servers
  "CLIENTS\n" ++ (if clients.isEmpty then "  (none)\n" else board.rows clientRow clients) ++
    "\nSERVERS\n" ++ (if servers.isEmpty then "  (none)\n"
      else String.join (servers.map fun sid ↦
        s!"  {sid}\n" ++ board.rows memberRow (Registry.sortById (tour.members sid))))

end Status

structure Turn where
  board : Switchboard
  seen : Observation

def answer (effects : List Effect) (outcome : CommandOutcome) : Turn :=
  ⟨board, effects, some outcome, .running⟩

def proceed (effects : List Effect) : Turn := ⟨board, effects, none, .running⟩

def refuse (e : DomainError) : Turn := board.answer [] (.err e.message)

noncomputable def openServer (env : Environment) (id : ConnectionId)
    (endpoint : ServerEndpoint) : Turn :=
  if (board.stations (board.keyOf id)).isSome then board.refuse (.idAlreadyInUse id.display)
  else
    match env.bind endpoint with
    | .ok listener =>
      (board.install id env.spawn).answer
        [.bind endpoint, .spawnAccept env.spawn id listener, say s!"[{id}] listening"]
        (.ok s!"listening on {id}")
    | .error e => board.answer [.bind endpoint] (.err e.message)

def openClient (env : Environment) (id : ConnectionId) (endpoint : Endpoint) (peer : PeerInfo)
    (place greeting : String) : Turn :=
  match env.connect endpoint with
  | .ok stream =>
    (board.connect id ⟨stream, env.spawn, some peer, none⟩).answer
      [.connect endpoint, .spawnRead env.spawn id stream, say s!"[{id}] connected to {place}"]
      (.ok greeting)
  | .error e => board.answer [.connect endpoint] (.err e.message)

noncomputable def close (tour : board.Tour) (token : String) (id typed : ConnectionId) : Turn :=
  let closed := [say s!"[{typed}] CLOSED"]
  if (board.stations id).isSome then
    (board.remove (group id)).answer (board.dismiss (tour.members id) id ++ closed)
      (.ok s!"closed server {typed} and all its children")
  else if (board.lines id).isSome then
    (board.remove {id}).answer (board.hangUp [id] ++ closed) (.ok s!"closed {typed}")
  else board.refuse (.unknownId token)

def send (env : Environment) (tour : board.Tour) (id typed : ConnectionId) (bytes : List UInt8) :
    Turn :=
  let sent := CommandOutcome.ok s!"sent {bytes.length} bytes to {typed}"
  if bytes.isEmpty then board.refuse .emptyPayload
  else if (board.stations id).isSome then
    if (tour.members id).isEmpty then board.refuse (.serverHasNoChildren typed.display)
    else board.answer ((tour.members id).flatMap (board.write env bytes)) sent
  else
    match board.lines id with
    | some line =>
      board.answer [.write line.stream bytes] <|
        match env.write line.stream bytes with
        | .ok () => sent
        | .error e => .err (DomainError.io e).message
    | none => board.refuse (.unknownId typed.display)

noncomputable def relabel (id typed : ConnectionId) (name : String) : Turn :=
  if (board.labels name).any fun other ↦ board.keyOf other.id ≠ id then
    board.refuse (.labelAlreadyInUse name)
  else if board.present id then
    (board.rename id typed name).answer [] (.ok s!"labeled {typed} as {name}")
  else board.refuse (.unknownId typed.display)

noncomputable def about (token : String) (turn : ConnectionId → ConnectionId → Turn) : Turn :=
  match board.find token with
  | .ok naming => turn naming.id naming.typed
  | .error e => board.refuse e

noncomputable def command (env : Environment) (tour : board.Tour) : Command → Turn
  | .openTcpServer port => board.openServer env (.tcpServer port) (.tcp port)
  | .openIpcServer path => board.openServer env (.ipcServer path) (.ipc path)
  | .openTcpClient localPort remoteHost remotePort =>
    let id := ConnectionId.tcpClient localPort
    let place := s!"{remoteHost}:{remotePort}"
    if (board.lines id).isSome then board.refuse (.idAlreadyInUse id.display)
    else
      board.openClient env id (.tcp localPort remoteHost remotePort) (.tcpSocket place) place
        s!"client {id} connected"
  | .openIpcClient remotePath =>
    let id := ConnectionId.ipcClient (clientNumber board.opens)
    { board with opens := board.opens + 1 }.openClient env id (.ipc remotePath)
      (.ipcRemotePath remotePath) remotePath s!"ipc client {id} connected to {remotePath}"
  | .close token => board.about token (board.close tour token)
  | .send token bytes => board.about token fun id typed ↦ board.send env tour id typed bytes
  | .label token name => board.about token fun id typed ↦ board.relabel id typed name
  | .status => board.answer [] (.ok (board.status tour))

noncomputable def event : NetEvent → Turn
  | .received id bytes =>
    board.proceed [say s!"[{board.name id}] RECV {Hex.formatHexSpaced bytes}"]
  | .closed id =>
    if (board.lines id).isSome then
      (board.remove {id}).proceed (board.hangUp [id] ++ [say s!"[{board.name id}] CLOSED"])
    else board.proceed []
  | .error id message => board.proceed [say s!"[{board.name id}] ERROR {message}"]
  | .renamed _ _ => board.proceed []

def welcome (env : Environment) (b : Base) (peerInfo : PeerInfo) (stream : BoxedStream) : Turn :=
  let id := b.accepted (suffixAfter (board.accepts b))
  (board.accept b ⟨stream, env.spawn, some peerInfo, none⟩).proceed
    ((if board.accepts b = 1
        then [say s!"[{b.accepted (some 1)}] RENAMED {b.accepted none}"] else []) ++
      [.spawnRead env.spawn id stream, say s!"[{id}] ACCEPT peer={peerInfo.render}"])

noncomputable def turn (env : Environment) (tour : board.Tour) : RegistryInput → Turn
  | .command cmd => board.command env tour cmd
  | .event ev => board.event ev
  | .accepted parent tentative peerInfo stream =>
    match Registry.acceptedBase parent tentative with
    | some b =>
      if (board.stations b.server).isSome then board.welcome env b peerInfo stream
      else ⟨board, [], none, .panicked⟩
    | none => board.proceed [say s!"[{parent}] ERROR internal: mismatched accepted id shape"]
  | .shutdown =>
    ⟨board.remove Set.univ,
      tour.servers.flatMap (fun sid ↦ board.dismiss (tour.members sid) sid) ++
        board.hangUp tour.clients, none, .stopped⟩

end Switchboard

/-- The switchboard under any inputs and any answers, in whatever order it goes
through its entries. -/
def switchboardSystem :
    System (Switchboard × Phase) ((Environment × RegistryInput) × Observation) where
  init s := s = (.initial, .running)
  step s a s' := s.2 = .running ∧ ∃ tour, (s.1.turn a.1.1 tour a.1.2).seen = a.2 ∧
    s' = ((s.1.turn a.1.1 tour a.1.2).board, a.2.phase)

def observedRegistry : System World ((Environment × RegistryInput) × Observation) where
  init := registrySystem.init
  step w a w' := registrySystem.step w a.1 w' ∧
    a.2 = ⟨(w.reg.handleInput a.1.1 a.1.2).effects, (w.reg.handleInput a.1.1 a.1.2).reply, w'.phase⟩

end WireDock
