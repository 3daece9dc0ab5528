import WireDock.Registry.Operations
import WireDock.Library.Transition

namespace WireDock

open FiniteMap

namespace Registry

def acceptedBase : ConnectionId → ConnectionId → Option Base
  | .tcpServer port, .acceptedTcp _ remotePort _ => some (.tcp port remotePort)
  | .ipcServer path, .acceptedIpc _ pid _ => some (.ipc path pid)
  | _, _ => none

def allocate (reg : Registry) (b : Base) : Option (Registry × ConnectionId × Option NetEvent) :=
  reg.allocateAccepted b.server b.key b.accepted

def acceptedBase? : RegistryInput → Option Base
  | .accepted parent tentative _ _ => acceptedBase parent tentative
  | _ => none

def ipcConnect? : RegistryInput → Option PathBuf
  | .command (.openIpcClient remotePath) => some remotePath
  | _ => none

theorem server_of_acceptedBase {parent tentative : ConnectionId} {b : Base}
    (h : acceptedBase parent tentative = some b) : parent = b.server := by
  unfold acceptedBase at h
  split at h <;> cases h <;> rfl

theorem handleAccepted_of_base {env : Environment} {reg : Registry}
    {parent tentative : ConnectionId} {peerInfo : PeerInfo} {stream : BoxedStream} {b : Base}
    (h : acceptedBase parent tentative = some b) :
    reg.handleAccepted env parent tentative peerInfo stream =
      (reg.allocate b).map (register env b.server peerInfo stream) := by
  unfold acceptedBase at h
  split at h <;> cases h <;> rfl

theorem handleAccepted_of_no_base {env : Environment} {reg : Registry}
    {parent tentative : ConnectionId} {peerInfo : PeerInfo} {stream : BoxedStream}
    (h : acceptedBase parent tentative = none) :
    reg.handleAccepted env parent tentative peerInfo stream =
      some (reg, [say s!"[{parent}] ERROR internal: mismatched accepted id shape"]) := by
  unfold acceptedBase at h
  unfold handleAccepted
  split at h <;> simp_all

/-- The three cases of an allocator: the base is new, its unsuffixed id is
taken back, or the counter of the base gives the suffix. -/
inductive Allocated (reg : Registry) (b : Base) :
    Registry → ConnectionId → Option NetEvent → Prop
  | first {srv : ServerHandle} (hsrv : reg.servers.lookup b.server = some srv)
      (hbase : b.key ∉ srv.baseNoSuffix) (hnext : b.key ∉ srv.disambigNext) :
      Allocated reg b
        { reg with
          servers := reg.servers.insert b.server
            { srv with baseNoSuffix := srv.baseNoSuffix.insert b.key (b.accepted none) } }
        (b.accepted none) none
  | second {srv : ServerHandle} {old : ConnectionId} {reg' : Registry}
      (hsrv : reg.servers.lookup b.server = some srv)
      (hold : srv.baseNoSuffix.lookup b.key = some old)
      (hstreams : reg'.streams = (reg.renameAcceptedTcp old (b.accepted (some 1))).streams)
      (hservers : ∀ sid, reg'.servers.lookup sid =
        ((reg.renameAcceptedTcp old (b.accepted (some 1))).servers.lookup sid).map fun s ↦
          if sid = b.server then
            { s with
              baseNoSuffix := srv.baseNoSuffix.erase b.key
              disambigNext := srv.disambigNext.insert b.key 2 }
          else s)
      (hlabels : reg'.labels = reg.labels)
      (hseq : reg'.nextIpcClientSeq = reg.nextIpcClientSeq) (htyped : reg'.typed = reg.typed) :
      Allocated reg b reg' (b.accepted (some 2)) (some (.renamed (b.accepted (some 1)) old))
  | next {srv : ServerHandle} {n : UInt32} (hsrv : reg.servers.lookup b.server = some srv)
      (hbase : b.key ∉ srv.baseNoSuffix) (hn : srv.disambigNext.lookup b.key = some n) :
      Allocated reg b
        { reg with
          servers := reg.servers.insert b.server
            { srv with disambigNext := srv.disambigNext.insert b.key (n + 1) } }
        (b.accepted (some n)) none

theorem allocate_cases {reg reg' : Registry} {b : Base} {id : ConnectionId}
    {ev : Option NetEvent} (h : reg.allocate b = some (reg', id, ev)) :
    Allocated reg b reg' id ev := by
  unfold allocate allocateAccepted at h
  cases hsrv : reg.servers.lookup b.server with
  | none => simp [hsrv] at h
  | some srv =>
    simp only [hsrv] at h
    split_ifs at h with hnew
    · cases h
      exact .first hsrv hnew.1 hnew.2
    · cases hold : srv.baseNoSuffix.lookup b.key with
      | none =>
        simp only [hold, Option.some.injEq, Prod.mk.injEq] at h
        obtain ⟨rfl, rfl, rfl⟩ := h
        have hbase : b.key ∉ srv.baseNoSuffix := not_mem_iff_lookup.mpr hold
        have hn : b.key ∈ srv.disambigNext := by
          by_contra hn
          exact hnew ⟨hbase, hn⟩
        obtain ⟨n, hn⟩ := mem_iff_lookup.mp hn
        simp only [hn, Option.getD_some]
        exact .next hsrv hbase hn
      | some old =>
        simp only [hold] at h
        split at h
        · cases h
        · rename_i srv2 hsrv2
          cases h
          have hstreams : ∀ servers : HashMap ConnectionId ServerHandle,
              ({ reg with servers }.renameAcceptedTcp old (b.accepted (some 1))).streams =
                (reg.renameAcceptedTcp old (b.accepted (some 1))).streams := fun servers ↦
            Finmap.ext_lookup fun k ↦ by simp only [lookup_streams_rename]
          refine .second hsrv hold (hstreams _) (fun sid ↦ ?_) (rename_labels ..) (rename_seq ..)
            (rename_typed ..)
          simp only [lookup_servers_rename, lookup_insert, if_true, Option.map_some, parentOf,
            Option.some.injEq] at hsrv2 ⊢
          subst hsrv2
          by_cases hk : sid = b.server
          · subst hk
            simp only [if_true, hsrv, Option.map_some, Option.some.injEq]
            by_cases hp : (reg.streams.lookup old).bind (·.parent) = some b.server <;> simp [hp]
          · simp only [if_neg hk]
            cases reg.servers.lookup sid <;> rfl

theorem Allocated.mem_servers {reg reg' : Registry} {b : Base} {id k : ConnectionId}
    {ev : Option NetEvent} (h : Allocated reg b reg' id ev) (hk : k ∈ reg'.servers) :
    k ∈ reg.servers := by
  cases h with
  | first hsrv | next hsrv =>
    exact (Finmap.mem_insert.mp hk).elim (fun he ↦ he ▸ mem_of_lookup hsrv) fun hk ↦ hk
  | second hsrv _ _ hservers =>
    rw [mem_iff_of_lookup_map (hservers k), mem_iff_of_lookup_map (lookup_servers_rename ..)] at hk
    exact hk

/-- The `expect`s of an allocator fail on an absent server only. -/
theorem allocate_eq_none {reg : Registry} {b : Base} :
    reg.allocate b = none ↔ b.server ∉ reg.servers := by
  rw [not_mem_iff_lookup]
  constructor
  · intro h
    cases hsrv : reg.servers.lookup b.server with
    | none => rfl
    | some srv =>
      unfold allocate allocateAccepted at h
      simp only [hsrv] at h
      split_ifs at h
      cases hold : srv.baseNoSuffix.lookup b.key with
      | none => simp [hold] at h
      | some old =>
        simp only [hold] at h
        split at h
        · rename_i hsrv2
          simp [lookup_servers_rename] at hsrv2
        · cases h
  · intro h
    simp [allocate, allocateAccepted, h]

def opensServer : Command → Option (ConnectionId × ServerEndpoint × Option PathBuf)
  | .openTcpServer port => some (.tcpServer port, .tcp port, none)
  | .openIpcServer path => some (.ipcServer path, .ipc path, some path)
  | _ => none

def opensClient (reg : Registry) : Command → Option (ConnectionId × Endpoint × PeerInfo × UInt32)
  | .openTcpClient localPort remoteHost remotePort =>
    some (.tcpClient localPort, .tcp localPort remoteHost remotePort,
      .tcpSocket s!"{remoteHost}:{remotePort}", reg.nextIpcClientSeq)
  | .openIpcClient remotePath =>
    some (.ipcClient reg.nextIpcClientSeq, .ipc remotePath, .ipcRemotePath remotePath,
      reg.allocIpcClientSeq.2.nextIpcClientSeq)
  | _ => none

/-- All that handling one input can do to the registry. -/
inductive Change (env : Environment) (reg : Registry) :
    RegistryInput → List Effect → Registry → Prop
  | silent {input : RegistryInput} {effects : List Effect} (hs : ∀ e ∈ effects, e.Silent) :
      Change env reg input effects reg
  | bindRefused {cmd : Command} {id : ConnectionId} {endpoint : ServerEndpoint}
      {path : Option PathBuf} {e : DomainError}
      (ho : opensServer cmd = some (id, endpoint, path)) (hid : reg.keyOf id ∉ reg.servers)
      (hb : env.bind endpoint = .error e) :
      Change env reg (.command cmd) [.bind endpoint] reg
  | serverOpened {cmd : Command} {id : ConnectionId} {endpoint : ServerEndpoint}
      {path : Option PathBuf} {listener : AcceptLoop} {text : String}
      (ho : opensServer cmd = some (id, endpoint, path)) (hid : reg.keyOf id ∉ reg.servers)
      (hb : env.bind endpoint = .ok listener) :
      Change env reg (.command cmd)
        [.bind endpoint, .spawnAccept env.spawn id listener, say text]
        { reg with servers := reg.servers.insert id (.opened id env.spawn path) }
  | connectRefused {cmd : Command} {id : ConnectionId} {endpoint : Endpoint} {peer : PeerInfo}
      {seq : UInt32} (ho : reg.opensClient cmd = some (id, endpoint, peer, seq)) :
      Change env reg (.command cmd) [.connect endpoint] { reg with nextIpcClientSeq := seq }
  | clientOpened {cmd : Command} {id : ConnectionId} {endpoint : Endpoint} {peer : PeerInfo}
      {seq : UInt32} {stream : BoxedStream} {text : String}
      (ho : reg.opensClient cmd = some (id, endpoint, peer, seq))
      (hfree : id ∉ reg.streams ∨ id = .ipcClient reg.nextIpcClientSeq)
      (hc : env.connect endpoint = .ok stream) :
      Change env reg (.command cmd)
        [.connect endpoint, .spawnRead env.spawn id stream, say text]
        ({ reg with nextIpcClientSeq := seq }.insertStream
          (.spawned id stream (some peer) none env.spawn))
  | labelled {token name : String} {id typed : ConnectionId}
      (hr : reg.resolveId token defaultTokenParser = .ok typed ∧ reg.entryOf token typed = id)
      (hok : (reg.applyLabel id typed name).2 = .ok ()) :
      Change env reg (.command (.label token name)) []
        (reg.replaceLabel id typed name).1
  | streamDropped {input : RegistryInput} {id : ConnectionId} {text : String}
      (hi : (∃ token, input = .command (.close token) ∧
          reg.target token = .ok id ∧ id ∉ reg.servers) ∨
        input = .event (.closed id))
      (hid : id ∈ reg.streams) :
      Change env reg input ((reg.dropStream id).2 ++ [say text]) (reg.dropStream id).1
  | serverDropped {token : String} {id : ConnectionId} {srv : ServerHandle} {text : String}
      (hr : reg.target token = .ok id) (hid : reg.servers.lookup id = some srv) :
      Change env reg (.command (.close token)) ((reg.dropServer env.order id).2 ++ [say text])
        (reg.dropServer env.order id).1
  | accepted {parent tentative : ConnectionId} {peerInfo : PeerInfo} {stream : BoxedStream}
      {b : Base} {reg' : Registry} {id : ConnectionId} {ev : Option NetEvent}
      (hb : acceptedBase parent tentative = some b)
      (ha : Allocated reg b reg' id ev) :
      Change env reg (.accepted parent tentative peerInfo stream)
        (register env b.server peerInfo stream (reg', id, ev)).2
        (register env b.server peerInfo stream (reg', id, ev)).1

theorem applyLabel_error {reg : Registry} {id typed : ConnectionId} {name : String}
    {e : DomainError} (h : (reg.applyLabel id typed name).2 = .error e) :
    (reg.applyLabel id typed name).1 = reg := by
  have hr : ∀ e, (reg.replaceLabel id typed name).2 = .error e →
      (reg.replaceLabel id typed name).1 = reg := by
    intro e he
    unfold replaceLabel at he ⊢
    cases hs : reg.streams.lookup id with
    | some s => simp [hs] at he
    | none =>
      cases hv : reg.servers.lookup id with
      | some s => simp [hs, hv] at he
      | none =>
        -- nothing was removed: an id without an entry has no label
        have hl : reg.currentLabel id = none := by simp [currentLabel, hs, hv]
        simp [hl, freeLabel]
  unfold applyLabel at h ⊢
  cases hl : reg.labels.lookup name with
  | none => exact hr e (by simpa only [hl] using h)
  | some existing =>
    by_cases he : reg.keyOf existing = id
    · simpa [he] using hr e (by simpa [hl, he] using h)
    · simp [he]

theorem silent_write {env : Environment} {reg : Registry} {id : ConnectionId}
    {bytes : List UInt8} : ∀ e ∈ (reg.writeToStream env id bytes).2, e.Silent := by
  unfold writeToStream
  cases reg.streams.lookup id with
  | none => simp
  | some h =>
    simp only
    split_ifs
    · simp
    · cases env.write h.stream bytes <;> simp [Effect.Silent]

theorem silent_broadcast {env : Environment} {reg : Registry} {bytes : List UInt8}
    (children : List ConnectionId) : ∀ e ∈ reg.broadcast env bytes children, e.Silent := by
  induction children with
  | nil => simp [broadcast]
  | cons c children ih =>
    intro e he
    simp only [broadcast, List.mem_append] at he
    rcases he with (he | he) | he
    · exact silent_write e he
    · cases hw : (reg.writeToStream env c bytes).1 with
      | ok u => simp [hw] at he
      | error err =>
        simp only [hw, List.mem_singleton] at he
        simp [he, say, Effect.Silent]
    · exact ih e he

theorem silent_send {env : Environment} {reg : Registry} {id : ConnectionId}
    {bytes : List UInt8} : ∀ e ∈ (reg.sendBytes env id bytes).2, e.Silent := by
  unfold sendBytes
  split_ifs
  · simp
  · cases reg.servers.lookup id with
    | none => simp
    | some s =>
      simp only
      split_ifs
      · simp
      · exact silent_broadcast _
  · exact silent_write

theorem openServer_change {env : Environment} {reg : Registry} {cmd : Command}
    {id : ConnectionId} {endpoint : ServerEndpoint} {path : Option PathBuf}
    (ho : opensServer cmd = some (id, endpoint, path)) (hid : reg.keyOf id ∉ reg.servers) :
    Change env reg (.command cmd) (reg.openServer env id endpoint path).effects
      (reg.openServer env id endpoint path).reg := by
  unfold openServer
  cases hb : env.bind endpoint with
  | ok listener => exact .serverOpened ho hid hb
  | error e => exact .bindRefused ho hid hb

theorem handleCommand_change (env : Environment) (reg : Registry) (cmd : Command) :
    Change env reg (.command cmd) (reg.handleCommand env cmd).effects
      (reg.handleCommand env cmd).reg := by
  have hquiet : ∀ {input}, Change env reg input [] reg := .silent (by simp)
  cases cmd with
  | openTcpServer port =>
    simp only [handleCommand]
    split_ifs with hid
    · exact hquiet
    · refine openServer_change rfl ?_
      rw [keyOf_tcpServer]
      exact (not_or.mp hid).1
  | openIpcServer path =>
    simp only [handleCommand]
    split_ifs with hid
    · exact hquiet
    · exact openServer_change rfl hid
  | openTcpClient localPort remoteHost remotePort =>
    simp only [handleCommand]
    split_ifs with hid
    · exact hquiet
    · cases hc : env.connect (.tcp localPort remoteHost remotePort) with
      | ok stream => exact .clientOpened rfl (.inl (not_or.mp hid).1) hc
      | error e => exact .connectRefused rfl
  | openIpcClient remotePath =>
    simp only [handleCommand]
    cases hc : env.connect (.ipc remotePath) with
    | ok stream => exact .clientOpened rfl (.inr rfl) hc
    | error e => exact .connectRefused rfl
  | close idToken =>
    simp only [handleCommand]
    cases hr : reg.resolveId idToken defaultTokenParser with
    | error e => exact hquiet
    | ok id =>
      simp only
      split_ifs with hv hs
      · obtain ⟨srv, hsrv⟩ := mem_iff_lookup.mp hv
        exact .serverDropped (target_of_resolved hr) hsrv
      · exact .streamDropped (.inl ⟨idToken, rfl, target_of_resolved hr, hv⟩) hs
      · exact hquiet
  | send idToken bytes =>
    simp only [handleCommand]
    cases hr : reg.resolveId idToken defaultTokenParser with
    | error e => exact hquiet
    | ok id =>
      simp only
      cases (reg.sendBytes env (reg.entryOf idToken id) bytes).1 <;> exact .silent silent_send
  | label idToken name =>
    simp only [handleCommand]
    cases hr : reg.resolveId idToken defaultTokenParser with
    | error e => exact hquiet
    | ok id =>
      simp only [cmdLabel]
      cases ha : (reg.applyLabel (reg.entryOf idToken id) id name).2 with
      | ok u =>
        simp only [(applyLabel_ok ha).2]
        exact .labelled ⟨hr, rfl⟩ ha
      | error e =>
        simp only [applyLabel_error ha]
        exact hquiet
  | status => exact hquiet

theorem handleEvent_change (env : Environment) (reg : Registry) (ev : NetEvent) :
    Change env reg (.event ev) (reg.handleEvent ev).2 (reg.handleEvent ev).1 := by
  cases ev with
  | received id bytes => exact .silent (by simp [handleEvent, onReceived, say, Effect.Silent])
  | closed id =>
    simp only [handleEvent, onClosedEvent]
    split_ifs with hid
    · exact .streamDropped (.inr rfl) hid
    · exact .silent (by simp)
  | error id message =>
    exact .silent (by simp [handleEvent, onErrorEvent, say, Effect.Silent])
  | renamed newId oldId => exact .silent (by simp [handleEvent])

/-- Every input the registry task survives is one of these changes. -/
theorem handleInput_change {env : Environment} {reg reg' : Registry} {input : RegistryInput}
    {effects : List Effect} {reply : Option CommandOutcome}
    (h : reg.handleInput env input = .running reg' effects reply) :
    Change env reg input effects reg' := by
  cases input with
  | shutdown => cases h
  | command cmd =>
    cases h
    exact handleCommand_change env reg cmd
  | event ev =>
    cases h
    exact handleEvent_change env reg ev
  | accepted parent child peerInfo stream =>
    unfold handleInput at h
    cases hb : acceptedBase parent child with
    | none =>
      simp only [handleAccepted_of_no_base hb, Handling.running.injEq] at h
      obtain ⟨rfl, rfl, -⟩ := h
      exact .silent (by simp [say, Effect.Silent])
    | some b =>
      simp only [handleAccepted_of_base hb] at h
      cases ha : reg.allocate b with
      | none => simp [ha] at h
      | some allocated =>
        simp only [ha, Option.map_some, Handling.running.injEq] at h
        obtain ⟨rfl, rfl, -⟩ := h
        exact .accepted hb (allocate_cases ha)

/-- The registry task panics on accepted connections of an absent server only. -/
theorem handleInput_panicked {env : Environment} {reg : Registry} {input : RegistryInput} :
    reg.handleInput env input = .panicked ↔
      ∃ parent child peerInfo stream b, input = .accepted parent child peerInfo stream ∧
        acceptedBase parent child = some b ∧ b.server ∉ reg.servers := by
  constructor
  · intro h
    cases input with
    | shutdown => cases h
    | command cmd => cases h
    | event ev => cases h
    | accepted parent child peerInfo stream =>
      unfold handleInput at h
      cases hb : acceptedBase parent child with
      | none => simp [handleAccepted_of_no_base hb] at h
      | some b =>
        refine ⟨parent, child, peerInfo, stream, b, rfl, hb, allocate_eq_none.mp ?_⟩
        simp only [handleAccepted_of_base hb] at h
        cases ha : reg.allocate b with
        | none => rfl
        | some allocated => simp [ha] at h
  · rintro ⟨parent, child, peerInfo, stream, b, rfl, hb, hs⟩
    simp [handleInput, handleAccepted_of_base hb, allocate_eq_none.mpr hs]

end Registry

end WireDock
