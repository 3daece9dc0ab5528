import WireDock.Registry.Roster

namespace WireDock

open FiniteMap LabelledSystem

def ConnectionId.toIpc (f : UInt16 → Int32) (path : PathBuf) : ConnectionId → ConnectionId
  | acceptedTcp _ remotePort disambig => acceptedIpc path (f remotePort) disambig
  | id => id

def translate (g : ConnectionId → ConnectionId) (handed : ConnectionId × Option NetEvent) :
    ConnectionId × Option NetEvent :=
  (g handed.1, handed.2.map fun
    | .renamed newId oldId => .renamed (g newId) (g oldId)
    | ev => ev)

/-- The TCP server of one registry and the IPC server of another have
corresponding children, live streams, `base_no_suffix` and `disambig_next`. -/
structure InLockstep (f : UInt16 → Int32) (port : UInt16) (path : PathBuf)
    (reg reg' : Registry) : Prop where
  servers : ∃ srv srv', reg.servers.lookup (.tcpServer port) = some srv ∧
    reg'.servers.lookup (.ipcServer path) = some srv' ∧
    srv'.children = srv.children.image (.toIpc f path) ∧
    Paired (fun r : UInt16 ↦ s!"{port}.{r}") (fun r ↦ s!"{path}.{f r}") (.toIpc f path)
      srv.baseNoSuffix srv'.baseNoSuffix ∧
    Paired (fun r : UInt16 ↦ s!"{port}.{r}") (fun r ↦ s!"{path}.{f r}") id
      srv.disambigNext srv'.disambigNext
  live : ∀ r d, (reg'.streams.lookup (.acceptedIpc path (f r) d)).map StreamHandle.connection =
    (reg.streams.lookup (.acceptedTcp port r d)).map StreamHandle.connection

namespace Registry

theorem callOn_lockstep {α : Type*} [DecidableEq α] {sid : ConnectionId} {b : α → Base}
    (hb : Bases sid b) (peer : α → String → PeerInfo) :
    (callOn sid b peer).Lockstep Roster.call (fun reg n ↦ reg.Keeps sid b n)
      fun out u ↦ out = u.map (Base.handed b) := by
  rintro reg n (⟨r, addr, stream, task⟩ | ⟨r, d⟩) h
  · obtain ⟨reg', ha, hkeep⟩ := h.accept hb r stream (peer r addr) task
    refine ⟨(_, some (Base.handed b (r, (n.accept r (stream, task)).2))), _, ?_, rfl, hkeep, rfl⟩
    rw [callOn, ha]
    rfl
  · exact ⟨_, _, rfl, rfl, h.drop hb r d, rfl⟩

variable {f : UInt16 → Int32} {port : UInt16} {path : PathBuf} {reg reg' : Registry}

theorem Keeps.mem_children {α : Type*} {sid : ConnectionId} {b : α → Base} {n : Roster α}
    {srv : ServerHandle} (h : reg.Keeps sid b n) (hb : Bases sid b)
    (hsrv : reg.servers.lookup sid = some srv) {id : ConnectionId} :
    id ∈ srv.children ↔ ∃ r d, id = (b r).accepted d ∧ (n.live r d).isSome = true := by
  have hmem : ∀ r d, (b r).accepted d ∈ reg.streams ↔ (n.live r d).isSome = true := by
    intro r d
    rw [← h.live, Option.isSome_map, Finmap.lookup_isSome]
  rw [h.wellFormed.children_iff sid srv hsrv]
  constructor
  · rintro ⟨hid, hp⟩
    obtain ⟨r, d, rfl⟩ := h.owned id hid hp
    exact ⟨r, d, rfl, (hmem r d).mp hid⟩
  · rintro ⟨r, d, rfl, hlive⟩
    exact ⟨(hmem r d).mpr hlive, by rw [Base.parent?_accepted, hb.server]⟩

theorem unsuffixed_toIpc (bare : UInt16 → Bool) :
    (fun r ↦ (Base.unsuffixed (Base.tcp port) bare r).map (.toIpc f path)) =
      Base.unsuffixed (fun r ↦ Base.ipc path (f r)) bare := by
  funext r
  simp only [Base.unsuffixed]
  split_ifs <;> rfl

/-- Two servers that keep the same roster are in lock step. -/
theorem inLockstep_of_keeps (hf : Function.Injective f) {n : Roster UInt16}
    (h : reg.Keeps (.tcpServer port) (Base.tcp port) n)
    (h' : reg'.Keeps (.ipcServer path) (fun r ↦ Base.ipc path (f r)) n) :
    InLockstep f port path reg reg' where
  servers := by
    obtain ⟨srv, hsrv, hbase, hnext⟩ := h.server
    obtain ⟨srv', hsrv', hbase', hnext'⟩ := h'.server
    refine ⟨srv, srv', hsrv, hsrv', ?_, ⟨_, hbase, ?_⟩, ⟨_, hnext, ?_⟩⟩
    · ext id
      rw [h'.mem_children (.ipc path hf) hsrv', Finset.mem_image]
      constructor
      · rintro ⟨r, d, rfl, hlive⟩
        exact ⟨_, (h.mem_children (.tcp port) hsrv).mpr ⟨r, d, rfl, hlive⟩, rfl⟩
      · rintro ⟨k, hk, rfl⟩
        obtain ⟨r, d, rfl, hlive⟩ := (h.mem_children (.tcp port) hsrv).mp hk
        exact ⟨r, d, rfl, hlive⟩
    · rw [unsuffixed_toIpc]
      exact hbase'
    · simp only [Option.map_id_apply]
      exact hnext'
  live r d := (h'.live r d).trans (h.live r d).symm

theorem acceptedTcp_of_parent {id : ConnectionId} (h : id.parent? = some (.tcpServer port)) :
    ∃ r d, id = .acceptedTcp port r d := by
  cases id <;> cases h
  exact ⟨_, _, rfl⟩

theorem keeps_of_inLockstep (hw : WellFormed reg) (ht : Tracked reg) (hw' : WellFormed reg')
    (ht' : Tracked reg') (h : InLockstep f port path reg reg') :
    ∃ n, reg.Keeps (.tcpServer port) (Base.tcp port) n ∧
      reg'.Keeps (.ipcServer path) (fun r ↦ Base.ipc path (f r)) n := by
  obtain ⟨⟨srv, srv', hsrv, hsrv', hchildren, ⟨v, hbase, hbase'⟩, ⟨u, hnext, hnext'⟩⟩, hlive⟩ := h
  have hv : v = Base.unsuffixed (Base.tcp port) fun r ↦ (v r).isSome := by
    funext r
    cases hr : v r with
    | none => simp only [Base.unsuffixed, hr, Option.isSome_none, Bool.false_eq_true, if_false]
    | some old =>
      have hold := ht.lookup_base (b := .tcp port r) hsrv ((hbase.lookup r).trans hr)
      simp only [Base.unsuffixed, hr, Option.isSome_some, if_true, hold]
  refine ⟨⟨fun r ↦ (v r).isSome, u, fun r d ↦
    (reg.streams.lookup (.acceptedTcp port r d)).map StreamHandle.connection⟩, ?_, ?_⟩
  · refine ⟨hw, ht, ⟨srv, hsrv, hv ▸ hbase, hnext⟩, fun _ _ ↦ rfl, fun id _ hp ↦ ?_⟩
    exact acceptedTcp_of_parent hp
  · refine ⟨hw', ht', ⟨srv', hsrv', ?_, ?_⟩, hlive, fun id hid hp ↦ ?_⟩
    · rw [hv, unsuffixed_toIpc] at hbase'
      exact hbase'
    · simp only [Option.map_id_apply] at hnext'
      exact hnext'
    · have hmem := (hw'.children_iff _ srv' hsrv' id).mpr ⟨hid, hp⟩
      rw [hchildren, Finset.mem_image] at hmem
      obtain ⟨k, hk, rfl⟩ := hmem
      obtain ⟨r, d, rfl⟩ := acceptedTcp_of_parent ((hw.children_iff _ srv hsrv k).mp hk).2
      exact ⟨r, d, rfl⟩

end Registry

theorem InLockstep.opened {f : UInt16 → Int32} {port : UInt16} {path : PathBuf}
    {reg reg' : Registry} (hw : WellFormed reg) (hw' : WellFormed reg')
    {task task' : JoinHandle} {ipcPath ipcPath' : Option PathBuf}
    (hsrv : reg.servers.lookup (.tcpServer port) = some (.opened (.tcpServer port) task ipcPath))
    (hsrv' : reg'.servers.lookup (.ipcServer path) =
      some (.opened (.ipcServer path) task' ipcPath')) :
    InLockstep f port path reg reg' := by
  refine ⟨⟨_, _, hsrv, hsrv', rfl, ⟨_, .empty _, .empty _⟩, ⟨_, .empty _, .empty _⟩⟩, fun r d ↦ ?_⟩
  have hnone : ∀ {reg : Registry} {b : Base} {srv : ServerHandle}, WellFormed reg →
      reg.servers.lookup b.server = some srv → srv.children = ∅ →
      reg.streams.lookup (b.accepted d) = none := by
    intro reg b srv hw hsrv hempty
    refine not_mem_iff_lookup.mp fun hmem ↦ ?_
    have hchild := (hw.children_iff _ srv hsrv _).mpr ⟨hmem, b.parent?_accepted d⟩
    rw [hempty] at hchild
    exact Finset.notMem_empty _ hchild
  have h := hnone (b := .tcp port r) hw hsrv rfl
  have h' := hnone (b := .ipc path (f r)) hw' hsrv' rfl
  simp only [Base.accepted] at h h'
  rw [h, h']

/-- From corresponding servers, the same accepts and removals on both sides
hand out corresponding ids and rename events and keep the correspondence. -/
theorem allocators_in_lockstep {w w' : World} (hw : Reachable registrySystem w)
    (hw' : Reachable registrySystem w') {f : UInt16 → Int32} (hf : Function.Injective f)
    {port : UInt16} {path : PathBuf} (h : InLockstep f port path w.reg w'.reg)
    (calls : List (ServerCall UInt16)) :
    ∃ t t', Transducer.trace (Registry.tcpCall port) w.reg calls = some t ∧
      Transducer.trace (Registry.ipcCall path) w'.reg (calls.map (ServerCall.map f)) = some t' ∧
      List.Forall₂ (fun x x' ↦ InLockstep f port path x.1 x'.1 ∧
        x'.2 = x.2.map (translate (.toIpc f path))) t t' := by
  obtain ⟨n, hn, hn'⟩ := Registry.keeps_of_inLockstep (wellFormed_of_reachable hw)
    (tracked_of_reachable hw) (wellFormed_of_reachable hw') (tracked_of_reachable hw') h
  obtain ⟨t, t', ht, ht', hall⟩ := Transducer.Lockstep.trace
    ((Registry.callOn_lockstep (.tcp port) fun _ addr ↦ .tcpSocket addr).of_common
      (Registry.callOn_lockstep (.ipc path hf) fun r _ ↦ .ipcPid (f r))) calls ⟨n, hn, hn'⟩
  refine ⟨t, t', by rwa [Registry.tcpCall_eq], ?_, hall.imp ?_⟩
  · rwa [Transducer.trace_map, Registry.ipcCall_eq]
  · rintro x x' ⟨⟨n, hn, hn'⟩, u, hu, hu'⟩
    refine ⟨Registry.inLockstep_of_keeps hf hn hn', ?_⟩
    rw [hu, hu', Option.map_map]
    refine congrArg (fun g ↦ u.map g) (funext fun a ↦ ?_)
    obtain ⟨r, d, renamed⟩ := a
    cases renamed <;> rfl

def collidingCalls : List (ServerCall UInt16) :=
  [.accept 10015 "127.0.0.1:10015" 7 8, .accept 10015 "127.0.0.1:10015" 9 10,
    .drop 10015 (some 1), .accept 10015 "127.0.0.1:10015" 11 12]

theorem allocators_in_lockstep_after_open :
    ∃ f : UInt16 → Int32, f 10015 = 10015 ∧ ∃ w w',
      World.initial.play (fun _ _ ↦ true) [.command (.openTcpServer 3000)] = some w ∧
      World.initial.play (fun _ _ ↦ true) [.command (.openIpcServer "/a")] = some w' ∧
      ∃ t t', Transducer.trace (Registry.tcpCall 3000) w.reg collidingCalls = some t ∧
        Transducer.trace (Registry.ipcCall "/a") w'.reg (collidingCalls.map (ServerCall.map f)) =
          some t' ∧
        List.Forall₂ (fun x x' ↦ InLockstep f 3000 "/a" x.1 x'.1 ∧
          x'.2 = x.2.map (translate (.toIpc f "/a"))) t t' := by
  have hf : Function.Injective fun r : UInt16 ↦ Int32.ofNat r.toNat := by
    intro r r' h
    have hi := congrArg Int32.toInt h
    rw [Int32.toInt_ofNat_of_lt (by have := r.toNat_lt; omega),
      Int32.toInt_ofNat_of_lt (by have := r'.toNat_lt; omega)] at hi
    exact UInt16.toNat_inj.mp (Int.ofNat.inj hi)
  have hrun : ∃ w ∈ World.initial.play (fun _ _ ↦ true) [.command (.openTcpServer 3000)],
      w.reg.servers.lookup (.tcpServer 3000) =
        some (.opened (.tcpServer 3000) 0 none) := by decide +kernel
  have hrun' : ∃ w ∈ World.initial.play (fun _ _ ↦ true) [.command (.openIpcServer "/a")],
      w.reg.servers.lookup (.ipcServer "/a") =
        some (.opened (.ipcServer "/a") 0 (some "/a")) := by decide +kernel
  obtain ⟨w, hw, hsrv⟩ := hrun
  obtain ⟨w', hw', hsrv'⟩ := hrun'
  have hr := reachable_play hw
  have hr' := reachable_play hw'
  exact ⟨fun r ↦ Int32.ofNat r.toNat, rfl, w, w', hw, hw', allocators_in_lockstep hr hr' hf
    (.opened (wellFormed_of_reachable hr) (wellFormed_of_reachable hr') hsrv hsrv')
    collidingCalls⟩

end WireDock
