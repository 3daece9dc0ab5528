import WireDock.Library.Keyed
import WireDock.Library.Lockstep
import WireDock.Registry.Commute

namespace WireDock

open FiniteMap LabelledSystem

abbrev Connection := BoxedStream × JoinHandle

def StreamHandle.connection (h : StreamHandle) : Connection := (h.stream, h.readTask)

/-- What a server keeps of the connections it accepted, by the remote party
they came from: whose id is taken without a suffix, the next suffix of the
others, and who is connected under which suffix. -/
structure Roster (α : Type*) where
  bare : α → Bool
  next : α → Option UInt32
  live : α → Option UInt32 → Option Connection

namespace Roster

variable {α : Type*} [DecidableEq α]

def promote (row : Option UInt32 → Option Connection) : Option UInt32 → Option Connection :=
  match row none with
  | some c => Function.update (Function.update row none none) (some 1) (some c)
  | none => row

/-- An accept: the roster after it, the suffix given, and whether the
unsuffixed id was taken back. -/
def accept (n : Roster α) (r : α) (c : Connection) : Roster α × Option UInt32 × Bool :=
  match n.bare r, n.next r with
  | true, _ =>
    ({ bare := Function.update n.bare r false
       next := Function.update n.next r (some 2)
       live := Function.update n.live r
        (Function.update (promote (n.live r)) (some 2) (some c)) }, some 2, true)
  | false, some m =>
    ({ n with
       next := Function.update n.next r (some (m + 1))
       live := Function.update n.live r
        (Function.update (n.live r) (some m) (some c)) }, some m, false)
  | false, none =>
    ({ n with
       bare := Function.update n.bare r true
       live := Function.update n.live r
        (Function.update (n.live r) none (some c)) }, none, false)

def drop (n : Roster α) (r : α) (d : Option UInt32) : Roster α :=
  { n with live := Function.update n.live r (Function.update (n.live r) d none) }

end Roster

inductive ServerCall (α : Type*)
  | accept (remote : α) (addr : String) (stream : BoxedStream) (task : JoinHandle)
  | drop (remote : α) (disambig : Option UInt32)

namespace ServerCall

variable {α β : Type*}

def map (f : α → β) : ServerCall α → ServerCall β
  | accept remote addr stream task => accept (f remote) addr stream task
  | drop remote disambig => drop (f remote) disambig

end ServerCall

def Roster.call {α : Type*} [DecidableEq α] :
    Transducer (Roster α) (ServerCall α) (Option (α × Option UInt32 × Bool))
  | n, .accept remote _ stream task =>
    let accepted := n.accept remote (stream, task)
    some (accepted.1, some (remote, accepted.2))
  | n, .drop remote disambig => some (n.drop remote disambig, none)

namespace Registry

def tcpCall (port : UInt16) :
    Transducer Registry (ServerCall UInt16) (Option (ConnectionId × Option NetEvent))
  | reg, .accept remotePort addr stream task =>
    (reg.allocateAcceptedTcpId port remotePort).map fun allocated ↦
      (allocated.1.insertStream (.spawned allocated.2.1 stream (some (.tcpSocket addr))
        (some (.tcpServer port)) task), some allocated.2)
  | reg, .drop remotePort disambig =>
    some ((reg.dropStream (.acceptedTcp port remotePort disambig)).1, none)

def ipcCall (path : PathBuf) :
    Transducer Registry (ServerCall Int32) (Option (ConnectionId × Option NetEvent))
  | reg, .accept pid _ stream task =>
    (reg.allocateAcceptedIpcId path pid).map fun allocated ↦
      (allocated.1.insertStream (.spawned allocated.2.1 stream (some (.ipcPid pid))
        (some (.ipcServer path)) task), some allocated.2)
  | reg, .drop pid disambig =>
    some ((reg.dropStream (.acceptedIpc path pid disambig)).1, none)

def callOn {α : Type*} (sid : ConnectionId) (b : α → Base) (peer : α → String → PeerInfo) :
    Transducer Registry (ServerCall α) (Option (ConnectionId × Option NetEvent))
  | reg, .accept remote addr stream task =>
    (reg.allocate (b remote)).map fun allocated ↦
      (allocated.1.insertStream (.spawned allocated.2.1 stream (some (peer remote addr))
        (some sid) task), some allocated.2)
  | reg, .drop remote disambig => some ((reg.dropStream ((b remote).accepted disambig)).1, none)

theorem tcpCall_eq (port : UInt16) : tcpCall port =
    callOn (.tcpServer port) (Base.tcp port) fun _ addr ↦ .tcpSocket addr := by
  funext reg call
  cases call <;> rfl

theorem ipcCall_eq (path : PathBuf) (f : UInt16 → Int32) :
    (fun reg call ↦ ipcCall path reg (ServerCall.map f call)) =
      callOn (.ipcServer path) (fun r ↦ Base.ipc path (f r)) fun r _ ↦ .ipcPid (f r) := by
  funext reg call
  cases call <;> rfl

end Registry

structure Bases {α : Type*} (sid : ConnectionId) (b : α → Base) : Prop where
  injective : Function.Injective b
  server : ∀ r, (b r).server = sid

namespace Bases

variable {α : Type*} {sid : ConnectionId} {b : α → Base}

theorem key_injective (h : Bases sid b) : Function.Injective fun r ↦ (b r).key :=
  fun r r' hk ↦ h.injective (Base.key_inj ((h.server r).trans (h.server r').symm) hk)

theorem accepted_inj (h : Bases sid b) {r r' : α} {d d' : Option UInt32}
    (he : (b r).accepted d = (b r').accepted d') : r = r' ∧ d = d' :=
  ⟨h.injective (Base.accepted_inj he).1, (Base.accepted_inj he).2⟩

theorem tcp (port : UInt16) : Bases (.tcpServer port) (Base.tcp port) where
  injective _ _ h := by
    cases h
    rfl
  server _ := rfl

theorem ipc (path : PathBuf) {f : α → Int32} (hf : Function.Injective f) :
    Bases (.ipcServer path) fun r ↦ Base.ipc path (f r) where
  injective _ _ h := hf (Base.ipc.inj h).2
  server _ := rfl

end Bases

def Base.unsuffixed {α : Type*} (b : α → Base) (bare : α → Bool) (r : α) : Option ConnectionId :=
  if bare r then some ((b r).accepted none) else none

theorem Base.unsuffixed_update {α : Type*} [DecidableEq α] (b : α → Base) (bare : α → Bool)
    (r : α) (taken : Bool) : Base.unsuffixed b (Function.update bare r taken) =
      Function.update (Base.unsuffixed b bare) r
        (if taken then some ((b r).accepted none) else none) := by
  funext r'
  simp only [unsuffixed, Function.update_apply]
  by_cases hr : r' = r
  · rw [if_pos hr, if_pos hr, hr]
  · rw [if_neg hr, if_neg hr]

def Base.handed {α : Type*} (b : α → Base) (accepted : α × Option UInt32 × Bool) :
    ConnectionId × Option NetEvent :=
  ((b accepted.1).accepted accepted.2.1,
    if accepted.2.2 then
      some (.renamed ((b accepted.1).accepted (some 1)) ((b accepted.1).accepted none))
    else none)

/-- The registry keeps of a server what the roster says, under the bases `b`. -/
structure Registry.Keeps {α : Type*} (reg : Registry) (sid : ConnectionId) (b : α → Base)
    (n : Roster α) : Prop where
  wellFormed : WellFormed reg
  tracked : Tracked reg
  server : ∃ srv, reg.servers.lookup sid = some srv ∧
    Keyed (fun r ↦ (b r).key) (Base.unsuffixed b n.bare) srv.baseNoSuffix ∧
    Keyed (fun r ↦ (b r).key) n.next srv.disambigNext
  live : ∀ r d, (reg.streams.lookup ((b r).accepted d)).map StreamHandle.connection = n.live r d
  owned : ∀ id ∈ reg.streams, id.parent? = some sid → ∃ r d, id = (b r).accepted d

namespace Registry.Keeps

variable {α : Type*} {reg : Registry} {sid : ConnectionId} {b : α → Base} {n : Roster α}

/-- An accept on a base is the edit that the roster's entry for it calls for. -/
theorem allocate_slot (h : reg.Keeps sid b n) (hb : Bases sid b) (r : α) (stream : BoxedStream)
    (peer : PeerInfo) (task : JoinHandle) {handle : ConnectionId → StreamHandle}
    (hhandle : handle = fun id ↦ .spawned id stream (some peer) (some sid) task) (s : Slot)
    (hs : s = ⟨Base.unsuffixed b n.bare r, n.next r, reg.streams.lookup ((b r).accepted none)⟩) :
    ∃ reg', reg.allocate (b r) = some (reg', s.allocated (b r)) ∧
      reg'.insertStream (handle (s.allocated (b r)).1) = (s.edit (b r) handle).apply reg ∧
      WellFormed ((s.edit (b r) handle).apply reg) ∧
      Tracked ((s.edit (b r) handle).apply reg) := by
  obtain ⟨srv, hsrv, hbase, hnext⟩ := h.server
  have hslot : reg.slot (b r) = some s := by
    rw [slot, hb.server, hsrv, Option.map_some, hbase.lookup, hnext.lookup, hs]
  have hid : ∀ id, (handle id).state.id = id := fun _ ↦ by rw [hhandle]; rfl
  have hparent : ∀ id, (handle id).parent = some (b r).server := fun _ ↦ by
    rw [hb.server, hhandle]
    rfl
  obtain ⟨reg', ha, hreg'⟩ :=
    allocate_edit hslot (slot_sound h.wellFormed h.tracked hslot) hid hparent
  refine ⟨reg', ha, hreg', hreg' ▸ ?_, hreg' ▸ ?_⟩
  · exact h.wellFormed.accepted h.tracked (allocate_cases ha) (hid _) (by rw [hhandle]; rfl)
      (hparent _)
  · exact h.tracked.accepted (allocate_cases ha) (hid _)

variable [DecidableEq α]

theorem drop (h : reg.Keeps sid b n) (hb : Bases sid b) (r : α) (d : Option UInt32) :
    (reg.dropStream ((b r).accepted d)).1.Keeps sid b (n.drop r d) where
  wellFormed := h.wellFormed.dropStream _
  tracked := h.tracked.dropStream _
  server := by
    obtain ⟨srv, hsrv, hbase, hnext⟩ := h.server
    rw [lookup_servers_dropStream, hsrv]
    refine ⟨_, rfl, ?_⟩
    split_ifs <;> exact ⟨hbase, hnext⟩
  live r' d' := by
    rw [dropStream_streams, lookup_erase]
    simp only [Roster.drop, Function.update_apply]
    by_cases hr : r' = r
    · subst hr
      rw [if_pos rfl, Function.update_apply, ← h.live r' d']
      by_cases hd : d' = d
      · rw [if_pos (by rw [hd]), if_pos hd, Option.map_none]
      · rw [if_neg (Base.accepted_ne hd), if_neg hd]
    · rw [if_neg hr, if_neg fun he ↦ hr (hb.accepted_inj he).1, h.live]
  owned id hid hp := by
    rw [dropStream_streams, Finmap.mem_erase] at hid
    exact h.owned id hid.2 hp

/-- An edit of one base settles its own row and leaves the others. -/
theorem of_edit (h : reg.Keeps sid b n) (hb : Bases sid b) {e : Edit} {r : α}
    {row : Option UInt32 → Option Connection} {n' : Roster α} {srv : ServerHandle}
    (hw : WellFormed (e.apply reg)) (ht : Tracked (e.apply reg))
    (hsrv : reg.servers.lookup sid = some srv) (hparent : e.parent = some sid)
    (hkeys : ∀ k ∈ e.streams.keys, ∃ d, k = (b r).accepted d)
    (hbase : Keyed (fun r ↦ (b r).key) (Base.unsuffixed b n'.bare)
      (Patch.apply e.base srv.baseNoSuffix))
    (hnext : Keyed (fun r ↦ (b r).key) n'.next (Patch.apply e.next srv.disambigNext))
    (hrow : ∀ d, ((Patch.apply e.streams reg.streams).lookup ((b r).accepted d)).map
      StreamHandle.connection = row d)
    (hlive : n'.live = Function.update n.live r row) : (e.apply reg).Keeps sid b n' where
  wellFormed := hw
  tracked := ht
  server := ⟨e.onServer srv, by
    rw [e.lookup_servers_apply, hsrv, Option.map_some, if_pos hparent], hbase, hnext⟩
  live r' d := by
    rw [hlive, Function.update_apply]
    by_cases hr : r' = r
    · rw [if_pos hr, hr]
      exact hrow d
    · rw [if_neg hr, ← h.live r' d]
      refine congrArg (Option.map _) (Patch.lookup_apply_of_not_mem (fun hk ↦ ?_) _)
      obtain ⟨d', he⟩ := hkeys _ hk
      exact hr (hb.accepted_inj he).1
  owned id hid hp := by
    by_cases hk : id ∈ e.streams.keys
    · obtain ⟨d, he⟩ := hkeys id hk
      exact ⟨r, d, he⟩
    · refine h.owned id (mem_iff_lookup.mpr ?_) hp
      rw [← Patch.lookup_apply_of_not_mem hk reg.streams]
      exact mem_iff_lookup.mp hid

theorem connection_insert (m : HashMap ConnectionId StreamHandle) (b : Base)
    (d : Option UInt32) (h : StreamHandle) (d' : Option UInt32) :
    ((m.insert (b.accepted d) h).lookup (b.accepted d')).map StreamHandle.connection =
      Function.update (fun d ↦ (m.lookup (b.accepted d)).map StreamHandle.connection) d
        (some h.connection) d' := by
  rw [lookup_insert, Function.update_apply]
  by_cases hd : d' = d
  · rw [if_pos (by rw [hd]), if_pos hd, Option.map_some]
  · rw [if_neg (Base.accepted_ne hd), if_neg hd]

theorem connection_moved (reg : Registry) (b : Base) (d : Option UInt32) :
    ((Patch.apply (Slot.moved b (reg.streams.lookup (b.accepted none))) reg.streams).lookup
      (b.accepted d)).map StreamHandle.connection =
    Roster.promote (fun d ↦ (reg.streams.lookup (b.accepted d)).map StreamHandle.connection) d := by
  unfold Slot.moved Roster.promote
  cases hheld : reg.streams.lookup (b.accepted none) with
  | none => simp only [hheld, Option.map_none, Patch.apply]
  | some h =>
    have hinj : ∀ {d d' : Option UInt32}, b.accepted d = b.accepted d' ↔ d = d' :=
      ⟨fun he ↦ (Base.accepted_inj he).2, fun he ↦ he ▸ rfl⟩
    simp only [Patch.apply, lookup_insert, lookup_erase, hinj, hheld, Option.map_some,
      Function.update_apply]
    split_ifs <;> rfl

theorem accept (h : reg.Keeps sid b n) (hb : Bases sid b) (r : α) (stream : BoxedStream)
    (peer : PeerInfo) (task : JoinHandle) :
    ∃ reg', reg.allocate (b r) =
        some (reg', Base.handed b (r, (n.accept r (stream, task)).2)) ∧
      (reg'.insertStream (.spawned ((b r).accepted (n.accept r (stream, task)).2.1) stream
        (some peer) (some sid) task)).Keeps sid b (n.accept r (stream, task)).1 := by
  obtain ⟨srv, hsrv, hbase, hnext⟩ := h.server
  have hrow := funext (h.live r)
  have hparent := congrArg some (hb.server r)
  cases hbare : n.bare r with
  | true =>
    obtain ⟨reg', ha, hreg', hw, ht⟩ := h.allocate_slot hb r stream peer task rfl
      ⟨some ((b r).accepted none), n.next r, _⟩ (by rw [Base.unsuffixed, if_pos hbare])
    simp only [Roster.accept, hbare]
    refine ⟨reg', ha, hreg'.symm ▸ h.of_edit hb hw ht hsrv hparent
      (fun k hk ↦ ConnectionId.exists_accepted (Slot.base?_of_mem_edit hk)) ?_ ?_ ?_ rfl⟩
    · rw [Base.unsuffixed_update]
      exact hbase.erase hb.key_injective r
    · exact hnext.insert hb.key_injective r 2
    · intro d
      rw [← hrow, ← funext (connection_moved reg (b r))]
      exact connection_insert _ _ _ _ d
  | false =>
    cases hn : n.next r with
    | some m =>
      obtain ⟨reg', ha, hreg', hw, ht⟩ := h.allocate_slot hb r stream peer task rfl
        ⟨none, some m, _⟩ (by rw [Base.unsuffixed, if_neg (by simp [hbare]), hn])
      simp only [Roster.accept, hbare, hn]
      refine ⟨reg', ha, hreg'.symm ▸ h.of_edit hb hw ht hsrv hparent
        (fun k hk ↦ ConnectionId.exists_accepted (Slot.base?_of_mem_edit hk)) hbase ?_ ?_ rfl⟩
      · exact hnext.insert hb.key_injective r (m + 1)
      · intro d
        rw [← hrow]
        exact connection_insert _ _ _ _ d
    | none =>
      obtain ⟨reg', ha, hreg', hw, ht⟩ := h.allocate_slot hb r stream peer task rfl
        ⟨none, none, _⟩ (by rw [Base.unsuffixed, if_neg (by simp [hbare]), hn])
      simp only [Roster.accept, hbare, hn]
      refine ⟨reg', ha, hreg'.symm ▸ h.of_edit hb hw ht hsrv hparent
        (fun k hk ↦ ConnectionId.exists_accepted (Slot.base?_of_mem_edit hk)) ?_ hnext ?_ rfl⟩
      · rw [Base.unsuffixed_update]
        exact hbase.insert hb.key_injective r ((b r).accepted none)
      · intro d
        rw [← hrow]
        exact connection_insert _ _ _ _ d

end Registry.Keeps

end WireDock
