import WireDock.Library.Patch
import WireDock.Registry.Representation

namespace WireDock

open FiniteMap LabelledSystem

theorem updateParent_comm {servers : HashMap ConnectionId ServerHandle}
    {parent parent' : Option ConnectionId} {f g : ServerHandle → ServerHandle}
    (h : ∀ sid, parent = some sid → parent' = some sid → ∀ srv, f (g srv) = g (f srv)) :
    updateParent (updateParent servers parent' g) parent f =
      updateParent (updateParent servers parent f) parent' g := by
  refine Finmap.ext_lookup fun sid ↦ ?_
  simp only [Registry.lookup_updateParent, Option.map_map]
  refine congrArg (fun f ↦ (servers.lookup sid).map f) (funext fun srv ↦ ?_)
  simp only [Function.comp_apply]
  split_ifs with hp hp'
  · exact h sid hp hp' srv
  · rfl
  · rfl
  · rfl

theorem freeLabel_comm (labels : HashMap String ConnectionId) (label label' : Option String) :
    freeLabel (freeLabel labels label') label = freeLabel (freeLabel labels label) label' := by
  refine Finmap.ext_lookup fun name ↦ ?_
  simp only [Registry.lookup_freeLabel]
  split_ifs <;> rfl

/-- What an accepted connection or the end of one writes: the streams, the
maps of one server, whose children follow the streams, and a label freed. -/
structure Edit where
  streams : Patch ConnectionId StreamHandle
  parent : Option ConnectionId
  base : Patch String ConnectionId
  next : Patch String UInt32
  label : Option String

namespace Edit

def onServer (e : Edit) (srv : ServerHandle) : ServerHandle :=
  { srv with
    children := Patch.applySet e.streams srv.children
    baseNoSuffix := Patch.apply e.base srv.baseNoSuffix
    disambigNext := Patch.apply e.next srv.disambigNext }

def apply (e : Edit) (reg : Registry) : Registry :=
  { reg with
    streams := Patch.apply e.streams reg.streams
    servers := updateParent reg.servers e.parent e.onServer
    labels := freeLabel reg.labels e.label }

structure Apart (e e' : Edit) : Prop where
  streams : List.Disjoint e.streams.keys e'.streams.keys
  maps : ∀ sid, e.parent = some sid → e'.parent = some sid →
    List.Disjoint e.base.keys e'.base.keys ∧ List.Disjoint e.next.keys e'.next.keys

theorem apply_comm {e e' : Edit} (h : e.Apart e') (reg : Registry) :
    e.apply (e'.apply reg) = e'.apply (e.apply reg) := by
  have hservers : ∀ sid, e.parent = some sid → e'.parent = some sid →
      ∀ srv, e.onServer (e'.onServer srv) = e'.onServer (e.onServer srv) := by
    intro sid hp hp' srv
    obtain ⟨hbase, hnext⟩ := h.maps sid hp hp'
    simp only [onServer, Patch.applySet_comm h.streams, Patch.apply_comm hbase,
      Patch.apply_comm hnext]
  simp only [apply, Patch.apply_comm h.streams, updateParent_comm hservers, freeLabel_comm]

theorem lookup_servers_apply (e : Edit) (reg : Registry) (sid : ConnectionId) :
    (e.apply reg).servers.lookup sid =
      (reg.servers.lookup sid).map fun srv ↦ if e.parent = some sid then e.onServer srv else srv :=
  Registry.lookup_updateParent _ _ _ _

theorem eq_apply {e : Edit} {reg reg' : Registry}
    (hstreams : reg'.streams = Patch.apply e.streams reg.streams)
    (hservers : ∀ sid, reg'.servers.lookup sid =
      (reg.servers.lookup sid).map fun srv ↦ if e.parent = some sid then e.onServer srv else srv)
    (hlabels : reg'.labels = freeLabel reg.labels e.label)
    (htyped : reg'.typed = reg.typed) (hseq : reg'.nextIpcClientSeq = reg.nextIpcClientSeq) :
    reg' = e.apply reg := by
  have hv : reg'.servers = updateParent reg.servers e.parent e.onServer :=
    Finmap.ext_lookup fun sid ↦ (hservers sid).trans (e.lookup_servers_apply reg sid).symm
  cases reg'
  simp only at hstreams hv hlabels htyped hseq
  rw [hstreams, hv, hlabels, htyped, hseq, apply]

theorem displayName_apply {e : Edit} {id : ConnectionId} (h : id ∉ e.streams.keys)
    (reg : Registry) : (e.apply reg).displayName id = reg.displayName id := by
  have hs : (e.apply reg).streams.lookup id = reg.streams.lookup id :=
    Patch.lookup_apply_of_not_mem h _
  have hv : ((e.apply reg).servers.lookup id).bind (·.state.label) =
      (reg.servers.lookup id).bind (·.state.label) := by
    rw [lookup_servers_apply]
    cases reg.servers.lookup id with
    | none => rfl
    | some srv =>
      rw [Option.map_some, Option.bind_some, Option.bind_some]
      split_ifs <;> rfl
  simp only [Registry.displayName, hs, hv]

end Edit

structure Slot where
  base : Option ConnectionId
  next : Option UInt32
  held : Option StreamHandle

namespace Registry

def slot (reg : Registry) (b : Base) : Option Slot :=
  (reg.servers.lookup b.server).map fun srv ↦
    ⟨srv.baseNoSuffix.lookup b.key, srv.disambigNext.lookup b.key,
      reg.streams.lookup (b.accepted none)⟩

end Registry

namespace Slot

structure Sound (s : Slot) (b : Base) : Prop where
  base : ∀ old, s.base = some old → old = b.accepted none
  held : ∀ h, s.held = some h → h.parent = some b.server

def moved (b : Base) : Option StreamHandle → Patch ConnectionId StreamHandle
  | some h =>
    [(b.accepted (some 1), some { h with state := { h.state with id := b.accepted (some 1) } }),
      (b.accepted none, none)]
  | none => []

def allocated (s : Slot) (b : Base) : ConnectionId × Option NetEvent :=
  match s.base, s.next with
  | some old, _ => (b.accepted (some 2), some (.renamed (b.accepted (some 1)) old))
  | none, some n => (b.accepted (some n), none)
  | none, none => (b.accepted none, none)

def edit (s : Slot) (b : Base) (handle : ConnectionId → StreamHandle) : Edit :=
  let entered := (s.allocated b).1
  { streams := (entered, some (handle entered)) :: if s.base.isSome then moved b s.held else []
    parent := some b.server
    base := match s.base, s.next with
      | some _, _ => [(b.key, none)]
      | none, some _ => []
      | none, none => [(b.key, some (b.accepted none))]
    next := match s.base, s.next with
      | some _, _ => [(b.key, some 2)]
      | none, some n => [(b.key, some (n + 1))]
      | none, none => []
    label := none }

end Slot

namespace Registry

variable {reg : Registry} {b : Base} {s : Slot}

theorem slot_sound (hw : WellFormed reg) (ht : Tracked reg) (h : reg.slot b = some s) :
    s.Sound b := by
  obtain ⟨srv, hsrv, rfl⟩ := Option.map_eq_some_iff.mp h
  refine ⟨fun old hold ↦ ht.lookup_base hsrv hold, fun g hg ↦ ?_⟩
  rw [hw.parent_eq hg, b.parent?_accepted]

/-- The rename that comes with the second accept on a base, as a patch. -/
theorem streams_moved (reg : Registry) (b : Base) :
    (reg.renameAcceptedTcp (b.accepted none) (b.accepted (some 1))).streams =
      Patch.apply (Slot.moved b (reg.streams.lookup (b.accepted none))) reg.streams := by
  unfold renameAcceptedTcp Slot.moved
  cases reg.streams.lookup (b.accepted none) <;> rfl

theorem children_moved
    (h : ∀ g, reg.streams.lookup (b.accepted none) = some g → g.parent = some b.server)
    (children : Finset ConnectionId) :
    (if reg.parentOf (b.accepted none) = some b.server
      then insert (b.accepted (some 1)) (children.erase (b.accepted none)) else children) =
      Patch.applySet (Slot.moved b (reg.streams.lookup (b.accepted none))) children := by
  unfold parentOf Slot.moved
  cases hg : reg.streams.lookup (b.accepted none) with
  | none => rfl
  | some g =>
    rw [Option.bind_some, h g hg, if_pos rfl]
    rfl

theorem insertStream_setServer {srv srv' : ServerHandle} {h : StreamHandle} {e : Edit}
    (hsrv : reg.servers.lookup b.server = some srv) (hp : h.parent = some b.server)
    (hstreams : e.streams = [(h.state.id, some h)]) (hparent : e.parent = some b.server)
    (hlabel : e.label = none)
    (hserver : e.onServer srv = { srv' with children := insert h.state.id srv'.children }) :
    ({ reg with servers := reg.servers.insert b.server srv' } : Registry).insertStream h =
      e.apply reg := by
  refine Edit.eq_apply ?_ (fun sid ↦ ?_) (by rw [hlabel]; rfl) rfl rfl
  · rw [hstreams]
    rfl
  · rw [lookup_servers_insertStream, hp, hparent, lookup_insert]
    by_cases hsid : sid = b.server
    · subst hsid
      simp [hsrv, hserver]
    · simp [hsid, Ne.symm hsid]

theorem allocate_edit (hs : reg.slot b = some s) (hsound : s.Sound b)
    {handle : ConnectionId → StreamHandle}
    (hid : ∀ id, (handle id).state.id = id) (hparent : ∀ id, (handle id).parent = some b.server) :
    ∃ reg', reg.allocate b = some (reg', s.allocated b) ∧
      reg'.insertStream (handle (s.allocated b).1) = (s.edit b handle).apply reg := by
  obtain ⟨srv, hsrv, rfl⟩ := Option.map_eq_some_iff.mp hs
  cases ha : reg.allocate b with
  | none => exact (allocate_eq_none.mp ha (mem_of_lookup hsrv)).elim
  | some allocated =>
    obtain ⟨reg', id, ev⟩ := allocated
    cases allocate_cases ha with
    | @first srv' hsrv' hbase hnext =>
      cases hsrv.symm.trans hsrv'
      simp only [Slot.allocated, Slot.edit, not_mem_iff_lookup.mp hbase, not_mem_iff_lookup.mp hnext]
      exact ⟨_, rfl, insertStream_setServer hsrv (hparent _) (by rw [hid]; rfl) rfl rfl
        (by rw [hid]; rfl)⟩
    | @second srv' old _ hsrv' hold hstreams hservers hlabels hseq htyped =>
      cases hsrv.symm.trans hsrv'
      cases hsound.base old hold
      simp only [Slot.allocated, Slot.edit, hold]
      refine ⟨_, rfl, Edit.eq_apply ?_ (fun sid ↦ ?_) hlabels htyped hseq⟩
      · simp [insertStream, hid, Patch.apply, hstreams, streams_moved]
      · rw [lookup_servers_insertStream, hid, hparent, hservers, lookup_servers_rename]
        by_cases hsid : sid = b.server
        · subst hsid
          have hc := children_moved hsound.held srv.children
          split_ifs at hc with hp <;>
            simp [hsrv, Edit.onServer, Patch.applySet, Patch.apply, ← hc, hp]
        · have hp : reg.parentOf (b.accepted none) ≠ some sid := by
            intro hp
            obtain ⟨g, hg, hgp⟩ := Option.bind_eq_some_iff.mp hp
            exact hsid (Option.some.inj (hgp.symm.trans (hsound.held g hg)))
          simp [hsid, Ne.symm hsid, hp]
    | @next srv' n hsrv' hbase hn =>
      cases hsrv.symm.trans hsrv'
      simp only [Slot.allocated, Slot.edit, not_mem_iff_lookup.mp hbase, hn]
      exact ⟨_, rfl, insertStream_setServer hsrv (hparent _) (by rw [hid]; rfl) rfl rfl
        (by rw [hid]; rfl)⟩

theorem slot_apply {e : Edit} (hstreams : b.accepted none ∉ e.streams.keys)
    (hmaps : e.parent = some b.server → b.key ∉ e.base.keys ∧ b.key ∉ e.next.keys) :
    (e.apply reg).slot b = reg.slot b := by
  unfold slot
  rw [e.lookup_servers_apply, Option.map_map]
  refine congrArg (fun f ↦ (reg.servers.lookup b.server).map f) (funext fun srv ↦ ?_)
  have hheld : (e.apply reg).streams.lookup (b.accepted none) =
      reg.streams.lookup (b.accepted none) := Patch.lookup_apply_of_not_mem hstreams _
  rw [Function.comp_apply, hheld]
  split_ifs with hp
  · obtain ⟨hbase, hnext⟩ := hmaps hp
    simp only [Edit.onServer, Patch.lookup_apply_of_not_mem hbase,
      Patch.lookup_apply_of_not_mem hnext]
  · rfl

end Registry

def RegistryInput.Touches : RegistryInput → ConnectionId → Prop
  | .accepted parent tentative _ _, k =>
    ∃ b ∈ Registry.acceptedBase parent tentative, k.base? = some b
  | .event (.closed id), k => k = id
  | _, _ => False

structure Edit.Within (e : Edit) (input : RegistryInput) : Prop where
  streams : ∀ k ∈ e.streams.keys, input.Touches k
  maps : ∀ k, k ∈ e.base.keys ∨ k ∈ e.next.keys →
    ∃ b ∈ Registry.acceptedBase? input, e.parent = some b.server ∧ k = b.key

theorem Slot.base?_of_mem_edit {s : Slot} {b : Base} {handle : ConnectionId → StreamHandle}
    {k : ConnectionId} (hk : k ∈ (s.edit b handle).streams.keys) : k.base? = some b := by
  have hmoved : ∀ k ∈ (moved b s.held).keys, k.base? = some b := by
    unfold moved
    cases s.held <;> simp [Patch.keys]
  rcases List.mem_cons.mp hk with rfl | hk
  · unfold allocated
    split <;> exact b.base?_accepted _
  · split_ifs at hk
    · exact hmoved k hk
    · cases hk

theorem Slot.edit_within {s : Slot} {b : Base} {handle : ConnectionId → StreamHandle}
    {parent tentative : ConnectionId} (hb : Registry.acceptedBase parent tentative = some b)
    (peerInfo : PeerInfo) (stream : BoxedStream) :
    (s.edit b handle).Within (.accepted parent tentative peerInfo stream) := by
  refine ⟨fun k hk ↦ ⟨b, hb, base?_of_mem_edit hk⟩, fun k hk ↦ ⟨b, hb, rfl, ?_⟩⟩
  unfold edit at hk
  cases hbase : s.base <;> cases hnext : s.next <;> simpa [hbase, hnext, Patch.keys] using hk

def closedEdit (id : ConnectionId) : Option StreamHandle → Edit
  | some h => ⟨[(id, none)], h.parent, [], [], h.state.label⟩
  | none => ⟨[], none, [], [], none⟩

theorem closedEdit_within (id : ConnectionId) (h : Option StreamHandle) :
    (closedEdit id h).Within (.event (.closed id)) := by
  cases h <;> constructor <;> simp [closedEdit, Patch.keys, RegistryInput.Touches]

theorem onClosedEvent_edit (reg : Registry) (id : ConnectionId) :
    (reg.onClosedEvent id).1 = (closedEdit id (reg.streams.lookup id)).apply reg := by
  unfold Registry.onClosedEvent
  cases h : reg.streams.lookup id with
  | none =>
    rw [if_neg (not_mem_iff_lookup.mpr h)]
    rfl
  | some s =>
    rw [if_pos (mem_of_lookup h)]
    refine Edit.eq_apply ?_ (fun sid ↦ ?_) ?_ Registry.typed_dropStream ?_
    · exact reg.dropStream_streams id
    · rw [reg.lookup_servers_dropStream, Registry.parentOf, h]
      rfl
    · simp only [Registry.dropStream, h]
      rfl
    · simp only [Registry.dropStream, h]

namespace RegistryInput

/-- Two accepted connections on different bases, the ends of two streams, or
a connection on a base and the end of a stream that is not on it. -/
def Independent : RegistryInput → RegistryInput → Prop
  | .accepted parent tentative _ _, .accepted parent' tentative' _ _ =>
    ∀ b ∈ Registry.acceptedBase parent tentative, b ∉ Registry.acceptedBase parent' tentative'
  | .accepted parent tentative _ _, .event (.closed id)
  | .event (.closed id), .accepted parent tentative _ _ =>
    ∀ b ∈ Registry.acceptedBase parent tentative, ∀ d, id ≠ b.accepted d
  | .event (.closed id), .event (.closed id') => id ≠ id'
  | _, _ => False

variable {i j : RegistryInput}

theorem Independent.symm (h : i.Independent j) : j.Independent i := by
  unfold Independent at h ⊢
  split at h
  · exact fun b hb hb' ↦ h b hb' hb
  · exact h
  · exact h
  · exact Ne.symm h
  · exact h.elim

theorem Independent.accepted_or_closed (h : i.Independent j) :
    (∃ parent tentative peerInfo stream, i = .accepted parent tentative peerInfo stream) ∨
      ∃ id, i = .event (.closed id) := by
  unfold Independent at h
  split at h
  · exact .inl ⟨_, _, _, _, rfl⟩
  · exact .inl ⟨_, _, _, _, rfl⟩
  · exact .inr ⟨_, rfl⟩
  · exact .inr ⟨_, rfl⟩
  · exact h.elim

theorem Independent.touches (h : i.Independent j) {k : ConnectionId} (hi : i.Touches k) :
    ¬j.Touches k := by
  intro hj
  unfold Independent at h
  split at h
  · obtain ⟨b, hb, hk⟩ := hi
    obtain ⟨b', hb', hk'⟩ := hj
    cases hk.symm.trans hk'
    exact h b hb hb'
  · obtain ⟨b, hb, hk⟩ := hi
    obtain ⟨d, rfl⟩ := ConnectionId.exists_accepted hk
    exact h b hb d (Eq.symm hj)
  · obtain ⟨b, hb, hk⟩ := hj
    obtain ⟨d, rfl⟩ := ConnectionId.exists_accepted hk
    exact h b hb d (Eq.symm hi)
  · exact h (hi.symm.trans hj)
  · exact h

theorem Independent.base_ne (h : i.Independent j) {b b' : Base}
    (hi : b ∈ Registry.acceptedBase? i) (hj : b' ∈ Registry.acceptedBase? j) : b ≠ b' := by
  rintro rfl
  unfold Independent at h
  split at h
  · exact h b hi hj
  · cases hj
  · cases hi
  · cases hi
  · exact h

end RegistryInput

open RegistryInput

theorem Edit.Within.apart {e e' : Edit} {i j : RegistryInput} (hi : e.Within i)
    (hj : e'.Within j) (h : i.Independent j) : e.Apart e' := by
  have hmaps : ∀ sid, e.parent = some sid → e'.parent = some sid → ∀ k,
      k ∈ e.base.keys ∨ k ∈ e.next.keys → ¬(k ∈ e'.base.keys ∨ k ∈ e'.next.keys) := by
    intro sid hp hp' k hk hk'
    obtain ⟨b, hb, hs, rfl⟩ := hi.maps k hk
    obtain ⟨b', hb', hs', hkey⟩ := hj.maps b.key hk'
    refine h.base_ne hb hb' (Base.key_inj ?_ hkey)
    exact Option.some.inj (hs.symm.trans (hp.trans (hp'.symm.trans hs')))
  exact ⟨fun k hk hk' ↦ h.touches (hi.streams k hk) (hj.streams k hk'), fun sid hp hp' ↦
    ⟨fun k hk hk' ↦ hmaps sid hp hp' k (.inl hk) (.inl hk'),
      fun k hk hk' ↦ hmaps sid hp hp' k (.inr hk) (.inr hk')⟩⟩

namespace Registry

variable {reg reg' : Registry} {input : RegistryInput}

def SameView (reg reg' : Registry) : RegistryInput → Prop
  | .accepted parent tentative _ _ => ∀ b ∈ acceptedBase parent tentative, reg'.slot b = reg.slot b
  | .event (.closed id) =>
    reg'.streams.lookup id = reg.streams.lookup id ∧ reg'.displayName id = reg.displayName id
  | _ => False

/-- An edit for one input is not seen by the inputs independent of it. -/
theorem sameView_apply {i j : RegistryInput} {e : Edit} (h : i.Independent j) (he : e.Within j) :
    reg.SameView (e.apply reg) i := by
  have hkeys : ∀ k, i.Touches k → k ∉ e.streams.keys := fun k hk hm ↦ h.touches hk (he.streams k hm)
  rcases h.accepted_or_closed with ⟨parent, tentative, peerInfo, stream, rfl⟩ | ⟨id, rfl⟩
  · intro b hb
    refine slot_apply (hkeys _ ⟨b, hb, b.base?_accepted none⟩) fun hp ↦ not_or.mp fun hk ↦ ?_
    obtain ⟨b', hb', hs, hkey⟩ := he.maps b.key hk
    exact h.base_ne hb hb' (Base.key_inj (Option.some.inj (hp.symm.trans hs)) hkey)
  · have hid := hkeys id (Eq.refl id)
    exact ⟨Patch.lookup_apply_of_not_mem hid _, Edit.displayName_apply hid reg⟩

theorem handle_accepted_edit (hw : WellFormed reg) (ht : Tracked reg)
    {parent tentative : ConnectionId}
    (hs : ∀ b ∈ acceptedBase parent tentative, b.server ∈ reg.servers) (env : Environment)
    (peerInfo : PeerInfo) (stream : BoxedStream) :
    ∃ (e : Edit) (effects : List Effect),
      e.Within (.accepted parent tentative peerInfo stream) ∧
      ∀ reg', reg.SameView reg' (.accepted parent tentative peerInfo stream) →
        reg'.handleInput env (.accepted parent tentative peerInfo stream) =
          .running (e.apply reg') effects none := by
  cases hb : acceptedBase parent tentative with
  | none =>
    refine ⟨closedEdit parent none,
      [say s!"[{parent}] ERROR internal: mismatched accepted id shape"], ?_, fun reg' _ ↦ ?_⟩
    · constructor <;> simp [closedEdit, Patch.keys]
    · simp only [handleInput, handleAccepted_of_no_base hb]
      rfl
  | some b =>
    obtain ⟨srv, hsrv⟩ := mem_iff_lookup.mp (hs b hb)
    obtain ⟨s, hslot⟩ : ∃ s, reg.slot b = some s := ⟨_, by rw [slot, hsrv, Option.map_some]⟩
    let handle := fun id ↦ StreamHandle.spawned id stream (some peerInfo) (some b.server) env.spawn
    refine ⟨s.edit b handle, (register env b.server peerInfo stream (reg, s.allocated b)).2,
      Slot.edit_within hb peerInfo stream, fun reg' hv ↦ ?_⟩
    obtain ⟨reg₁, ha, he⟩ : ∃ reg₁, reg'.allocate b = some (reg₁, s.allocated b) ∧
        reg₁.insertStream (handle (s.allocated b).1) = (s.edit b handle).apply reg' :=
      allocate_edit ((hv b hb).trans hslot) (slot_sound hw ht hslot) (fun _ ↦ rfl) fun _ ↦ rfl
    simp only [handleInput, handleAccepted_of_base hb, ha, Option.map_some, ← he]
    rfl

theorem onClosedEvent_effects_congr {id : ConnectionId}
    (hs : reg'.streams.lookup id = reg.streams.lookup id)
    (hn : reg'.displayName id = reg.displayName id) :
    (reg'.onClosedEvent id).2 = (reg.onClosedEvent id).2 := by
  have hm : id ∈ reg'.streams ↔ id ∈ reg.streams := by rw [mem_iff_lookup, mem_iff_lookup, hs]
  unfold onClosedEvent
  split_ifs with h h' h'
  · simp only [dropStream_effects, hs, hn]
  · exact (h' (hm.mp h)).elim
  · exact (h (hm.mpr h')).elim
  · rfl

/-- Where an input reads the same, it makes the same edit with the same effects. -/
theorem handle_edit (hw : WellFormed reg) (ht : Tracked reg) {i j : RegistryInput}
    (h : i.Independent j) (hs : ∀ b ∈ acceptedBase? i, b.server ∈ reg.servers)
    (env : Environment) :
    ∃ (e : Edit) (effects : List Effect), e.Within i ∧ ∀ reg', reg.SameView reg' i →
      reg'.handleInput env i = .running (e.apply reg') effects none := by
  rcases h.accepted_or_closed with ⟨parent, tentative, peerInfo, stream, rfl⟩ | ⟨id, rfl⟩
  · exact handle_accepted_edit hw ht hs env peerInfo stream
  · refine ⟨closedEdit id (reg.streams.lookup id), (reg.onClosedEvent id).2,
      closedEdit_within id _, fun reg' ⟨hlookup, hname⟩ ↦ ?_⟩
    rw [handleInput, handleEvent, onClosedEvent_edit, hlookup,
      onClosedEvent_effects_congr hlookup hname]

theorem sameView_refl {i j : RegistryInput} (h : i.Independent j) : reg.SameView reg i := by
  rcases h.accepted_or_closed with ⟨parent, tentative, peerInfo, stream, rfl⟩ | ⟨id, rfl⟩
  · exact fun _ _ ↦ rfl
  · exact ⟨rfl, rfl⟩

end Registry

/-- In every state reached, independent inputs lead to one registry in either
order, and each does and shows the same whether it comes first or second. -/
theorem inputs_commute {w : World} (hw : Reachable registrySystem w) {i j : RegistryInput}
    (h : i.Independent j) (hi : ∀ b ∈ Registry.acceptedBase? i, b.server ∈ w.reg.servers)
    (hj : ∀ b ∈ Registry.acceptedBase? j, b.server ∈ w.reg.servers) (env env' : Environment) :
    ∃ reg₁ reg₂ reg' effects effects',
      w.reg.handleInput env i = .running reg₁ effects none ∧
      reg₁.handleInput env' j = .running reg' effects' none ∧
      w.reg.handleInput env' j = .running reg₂ effects' none ∧
      reg₂.handleInput env i = .running reg' effects none := by
  have hwf := wellFormed_of_reachable hw
  have ht := tracked_of_reachable hw
  obtain ⟨e, effects, he, hdo⟩ := Registry.handle_edit hwf ht h hi env
  obtain ⟨e', effects', he', hdo'⟩ := Registry.handle_edit hwf ht h.symm hj env'
  refine ⟨_, _, _, effects, effects', hdo _ (Registry.sameView_refl h),
    hdo' _ (Registry.sameView_apply h.symm he), hdo' _ (Registry.sameView_refl h.symm), ?_⟩
  rw [Edit.apply_comm (he'.apart he h.symm)]
  exact hdo _ (Registry.sameView_apply h he')

theorem rename_commutes_with_close :
    ∃ w, World.initial.play (fun _ _ ↦ true) [.command (.openTcpServer 3000),
        tcpHandoff 3000 10015 7, tcpHandoff 3000 10016 8] = some w ∧
      ∀ env env', ∃ reg₁ reg₂ reg' effects effects',
        w.reg.handleInput env (tcpHandoff 3000 10015 9) = .running reg₁ effects none ∧
        reg₁.handleInput env' (.event (.closed (.acceptedTcp 3000 10016 none))) =
          .running reg' effects' none ∧
        w.reg.handleInput env' (.event (.closed (.acceptedTcp 3000 10016 none))) =
          .running reg₂ effects' none ∧
        reg₂.handleInput env (tcpHandoff 3000 10015 9) = .running reg' effects none := by
  have hrun : ∃ w ∈ World.initial.play (fun _ _ ↦ true) [.command (.openTcpServer 3000),
      tcpHandoff 3000 10015 7, tcpHandoff 3000 10016 8],
      .tcpServer 3000 ∈ w.reg.servers := by decide +kernel
  obtain ⟨w, hw, hs⟩ := hrun
  refine ⟨w, hw, inputs_commute (reachable_play hw) ?_ ?_ ?_⟩
  · intro b hb d hd
    cases hb
    cases hd
  · intro b hb
    cases hb
    exact hs
  · intro b hb
    cases hb

end WireDock
