import WireDock.Registry.World

namespace WireDock

open FiniteMap LabelledSystem

def PeersKnown (Fits : Option ConnectionId → PeerInfo → Prop) (reg : Registry) : Prop :=
  ∀ id h, reg.streams.lookup id = some h →
    ∃ peer, h.state.peerInfo = some peer ∧ Fits h.parent peer

namespace PeersKnown

variable {Fits : Option ConnectionId → PeerInfo → Prop} {reg reg' : Registry}

theorem of_streams (h : PeersKnown Fits reg) (hs : reg'.streams = reg.streams) :
    PeersKnown Fits reg' := by
  intro id s hid
  rw [hs] at hid
  exact h id s hid

theorem dropStream (h : PeersKnown Fits reg) (id : ConnectionId) :
    PeersKnown Fits (reg.dropStream id).1 := by
  intro k s hk
  rw [Registry.dropStream_streams, lookup_erase] at hk
  split_ifs at hk
  exact h k s hk

theorem dropServer (h : PeersKnown Fits reg) (order : IterationOrder ConnectionId)
    (id : ConnectionId) : PeersKnown Fits (reg.dropServer order id).1 := by
  intro k s hk
  cases hid : reg.servers.lookup id with
  | none =>
    simp only [Registry.dropServer, hid] at hk
    exact h k s hk
  | some srv =>
    rw [Registry.lookup_streams_dropServer hid] at hk
    split_ifs at hk
    exact h k s hk

theorem replaceLabel (h : PeersKnown Fits reg) (id typed : ConnectionId) (name : String) :
    PeersKnown Fits (reg.replaceLabel id typed name).1 := by
  intro k s hk
  rw [Registry.lookup_streams_replaceLabel] at hk
  obtain ⟨s', hs, rfl⟩ := Option.map_eq_some_iff.mp hk
  have hpeer := h k s' hs
  split_ifs <;> exact hpeer

theorem insertStream (h : PeersKnown Fits reg) {s : StreamHandle} {peer : PeerInfo}
    (hpeer : s.state.peerInfo = some peer) (hfits : Fits s.parent peer) :
    PeersKnown Fits (reg.insertStream s) := by
  intro k s' hk
  simp only [Registry.insertStream, lookup_insert] at hk
  split_ifs at hk
  · cases hk
    exact ⟨peer, hpeer, hfits⟩
  · exact h k s' hk

theorem rename (h : PeersKnown Fits reg) (old newId : ConnectionId) :
    PeersKnown Fits (reg.renameAcceptedTcp old newId) := by
  intro k s hk
  rw [Registry.lookup_streams_rename] at hk
  cases hold : reg.streams.lookup old with
  | none =>
    rw [hold] at hk
    exact h k s hk
  | some s₀ =>
    rw [hold] at hk
    split_ifs at hk
    · cases hk
      exact h old s₀ hold
    · exact h k s hk

theorem allocated (h : PeersKnown Fits reg) {b : Base} {id : ConnectionId} {ev : Option NetEvent}
    (ha : reg.Allocated b reg' id ev) : PeersKnown Fits reg' := by
  cases ha with
  | first => exact h
  | second _ _ hstreams => exact (h.rename _ _).of_streams hstreams
  | next => exact h

end PeersKnown

/-- What fits the peers of the clients opened and of the connections handed
over fits the peer of every stream, in every state reached. -/
theorem peersKnown_of_reachable {Fits : Option ConnectionId → PeerInfo → Prop}
    {ok : World → Environment × RegistryInput → Prop}
    (hclient : ∀ peer, (∀ pid, peer ≠ .ipcPid pid) → Fits none peer)
    (haccept : ∀ w env parent tentative peerInfo stream b,
      ok w (env, .accepted parent tentative peerInfo stream) →
      Registry.acceptedBase parent tentative = some b → Fits (some parent) peerInfo)
    {w : World} (hw : ReachableBy registrySystem ok w) : PeersKnown Fits w.reg := by
  refine registry_invariant (P := fun reg _ ↦ PeersKnown Fits reg) (fun _ _ h ↦ by cases h) ?_
    (fun order _ _ id h ↦ h.dropServer order id) (fun _ _ id h ↦ h.dropStream id) hw
  intro w env input effects reg' _ h hok _ hc
  cases hc with
  | silent => exact h
  | bindRefused => exact h
  | serverOpened => exact h
  | connectRefused => exact h
  | @clientOpened cmd id endpoint peer seq stream text ho =>
    have hpeer : ∀ pid, peer ≠ .ipcPid pid := by cases cmd <;> cases ho <;> exact nofun
    have hseq : PeersKnown Fits { w.reg with nextIpcClientSeq := seq } := h
    exact hseq.insertStream rfl (hclient peer hpeer)
  | labelled => exact h.replaceLabel _ _ _
  | streamDropped => exact h.dropStream _
  | serverDropped => exact h.dropServer _ _
  | accepted hb ha =>
    have hfits := haccept _ _ _ _ _ _ _ hok hb
    rw [Registry.server_of_acceptedBase hb] at hfits
    exact (h.allocated ha).insertStream rfl hfits

end WireDock
