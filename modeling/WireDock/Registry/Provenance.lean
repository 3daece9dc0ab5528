import WireDock.Registry.Spelling

namespace WireDock

open FiniteMap LabelledSystem

/-- `T` holds of every open stream: of its id, its peer and its socket. -/
def Vouched (T : ConnectionId → Option PeerInfo → BoxedStream → Prop) (reg : Registry) : Prop :=
  ∀ id h, reg.streams.lookup id = some h → T id h.state.peerInfo h.stream

namespace Vouched

variable {T T' : ConnectionId → Option PeerInfo → BoxedStream → Prop} {reg reg' : Registry}

theorem mono (h : Vouched T reg) (hT : ∀ id peer stream, T id peer stream → T' id peer stream) :
    Vouched T' reg := fun id s hk ↦ hT _ _ _ (h id s hk)

theorem insertStream (h : Vouched T reg) {s : StreamHandle}
    (hs : T s.state.id s.state.peerInfo s.stream) : Vouched T (reg.insertStream s) := by
  intro k s' hk
  replace hk := (lookup_insert _ _ _ _).symm.trans hk
  split_ifs at hk with he
  · cases hk
    rwa [he]
  · exact h k s' hk

theorem dropStream (h : Vouched T reg) (id : ConnectionId) : Vouched T (reg.dropStream id).1 := by
  intro k s' hk
  rw [Registry.dropStream_streams, lookup_erase] at hk
  split_ifs at hk
  exact h k s' hk

theorem dropServer (h : Vouched T reg) (order : IterationOrder ConnectionId)
    (id : ConnectionId) : Vouched T (reg.dropServer order id).1 := by
  intro k s' hk
  cases hid : reg.servers.lookup id with
  | none =>
    simp only [Registry.dropServer, hid] at hk
    exact h k s' hk
  | some srv =>
    rw [Registry.lookup_streams_dropServer hid] at hk
    split_ifs at hk
    exact h k s' hk

theorem replaceLabel (h : Vouched T reg) (id typed : ConnectionId) (name : String) :
    Vouched T (reg.replaceLabel id typed name).1 := by
  intro k s' hk
  rw [Registry.lookup_streams_replaceLabel] at hk
  obtain ⟨s, hs, rfl⟩ := Option.map_eq_some_iff.mp hk
  have hkept := h k s hs
  split_ifs <;> exact hkept

section Base

variable (hbase : ∀ (b : Base) (d d' : Option UInt32) peer stream,
  T (b.accepted d) peer stream → T (b.accepted d') peer stream)

include hbase

theorem allocated (h : Vouched T reg) (ht : Tracked reg) {b : Base} {id : ConnectionId}
    {ev : Option NetEvent} (ha : reg.Allocated b reg' id ev) : Vouched T reg' := by
  intro k s' hk
  cases ha with
  | first | next => exact h k s' hk
  | @second srv old _ hsrv hold hstreams =>
    cases ht.lookup_base hsrv hold
    rw [hstreams, Registry.lookup_streams_rename] at hk
    cases hl : reg.streams.lookup (b.accepted none) with
    | none =>
      rw [hl] at hk
      exact h k s' hk
    | some s =>
      simp only [hl] at hk
      split_ifs at hk with hone
      · -- the renamed stream keeps its base
        cases hk
        have hbefore := h _ s hl
        rw [hone]
        exact hbase b none (some 1) _ _ hbefore
      · exact h k s' hk

/-- A change keeps what `T` says, where it says it of the client opened and of the
connection handed over. A rename stays on one base. -/
theorem change (h : Vouched T reg) (ht : Tracked reg) {env : Environment}
    {input : RegistryInput} {effects : List Effect}
    (hc : Registry.Change env reg input effects reg')
    (hclient : ∀ id endpoint peer seq stream cmd text,
      reg.opensClient cmd = some (id, endpoint, peer, seq) → env.connect endpoint = .ok stream →
      effects = [.connect endpoint, .spawnRead env.spawn id stream, say text] →
      T id (some peer) stream)
    (haccepted : ∀ parent tentative peer stream b, input = .accepted parent tentative peer stream →
      Registry.acceptedBase parent tentative = some b → T (b.accepted none) (some peer) stream) :
    Vouched T reg' := by
  cases hc with
  | silent | bindRefused | serverOpened | connectRefused => exact h
  | @clientOpened cmd id endpoint peer seq stream text ho _ hconnect =>
    have hseq : Vouched T { reg with nextIpcClientSeq := seq } := h
    exact hseq.insertStream (s := .spawned id stream (some peer) none env.spawn)
      (hclient id endpoint peer seq stream cmd text ho hconnect rfl)
  | labelled => exact h.replaceLabel _ _ _
  | streamDropped => exact h.dropStream _
  | serverDropped => exact h.dropServer _ _
  | @accepted parent tentative peerInfo stream b reg₁ id ev hb ha =>
    have hgiven := haccepted parent tentative peerInfo stream b rfl hb
    obtain ⟨d, rfl⟩ := ha.id_eq
    exact (h.allocated hbase ht ha).insertStream
      (s := .spawned (b.accepted d) stream (some peerInfo) (some b.server) env.spawn)
      (hbase b none d _ _ hgiven)

end Base

end Vouched

end WireDock
