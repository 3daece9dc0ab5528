import WireDock.Registry.Representation

namespace WireDock

open FiniteMap LabelledSystem

namespace ConnectionId

variable {id id' : ConnectionId}

theorem Same.isServer (h : id.Same id') : id.isServer = id'.isServer := by
  cases id <;> cases id' <;> first | rfl | cases h

theorem Same.parent? {sid' : ConnectionId} (h : id.Same id') (hp : id'.parent? = some sid') :
    ∃ sid, id.parent? = some sid ∧ sid.Same sid' ∧ (sid = sid' → id = id') := by
  cases id' with
  | tcpServer | ipcServer | tcpClient | ipcClient => cases hp
  | acceptedTcp port remote d =>
    cases hp
    cases id <;> cases h
    exact ⟨_, rfl, rfl, fun _ ↦ rfl⟩
  | acceptedIpc path pid d =>
    cases hp
    cases id with
    | acceptedIpc path' pid' d' =>
      obtain ⟨hid, hpath⟩ := Prod.mk.inj h
      cases hid
      refine ⟨_, rfl, Prod.ext rfl hpath, fun he ↦ ?_⟩
      cases he
      rfl
    | _ => cases h

theorem Same.eq (h : id.Same id') (hs : id'.isServer = false) (hp : id'.parent? = none) :
    id = id' := by
  cases id' with
  | tcpServer | ipcServer => cases hs
  | acceptedTcp | acceptedIpc => cases hp
  | tcpClient | ipcClient =>
    cases id <;> cases h
    rfl

end ConnectionId

namespace Registry

variable {reg reg' : Registry} {id k : ConnectionId}

/-- No two servers are registered under one path, in whichever spellings. -/
def ServersApart (reg : Registry) : Prop :=
  ∀ sid ∈ reg.servers, ∀ sid' ∈ reg.servers, sid.Same sid' → sid = sid'

def TypedAlike (reg : Registry) : Prop :=
  ∀ name id, reg.labels.lookup name = some id →
    ∃ typed, reg.typed.lookup name = some typed ∧ id.Same typed

theorem ServersApart.of_subset (h : ServersApart reg)
    (hs : ∀ sid ∈ reg'.servers, sid ∈ reg.servers) : ServersApart reg' :=
  fun sid hsid sid' hsid' ↦ h sid (hs sid hsid) sid' (hs sid' hsid')

/-- A registered id is the same as one with a registered parent, which may itself be gone, only
if they are spelled alike. -/
theorem ServersApart.eq_of_child (h : ServersApart reg) (hw : WellFormed reg) {sid' : ConnectionId}
    (hp : id.parent? = some sid') (hsid' : sid' ∈ reg.servers) (hk : k ∈ reg.registered)
    (hsame : k.Same id) : k = id := by
  obtain ⟨sid, hkp, hsids, heq⟩ := hsame.parent? hp
  have hks : k ∈ reg.streams := (mem_registered.mp hk).resolve_right fun hkv ↦ by
    have hserver := hw.isServer_of_mem hkv
    cases k with
    | tcpServer | ipcServer => cases hkp
    | _ => cases hserver
  exact heq (h sid (hw.parent_registered k sid hks hkp) sid' hsid' hsids)

/-- Two registered ids are the same only if they are spelled alike. -/
theorem ServersApart.eq_of_same (h : ServersApart reg) (hw : WellFormed reg)
    (hid : id ∈ reg.registered) (hk : k ∈ reg.registered) (hsame : k.Same id) : k = id := by
  rcases mem_registered.mp hid with hs | hv
  · cases hp : id.parent? with
    | none => exact hsame.eq (hw.not_isServer_of_mem hs) hp
    | some sid' => exact h.eq_of_child hw hp (hw.parent_registered id sid' hs hp) hk hsame
  · refine h k ((mem_registered.mp hk).resolve_left fun hks ↦ ?_) id hv hsame
    cases (hw.not_isServer_of_mem hks).symm.trans (hsame.isServer.trans (hw.isServer_of_mem hv))

theorem ServersApart.keyOf_eq (h : ServersApart reg) (hw : WellFormed reg)
    (hk : k ∈ reg.registered) (hsame : k.Same id) : reg.keyOf id = k := by
  by_cases hid : id ∈ reg.registered
  · rw [keyOf_of_mem hid, h.eq_of_same hw hid hk hsame]
  · have hone : reg.registered.filter (·.Same id) = {k} := by
      refine Finset.eq_singleton_iff_unique_mem.mpr ⟨Finset.mem_filter.mpr ⟨hk, hsame⟩, ?_⟩
      intro k' hk'
      obtain ⟨hmem, hsame'⟩ := Finset.mem_filter.mp hk'
      exact h.eq_of_same hw hk hmem (Eq.trans hsame' (Eq.symm hsame))
    rw [keyOf, if_neg hid, single?_eq_some.mpr hone, Option.getD_some]

theorem ServersApart.openServer (h : ServersApart reg) (hw : WellFormed reg)
    (hid : reg.keyOf id ∉ reg.servers) (srv : ServerHandle) :
    ServersApart { reg with servers := reg.servers.insert id srv } := by
  have hfree : ∀ sid ∈ reg.servers, ¬sid.Same id := fun sid hsid hsame ↦
    hid (h.keyOf_eq hw (mem_registered.mpr (.inr hsid)) hsame ▸ hsid)
  intro sid hsid sid' hsid' hsame
  rcases Finmap.mem_insert.mp hsid with he | hsid
  · rcases Finmap.mem_insert.mp hsid' with he' | hsid'
    · rw [he, he']
    · exact (hfree sid' hsid' (he ▸ Eq.symm hsame)).elim
  · rcases Finmap.mem_insert.mp hsid' with he' | hsid'
    · exact (hfree sid hsid (he' ▸ hsame)).elim
    · exact h sid hsid sid' hsid' hsame

theorem ServersApart.change {env : Environment} {input : RegistryInput} {effects : List Effect}
    (h : ServersApart reg) (hw : WellFormed reg) (hc : Change env reg input effects reg') :
    ServersApart reg' := by
  cases hc with
  | silent | bindRefused | connectRefused => exact h
  | serverOpened _ hid => exact h.openServer hw hid _
  | clientOpened => exact h.of_subset fun _ ↦ mem_servers_insertStream.mp
  | labelled => exact h.of_subset fun _ ↦ mem_servers_replaceLabel.mp
  | streamDropped => exact h.of_subset fun _ ↦ mem_servers_dropStream.mp
  | serverDropped => exact h.of_subset fun _ hsid ↦ (mem_servers_dropServer hsid).1
  | accepted _ ha =>
    exact h.of_subset fun _ hsid ↦ ha.mem_servers (mem_servers_insertStream.mp hsid)

theorem TypedAlike.of_labels (h : TypedAlike reg) (htyped : reg'.typed = reg.typed)
    (hlabels : ∀ name id, reg'.labels.lookup name = some id → reg.labels.lookup name = some id) :
    TypedAlike reg' := by
  intro name id hl
  rw [htyped]
  exact h name id (hlabels name id hl)

theorem TypedAlike.dropStream (h : TypedAlike reg) (id : ConnectionId) :
    TypedAlike (reg.dropStream id).1 := by
  refine h.of_labels typed_dropStream fun name k hl ↦ ?_
  rw [lookup_labels_dropStream] at hl
  split_ifs at hl
  exact hl

theorem TypedAlike.dropServer (h : TypedAlike reg) (order : IterationOrder ConnectionId)
    (id : ConnectionId) : TypedAlike (reg.dropServer order id).1 := by
  refine h.of_labels typed_dropServer fun name k hl ↦ ?_
  cases hsrv : reg.servers.lookup id with
  | none =>
    rwa [show (reg.dropServer order id).1 = reg by simp only [Registry.dropServer, hsrv]] at hl
  | some srv =>
    rw [lookup_labels_dropServer hsrv] at hl
    split_ifs at hl
    exact hl

theorem TypedAlike.same_entryOf (h : TypedAlike reg) {token : String} {typed : ConnectionId}
    (hr : reg.resolveId token defaultTokenParser = .ok typed) :
    (reg.entryOf token typed).Same typed := by
  cases hl : reg.labels.lookup token with
  | none =>
    rw [entryOf, hl, Option.getD_none]
    exact reg.keyOf_same typed
  | some id =>
    obtain ⟨t, ht, hsame⟩ := h token id hl
    simp only [resolveId, hl, ht, Option.getD_some, Except.ok.injEq] at hr
    rw [entryOf, hl, Option.getD_some, ← hr]
    exact Eq.trans (reg.keyOf_same id) hsame

theorem TypedAlike.replaceLabel (h : TypedAlike reg) {typed : ConnectionId} {name : String}
    (hok : (reg.applyLabel id typed name).2 = .ok ()) (hsame : id.Same typed) :
    TypedAlike (reg.replaceLabel id typed name).1 := by
  obtain ⟨-, he⟩ := applyLabel_ok hok
  rw [he] at hok
  intro n k hl
  rw [lookup_labels_replaceLabel hok] at hl
  rw [lookup_typed_replaceLabel hok]
  by_cases hn : n = name
  · rw [if_pos hn] at hl
    cases hl
    exact ⟨typed, if_pos hn, hsame⟩
  · rw [if_neg hn] at hl
    split_ifs at hl
    rw [if_neg hn]
    exact h n k hl

theorem TypedAlike.change {env : Environment} {input : RegistryInput} {effects : List Effect}
    (h : TypedAlike reg) (hc : Change env reg input effects reg') : TypedAlike reg' := by
  cases hc with
  | silent | bindRefused | connectRefused | serverOpened | clientOpened => exact h
  | @labelled token name id typed hr hok => exact h.replaceLabel hok (hr.2 ▸ h.same_entryOf hr.1)
  | streamDropped => exact h.dropStream _
  | serverDropped => exact h.dropServer _ _
  | @accepted parent tentative peerInfo stream b reg₁ id ev hb ha =>
    have hlabels : reg₁.labels = reg.labels := by cases ha <;> first | rfl | assumption
    have htyped : reg₁.typed = reg.typed := by cases ha <;> first | rfl | assumption
    exact h.of_labels htyped fun _ _ hl ↦ by rwa [← hlabels]

end Registry

variable {ok : World → Environment × RegistryInput → Prop} {w : World}

theorem serversApart_of_reachable (hw : ReachableBy registrySystem ok w) : w.reg.ServersApart :=
  consistent_invariant (P := fun reg _ ↦ reg.ServersApart)
    (fun _ h ↦ (Finmap.notMem_empty h).elim)
    (fun _ _ _ _ _ _ hwf _ h _ hc ↦ h.change hwf hc)
    (fun _ _ _ _ _ _ h ↦ h.of_subset fun _ hsid ↦ (Registry.mem_servers_dropServer hsid).1)
    (fun _ _ _ _ _ h ↦ h.of_subset fun _ ↦ Registry.mem_servers_dropStream.mp) hw

theorem typedAlike_of_reachable (hw : ReachableBy registrySystem ok w) : w.reg.TypedAlike :=
  consistent_invariant (P := fun reg _ ↦ reg.TypedAlike) (fun _ _ h ↦ by cases h)
    (fun _ _ _ _ _ _ _ _ h _ hc ↦ h.change hc)
    (fun order _ _ id _ _ h ↦ h.dropServer order id) (fun _ _ id _ _ h ↦ h.dropStream id) hw

/-- In every state reached an id is found if some registered id is the same, in whichever
spelling, and then it is that one. -/
theorem found_iff_of_reachable (hw : ReachableBy registrySystem ok w) (id : ConnectionId) :
    (w.reg.keyOf id ∈ w.reg.registered ↔ ∃ k ∈ w.reg.registered, k.Same id) ∧
      ∀ k ∈ w.reg.registered, k.Same id → w.reg.keyOf id = k := by
  have hkey : ∀ k ∈ w.reg.registered, k.Same id → w.reg.keyOf id = k := fun k hk hsame ↦
    (serversApart_of_reachable hw).keyOf_eq (wellFormed_of_reachable hw) hk hsame
  refine ⟨⟨fun h ↦ ⟨_, h, w.reg.keyOf_same id⟩, fun h ↦ ?_⟩, hkey⟩
  obtain ⟨k, hk, hsame⟩ := h
  rwa [hkey k hk hsame]

/-- A path in use is in use in any spelling. -/
example : ∃ w ∈ World.initial.play (fun _ _ ↦ true) [.command (.openIpcServer "/tmp/a.sock"),
    .command (.openIpcServer "/tmp//./a.sock")],
    w.reg.servers.keys = {.ipcServer "/tmp/a.sock"} := by
  decide +kernel

end WireDock
