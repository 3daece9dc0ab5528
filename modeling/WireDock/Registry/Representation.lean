import WireDock.Registry.Suffix

namespace WireDock

open FiniteMap LabelledSystem

namespace Registry.Allocated

variable {reg reg' : Registry} {b : Base} {id : ConnectionId} {ev : Option NetEvent}

theorem id_eq (h : reg.Allocated b reg' id ev) : ∃ d, id = b.accepted d := by
  cases h <;> exact ⟨_, rfl⟩

theorem server_mem (h : reg.Allocated b reg' id ev) : b.server ∈ reg'.servers := by
  cases h with
  | first | next => exact Finmap.mem_insert.mpr (.inl rfl)
  | second hsrv _ _ hservers =>
    exact mem_iff_lookup.mpr ⟨_, by
      rw [hservers, lookup_servers_rename, hsrv, Option.map_some, Option.map_some]⟩

theorem wellFormed (h : reg.Allocated b reg' id ev) (hw : WellFormed reg) (ht : Tracked reg) :
    WellFormed reg' := by
  cases h with
  | first hsrv => exact hw.setServer hsrv rfl rfl
  | second hsrv hold hstreams hservers =>
    cases ht.lookup_base hsrv hold
    exact hw.accepted_second hstreams hservers
  | next hsrv => exact hw.setServer hsrv rfl rfl

end Registry.Allocated

theorem WellFormed.accepted {reg reg' : Registry} {b : Base} {id : ConnectionId}
    {ev : Option NetEvent} (hw : WellFormed reg) (ht : Tracked reg)
    (ha : reg.Allocated b reg' id ev) {s : StreamHandle} (hid : s.state.id = id)
    (hc : s.state.status = .connected) (hp : s.parent = some b.server) :
    WellFormed (reg'.insertStream s) := by
  obtain ⟨d, rfl⟩ := ha.id_eq
  have hparent : s.state.id.parent? = some b.server := by rw [hid, b.parent?_accepted]
  refine (ha.wellFormed hw ht).insertStream (by rw [hid, b.isServer_accepted]) hc
    (hp.trans hparent.symm) fun parent hp' ↦ ?_
  exact Option.some.inj (hparent.symm.trans hp') ▸ ha.server_mem

theorem WellFormed.change {env : Environment} {reg reg' : Registry} {input : RegistryInput}
    {effects : List Effect} (hw : WellFormed reg) (ht : Tracked reg)
    (hc : Registry.Change env reg input effects reg') : WellFormed reg' := by
  cases hc with
  | silent => exact hw
  | bindRefused => exact hw
  | @serverOpened cmd id endpoint path listener text ho hid =>
    refine hw.openServer ?_ (Registry.not_server_of_keyOf hid) _ _
    unfold Registry.opensServer at ho
    split at ho <;> cases ho <;> rfl
  | connectRefused => exact ⟨hw.1, hw.2, hw.3, hw.4⟩
  | @clientOpened cmd id endpoint peer seq stream text ho =>
    have hid : id.isServer = false ∧ id.parent? = none := by
      unfold Registry.opensClient at ho
      split at ho <;> cases ho <;> exact ⟨rfl, rfl⟩
    have hw' : WellFormed { reg with nextIpcClientSeq := seq } := ⟨hw.1, hw.2, hw.3, hw.4⟩
    refine hw'.insertStream hid.1 rfl hid.2.symm fun parent hp ↦ ?_
    have hp' : id.parent? = some parent := hp
    rw [hid.2] at hp'
    cases hp'
  | labelled => exact hw.replaceLabel _ _ _
  | streamDropped => exact hw.dropStream _
  | serverDropped => exact hw.dropServer _ _
  | accepted hb ha => exact hw.accepted ht ha rfl rfl rfl

theorem Tracked.change {env : Environment} {reg reg' : Registry} {input : RegistryInput}
    {effects : List Effect} (hw : WellFormed reg) (ht : Tracked reg)
    (hc : Registry.Change env reg input effects reg') : Tracked reg' := by
  cases hc with
  | silent => exact ht
  | bindRefused => exact ht
  | serverOpened ho hid => exact ht.openServer hw (Registry.not_server_of_keyOf hid) _ _
  | connectRefused => exact ⟨ht.1, ht.2, ht.3, ht.4⟩
  | @clientOpened cmd id endpoint peer seq stream text ho =>
    have ht' : Tracked { reg with nextIpcClientSeq := seq } := ⟨ht.1, ht.2, ht.3, ht.4⟩
    refine ht'.insertClient ?_
    unfold Registry.opensClient at ho
    split at ho <;> cases ho <;> rfl
  | labelled => exact ht.replaceLabel _ _ _
  | streamDropped => exact ht.dropStream _
  | serverDropped => exact ht.dropServer _ _
  | accepted hb ha => exact ht.accepted ha rfl

variable {ok : World → Environment × RegistryInput → Prop} {w : World}

theorem consistent (hw : ReachableBy registrySystem ok w) : WellFormed w.reg ∧ Tracked w.reg :=
  registry_invariant (P := fun reg _ ↦ WellFormed reg ∧ Tracked reg) ⟨.new, .new⟩
    (fun _ _ _ _ _ _ h _ _ hc ↦ ⟨h.1.change h.2 hc, h.2.change h.1 hc⟩)
    (fun order _ _ id h ↦ ⟨h.1.dropServer order id, h.2.dropServer order id⟩)
    (fun _ _ id h ↦ ⟨h.1.dropStream id, h.2.dropStream id⟩) hw

/-- The invariant rule for a consistent registry: changes and drops may use that the
registry before them is well formed and its bookkeeping tracked. -/
theorem consistent_invariant {P : Registry → List Effect → Prop} (hnew : P .new [])
    (hchange : ∀ w env input effects reg', ReachableBy registrySystem ok w → WellFormed w.reg →
      Tracked w.reg → P w.reg w.log → ok w (env, input) →
      Registry.Change env w.reg input effects reg' → P reg' (w.log ++ effects))
    (hserver : ∀ order reg log id, WellFormed reg → Tracked reg → P reg log →
      P (reg.dropServer order id).1 (log ++ (reg.dropServer order id).2))
    (hstream : ∀ reg log id, WellFormed reg → Tracked reg → P reg log →
      P (reg.dropStream id).1 (log ++ (reg.dropStream id).2))
    (hw : ReachableBy registrySystem ok w) : P w.reg w.log := by
  have hinv : WellFormed w.reg ∧ Tracked w.reg ∧ P w.reg w.log := by
    refine registry_invariant (P := fun reg log ↦ WellFormed reg ∧ Tracked reg ∧ P reg log)
      ⟨.new, .new, hnew⟩ ?_ ?_ ?_ hw
    · intro w env input effects reg' hr h hok _ hc
      obtain ⟨hwf, ht, hp⟩ := h
      have hafter := hchange w env input effects reg' hr hwf ht hp hok hc
      exact ⟨hwf.change ht hc, ht.change hwf hc, hafter⟩
    · intro order reg log id h
      obtain ⟨hwf, ht, hp⟩ := h
      exact ⟨hwf.dropServer order id, ht.dropServer order id, hserver order reg log id hwf ht hp⟩
    · intro reg log id h
      obtain ⟨hwf, ht, hp⟩ := h
      exact ⟨hwf.dropStream id, ht.dropStream id, hstream reg log id hwf ht hp⟩
  exact hinv.2.2

theorem wellFormed_of_reachable (hw : ReachableBy registrySystem ok w) : WellFormed w.reg :=
  (consistent hw).1

theorem tracked_of_reachable (hw : ReachableBy registrySystem ok w) : Tracked w.reg :=
  (consistent hw).2

/-- The representation invariant of the registry, in the terms of its own
fields: keys, parent links, children sets and statuses. -/
structure RepresentationInvariant (reg : Registry) : Prop where
  server_keys : ∀ id srv, reg.servers.lookup id = some srv →
    id.isServer = true ∧ srv.state.id = id
  stream_keys : ∀ id h, reg.streams.lookup id = some h → id.isServer = false ∧ h.state.id = id
  parent_of_id : ∀ id h, reg.streams.lookup id = some h → h.parent = match id with
    | .acceptedTcp parentPort _ _ => some (.tcpServer parentPort)
    | .acceptedIpc parentPath _ _ => some (.ipcServer parentPath)
    | _ => none
  parent_lists : ∀ id h parent, reg.streams.lookup id = some h → h.parent = some parent →
    ∃ srv, reg.servers.lookup parent = some srv ∧ id ∈ srv.children
  child_has_parent : ∀ sid srv id, reg.servers.lookup sid = some srv → id ∈ srv.children →
    ∃ h, reg.streams.lookup id = some h ∧ h.parent = some sid
  streams_connected : ∀ id h, reg.streams.lookup id = some h → h.state.status = .connected
  servers_connected : ∀ id srv, reg.servers.lookup id = some srv → srv.state.status = .connected

theorem WellFormed.representation {reg : Registry} (h : WellFormed reg) :
    RepresentationInvariant reg where
  server_keys id srv hs := ⟨(h.server_entry id srv hs).1, (h.server_entry id srv hs).2.1⟩
  stream_keys id s hs := ⟨(h.stream_entry id s hs).1, (h.stream_entry id s hs).2.1⟩
  parent_of_id id s hs := by
    rw [h.parent_eq hs]
    cases id <;> rfl
  parent_lists id s parent hs hp := by
    have hparent : id.parent? = some parent := h.parent_eq hs ▸ hp
    obtain ⟨srv, hsrv⟩ := mem_iff_lookup.mp
      (h.parent_registered id parent (mem_of_lookup hs) hparent)
    exact ⟨srv, hsrv, (h.children_iff parent srv hsrv id).mpr ⟨mem_of_lookup hs, hparent⟩⟩
  child_has_parent sid srv id hsrv hid := by
    obtain ⟨hmem, hp⟩ := (h.children_iff sid srv hsrv id).mp hid
    obtain ⟨s, hs⟩ := mem_iff_lookup.mp hmem
    exact ⟨s, hs, (h.parent_eq hs).trans hp⟩
  streams_connected _ _ hs := h.stream_connected hs
  servers_connected id srv hs := (h.server_entry id srv hs).2.2

/-- The representation invariant holds in every state the registry task can
reach, under any events and any handoffs. -/
theorem representation_of_reachable (hw : Reachable registrySystem w) :
    RepresentationInvariant w.reg := (wellFormed_of_reachable hw).representation

theorem representation_after_rename :
    ∃ w, World.initial.play (fun _ _ ↦ true) [.command (.openTcpServer 3000),
        tcpHandoff 3000 10015 7, tcpHandoff 3000 10015 8] = some w ∧
      w.reg.streams.keys.card = 2 ∧ RepresentationInvariant w.reg := by
  have hrun : ∃ w ∈ World.initial.play (fun _ _ ↦ true) [.command (.openTcpServer 3000),
      tcpHandoff 3000 10015 7, tcpHandoff 3000 10015 8],
      w.reg.streams.keys.card = 2 := by decide +kernel
  obtain ⟨w, hw, hc⟩ := hrun
  exact ⟨w, hw, hc, representation_of_reachable (reachable_play hw)⟩

end WireDock
