import WireDock.Registry.World

namespace WireDock

open FiniteMap LabelledSystem

/-- The parent link of a stream and the children set of a server are one
relation, read off the id; every entry is filed under its own id. -/
structure WellFormed (reg : Registry) : Prop where
  server_entry : ∀ id srv, reg.servers.lookup id = some srv →
    id.isServer = true ∧ srv.state.id = id ∧ srv.state.status = .connected
  stream_entry : ∀ id h, reg.streams.lookup id = some h →
    id.isServer = false ∧ h.state.id = id ∧ h.state.status = .connected ∧ h.parent = id.parent?
  parent_registered : ∀ id parent, id ∈ reg.streams → id.parent? = some parent →
    parent ∈ reg.servers
  children_iff : ∀ sid srv, reg.servers.lookup sid = some srv → ∀ id,
    id ∈ srv.children ↔ id ∈ reg.streams ∧ id.parent? = some sid

namespace WellFormed

variable {reg : Registry}

theorem parent_eq (h : WellFormed reg) {id : ConnectionId} {s : StreamHandle}
    (hs : reg.streams.lookup id = some s) : s.parent = id.parent? := (h.stream_entry id s hs).2.2.2

theorem stream_connected (h : WellFormed reg) {id : ConnectionId} {s : StreamHandle}
    (hs : reg.streams.lookup id = some s) : s.state.status = .connected :=
  (h.stream_entry id s hs).2.2.1

theorem isServer_of_mem (h : WellFormed reg) {id : ConnectionId} (hid : id ∈ reg.servers) :
    id.isServer = true := by
  obtain ⟨srv, hsrv⟩ := mem_iff_lookup.mp hid
  exact (h.server_entry id srv hsrv).1

theorem not_isServer_of_mem (h : WellFormed reg) {id : ConnectionId} (hid : id ∈ reg.streams) :
    id.isServer = false := by
  obtain ⟨s, hs⟩ := mem_iff_lookup.mp hid
  exact (h.stream_entry id s hs).1

theorem parentOf_eq (h : WellFormed reg) {id : ConnectionId} (hid : id ∈ reg.streams) :
    reg.parentOf id = id.parent? := by
  obtain ⟨s, hs⟩ := mem_iff_lookup.mp hid
  rw [Registry.parentOf, hs, Option.bind_some, h.parent_eq hs]

theorem stream_not_server (h : WellFormed reg) {id : ConnectionId} (hid : id ∈ reg.streams) :
    id ∉ reg.servers := by
  intro hv
  cases (h.not_isServer_of_mem hid).symm.trans (h.isServer_of_mem hv)

theorem new : WellFormed .new where
  server_entry _ _ h := by cases h
  stream_entry _ _ h := by cases h
  parent_registered _ _ h := (Finmap.notMem_empty h).elim
  children_iff _ _ h := by cases h

theorem openServer (h : WellFormed reg) {id : ConnectionId} (hs : id.isServer = true)
    (hid : id ∉ reg.servers) (task : JoinHandle) (path : Option PathBuf) :
    WellFormed { reg with servers := reg.servers.insert id (.opened id task path) } where
  server_entry k srv hk := by
    rw [lookup_insert] at hk
    split_ifs at hk with he
    · cases hk
      exact ⟨he ▸ hs, he.symm, rfl⟩
    · exact h.server_entry k srv hk
  stream_entry := h.stream_entry
  parent_registered k parent hk hp :=
    Finmap.mem_insert.mpr (.inr (h.parent_registered k parent hk hp))
  children_iff sid srv hsid k := by
    rw [lookup_insert] at hsid
    split_ifs at hsid with he
    · cases hsid
      refine ⟨fun hk ↦ (Finset.notMem_empty k hk).elim, fun ⟨hk, hp⟩ ↦ ?_⟩
      exact (hid (he ▸ h.parent_registered k sid hk hp)).elim
    · exact h.children_iff sid srv hsid k

theorem insertStream (h : WellFormed reg) {s : StreamHandle} (hs : s.state.id.isServer = false)
    (hc : s.state.status = .connected) (hp : s.parent = s.state.id.parent?)
    (hr : ∀ parent, s.state.id.parent? = some parent → parent ∈ reg.servers) :
    WellFormed (reg.insertStream s) where
  server_entry k srv hk := by
    rw [Registry.lookup_servers_insertStream] at hk
    obtain ⟨srv', hsrv, rfl⟩ := Option.map_eq_some_iff.mp hk
    have he := h.server_entry k srv' hsrv
    split_ifs <;> exact he
  stream_entry k s' hk := by
    simp only [Registry.insertStream, lookup_insert] at hk
    split_ifs at hk with he
    · cases hk
      rw [he]
      exact ⟨hs, rfl, hc, hp⟩
    · exact h.stream_entry k s' hk
  parent_registered k parent hk hparent := by
    rw [mem_iff_lookup]
    have hold : parent ∈ reg.servers := by
      rcases Finmap.mem_insert.mp hk with rfl | hk
      · exact hr parent hparent
      · exact h.parent_registered k parent hk hparent
    obtain ⟨srv, hsrv⟩ := mem_iff_lookup.mp hold
    exact ⟨_, by rw [Registry.lookup_servers_insertStream, hsrv, Option.map_some]⟩
  children_iff sid srv hsid k := by
    rw [Registry.lookup_servers_insertStream] at hsid
    obtain ⟨srv', hsrv, rfl⟩ := Option.map_eq_some_iff.mp hsid
    have hiff := h.children_iff sid srv' hsrv k
    have hmem : k ∈ (reg.insertStream s).streams ↔ k = s.state.id ∨ k ∈ reg.streams :=
      Finmap.mem_insert
    rw [hmem, hp]
    split_ifs with he
    · rw [Finset.mem_insert, hiff]
      constructor
      · rintro (rfl | ⟨hk, hkp⟩)
        · exact ⟨.inl rfl, he⟩
        · exact ⟨.inr hk, hkp⟩
      · rintro ⟨rfl | hk, hkp⟩
        · exact .inl rfl
        · exact .inr ⟨hk, hkp⟩
    · rw [hiff]
      constructor
      · exact fun ⟨hk, hkp⟩ ↦ ⟨.inr hk, hkp⟩
      · rintro ⟨rfl | hk, hkp⟩
        · exact (he hkp).elim
        · exact ⟨hk, hkp⟩

theorem dropStream (h : WellFormed reg) (id : ConnectionId) :
    WellFormed (reg.dropStream id).1 where
  server_entry k srv hk := by
    rw [Registry.lookup_servers_dropStream] at hk
    obtain ⟨srv', hsrv, rfl⟩ := Option.map_eq_some_iff.mp hk
    have he := h.server_entry k srv' hsrv
    split_ifs <;> exact he
  stream_entry k s hk := by
    rw [Registry.dropStream_streams, lookup_erase] at hk
    split_ifs at hk
    exact h.stream_entry k s hk
  parent_registered k parent hk hp := by
    rw [Registry.dropStream_streams, Finmap.mem_erase] at hk
    obtain ⟨srv, hsrv⟩ := mem_iff_lookup.mp (h.parent_registered k parent hk.2 hp)
    exact mem_iff_lookup.mpr ⟨_, by rw [Registry.lookup_servers_dropStream, hsrv, Option.map_some]⟩
  children_iff sid srv hsid k := by
    rw [Registry.lookup_servers_dropStream] at hsid
    obtain ⟨srv', hsrv, rfl⟩ := Option.map_eq_some_iff.mp hsid
    have hiff := h.children_iff sid srv' hsrv
    rw [Registry.dropStream_streams, Finmap.mem_erase]
    split_ifs with hp
    · rw [Finset.mem_erase, hiff]
      tauto
    · rw [hiff]
      refine ⟨fun ⟨hk, hkp⟩ ↦ ⟨⟨?_, hk⟩, hkp⟩, fun ⟨⟨_, hk⟩, hkp⟩ ↦ ⟨hk, hkp⟩⟩
      rintro rfl
      exact hp (by rw [h.parentOf_eq hk, hkp])

theorem dropServer (h : WellFormed reg) (order : IterationOrder ConnectionId)
    (id : ConnectionId) : WellFormed (reg.dropServer order id).1 := by
  cases hid : reg.servers.lookup id with
  | none =>
    have he : (reg.dropServer order id).1 = reg := by simp only [Registry.dropServer, hid]
    rwa [he]
  | some srv =>
    have hchild := h.children_iff id srv hid
    have hstream : ∀ k, k ∈ (reg.dropServer order id).1.streams ↔
        k ∈ reg.streams ∧ k.parent? ≠ some id := by
      intro k
      rw [mem_iff_lookup, mem_iff_lookup, Registry.lookup_streams_dropServer hid]
      by_cases hk : k ∈ srv.children
      · simp [hk, ((hchild k).mp hk).2]
      · simp only [hk, if_false]
        refine ⟨fun hs ↦ ⟨hs, fun hp ↦ hk ((hchild k).mpr ⟨mem_iff_lookup.mpr hs, hp⟩)⟩, And.left⟩
    constructor
    · intro k s hk
      rw [Registry.lookup_servers_dropServer hid] at hk
      split_ifs at hk
      obtain ⟨s', hs, rfl⟩ := Option.map_eq_some_iff.mp hk
      exact h.server_entry k s' hs
    · intro k s hk
      rw [Registry.lookup_streams_dropServer hid] at hk
      split_ifs at hk
      exact h.stream_entry k s hk
    · intro k parent hk hp
      obtain ⟨hk, hne⟩ := (hstream k).mp hk
      obtain ⟨s, hs⟩ := mem_iff_lookup.mp (h.parent_registered k parent hk hp)
      have hpid : parent ≠ id := fun he ↦ hne (he ▸ hp)
      exact mem_iff_lookup.mpr ⟨_, by
        rw [Registry.lookup_servers_dropServer hid, if_neg hpid, hs, Option.map_some]⟩
    · intro sid s hsid k
      rw [Registry.lookup_servers_dropServer hid] at hsid
      split_ifs at hsid with hne
      obtain ⟨s', hs, rfl⟩ := Option.map_eq_some_iff.mp hsid
      rw [hstream, Finset.mem_filter, h.children_iff sid s' hs]
      constructor
      · rintro ⟨⟨hk, hp⟩, -⟩
        exact ⟨⟨hk, fun he ↦ hne (Option.some.inj (hp.symm.trans he))⟩, hp⟩
      · rintro ⟨⟨hk, hne'⟩, hp⟩
        exact ⟨⟨hk, hp⟩, fun hc ↦ hne' ((hchild k).mp hc.1).2⟩

theorem replaceLabel (h : WellFormed reg) (id typed : ConnectionId) (name : String) :
    WellFormed (reg.replaceLabel id typed name).1 where
  server_entry k srv hk := by
    rw [Registry.lookup_servers_replaceLabel] at hk
    obtain ⟨srv', hsrv, rfl⟩ := Option.map_eq_some_iff.mp hk
    have he := h.server_entry k srv' hsrv
    split_ifs <;> exact he
  stream_entry k s hk := by
    rw [Registry.lookup_streams_replaceLabel] at hk
    obtain ⟨s', hs, rfl⟩ := Option.map_eq_some_iff.mp hk
    have he := h.stream_entry k s' hs
    split_ifs <;> exact he
  parent_registered k parent hk hp := by
    rw [Registry.mem_streams_replaceLabel] at hk
    obtain ⟨srv, hsrv⟩ := mem_iff_lookup.mp (h.parent_registered k parent hk hp)
    exact mem_iff_lookup.mpr
      ⟨_, by rw [Registry.lookup_servers_replaceLabel, hsrv, Option.map_some]⟩
  children_iff sid srv hsid k := by
    rw [Registry.lookup_servers_replaceLabel] at hsid
    obtain ⟨srv', hsrv, rfl⟩ := Option.map_eq_some_iff.mp hsid
    rw [Registry.mem_streams_replaceLabel, ← h.children_iff sid srv' hsrv k]
    split_ifs <;> rfl

theorem of_servers (h : WellFormed reg) {reg' : Registry} (hstreams : reg'.streams = reg.streams)
    (hdom : ∀ id, id ∈ reg.servers → id ∈ reg'.servers)
    (hservers : ∀ id srv', reg'.servers.lookup id = some srv' → ∃ srv,
      reg.servers.lookup id = some srv ∧ srv'.state = srv.state ∧
        srv'.children = srv.children) : WellFormed reg' where
  server_entry id srv' hid := by
    obtain ⟨srv, hsrv, hs, -⟩ := hservers id srv' hid
    rw [hs]
    exact h.server_entry id srv hsrv
  stream_entry id s hid := h.stream_entry id s (hstreams ▸ hid)
  parent_registered id parent hid hp :=
    hdom parent (h.parent_registered id parent (hstreams ▸ hid) hp)
  children_iff sid srv' hsid id := by
    obtain ⟨srv, hsrv, -, hc⟩ := hservers sid srv' hsid
    rw [hc, hstreams]
    exact h.children_iff sid srv hsrv id

theorem setServer (h : WellFormed reg) {id : ConnectionId} {srv srv' : ServerHandle}
    (hid : reg.servers.lookup id = some srv) (hs : srv'.state = srv.state)
    (hc : srv'.children = srv.children) :
    WellFormed { reg with servers := reg.servers.insert id srv' } := by
  refine h.of_servers rfl (fun _ hk ↦ Finmap.mem_insert.mpr (.inr hk)) fun k s hk ↦ ?_
  rw [lookup_insert] at hk
  split_ifs at hk with he
  · cases hk
    exact ⟨srv, he ▸ hid, hs, hc⟩
  · exact ⟨s, hk, rfl, rfl⟩

theorem mem_streams_renamed {b : Base} (hold : b.accepted none ∈ reg.streams) {k : ConnectionId} :
    k ∈ (reg.renameAcceptedTcp (b.accepted none) (b.accepted (some 1))).streams ↔
      k = b.accepted (some 1) ∨ k ≠ b.accepted none ∧ k ∈ reg.streams := by
  simp only [Registry.mem_streams_rename, hold, true_and, not_true_eq_false, false_and, or_false]

theorem rename_live (h : WellFormed reg) {b : Base} {s₀ : StreamHandle}
    (hold : reg.streams.lookup (b.accepted none) = some s₀) :
    WellFormed (reg.renameAcceptedTcp (b.accepted none) (b.accepted (some 1))) where
  server_entry sid srv' hsid := by
    rw [Registry.lookup_servers_rename] at hsid
    obtain ⟨srv, hsrv, rfl⟩ := Option.map_eq_some_iff.mp hsid
    have he := h.server_entry sid srv hsrv
    split_ifs <;> exact he
  stream_entry k s hk := by
    obtain ⟨-, -, hc, hp⟩ := h.stream_entry _ s₀ hold
    rw [Registry.lookup_streams_rename, hold] at hk
    split_ifs at hk with h₁ h₀
    · cases hk
      rw [h₁]
      exact ⟨b.isServer_accepted _, rfl, hc, by
        rw [Base.parent?_accepted, ← b.parent?_accepted none, ← hp]⟩
    · exact h.stream_entry k s hk
  parent_registered k parent hk hkp := by
    have hmem := mem_of_lookup hold
    have hin : parent ∈ reg.servers := by
      rcases (mem_streams_renamed hmem).mp hk with rfl | ⟨-, hk⟩
      · rw [Base.parent?_accepted] at hkp
        have hb := h.parent_registered _ b.server hmem (b.parent?_accepted none)
        exact Option.some.inj hkp ▸ hb
      · exact h.parent_registered k parent hk hkp
    obtain ⟨srv, hsrv⟩ := mem_iff_lookup.mp hin
    exact mem_iff_lookup.mpr ⟨_, by rw [Registry.lookup_servers_rename, hsrv, Option.map_some]⟩
  children_iff sid srv' hsid k := by
    have hmem := mem_of_lookup hold
    have hparent : reg.parentOf (b.accepted none) = some b.server := by
      rw [h.parentOf_eq hmem, Base.parent?_accepted]
    rw [Registry.lookup_servers_rename] at hsid
    obtain ⟨srv, hsrv, rfl⟩ := Option.map_eq_some_iff.mp hsid
    have hiff := h.children_iff sid srv hsrv k
    rw [hparent, mem_streams_renamed hmem]
    split_ifs with he
    · rw [Finset.mem_insert, Finset.mem_erase, hiff]
      constructor
      · rintro (rfl | ⟨hk, hks, hkp⟩)
        · exact ⟨.inl rfl, by rw [Base.parent?_accepted, he]⟩
        · exact ⟨.inr ⟨hk, hks⟩, hkp⟩
      · rintro ⟨hk | ⟨hk, hks⟩, hkp⟩
        · exact .inl hk
        · exact .inr ⟨hk, hks, hkp⟩
    · rw [hiff]
      constructor
      · rintro ⟨hks, hkp⟩
        refine ⟨.inr ⟨?_, hks⟩, hkp⟩
        rintro rfl
        exact he (by rw [← hkp, Base.parent?_accepted])
      · rintro ⟨rfl | ⟨-, hks⟩, hkp⟩
        · exact (he (by rw [← hkp, Base.parent?_accepted])).elim
        · exact ⟨hks, hkp⟩

theorem rename (h : WellFormed reg) (b : Base) :
    WellFormed (reg.renameAcceptedTcp (b.accepted none) (b.accepted (some 1))) := by
  cases hold : reg.streams.lookup (b.accepted none) with
  | none =>
    -- the unsuffixed connection is gone: nothing is renamed
    have he : reg.renameAcceptedTcp (b.accepted none) (b.accepted (some 1)) = reg := by
      simp only [Registry.renameAcceptedTcp, hold]
    rwa [he]
  | some s₀ => exact h.rename_live hold

theorem accepted_second (h : WellFormed reg) {b : Base} {srv : ServerHandle} {reg' : Registry}
    (hstreams : reg'.streams =
      (reg.renameAcceptedTcp (b.accepted none) (b.accepted (some 1))).streams)
    (hservers : ∀ sid, reg'.servers.lookup sid =
      ((reg.renameAcceptedTcp (b.accepted none) (b.accepted (some 1))).servers.lookup sid).map
        fun s ↦
          if sid = b.server then
            { s with
              baseNoSuffix := srv.baseNoSuffix.erase b.key
              disambigNext := srv.disambigNext.insert b.key 2 }
          else s) : WellFormed reg' := by
  refine (h.rename b).of_servers hstreams ?_ ?_
  · intro sid hsid
    obtain ⟨s, hs⟩ := mem_iff_lookup.mp hsid
    exact mem_iff_lookup.mpr ⟨_, by rw [hservers, hs, Option.map_some]⟩
  · intro sid s' hs'
    rw [hservers] at hs'
    obtain ⟨s, hs, rfl⟩ := Option.map_eq_some_iff.mp hs'
    refine ⟨s, hs, ?_, ?_⟩ <;> split_ifs <;> rfl

end WellFormed

end WireDock
