import WireDock.Registry.Numbering
import WireDock.Registry.Labels

namespace WireDock

open FiniteMap LabelledSystem

namespace Registry

variable {reg reg' : Registry} {k id : ConnectionId} {name : String}

theorem live_of_currentLabel (hw : WellFormed reg) (hid : id.isServer = false)
    (h : reg.currentLabel id = some name) : id ∈ reg.streams := by
  by_contra hs
  cases (currentLabel_of_not_live hw hid hs).symm.trans h

theorem currentLabel_insertStream_self (s : StreamHandle) :
    (reg.insertStream s).currentLabel s.state.id = s.state.label := by
  have hs : (reg.insertStream s).streams.lookup s.state.id = some s :=
    (lookup_insert ..).trans (if_pos rfl)
  simp only [currentLabel, hs]

theorem label_of_dropStream (hw : WellFormed reg)
    (h : (reg.dropStream id).1.currentLabel k = some name) :
    reg.currentLabel k = some name ∧ (id ∈ reg.streams → k ≠ id) := by
  by_cases hid : id ∈ reg.streams
  · have hne : k ≠ id := by
      rintro rfl
      have hgone : k ∉ (reg.dropStream k).1.streams := by
        rw [dropStream_streams, Finmap.mem_erase]
        exact fun hk ↦ hk.1 rfl
      exact hgone (live_of_currentLabel (hw.dropStream k) (hw.not_isServer_of_mem hid) h)
    exact ⟨(currentLabel_dropStream hne).symm.trans h, fun _ ↦ hne⟩
  · have he : (reg.dropStream id).1 = reg := by
      simp only [dropStream, not_mem_iff_lookup.mp hid]
    exact ⟨he ▸ h, fun hs ↦ (hid hs).elim⟩

theorem label_of_dropServer {order : IterationOrder ConnectionId} {srv : ServerHandle}
    (hw : WellFormed reg) (hid : reg.servers.lookup id = some srv)
    (h : (reg.dropServer order id).1.currentLabel k = some name) :
    reg.currentLabel k = some name ∧ k ≠ id ∧ k ∉ srv.children := by
  have hlive := mem_of_currentLabel h
  rw [lookup_streams_dropServer hid, lookup_servers_dropServer hid] at hlive
  have hne : k ≠ id ∧ k ∉ srv.children := by
    rcases hlive with ⟨s, hs, -⟩ | ⟨srv', hs, -⟩
    · split_ifs at hs with hc
      refine ⟨?_, hc⟩
      rintro rfl
      exact hw.stream_not_server (mem_of_lookup hs) (mem_of_lookup hid)
    · split_ifs at hs with he
      obtain ⟨srv₀, hs₀, -⟩ := Option.map_eq_some_iff.mp hs
      refine ⟨he, fun hc ↦ ?_⟩
      exact hw.stream_not_server ((hw.children_iff id srv hid k).mp hc).1 (mem_of_lookup hs₀)
  exact ⟨(currentLabel_dropServer hid hne.1 hne.2).symm.trans h, hne⟩

theorem label_of_openServer {task : JoinHandle} {path : Option PathBuf}
    (hs : id ∉ reg.streams)
    (h : ({ reg with servers := reg.servers.insert id (.opened id task path) } :
      Registry).currentLabel k = some name) : reg.currentLabel k = some name := by
  by_cases hk : k = id
  · subst hk
    rw [currentLabel_eq, if_neg hs, serverLabel, lookup_insert, if_pos rfl] at h
    cases h
  · rw [← h]
    symm
    exact currentLabel_congr rfl (by rw [lookup_insert, if_neg hk])

/-- After an allocation every label is where it was, or moved with the renamed connection. -/
theorem Allocated.label_of {b : Base} {ev : Option NetEvent} (hw : WellFormed reg)
    (ht : Tracked reg) (ha : reg.Allocated b reg' id ev) (h : reg'.currentLabel k = some name) :
    reg.currentLabel k = some name ∨
      k = b.accepted (some 1) ∧ reg.currentLabel (b.accepted none) = some name := by
  have hkept := ha.currentLabel (k := k) ht
  have hw' := ha.wellFormed hw ht
  cases ha with
  | first hsrv | next hsrv =>
    refine .inl (Eq.trans (Eq.symm (currentLabel_setServer hsrv ?_)) h)
    rfl
  | @second srv old _ hsrv hold hstreams =>
    cases ht.lookup_base hsrv hold
    by_cases hnone : k = b.accepted none
    · -- nothing is left under the id the connection had
      subst hnone
      have hl := live_of_currentLabel hw' (b.isServer_accepted none) h
      rw [hstreams, mem_streams_rename] at hl
      rcases hl with ⟨-, he | ⟨hne, -⟩⟩ | ⟨hgone, hl⟩
      · cases (Base.accepted_inj he).2
      · exact (hne rfl).elim
      · exact (hgone hl).elim
    · by_cases hone : k = b.accepted (some 1)
      · subst hone
        have hl := live_of_currentLabel hw' (b.isServer_accepted _) h
        obtain ⟨s, hs⟩ := mem_iff_lookup.mp hl
        simp only [Registry.currentLabel, hs] at h
        rw [hstreams, lookup_streams_rename] at hs
        cases hold' : reg.streams.lookup (b.accepted none) with
        | none =>
          simp only [hold'] at hs
          exact (not_live_of_unsuffixed ht hsrv hold (mem_of_lookup hs)).elim
        | some s₀ =>
          simp only [hold', if_true, Option.some.injEq] at hs
          subst hs
          exact .inr ⟨rfl, by simp only [Registry.currentLabel, hold']; exact h⟩
      · exact .inl ((hkept hnone fun _ ↦ hone).symm.trans h)

end Registry

/-- Each label of a registered connection is a name of the label map: it
points to the connection, or to the id the connection had before it was
renamed. -/
def LabelsTracked (reg : Registry) : Prop :=
  ∀ k name, reg.currentLabel k = some name → ∃ id, reg.labels.lookup name = some id ∧
    (k = id ∨ ∃ b : Base, id = b.accepted none ∧ k = b.accepted (some 1))

namespace LabelsTracked

variable {reg reg' : Registry}

theorem unique (h : LabelsTracked reg) (hw : WellFormed reg) (ht : Tracked reg)
    {k k' : ConnectionId} {name : String} (hk : reg.currentLabel k = some name)
    (hk' : reg.currentLabel k' = some name) : k = k' := by
  have hapart : ∀ b : Base, reg.currentLabel (b.accepted none) = some name →
      reg.currentLabel (b.accepted (some 1)) ≠ some name := fun b hnone hone ↦
    ht.apart hw (Registry.live_of_currentLabel hw (b.isServer_accepted none) hnone)
      (Registry.live_of_currentLabel hw (b.isServer_accepted _) hone)
  obtain ⟨id, hid, hcase⟩ := h k name hk
  obtain ⟨id', hid', hcase'⟩ := h k' name hk'
  cases hid.symm.trans hid'
  rcases hcase with rfl | ⟨b, hb, rfl⟩
  · rcases hcase' with rfl | ⟨b, rfl, rfl⟩
    · rfl
    · exact (hapart b hk hk').elim
  · rcases hcase' with rfl | ⟨b', hb', rfl⟩
    · exact (hapart b (hb ▸ hk') hk).elim
    · rw [(Base.accepted_inj (hb.symm.trans hb')).1]

theorem new : LabelsTracked .new := by
  intro k name h
  cases h

theorem of_labels (h : LabelsTracked reg) (hl : reg'.labels = reg.labels)
    (hc : ∀ k name, reg'.currentLabel k = some name → reg.currentLabel k = some name) :
    LabelsTracked reg' := by
  intro k name hk
  rw [hl]
  exact h k name (hc k name hk)

theorem dropStream (h : LabelsTracked reg) (hw : WellFormed reg) (ht : Tracked reg)
    (id : ConnectionId) : LabelsTracked (reg.dropStream id).1 := by
  intro k name hk
  obtain ⟨hk, hne⟩ := Registry.label_of_dropStream hw hk
  obtain ⟨id', hid', hcase⟩ := h k name hk
  refine ⟨id', ?_, hcase⟩
  rw [Registry.lookup_labels_dropStream, if_neg, hid']
  intro hl
  obtain ⟨s, hs, -⟩ := Option.bind_eq_some_iff.mp hl
  have hid := mem_of_lookup hs
  have hcur : reg.currentLabel id = some name := by
    rw [Registry.currentLabel_eq, if_pos hid, hl]
  exact hne hid (h.unique hw ht hk hcur)

theorem dropServer (h : LabelsTracked reg) (hw : WellFormed reg) (ht : Tracked reg)
    (order : IterationOrder ConnectionId) (id : ConnectionId) :
    LabelsTracked (reg.dropServer order id).1 := by
  cases hid : reg.servers.lookup id with
  | none => rwa [show (reg.dropServer order id).1 = reg by simp only [Registry.dropServer, hid]]
  | some srv =>
    intro k name hk
    obtain ⟨hk, hne, hchild⟩ := Registry.label_of_dropServer hw hid hk
    obtain ⟨id', hid', hcase⟩ := h k name hk
    refine ⟨id', ?_, hcase⟩
    rw [Registry.lookup_labels_dropServer hid, if_neg, hid']
    rintro (hl | ⟨c, hc, hl⟩)
    · have hs : id ∉ reg.streams := fun hs ↦ hw.stream_not_server hs (mem_of_lookup hid)
      have hcur : reg.currentLabel id = some name := by
        rw [Registry.currentLabel_eq, if_neg hs, Registry.serverLabel, hid]
        exact hl
      exact hne (h.unique hw ht hk hcur)
    · have hcur : reg.currentLabel c = some name := by
        rw [Registry.currentLabel_eq, if_pos ((hw.children_iff id srv hid c).mp hc).1, hl]
      exact hchild (h.unique hw ht hk hcur ▸ hc)

/-- The entry that a held label leads to is the one it points to. -/
theorem keyOf_eq (h : LabelsTracked reg) (hw : WellFormed reg) (ha : reg.ServersApart)
    {k id : ConnectionId} {name : String} (hk : reg.currentLabel k = some name)
    (hl : reg.labels.lookup name = some id) (hid : reg.keyOf id ∈ reg.registered) :
    reg.keyOf id = id := by
  obtain ⟨id', hid', hcase⟩ := h k name hk
  cases hl.symm.trans hid'
  have hlive := Registry.mem_registered_of_currentLabel hk
  rcases hcase with rfl | ⟨b, rfl, rfl⟩
  · exact Registry.keyOf_of_mem hlive
  · have hs := (Registry.mem_registered.mp hlive).resolve_right fun hv ↦ by
      cases (b.isServer_accepted _).symm.trans (hw.isServer_of_mem hv)
    exact ha.eq_of_child hw (b.parent?_accepted none)
      (hw.parent_registered _ _ hs (b.parent?_accepted _)) hid (reg.keyOf_same _)

theorem replaceLabel (h : LabelsTracked reg) (hw : WellFormed reg) (ht : Tracked reg)
    (ha : reg.ServersApart) {id typed : ConnectionId} {name : String}
    (hok : (reg.applyLabel id typed name).2 = .ok ()) :
    LabelsTracked (reg.replaceLabel id typed name).1 := by
  obtain ⟨hfree, he⟩ := Registry.applyLabel_ok hok
  rw [he] at hok
  intro k n hk
  rw [Registry.lookup_labels_replaceLabel hok]
  by_cases hkid : k = id
  · subst hkid
    cases (Registry.currentLabel_replaceLabel_self hok).symm.trans hk
    exact ⟨k, if_pos rfl, .inl rfl⟩
  · rw [Registry.currentLabel_replaceLabel hkid] at hk
    obtain ⟨id', hid', hcase⟩ := h k n hk
    by_cases hn : n = name
    · subst hn
      have hlive : reg.keyOf id' ∈ reg.registered := by
        rw [hfree id' hid', Registry.mem_registered]
        exact Registry.replaceLabel_ok hok
      have heq : id' = id := (h.keyOf_eq hw ha hk hid' hlive).symm.trans (hfree id' hid')
      exact ⟨id, if_pos rfl, heq ▸ hcase⟩
    · refine ⟨id', ?_, hcase⟩
      rw [if_neg hn, if_neg, hid']
      exact fun hcur ↦ hkid (h.unique hw ht hk hcur)

theorem insertStream (h : LabelsTracked reg) {s : StreamHandle} (hs : s.state.label = none) :
    LabelsTracked (reg.insertStream s) := by
  refine h.of_labels rfl fun k name hk ↦ ?_
  by_cases he : k = s.state.id
  · rw [he, Registry.currentLabel_insertStream_self, hs] at hk
    cases hk
  · rwa [Registry.currentLabel_insertStream he] at hk

theorem allocated (h : LabelsTracked reg) (hw : WellFormed reg) (ht : Tracked reg) {b : Base}
    {id : ConnectionId} {ev : Option NetEvent} (ha : reg.Allocated b reg' id ev) :
    LabelsTracked reg' := by
  have hlabels : reg'.labels = reg.labels := by cases ha <;> first | rfl | assumption
  intro k name hk
  rw [hlabels]
  rcases ha.label_of hw ht hk with hk | ⟨rfl, hnone⟩
  · exact h k name hk
  · obtain ⟨id', hid', hcase⟩ := h _ name hnone
    rcases hcase with rfl | ⟨b', -, he⟩
    · exact ⟨_, hid', .inr ⟨b, rfl, rfl⟩⟩
    · cases (Base.accepted_inj he).2

theorem change {env : Environment} {input : RegistryInput} {effects : List Effect}
    (h : LabelsTracked reg) (hw : WellFormed reg) (ht : Tracked reg) (ha : reg.ServersApart)
    (hc : Registry.Change env reg input effects reg') : LabelsTracked reg' := by
  cases hc with
  | silent => exact h
  | bindRefused => exact h
  | serverOpened ho hid =>
    exact h.of_labels rfl fun _ _ ↦
      Registry.label_of_openServer (Registry.opensServer_not_live hw ho)
  | connectRefused => exact h
  | @clientOpened cmd id endpoint peer seq stream text ho =>
    have hseq : LabelsTracked { reg with nextIpcClientSeq := seq } := h
    exact hseq.insertStream rfl
  | labelled _ happly => exact h.replaceLabel hw ht ha happly
  | streamDropped => exact h.dropStream hw ht _
  | serverDropped => exact h.dropServer hw ht _ _
  | accepted hb ha => exact (h.allocated hw ht ha).insertStream rfl

end LabelsTracked

theorem labelsTracked_of_reachable {ok : World → Environment × RegistryInput → Prop} {w : World}
    (hw : ReachableBy registrySystem ok w) : LabelsTracked w.reg := by
  refine consistent_invariant (P := fun reg _ ↦ LabelsTracked reg) .new ?_ ?_ ?_ hw
  · intro w env input effects reg' hr hwf ht h _ hc
    exact h.change hwf ht (serversApart_of_reachable hr) hc
  · intro order reg _ id hwf ht h
    exact h.dropServer hwf ht order id
  · intro reg _ id hwf ht h
    exact h.dropStream hwf ht id

def Registry.Holds (reg : Registry) (id : ConnectionId) (name : String) : Prop :=
  (∃ h, reg.streams.lookup id = some h ∧ h.state.label = some name) ∨
    ∃ srv, reg.servers.lookup id = some srv ∧ srv.state.label = some name

theorem WellFormed.currentLabel_of_holds {reg : Registry} {id : ConnectionId} {name : String}
    (hw : WellFormed reg) (h : reg.Holds id name) : reg.currentLabel id = some name := by
  rcases h with ⟨s, hs, hl⟩ | ⟨srv, hsrv, hl⟩
  · simp only [Registry.currentLabel, hs, hl]
  · have hn : id ∉ reg.streams := fun hs ↦ hw.stream_not_server hs (mem_of_lookup hsrv)
    simp only [Registry.currentLabel, not_mem_iff_lookup.mp hn, hsrv, hl]

structure LabelsUnique (reg : Registry) : Prop where
  mapped : ∀ id name, reg.Holds id name → name ∈ reg.labels
  one_holder : ∀ id id' name, reg.Holds id name → reg.Holds id' name → id = id'
  one_entry : ∀ id, ¬(id ∈ reg.streams ∧ id ∈ reg.servers)

/-- In every state reached no two registered connections hold one label. -/
theorem labels_unique_of_reachable {w : World} (hw : Reachable registrySystem w) :
    LabelsUnique w.reg := by
  have hwf := wellFormed_of_reachable hw
  have hlabels := labelsTracked_of_reachable hw
  refine ⟨fun id name h ↦ ?_, fun id id' name h h' ↦ ?_, fun id h ↦ hwf.stream_not_server h.1 h.2⟩
  · obtain ⟨k, hk, -⟩ := hlabels id name (hwf.currentLabel_of_holds h)
    exact mem_of_lookup hk
  · exact hlabels.unique hwf (tracked_of_reachable hw) (hwf.currentLabel_of_holds h)
      (hwf.currentLabel_of_holds h')

theorem labels_unique_after_rename :
    ∃ w, World.initial.play (fun _ _ ↦ true) [.command (.openTcpServer 3000),
        tcpHandoff 3000 10015 7, .command (.label "3000.10015" "cam"), tcpHandoff 3000 10015 8,
        .command (.label "3000" "cam"), .command (.label "3000" "hub")] = some w ∧
      w.reg.Holds (.acceptedTcp 3000 10015 (some 1)) "cam" ∧ w.reg.Holds (.tcpServer 3000) "hub" ∧
      LabelsUnique w.reg := by
  have hrun : ∃ w ∈ World.initial.play (fun _ _ ↦ true) [.command (.openTcpServer 3000),
      tcpHandoff 3000 10015 7, .command (.label "3000.10015" "cam"), tcpHandoff 3000 10015 8,
      .command (.label "3000" "cam"), .command (.label "3000" "hub")],
      w.reg.streamLabel (.acceptedTcp 3000 10015 (some 1)) = some "cam" ∧
        w.reg.serverLabel (.tcpServer 3000) = some "hub" := by decide +kernel
  obtain ⟨w, hw, hcam, hhub⟩ := hrun
  exact ⟨w, hw, .inl (Option.bind_eq_some_iff.mp hcam), .inr (Option.bind_eq_some_iff.mp hhub),
    labels_unique_of_reachable (reachable_play hw)⟩

end WireDock
