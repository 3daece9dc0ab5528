import WireDock.Registry.Broadcast
import WireDock.Registry.Clients

namespace WireDock

open FiniteMap LabelledSystem

namespace Registry

variable {reg reg' : Registry} {id : ConnectionId} {srv : ServerHandle}

theorem ext_lookup (hstreams : ∀ k, reg.streams.lookup k = reg'.streams.lookup k)
    (hservers : ∀ k, reg.servers.lookup k = reg'.servers.lookup k)
    (hlabels : ∀ name, reg.labels.lookup name = reg'.labels.lookup name)
    (htyped : reg.typed = reg'.typed) (hseq : reg.nextIpcClientSeq = reg'.nextIpcClientSeq) :
    reg = reg' := by
  cases reg
  cases reg'
  cases Finmap.ext_lookup hstreams
  cases Finmap.ext_lookup hservers
  cases Finmap.ext_lookup hlabels
  cases htyped
  cases hseq
  rfl

def aborts (reg : Registry) (ids : List ConnectionId) : List Effect :=
  ids.filterMap fun k ↦ (reg.streams.lookup k).map fun h ↦ .abort h.readTask

theorem effects_dropStreams {ids : List ConnectionId} (h : ids.Nodup) :
    (reg.dropStreams ids).2 = reg.aborts ids := by
  induction ids generalizing reg with
  | nil => rfl
  | cons c ids ih =>
    obtain ⟨hc, hids⟩ := List.nodup_cons.mp h
    have hrest : (reg.dropStream c).1.aborts ids = reg.aborts ids := by
      refine List.filterMap_congr fun k hk ↦ ?_
      have hne : k ≠ c := fun he ↦ hc (he ▸ hk)
      rw [dropStream_streams, lookup_erase, if_neg hne]
    rw [dropStreams, ih hids, hrest, dropStream_effects]
    cases hl : reg.streams.lookup c <;> simp [aborts, hl]

theorem dropServer_effects {order : IterationOrder ConnectionId}
    (hsrv : reg.servers.lookup id = some srv) :
    (reg.dropServer order id).2 =
      .abort srv.acceptTask :: reg.aborts (order.visit srv.children) ++
        (srv.ipcPath.map Effect.removeFile).toList := by
  simp only [dropServer, hsrv, effects_dropStreams (order.nodup _)]
  cases srv.ipcPath <;> rfl

namespace VisitsChildren

variable {ids ids' : List ConnectionId}

theorem mem_iff (h : reg.VisitsChildren id ids) {k : ConnectionId} :
    k ∈ ids ↔ reg.parentOf k = some id := by
  rw [h.all, parentOf, Option.bind_eq_some_iff]

theorem perm (h : reg.VisitsChildren id ids) (h' : reg.VisitsChildren id ids') : ids.Perm ids' :=
  (List.perm_ext_iff_of_nodup h.once h'.once).mpr fun _ ↦ h.mem_iff.trans h'.mem_iff.symm

end VisitsChildren

def GroupHolds (reg : Registry) (id : ConnectionId) (srv : ServerHandle) (name : String) : Prop :=
  srv.state.label = some name ∨ ∃ k, reg.parentOf k = some id ∧ reg.streamLabel k = some name

/-- The server is gone with the streams it accepted and the names all of them
held, their tasks are stopped, and nothing else has changed. -/
structure Cascades (reg : Registry) (id : ConnectionId) (srv : ServerHandle)
    (dropped : Registry × List Effect) : Prop where
  servers : ∀ sid, dropped.1.servers.lookup sid =
    if sid = id then none else reg.servers.lookup sid
  streams : ∀ k, dropped.1.streams.lookup k =
    if reg.parentOf k = some id then none else reg.streams.lookup k
  freed : ∀ name, reg.GroupHolds id srv name → dropped.1.labels.lookup name = none
  kept : ∀ name, ¬reg.GroupHolds id srv name →
    dropped.1.labels.lookup name = reg.labels.lookup name
  typed : dropped.1.typed = reg.typed
  seq : dropped.1.nextIpcClientSeq = reg.nextIpcClientSeq
  effects : ∀ children, reg.VisitsChildren id children →
    dropped.2.Perm (.abort srv.acceptTask :: reg.aborts children ++
      (srv.ipcPath.map Effect.removeFile).toList)

theorem Cascades.unique {dropped dropped' : Registry × List Effect} {children : List ConnectionId}
    (h : reg.Cascades id srv dropped) (h' : reg.Cascades id srv dropped')
    (hv : reg.VisitsChildren id children) :
    dropped.1 = dropped'.1 ∧ dropped.2.Perm dropped'.2 := by
  refine ⟨ext_lookup (fun k ↦ (h.streams k).trans (h'.streams k).symm)
    (fun k ↦ (h.servers k).trans (h'.servers k).symm) (fun name ↦ ?_)
    (h.typed.trans h'.typed.symm) (h.seq.trans h'.seq.symm),
    (h.effects _ hv).trans (h'.effects _ hv).symm⟩
  by_cases hheld : reg.GroupHolds id srv name
  · rw [h.freed name hheld, h'.freed name hheld]
  · rw [h.kept name hheld, h'.kept name hheld]

theorem groupHolds_iff {ids : List ConnectionId} (hv : reg.VisitsChildren id ids) {name : String} :
    reg.GroupHolds id srv name ↔
      srv.state.label = some name ∨ ∃ k ∈ ids, reg.streamLabel k = some name := by
  simp only [GroupHolds, hv.mem_iff]

theorem filter_other_children (reg : Registry) (s : ServerHandle) {sid : ConnectionId}
    (hs : sid ≠ id) : s.children.filter
      (fun k ↦ ¬(reg.parentOf k = some id ∧ reg.parentOf k = some sid)) = s.children := by
  refine Finset.filter_true_of_mem fun k _ hk ↦ hs ?_
  exact Option.some.inj (hk.2.symm.trans hk.1)

theorem cascades_dropServer (hw : WellFormed reg) (hsrv : reg.servers.lookup id = some srv)
    (order : IterationOrder ConnectionId) :
    reg.Cascades id srv (reg.dropServer order id) := by
  have hvisit := reg.visitsChildren hw hsrv order
  have hmem : ∀ k, k ∈ srv.children ↔ reg.parentOf k = some id := fun k ↦ by
    rw [← order.mem_visit, hvisit.mem_iff]
  constructor
  · intro sid
    rw [lookup_servers_dropServer hsrv]
    split_ifs with hs
    · rfl
    · simp only [hmem, reg.filter_other_children _ hs, Option.map_id']
  · intro k
    rw [lookup_streams_dropServer hsrv]
    exact if_congr (hmem k) rfl rfl
  · intro name hheld
    rw [groupHolds_iff hvisit] at hheld
    simp only [order.mem_visit] at hheld
    rw [lookup_labels_dropServer hsrv, if_pos hheld]
  · intro name hheld
    rw [groupHolds_iff hvisit] at hheld
    simp only [order.mem_visit] at hheld
    rw [lookup_labels_dropServer hsrv, if_neg hheld]
  · exact typed_dropServer
  · exact seq_dropServer
  · intro children hv
    have habort : (reg.aborts (order.visit srv.children)).Perm (reg.aborts children) :=
      (hvisit.perm hv).filterMap _
    have hdropped : (reg.dropServer order id).2 =
        .abort srv.acceptTask :: reg.aborts (order.visit srv.children) ++
          (srv.ipcPath.map Effect.removeFile).toList := by
      simp only [dropServer, hsrv, effects_dropStreams (order.nodup _)]
      cases srv.ipcPath <;> rfl
    rw [hdropped]
    exact (habort.cons _).append_right _

/-- Closing the children first, one at a time, empties the server and nothing more. -/
theorem lookup_server_dropStreams (hw : WellFormed reg) (hsrv : reg.servers.lookup id = some srv)
    {children : List ConnectionId} (hv : reg.VisitsChildren id children) (sid : ConnectionId) :
    (reg.dropStreams children).1.servers.lookup sid =
      if sid = id then some { srv with children := ∅ } else reg.servers.lookup sid := by
  rw [lookup_servers_dropStreams]
  simp only [hv.mem_iff]
  split_ifs with hs
  · subst hs
    have hnone : srv.children.filter
        (fun k ↦ ¬(reg.parentOf k = some sid ∧ reg.parentOf k = some sid)) = ∅ := by
      refine Finset.filter_false_of_mem fun k hk hn ↦ hn ?_
      obtain ⟨hlive, hp⟩ := (hw.children_iff sid srv hsrv k).mp hk
      rw [hw.parentOf_eq hlive, hp]
      exact ⟨rfl, rfl⟩
    rw [hsrv, Option.map_some, hnone]
  · simp only [reg.filter_other_children _ hs, Option.map_id']

theorem cascades_one_by_one (hw : WellFormed reg) (hsrv : reg.servers.lookup id = some srv)
    {children : List ConnectionId} (hv : reg.VisitsChildren id children)
    (order : IterationOrder ConnectionId) :
    reg.Cascades id srv (((reg.dropStreams children).1.dropServer order id).1,
      (reg.dropStreams children).2 ++ ((reg.dropStreams children).1.dropServer order id).2) := by
  have hclosed := lookup_server_dropStreams hw hsrv hv
  have hempty : (reg.dropStreams children).1.servers.lookup id =
      some { srv with children := ∅ } := (hclosed id).trans (if_pos rfl)
  have hlabels : ∀ name, ((reg.dropStreams children).1.dropServer order id).1.labels.lookup name =
      if srv.state.label = some name then none
      else if ∃ k ∈ children, reg.streamLabel k = some name then none
      else reg.labels.lookup name := by
    intro name
    rw [lookup_labels_dropServer hempty, lookup_labels_dropStreams]
    simp only [Finset.notMem_empty, false_and, exists_false, or_false]
  constructor
  · intro sid
    rw [lookup_servers_dropServer hempty, hclosed]
    split_ifs with hs
    · rfl
    · simp
  · intro k
    rw [lookup_streams_dropServer hempty, if_neg (Finset.notMem_empty k),
      lookup_streams_dropStreams]
    exact if_congr hv.mem_iff rfl rfl
  · intro name hheld
    rw [groupHolds_iff hv] at hheld
    rw [hlabels]
    split_ifs with hl hc
    · rfl
    · rfl
    · exact (hheld.elim hl hc).elim
  · intro name hheld
    rw [groupHolds_iff hv, not_or] at hheld
    rw [hlabels, if_neg hheld.1, if_neg hheld.2]
  · simp only [typed_dropServer, typed_dropStreams]
  · simp only [seq_dropServer, seq_dropStreams]
  · intro children' hv'
    have habort : (reg.aborts children).Perm (reg.aborts children') :=
      (hv.perm hv').filterMap _
    have hdropped : ((reg.dropStreams children).1.dropServer order id).2 =
        .abort srv.acceptTask :: (srv.ipcPath.map Effect.removeFile).toList := by
      have hnone : order.visit ∅ = [] :=
        List.eq_nil_iff_forall_not_mem.mpr fun k hk ↦
          Finset.notMem_empty k ((order.mem_visit _ k).mp hk)
      simp only [dropServer, hempty, hnone, dropStreams]
      cases srv.ipcPath <;> rfl
    rw [effects_dropStreams hv.once, hdropped]
    exact List.perm_middle.trans ((habort.append_right _).cons _)

end Registry

/-- In every state reached `drop_server` takes out the group of the server and
nothing more, in one way whatever the order of the children, and in the same
way as closing the children one by one and the server at last. -/
theorem close_cascades {w : World} (hw : Reachable registrySystem w) {id : ConnectionId}
    {srv : ServerHandle} (hsrv : w.reg.servers.lookup id = some srv) :
    (∀ order, w.reg.Cascades id srv (w.reg.dropServer order id)) ∧
    (∀ order order', (w.reg.dropServer order id).1 = (w.reg.dropServer order' id).1 ∧
      (w.reg.dropServer order id).2.Perm (w.reg.dropServer order' id).2) ∧
    ∀ children, w.reg.VisitsChildren id children →
      (w.reg.dropStreams children).1.servers.lookup id = some { srv with children := ∅ } ∧
      ∀ order order',
        ((w.reg.dropStreams children).1.dropServer order id).1 = (w.reg.dropServer order' id).1 ∧
        ((w.reg.dropStreams children).2 ++
          ((w.reg.dropStreams children).1.dropServer order id).2).Perm
            (w.reg.dropServer order' id).2 := by
  have hwf := wellFormed_of_reachable hw
  have hcascades := Registry.cascades_dropServer hwf hsrv
  refine ⟨hcascades, fun order order' ↦ ?_, fun children hv ↦ ⟨?_, fun order order' ↦ ?_⟩⟩
  · exact (hcascades order).unique (hcascades order') (w.reg.visitsChildren hwf hsrv order)
  · rw [Registry.lookup_server_dropStreams hwf hsrv hv, if_pos rfl]
  · exact (Registry.cascades_one_by_one hwf hsrv hv order).unique (hcascades order') hv

theorem close_cascades_labelled :
    ∃ w srv, World.initial.play (fun _ _ ↦ true) [.command (.openTcpServer 3000),
        .command (.label "3000" "hub"), tcpHandoff 3000 10015 7, tcpHandoff 3000 10016 8,
        .command (.label "3000.10016" "cam"),
        .command (.openTcpClient 4000 "127.0.0.1" 80)] = some w ∧
      w.reg.servers.lookup (.tcpServer 3000) = some srv ∧
      w.reg.streams.keys.card = 3 ∧ w.reg.labels.keys = {"hub", "cam"} ∧
      ∀ order, w.reg.Cascades (.tcpServer 3000) srv (w.reg.dropServer order (.tcpServer 3000)) := by
  have hrun : ∃ w ∈ World.initial.play (fun _ _ ↦ true) [.command (.openTcpServer 3000),
      .command (.label "3000" "hub"), tcpHandoff 3000 10015 7, tcpHandoff 3000 10016 8,
      .command (.label "3000.10016" "cam"),
      .command (.openTcpClient 4000 "127.0.0.1" 80)],
      (w.reg.servers.lookup (.tcpServer 3000)).isSome ∧
        w.reg.streams.keys.card = 3 ∧ w.reg.labels.keys = {"hub", "cam"} := by decide +kernel
  obtain ⟨w, hw, hsrv, hrest⟩ := hrun
  obtain ⟨srv, hsrv⟩ := Option.isSome_iff_exists.mp hsrv
  exact ⟨w, srv, hw, hsrv, hrest.1, hrest.2, (close_cascades (reachable_play hw) hsrv).1⟩

end WireDock
