import WireDock.Registry.Numbering

namespace WireDock

open FiniteMap LabelledSystem

namespace Registry

/-- A rename that an allocator reports is one of a live connection, which is
moved with all it has while the other streams stay. -/
def ReportsLive (reg : Registry)
    (allocated : Option (Registry × ConnectionId × Option NetEvent)) : Prop :=
  ∀ reg' id newId oldId, allocated = some (reg', id, some (.renamed newId oldId)) →
    ∃ h, reg.streams.lookup oldId = some h ∧ newId ∉ reg.streams ∧ oldId ∉ reg'.streams ∧
      reg'.streams.lookup newId = some { h with state := { h.state with id := newId } } ∧
      ∀ k, k ≠ oldId → k ≠ newId → reg'.streams.lookup k = reg.streams.lookup k

/-- The unsuffixed id of a base is kept by its server after the connection has gone. -/
def OutlivesStream (reg : Registry) (b : Base) : Prop :=
  b.accepted none ∉ reg.streams ∧
    ∃ srv, reg.servers.lookup b.server = some srv ∧ b.key ∈ srv.baseNoSuffix

variable {reg reg' : Registry} {b : Base} {id : ConnectionId} {ev : Option NetEvent}

theorem Allocated.renamed_iff (ht : Tracked reg) (h : reg.Allocated b reg' id ev)
    {newId oldId : ConnectionId} :
    ev = some (.renamed newId oldId) ↔ newId = b.accepted (some 1) ∧ oldId = b.accepted none ∧
      ∃ srv, reg.servers.lookup b.server = some srv ∧ b.key ∈ srv.baseNoSuffix := by
  constructor
  · rintro rfl
    cases h with
    | second hsrv hold => exact ⟨rfl, ht.lookup_base hsrv hold, _, hsrv, mem_of_lookup hold⟩
  · rintro ⟨rfl, rfl, srv, hsrv, hbase⟩
    cases h with
    | first hsrv' hbase' | next hsrv' hbase' =>
      cases hsrv.symm.trans hsrv'
      exact (hbase' hbase).elim
    | second hsrv' hold => rw [ht.lookup_base hsrv' hold]

theorem reportsLive_allocate_iff (ht : Tracked reg) :
    reg.ReportsLive (reg.allocate b) ↔ ¬reg.OutlivesStream b := by
  constructor
  · rintro h ⟨hgone, srv, hsrv, hbase⟩
    obtain ⟨⟨reg', id, ev⟩, ha⟩ := Option.ne_none_iff_exists'.mp fun hn ↦
      allocate_eq_none.mp hn (mem_of_lookup hsrv)
    cases ((allocate_cases ha).renamed_iff ht).mpr ⟨rfl, rfl, srv, hsrv, hbase⟩
    obtain ⟨s, hs, -⟩ := h _ _ _ _ ha
    exact hgone (mem_of_lookup hs)
  · intro hlive reg' id newId oldId ha
    have hall := allocate_cases ha
    obtain ⟨rfl, rfl, srv, hsrv, hbase⟩ := (hall.renamed_iff ht).mp rfl
    have hmem : b.accepted none ∈ reg.streams := by
      by_contra hgone
      exact hlive ⟨hgone, srv, hsrv, hbase⟩
    obtain ⟨s, hs⟩ := mem_iff_lookup.mp hmem
    cases hall with
    | second hsrv' hold hstreams =>
      have hlookup : ∀ k, reg'.streams.lookup k = _ := fun k ↦ by
        rw [hstreams, lookup_streams_rename]
      simp only [hs] at hlookup
      have hne : b.accepted none ≠ b.accepted (some 1) := Base.accepted_ne (by simp)
      refine ⟨s, hs, not_live_of_unsuffixed ht hsrv' hold, ?_, ?_, fun k hk hk' ↦ ?_⟩
      · rw [not_mem_iff_lookup, hlookup, if_neg hne, if_pos rfl]
      · rw [hlookup, if_pos rfl]
      · rw [hlookup, if_neg hk', if_neg hk]

end Registry

/-- Each allocator reports renames of live connections only, if and only if no
server keeps the unsuffixed id of a base past its connection. -/
theorem rename_reports_live_iff {w : World} (hw : Reachable registrySystem w) :
    (∀ parentPort remotePort,
      w.reg.ReportsLive (w.reg.allocateAcceptedTcpId parentPort remotePort) ↔
        ¬w.reg.OutlivesStream (.tcp parentPort remotePort)) ∧
    ∀ parentPath pid,
      w.reg.ReportsLive (w.reg.allocateAcceptedIpcId parentPath pid) ↔
        ¬w.reg.OutlivesStream (.ipc parentPath pid) := by
  have hiff : ∀ b : Base, w.reg.ReportsLive (w.reg.allocate b) ↔ ¬w.reg.OutlivesStream b :=
    fun _ ↦ Registry.reportsLive_allocate_iff (tracked_of_reachable hw)
  exact ⟨fun parentPort remotePort ↦ hiff (.tcp parentPort remotePort),
    fun parentPath pid ↦ hiff (.ipc parentPath pid)⟩

theorem rename_reports_live_label :
    ∃ w, World.initial.play (fun _ _ ↦ true) [.command (.openTcpServer 3000),
        tcpHandoff 3000 10015 7, .command (.label "3000.10015" "cam")] = some w ∧
      (w.reg.allocateAcceptedTcpId 3000 10015).map (fun a ↦ a.2.2) = some (some
        (.renamed (.acceptedTcp 3000 10015 (some 1)) (.acceptedTcp 3000 10015 none))) ∧
      w.reg.ReportsLive (w.reg.allocateAcceptedTcpId 3000 10015) := by
  have hrun : ∃ w ∈ World.initial.play (fun _ _ ↦ true) [.command (.openTcpServer 3000),
      tcpHandoff 3000 10015 7, .command (.label "3000.10015" "cam")],
      .acceptedTcp 3000 10015 none ∈ w.reg.streams ∧
        (w.reg.allocateAcceptedTcpId 3000 10015).map (fun a ↦ a.2.2) = some (some
          (.renamed (.acceptedTcp 3000 10015 (some 1)) (.acceptedTcp 3000 10015 none))) := by
    decide +kernel
  obtain ⟨w, hw, hl, hev⟩ := hrun
  exact ⟨w, hw, hev, ((rename_reports_live_iff (reachable_play hw)).1 3000 10015).mpr
    fun ho ↦ ho.1 hl⟩

/-- The first connection of a base is closed before the second arrives: a
rename of it is reported all the same. -/
theorem rename_reported_after_close :
    ∃ w, World.initial.play (fun _ _ ↦ true) [.command (.openTcpServer 3000),
        tcpHandoff 3000 10015 7, .command (.close "3000.10015")] = some w ∧
      .acceptedTcp 3000 10015 none ∉ w.reg.streams ∧
      (w.reg.allocateAcceptedTcpId 3000 10015).map (fun a ↦ a.2.2) = some (some
        (.renamed (.acceptedTcp 3000 10015 (some 1)) (.acceptedTcp 3000 10015 none))) ∧
      ¬w.reg.ReportsLive (w.reg.allocateAcceptedTcpId 3000 10015) := by
  have hrun : ∃ w ∈ World.initial.play (fun _ _ ↦ true) [.command (.openTcpServer 3000),
      tcpHandoff 3000 10015 7, .command (.close "3000.10015")],
      .acceptedTcp 3000 10015 none ∉ w.reg.streams ∧
        (w.reg.allocateAcceptedTcpId 3000 10015).map (fun a ↦ a.2.2) = some (some
          (.renamed (.acceptedTcp 3000 10015 (some 1)) (.acceptedTcp 3000 10015 none))) := by
    decide +kernel
  obtain ⟨w, hw, hl, hev⟩ := hrun
  refine ⟨w, hw, hl, hev, fun hr ↦ ?_⟩
  obtain ⟨⟨reg', id, ev⟩, ha, he⟩ := Option.map_eq_some_iff.mp hev
  cases he
  obtain ⟨h, hs, -⟩ := hr _ _ _ _ ha
  exact hl (mem_of_lookup hs)

end WireDock
