import WireDock.Registry.Displacement

namespace WireDock

open FiniteMap LabelledSystem

/-- Suffixes count from one, and counters are seeded past the first two. -/
theorem counterLaw_pos : CounterLaw (fun k n ↦ n.toNat ≤ k + 1 ∧ 2 ≤ n.toNat)
    fun m _ ↦ 1 ≤ m.toNat := by
  refine ⟨fun k ↦ ⟨Nat.le_add_left 2 k, le_rfl⟩, ⟨le_rfl, by decide⟩,
    fun k n h ↦ ⟨by omega, h.2⟩, ?_⟩
  intro k n hk hn
  have hsucc : (n + 1).toNat = n.toNat + 1 := toNat_succ_u32 (by omega)
  exact ⟨by omega, by omega, fun m hm ↦ hm⟩

/-- The two maps of a server and its live connections agree on one base. -/
structure SuffixDiscipline (reg : Registry) (b : Base) (srv : ServerHandle) : Prop where
  exclusive : ¬(b.key ∈ srv.baseNoSuffix ∧ b.key ∈ srv.disambigNext)
  unused : b.key ∉ srv.baseNoSuffix → b.key ∉ srv.disambigNext →
    ∀ d, b.accepted d ∉ reg.streams
  unsuffixed : ∀ old, srv.baseNoSuffix.lookup b.key = some old →
    old = b.accepted none ∧ ∀ d, b.accepted d ∈ reg.streams → d = none
  numbered : ∀ n, srv.disambigNext.lookup b.key = some n →
    ∀ d, b.accepted d ∈ reg.streams → ∃ m, d = some m ∧ 1 ≤ m ∧ m ≤ n
  apart : b.accepted none ∈ reg.streams → ∀ m, b.accepted (some m) ∉ reg.streams

namespace Tracked

variable {reg : Registry} {b : Base} {srv : ServerHandle}

theorem key_mem_base (ht : Tracked reg) (hsrv : reg.servers.lookup b.server = some srv)
    (hl : b.accepted none ∈ reg.streams) : b.key ∈ srv.baseNoSuffix :=
  ht.live_unsuffixed b _ _ (reg.bookkeeping_of_lookup hsrv) hl

theorem key_mem_next (ht : Tracked reg) (hsrv : reg.servers.lookup b.server = some srv)
    {m : UInt32} (hl : b.accepted (some m) ∈ reg.streams) : b.key ∈ srv.disambigNext :=
  ht.live_suffixed b _ _ m (reg.bookkeeping_of_lookup hsrv) hl

theorem key_not_mem_next (ht : Tracked reg) (hsrv : reg.servers.lookup b.server = some srv)
    (hbase : b.key ∈ srv.baseNoSuffix) : b.key ∉ srv.disambigNext :=
  ht.exclusive _ _ _ _ (reg.bookkeeping_of_lookup hsrv) hbase

/-- The unsuffixed connection of a base and a suffixed one are never both live. -/
theorem apart (ht : Tracked reg) (hw : WellFormed reg) {m : UInt32}
    (hnone : b.accepted none ∈ reg.streams) : b.accepted (some m) ∉ reg.streams := by
  intro hsome
  obtain ⟨srv, hsrv⟩ := mem_iff_lookup.mp
    (hw.parent_registered _ _ hnone (b.parent?_accepted none))
  exact ht.key_not_mem_next hsrv (ht.key_mem_base hsrv hnone) (ht.key_mem_next hsrv hsome)

end Tracked

/-- In every state reached the ids of each base on a registered server follow
the two maps of that server. -/
theorem suffix_discipline_of_reachable {w : World} (hw : Reachable registrySystem w) {b : Base}
    {srv : ServerHandle} (hsrv : w.reg.servers.lookup b.server = some srv)
    (hcount : acceptsOn b.server w.log < 2 ^ 32 - 2) : SuffixDiscipline w.reg b srv := by
  have ht := tracked_of_reachable hw
  have hbase : ∀ d, b.accepted d ∈ w.reg.streams → d = none ∨ b.key ∈ srv.disambigNext := by
    intro d hl
    cases d with
    | none => exact .inl rfl
    | some m => exact .inr (ht.key_mem_next hsrv hl)
  refine ⟨fun h ↦ ht.key_not_mem_next hsrv h.1 h.2, ?_, ?_, ?_, ?_⟩
  · intro hnobase hnonext d hl
    rcases hbase d hl with rfl | hnext
    · exact hnobase (ht.key_mem_base hsrv hl)
    · exact hnonext hnext
  · intro old hold
    exact ⟨ht.lookup_base hsrv hold, fun d hl ↦ (hbase d hl).resolve_right
      (ht.key_not_mem_next hsrv (mem_of_lookup hold))⟩
  · intro n hn d hl
    have hcounter := (Registry.counter_of_lookup hsrv).trans hn
    cases d with
    | none => exact (ht.key_not_mem_next hsrv (ht.key_mem_base hsrv hl) (mem_of_lookup hn)).elim
    | some m =>
      have hle := ((counted_of_reachable hw b n hcount hcounter).2 m hl).1
      have hpos := (counters_of_reachable counterLaw_pos hw b n hcount hcounter).2 m hl
      exact ⟨m, rfl, UInt32.le_iff_toNat_le.mpr hpos, UInt32.le_iff_toNat_le.mpr hle⟩
  · exact fun hl m ↦ ht.apart (wellFormed_of_reachable hw) hl

theorem suffix_discipline_after_reopen :
    ∃ w srv, World.initial.play (fun _ _ ↦ true) [.command (.openTcpServer 3000),
        tcpHandoff 3000 10015 7, .command (.close "3000.10015"), .command (.close "3000"),
        .command (.openTcpServer 3000), tcpHandoff 3000 10015 8] = some w ∧
      w.reg.servers.lookup (.tcpServer 3000) = some srv ∧
      w.reg.streams.keys = {.acceptedTcp 3000 10015 none} ∧
      SuffixDiscipline w.reg (.tcp 3000 10015) srv := by
  have hrun : ∃ w ∈ World.initial.play (fun _ _ ↦ true) [.command (.openTcpServer 3000),
      tcpHandoff 3000 10015 7, .command (.close "3000.10015"), .command (.close "3000"),
      .command (.openTcpServer 3000), tcpHandoff 3000 10015 8],
      .tcpServer 3000 ∈ w.reg.servers ∧
        w.reg.streams.keys = {.acceptedTcp 3000 10015 none} ∧
        acceptsOn (.tcpServer 3000) w.log = 1 := by decide +kernel
  obtain ⟨w, hw, hs, hstreams, hn⟩ := hrun
  obtain ⟨srv, hsrv⟩ := mem_iff_lookup.mp hs
  refine ⟨w, srv, hw, hsrv, hstreams, ?_⟩
  exact suffix_discipline_of_reachable (b := .tcp 3000 10015) (reachable_play hw) hsrv (by
    change acceptsOn (.tcpServer 3000) w.log < _
    omega)

end WireDock
