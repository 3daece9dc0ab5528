import WireDock.Registry.Holders

namespace WireDock

open FiniteMap LabelledSystem

namespace Registry

variable {reg : Registry} {id typed : ConnectionId} {token name : String}

theorem applyLabel_of_success {env : Environment} {idToken : String}
    (hid : reg.target idToken = .ok id)
    (hok : (reg.handleCommand env (.label idToken name)).outcome.success = true) :
    ∃ typed, (reg.applyLabel id typed name).2 = .ok () ∧
      (reg.handleCommand env (.label idToken name)).reg = (reg.replaceLabel id typed name).1 := by
  cases hr : reg.resolveId idToken defaultTokenParser with
  | error e =>
    rw [target, hr] at hid
    cases hid
  | ok typed =>
    rw [target_of_resolved hr] at hid
    have hentry : reg.entryOf idToken typed = id := Except.ok.inj hid
    refine ⟨typed, ?_⟩
    simp only [handleCommand, hr, hentry, cmdLabel] at hok ⊢
    cases h : (reg.applyLabel id typed name).2 with
    | ok u => exact ⟨rfl, congrArg Prod.fst (applyLabel_ok h).2⟩
    | error e =>
      simp only [h] at hok
      cases hok

/-- A label is of no matter to a token that is neither the new name nor the
old one. -/
theorem resolveId_replaceLabel (h : (reg.replaceLabel id typed name).2 = .ok ())
    (hnew : token ≠ name) (hold : reg.currentLabel id ≠ some token)
    (parser : String → List ConnectionId) :
    (reg.replaceLabel id typed name).1.resolveId token parser = reg.resolveId token parser := by
  simp only [resolveId, lookup_labels_replaceLabel h, lookup_typed_replaceLabel h, if_neg hnew,
    if_neg hold, keyOf_replaceLabel, mem_streams_replaceLabel, mem_servers_replaceLabel]

theorem target_replaceLabel (h : (reg.replaceLabel id typed name).2 = .ok ())
    (hnew : token ≠ name) (hold : reg.currentLabel id ≠ some token) :
    (reg.replaceLabel id typed name).1.target token = reg.target token := by
  have hentry : (reg.replaceLabel id typed name).1.entryOf token = reg.entryOf token := by
    funext k
    simp only [entryOf, lookup_labels_replaceLabel h, if_neg hnew, if_neg hold, keyOf_replaceLabel]
  rw [target, target, resolveId_replaceLabel h hnew hold, hentry]

end Registry

/-- The old label of a connection stands for no other registered connection. -/
theorem LabelsTracked.old_label {reg : Registry} (h : LabelsTracked reg) (hw : WellFormed reg)
    (ht : Tracked reg) (ha : reg.ServersApart) {id id' : ConnectionId} {token : String}
    (hid : id ∈ reg.streams ∨ id ∈ reg.servers) (hid' : id' ∈ reg.streams ∨ id' ∈ reg.servers)
    (hcur : reg.currentLabel id = some token) (hr : reg.target token = .ok id') : id' = id := by
  have hstream : ∀ (b : Base) d, b.accepted d ∈ reg.streams ∨ b.accepted d ∈ reg.servers →
      b.accepted d ∈ reg.streams := by
    refine fun b d hlive ↦ hlive.resolve_right fun hv ↦ ?_
    cases (b.isServer_accepted d).symm.trans (hw.isServer_of_mem hv)
  obtain ⟨k, hk, hcase⟩ := h id token hcur
  have hkey : reg.keyOf k = id' := Except.ok.inj ((Registry.target_of_label hk).symm.trans hr)
  have hlive : reg.keyOf k ∈ reg.registered := hkey ▸ Registry.mem_registered.mpr hid'
  cases (h.keyOf_eq hw ha hcur hk hlive).symm.trans hkey
  rcases hcase with rfl | ⟨b, rfl, rfl⟩
  · rfl
  · -- the unsuffixed id of the base and the renamed one are not both live
    exact (ht.apart hw (hstream b none hid') (hstream b _ hid)).elim

/-- In every state reached, a label command takes no token but the new name
from another registered connection: the token finds the same entry, and resolves
to the same id. -/
theorem label_takes_its_name_only {w : World} (hw : Reachable registrySystem w)
    (env : Environment) {idToken name token : String} {id id' : ConnectionId}
    (hid : w.reg.target idToken = .ok id)
    (hok : (w.reg.handleCommand env (.label idToken name)).outcome.success = true)
    (hne : id' ≠ id) (hlive : id' ∈ w.reg.streams ∨ id' ∈ w.reg.servers)
    (hr : w.reg.target token = .ok id') (htoken : token ≠ name) :
    (w.reg.handleCommand env (.label idToken name)).reg.target token = .ok id' ∧
      (w.reg.handleCommand env (.label idToken name)).reg.resolveId token defaultTokenParser =
        w.reg.resolveId token defaultTokenParser := by
  obtain ⟨typed, happly, hreg⟩ := Registry.applyLabel_of_success hid hok
  have hreplace : (w.reg.replaceLabel id typed name).2 = .ok () :=
    (Registry.applyLabel_ok happly).2 ▸ happly
  have hold : w.reg.currentLabel id ≠ some token := fun hcur ↦
    hne ((labelsTracked_of_reachable hw).old_label (wellFormed_of_reachable hw)
      (tracked_of_reachable hw) (serversApart_of_reachable hw)
      (Registry.replaceLabel_ok hreplace) hlive hcur hr)
  rw [hreg, Registry.target_replaceLabel hreplace htoken hold, hr]
  exact ⟨rfl, Registry.resolveId_replaceLabel hreplace htoken hold _⟩

/-- A name that spells the id of another connection takes the id's place. -/
theorem label_takes_the_id_it_spells :
    ∃ w env, World.initial.play (fun _ _ ↦ true) [.command (.openTcpClient 10016 "127.0.0.1" 80),
        .command (.openTcpServer 3000)] = some w ∧
      .tcpClient 10016 ∈ w.reg.streams ∧
      w.reg.resolveId "3000" defaultTokenParser = .ok (.tcpServer 3000) ∧
      w.reg.resolveId "10016" defaultTokenParser = .ok (.tcpClient 10016) ∧
      (w.reg.handleCommand env (.label "3000" "10016")).outcome.success = true ∧
      (w.reg.handleCommand env (.label "3000" "10016")).reg.resolveId "10016" defaultTokenParser =
        .ok (.tcpServer 3000) := by
  have hrun : ∃ w ∈ World.initial.play (fun _ _ ↦ true)
      [.command (.openTcpClient 10016 "127.0.0.1" 80), .command (.openTcpServer 3000)],
      .tcpClient 10016 ∈ w.reg.streams ∧
        w.reg.resolveId "3000" defaultTokenParser = .ok (.tcpServer 3000) ∧
        w.reg.resolveId "10016" defaultTokenParser = .ok (.tcpClient 10016) ∧
        (w.reg.handleCommand (.granting 2) (.label "3000" "10016")).outcome.success = true ∧
        (w.reg.handleCommand (.granting 2) (.label "3000" "10016")).reg.resolveId "10016"
          defaultTokenParser = .ok (.tcpServer 3000) := by decide +kernel
  obtain ⟨w, hw, hc⟩ := hrun
  exact ⟨w, .granting 2, hw, hc⟩

theorem label_keeps_another_label :
    ∃ w env, World.initial.play (fun _ _ ↦ true) [.command (.openTcpClient 10016 "127.0.0.1" 80),
        .command (.openTcpServer 3000), .command (.label "10016" "cam"),
        .command (.label "3000" "hub")] = some w ∧
      (w.reg.handleCommand env (.label "hub" "10016")).reg.target "cam" = .ok (.tcpClient 10016) ∧
      (w.reg.handleCommand env (.label "hub" "10016")).reg.resolveId "cam" defaultTokenParser =
        w.reg.resolveId "cam" defaultTokenParser := by
  have hrun : ∃ w ∈ World.initial.play (fun _ _ ↦ true)
      [.command (.openTcpClient 10016 "127.0.0.1" 80), .command (.openTcpServer 3000),
        .command (.label "10016" "cam"), .command (.label "3000" "hub")],
      .tcpClient 10016 ∈ w.reg.streams ∧
        w.reg.target "hub" = .ok (.tcpServer 3000) ∧
        w.reg.target "cam" = .ok (.tcpClient 10016) ∧
        (w.reg.handleCommand (.granting 4) (.label "hub" "10016")).outcome.success = true := by
    decide +kernel
  obtain ⟨w, hw, hlive, hid, hr, hok⟩ := hrun
  exact ⟨w, .granting 4, hw, label_takes_its_name_only (reachable_play hw) (.granting 4) hid hok
    (by decide) (.inl hlive) hr (by decide)⟩

end WireDock
