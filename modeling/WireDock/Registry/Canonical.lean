import WireDock.Registry.Spelling

namespace WireDock

open FiniteMap

theorem defaultTokenParser_of_tcpClient {token : String} {port : UInt16}
    (h : .tcpClient port ∈ defaultTokenParser token) :
    defaultTokenParser token = [.tcpServer port, .tcpClient port] := by
  unfold defaultTokenParser at h ⊢
  split at h
  · cases List.mem_singleton.mp h
  · split at h
    · rcases List.mem_cons.mp h with he | h
      · cases he
      · cases List.mem_singleton.mp h
        rfl
    · split at h
      · rename_i _ hs
        obtain ⟨_, _, _, rfl⟩ := parseSuffixed_eq_some hs
        cases List.mem_singleton.mp h
      · rcases List.mem_append.mp h with h | h
        · rcases mem_parseDotted h with ⟨_, _, he⟩ | ⟨_, _, he, _⟩ <;> cases he
        · split_ifs at h
          · cases List.mem_singleton.mp h
          · cases h

/-- A candidate that is chosen for a token, by whatever test, is chosen for
the id printed for it. -/
theorem find?_defaultTokenParser_display {p : ConnectionId → Bool} {token : String}
    {id : ConnectionId} (h : (defaultTokenParser token).find? p = some id) :
    (defaultTokenParser id.display).find? p = some id := by
  have hp : p id = true := List.find?_some h
  have hmem := List.mem_of_find?_eq_some h
  obtain ⟨hserver, haccepted⟩ := path_of_mem_defaultTokenParser hmem
  cases id with
  | tcpServer port =>
    rw [ConnectionId.display_tcpServer, defaultTokenParser_port]
    exact List.find?_cons_of_pos hp
  | tcpClient port =>
    -- the server of the port was passed over
    rw [ConnectionId.display_tcpClient, defaultTokenParser_port,
      ← defaultTokenParser_of_tcpClient hmem]
    exact h
  | ipcClient seq =>
    rw [defaultTokenParser_ipcClient]
    exact List.find?_cons_of_pos hp
  | ipcServer path =>
    -- a path is read as it is typed
    obtain ⟨rfl, -⟩ := hserver path rfl
    exact h
  | acceptedTcp parentPort remotePort d =>
    rw [defaultTokenParser_acceptedTcp]
    exact List.find?_cons_of_pos hp
  | acceptedIpc parentPath pid d =>
    obtain ⟨hpath, rfl⟩ := haccepted parentPath pid d rfl
    rw [defaultTokenParser_acceptedIpc pid hpath]
    exact List.find?_cons_of_pos hp

theorem Registry.resolveId_of_no_label {reg : Registry} {token : String} {id : ConnectionId}
    (h : reg.labels.lookup token = none) : reg.resolveId token defaultTokenParser = .ok id ↔
      (defaultTokenParser token).find? (fun id ↦
        decide (reg.keyOf id ∈ reg.streams ∨ reg.keyOf id ∈ reg.servers)) = some id := by
  simp only [resolveId, h]
  cases (defaultTokenParser token).find? fun id ↦
    decide (reg.keyOf id ∈ reg.streams ∨ reg.keyOf id ∈ reg.servers) <;> simp

/-- In every registry, an id found for a token is found again for its own spelling. -/
theorem resolution_canonical (reg : Registry) {token : String} {id : ConnectionId}
    (htoken : token ∉ reg.labels) (hr : reg.resolveId token defaultTokenParser = .ok id)
    (hid : id.display ∉ reg.labels) : reg.resolveId id.display defaultTokenParser = .ok id := by
  rw [Registry.resolveId_of_no_label (not_mem_iff_lookup.mp htoken)] at hr
  rw [Registry.resolveId_of_no_label (not_mem_iff_lookup.mp hid)]
  exact find?_defaultTokenParser_display hr

theorem resolution_canonical_of_spelling :
    ∃ w, World.initial.play (fun _ _ ↦ true) [.command (.openIpcServer "/tmp/a.5"),
        .command (.openIpcServer "/tmp/a"), ipcHandoff "/tmp/a" 5 7] = some w ∧
      w.reg.resolveId "/tmp/a.+005" defaultTokenParser = .ok (.acceptedIpc "/tmp/a" 5 none) ∧
      w.reg.resolveId "/tmp/a.5" defaultTokenParser = .ok (.acceptedIpc "/tmp/a" 5 none) := by
  have hrun : ∃ w ∈ World.initial.play (fun _ _ ↦ true) [.command (.openIpcServer "/tmp/a.5"),
      .command (.openIpcServer "/tmp/a"), ipcHandoff "/tmp/a" 5 7],
      "/tmp/a.+005" ∉ w.reg.labels ∧ "/tmp/a.5" ∉ w.reg.labels ∧
        w.reg.resolveId "/tmp/a.+005" defaultTokenParser =
          .ok (.acceptedIpc "/tmp/a" 5 none) := by decide +kernel
  obtain ⟨w, hw, htoken, hid, hr⟩ := hrun
  exact ⟨w, hw, hr, resolution_canonical w.reg htoken hr hid⟩

end WireDock
