import WireDock.Registry.World

namespace WireDock

open FiniteMap LabelledSystem

/-- All that a failed command may have done: taken a sequence number. -/
structure KeepsEntries (cmd : Command) (reg reg' : Registry) : Prop where
  servers : reg'.servers = reg.servers
  streams : reg'.streams = reg.streams
  labels : reg'.labels = reg.labels
  typed : reg'.typed = reg.typed
  seq : reg'.nextIpcClientSeq = reg.nextIpcClientSeq ∨ ∃ remotePath,
    cmd = .openIpcClient remotePath ∧
      reg'.nextIpcClientSeq = reg.allocIpcClientSeq.2.nextIpcClientSeq

theorem KeepsEntries.refl (cmd : Command) (reg : Registry) : KeepsEntries cmd reg reg :=
  ⟨rfl, rfl, rfl, rfl, .inl rfl⟩

namespace Registry

variable {env : Environment} {reg : Registry}

theorem openServer_failed {id : ConnectionId} {endpoint : ServerEndpoint} {path : Option PathBuf}
    (h : (reg.openServer env id endpoint path).outcome.success = false) :
    (reg.openServer env id endpoint path).reg = reg := by
  unfold openServer at h ⊢
  cases hb : env.bind endpoint with
  | ok listener =>
    rw [hb] at h
    cases h
  | error e => rfl

/-- A label is refused before anything of the old one is given up, or because
there is nothing that could have had one. -/
theorem cmdLabel_failed {id typed : ConnectionId} {name : String}
    (h : (reg.cmdLabel id typed name).2.success = false) :
    (reg.cmdLabel id typed name).1 = reg := by
  unfold cmdLabel at h ⊢
  cases ha : (reg.applyLabel id typed name).2 with
  | ok u =>
    simp only [ha] at h
    cases h
  | error e =>
    simp only [ha]
    exact applyLabel_error ha

end Registry

/-- A command that fails leaves every entry of the registry as it was, in any
state and for any answers of the connector, the listener and the writes. -/
theorem failed_command_keeps_entries {env : Environment} {reg : Registry} {cmd : Command}
    (h : (reg.handleCommand env cmd).outcome.success = false) :
    KeepsEntries cmd reg (reg.handleCommand env cmd).reg := by
  have hsame : (reg.handleCommand env cmd).reg = reg →
      KeepsEntries cmd reg (reg.handleCommand env cmd).reg := fun he ↦ by
    rw [he]
    exact .refl cmd reg
  cases cmd with
  | openTcpServer port =>
    refine hsame ?_
    simp only [Registry.handleCommand] at h ⊢
    split_ifs at h ⊢
    · rfl
    · exact Registry.openServer_failed h
  | openIpcServer path =>
    refine hsame ?_
    simp only [Registry.handleCommand] at h ⊢
    split_ifs at h ⊢
    · rfl
    · exact Registry.openServer_failed h
  | openTcpClient localPort remoteHost remotePort =>
    refine hsame ?_
    simp only [Registry.handleCommand] at h ⊢
    split_ifs at h ⊢
    · rfl
    · cases hc : env.connect (.tcp localPort remoteHost remotePort) with
      | ok stream =>
        simp only [hc] at h
        cases h
      | error e => rfl
  | openIpcClient remotePath =>
    simp only [Registry.handleCommand] at h ⊢
    cases hc : env.connect (.ipc remotePath) with
    | ok stream =>
      simp only [hc] at h
      cases h
    | error e => exact ⟨rfl, rfl, rfl, rfl, .inr ⟨remotePath, rfl, rfl⟩⟩
  | close idToken =>
    refine hsame ?_
    simp only [Registry.handleCommand] at h ⊢
    cases hr : reg.resolveId idToken defaultTokenParser with
    | error e => rfl
    | ok id =>
      -- both kinds of close report success
      simp only [hr] at h ⊢
      split_ifs at h ⊢
      · cases h
      · cases h
      · rfl
  | send idToken bytes =>
    refine hsame ?_
    simp only [Registry.handleCommand]
    cases reg.resolveId idToken defaultTokenParser with
    | error e => rfl
    | ok id =>
      simp only
      cases (reg.sendBytes env (reg.entryOf idToken id) bytes).1 <;> rfl
  | label idToken name =>
    refine hsame ?_
    simp only [Registry.handleCommand] at h ⊢
    cases hr : reg.resolveId idToken defaultTokenParser with
    | error e => rfl
    | ok id =>
      simp only [hr] at h
      exact Registry.cmdLabel_failed h
  | status => exact hsame rfl

theorem failed_label_keeps_entries :
    ∃ w, World.initial.play (fun _ _ ↦ true) [.command (.openTcpServer 3000),
        .command (.label "3000" "hub"), tcpHandoff 3000 10015 7,
        .command (.label "3000.10015" "cam")] = some w ∧
      w.reg.labels.keys = {"hub", "cam"} ∧
      KeepsEntries (.label "cam" "hub") w.reg
        (w.reg.handleCommand (.granting 9) (.label "cam" "hub")).reg := by
  have hrun : ∃ w ∈ World.initial.play (fun _ _ ↦ true) [.command (.openTcpServer 3000),
      .command (.label "3000" "hub"), tcpHandoff 3000 10015 7,
      .command (.label "3000.10015" "cam")],
      w.reg.labels.keys = {"hub", "cam"} ∧
        (w.reg.handleCommand (.granting 9) (.label "cam" "hub")).outcome.success = false := by
    decide +kernel
  obtain ⟨w, hw, hl, hf⟩ := hrun
  exact ⟨w, hw, hl, failed_command_keeps_entries hf⟩

end WireDock
