import WireDock.Registry.Clients

namespace WireDock

open FiniteMap LabelledSystem

namespace Registry

def opened (reg : Registry) (cmd : Command) : Option ConnectionId :=
  ((opensServer cmd).map Prod.fst).or ((reg.opensClient cmd).map Prod.fst)

/-- One entry is new, under an id that was free and that no label names, and
every other entry and the label map are as before. -/
structure AddsOneEntry (reg reg' : Registry) (id : ConnectionId) : Prop where
  free : id ∉ reg.servers ∧ id ∉ reg.streams
  entry : (∃ srv, reg'.servers = reg.servers.insert id srv ∧ reg'.streams = reg.streams ∧
      srv.state.id = id ∧ srv.state.label = none) ∨
    ∃ h, reg'.streams = reg.streams.insert id h ∧ reg'.servers = reg.servers ∧
      h.state.id = id ∧ h.state.label = none
  labels : reg'.labels = reg.labels
  unnamed : ∀ name, reg.labels.lookup name ≠ some id

variable {env : Environment} {reg reg' : Registry} {id : ConnectionId} {cmd : Command}

/-- A successful open of a server or a client, and the registry it leads to. -/
inductive OpenedBy (env : Environment) (reg : Registry) (id : ConnectionId) : Registry → Prop
  | server (path : Option PathBuf) (hid : id ∉ reg.servers) (hserver : id.isServer = true) :
      OpenedBy env reg id
        { reg with servers := reg.servers.insert id (.opened id env.spawn path) }
  | client (stream : BoxedStream) (peer : PeerInfo) (seq : UInt32)
      (hfree : id ∉ reg.streams ∨ id = .ipcClient reg.nextIpcClientSeq)
      (hserver : id.isServer = false) :
      OpenedBy env reg id ({ reg with nextIpcClientSeq := seq }.insertStream
        (.spawned id stream (some peer) none env.spawn))

theorem openServer_success {endpoint : ServerEndpoint} {path : Option PathBuf}
    (hid : id ∉ reg.servers) (hserver : id.isServer = true)
    (hok : (reg.openServer env id endpoint path).outcome.success = true) :
    reg.OpenedBy env id (reg.openServer env id endpoint path).reg := by
  unfold openServer at hok ⊢
  cases hb : env.bind endpoint with
  | ok listener => exact .server path hid hserver
  | error e =>
    rw [hb] at hok
    cases hok

theorem openedBy_of_success (hid : reg.opened cmd = some id)
    (hok : (reg.handleCommand env cmd).outcome.success = true) :
    reg.OpenedBy env id (reg.handleCommand env cmd).reg := by
  cases cmd with
  | openTcpServer port =>
    cases hid
    simp only [handleCommand] at hok ⊢
    split_ifs at hok ⊢ with hused
    · cases hok
    · exact openServer_success (not_or.mp hused).1 rfl hok
  | openIpcServer path =>
    cases hid
    simp only [handleCommand] at hok ⊢
    split_ifs at hok ⊢ with hused
    · cases hok
    · exact openServer_success (not_server_of_keyOf hused) rfl hok
  | openTcpClient localPort remoteHost remotePort =>
    cases hid
    simp only [handleCommand] at hok ⊢
    split_ifs at hok ⊢ with hused
    · cases hok
    · cases hc : env.connect (.tcp localPort remoteHost remotePort) with
      | ok stream => exact .client stream _ _ (.inl (not_or.mp hused).1) rfl
      | error e =>
        simp only [hc] at hok
        cases hok
  | openIpcClient remotePath =>
    cases hid
    simp only [handleCommand] at hok ⊢
    cases hc : env.connect (.ipc remotePath) with
    | ok stream => exact .client stream _ _ (.inr rfl) rfl
    | error e =>
      simp only [hc] at hok
      cases hok
  | _ => cases hid

theorem OpenedBy.adds (h : reg.OpenedBy env id reg') (hw : WellFormed reg)
    (hclient : id ∉ reg.streams ∨ id = .ipcClient reg.nextIpcClientSeq → id ∉ reg.streams)
    (hlabels : ∀ name, reg.labels.lookup name = some id → reg.currentLabel id = some name) :
    reg.AddsOneEntry reg' id := by
  have hfree : id ∉ reg.servers ∧ id ∉ reg.streams := by
    cases h with
    | server _ hid hserver =>
      refine ⟨hid, fun hs ↦ ?_⟩
      cases hserver.symm.trans (hw.not_isServer_of_mem hs)
    | client _ _ _ hfree hserver =>
      refine ⟨fun hv ↦ ?_, hclient hfree⟩
      cases hserver.symm.trans (hw.isServer_of_mem hv)
  refine ⟨hfree, ?_, by cases h <;> rfl, fun name hn ↦ ?_⟩
  · cases h with
    | server path => exact .inl ⟨_, rfl, rfl, rfl, rfl⟩
    | client stream peer seq => exact .inr ⟨_, rfl, rfl, rfl, rfl⟩
  · -- a name would be the label of an entry that is not there
    rcases mem_of_currentLabel (hlabels name hn) with ⟨s, hs, -⟩ | ⟨srv, hsrv, -⟩
    · exact hfree.2 (mem_of_lookup hs)
    · exact hfree.1 (mem_of_lookup hsrv)

end Registry

section Labels

variable {ok : World → Environment × RegistryInput → Prop} {w : World}

/-- A change keeps what the labels say of the ids that were not accepted. -/
theorem LabelledOn.change {env : Environment} {input : RegistryInput} {effects : List Effect}
    {reg' : Registry} (h : LabelledOn (fun id ↦ id.base? = none) w.reg)
    (hw : ReachableBy registrySystem ok w) (hwf : WellFormed w.reg)
    (hlt : ipcOpens w.log < 2 ^ 32 - 1) (hc : Registry.Change env w.reg input effects reg') :
    LabelledOn (fun id ↦ id.base? = none) reg' := by
  have ht := tracked_of_reachable hw
  cases hc with
  | silent => exact h
  | bindRefused => exact h
  | serverOpened ho hid =>
    exact h.openServer (Registry.not_server_of_keyOf hid) (Registry.opensServer_not_live hwf ho) _ _
  | connectRefused => exact h
  | @clientOpened cmd id endpoint peer seq stream text ho hfree =>
    have hserver : id.isServer = false := by cases cmd <;> cases ho <;> rfl
    have hlabel := Registry.currentLabel_of_not_live hwf hserver
      ((clientsAccounted_of_reachable hw hlt).client_free hfree)
    have hseq : LabelledOn (fun id ↦ id.base? = none) { w.reg with nextIpcClientSeq := seq } := h
    exact hseq.insertStream hlabel
  | labelled _ happly => exact h.replaceLabel happly
  | streamDropped => exact h.dropStream _
  | serverDropped => exact h.dropServer hwf _ _
  | @accepted parent tentative peerInfo stream b reg₁ id ev hb ha =>
    have hlabels : reg₁.labels = w.reg.labels := by cases ha <;> first | rfl | assumption
    refine h.of_labels hlabels fun k name hk hcur ↦ ?_
    have hne : ∀ d, k ≠ b.accepted d := by
      rintro d rfl
      cases (b.base?_accepted d).symm.trans hk
    obtain ⟨d, rfl⟩ := ha.id_eq
    have hkept := (ha.currentLabel ht (hne none) fun _ ↦ hne _).trans hcur
    exact (Registry.currentLabel_insertStream (hne d)).trans hkept

theorem labelledOn_opened (hw : ReachableBy registrySystem ok w)
    (hlt : ipcOpens w.log < 2 ^ 32 - 1) : LabelledOn (fun id ↦ id.base? = none) w.reg := by
  have hinv : ipcOpens w.log < 2 ^ 32 - 1 → LabelledOn (fun id ↦ id.base? = none) w.reg := by
    refine consistent_invariant
      (P := fun reg log ↦ ipcOpens log < 2 ^ 32 - 1 → LabelledOn (fun id ↦ id.base? = none) reg)
      (fun _ _ _ _ h ↦ by cases h) ?_
      (fun order _ _ id hwf _ h hlt ↦ (h (ipcOpens_lt_of_append hlt)).dropServer hwf order id)
      (fun _ _ id _ _ h hlt ↦ (h (ipcOpens_lt_of_append hlt)).dropStream id) hw
    intro w env input effects reg' hr hwf _ h _ hc hlt
    have hbefore := ipcOpens_lt_of_append hlt
    exact (h hbefore).change hr hwf hbefore hc
  exact hinv hlt

end Labels

end WireDock
