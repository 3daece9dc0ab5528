import WireDock.Registry.Displacement
import WireDock.Registry.Keys

namespace WireDock

open FiniteMap LabelledSystem

def Labelled (reg : Registry) : Prop :=
  ∀ name id, reg.labels.lookup name = some id → reg.currentLabel id = some name

namespace Registry

variable {reg reg' : Registry} {id k : ConnectionId}

theorem currentLabel_congr
    (hs : (reg'.streams.lookup k).map (·.state.label) = (reg.streams.lookup k).map (·.state.label))
    (hv : (reg'.servers.lookup k).map (·.state.label) =
      (reg.servers.lookup k).map (·.state.label)) :
    reg'.currentLabel k = reg.currentLabel k := by
  unfold currentLabel
  cases h : reg.streams.lookup k with
  | some s =>
    rw [h, Option.map_some] at hs
    obtain ⟨s', hs', he⟩ := Option.map_eq_some_iff.mp hs
    simp only [hs', he]
  | none =>
    rw [h, Option.map_none, Option.map_eq_none_iff] at hs
    cases h' : reg.servers.lookup k with
    | some v =>
      rw [h', Option.map_some] at hv
      obtain ⟨v', hv', he⟩ := Option.map_eq_some_iff.mp hv
      simp only [hs, hv', he]
    | none =>
      rw [h', Option.map_none, Option.map_eq_none_iff] at hv
      simp only [hs, hv]

theorem mem_of_currentLabel {name : String} (h : reg.currentLabel id = some name) :
    (∃ s, reg.streams.lookup id = some s ∧ s.state.label = some name) ∨
      ∃ srv, reg.servers.lookup id = some srv ∧ srv.state.label = some name := by
  unfold currentLabel at h
  split at h
  · rename_i s hs
    exact .inl ⟨s, hs, h⟩
  · split at h
    · rename_i srv hsrv
      exact .inr ⟨srv, hsrv, h⟩
    · cases h

theorem mem_registered_of_currentLabel {name : String} (h : reg.currentLabel id = some name) :
    id ∈ reg.registered :=
  mem_registered.mpr <| (mem_of_currentLabel h).imp (fun ⟨_, hs, _⟩ ↦ mem_of_lookup hs)
    fun ⟨_, hs, _⟩ ↦ mem_of_lookup hs

theorem currentLabel_of_not_live (hw : WellFormed reg) (hserver : id.isServer = false)
    (h : id ∉ reg.streams) : reg.currentLabel id = none := by
  unfold currentLabel
  rw [not_mem_iff_lookup.mp h]
  cases hs : reg.servers.lookup id with
  | none => rfl
  | some srv => cases hserver.symm.trans (hw.server_entry id srv hs).1

theorem currentLabel_dropStream (h : k ≠ id) :
    (reg.dropStream id).1.currentLabel k = reg.currentLabel k := by
  apply currentLabel_congr
  · rw [dropStream_streams, lookup_erase, if_neg h]
  · rw [lookup_servers_dropStream, Option.map_map]
    refine congrArg (fun f ↦ (reg.servers.lookup k).map f) (funext fun srv ↦ ?_)
    rw [Function.comp_apply]
    split_ifs <;> rfl

theorem currentLabel_dropServer {order : IterationOrder ConnectionId} {srv : ServerHandle}
    (hid : reg.servers.lookup id = some srv) (h : k ≠ id) (hc : k ∉ srv.children) :
    (reg.dropServer order id).1.currentLabel k = reg.currentLabel k := by
  apply currentLabel_congr
  · rw [lookup_streams_dropServer hid, if_neg hc]
  · rw [lookup_servers_dropServer hid, if_neg h, Option.map_map]
    rfl

theorem currentLabel_insertStream {s : StreamHandle} (h : k ≠ s.state.id) :
    (reg.insertStream s).currentLabel k = reg.currentLabel k := by
  apply currentLabel_congr
  · exact congrArg _ ((lookup_insert _ k s reg.streams).trans (if_neg h))
  · rw [lookup_servers_insertStream, Option.map_map]
    refine congrArg (fun f ↦ (reg.servers.lookup k).map f) (funext fun srv ↦ ?_)
    rw [Function.comp_apply]
    split_ifs <;> rfl

theorem currentLabel_setServer {srv srv' : ServerHandle} (hid : reg.servers.lookup id = some srv)
    (hs : srv'.state = srv.state) :
    ({ reg with servers := reg.servers.insert id srv' } : Registry).currentLabel k =
      reg.currentLabel k := by
  refine currentLabel_congr rfl ?_
  rw [lookup_insert]
  split_ifs with h
  · rw [h, hid, Option.map_some, Option.map_some, hs]
  · rfl

theorem currentLabel_replaceLabel {typed : ConnectionId} {name : String} (h : k ≠ id) :
    (reg.replaceLabel id typed name).1.currentLabel k = reg.currentLabel k := by
  apply currentLabel_congr
  · rw [lookup_streams_replaceLabel, Option.map_map]
    simp only [Function.comp_def, if_neg h]
  · rw [lookup_servers_replaceLabel, Option.map_map]
    simp only [Function.comp_def, h, false_and, if_false]

theorem currentLabel_replaceLabel_self {typed : ConnectionId} {name : String}
    (h : (reg.replaceLabel id typed name).2 = .ok ()) :
    (reg.replaceLabel id typed name).1.currentLabel id = some name := by
  unfold currentLabel
  rw [lookup_streams_replaceLabel, lookup_servers_replaceLabel]
  cases hs : reg.streams.lookup id with
  | some s => simp
  | none =>
    have hn : id ∉ reg.streams := not_mem_iff_lookup.mpr hs
    obtain ⟨srv, hsrv⟩ := mem_iff_lookup.mp ((replaceLabel_ok h).resolve_left hn)
    simp [hsrv, hn]

theorem label_kept_dropStream {name : String} (hcur : reg.currentLabel k = some name)
    (hl : reg.streamLabel id ≠ some name) : (reg.dropStream id).1.currentLabel k = some name := by
  by_cases he : k = id
  · subst he
    cases hs : reg.streams.lookup k with
    | none => rwa [show (reg.dropStream k).1 = reg by simp only [dropStream, hs]]
    | some s =>
      rw [currentLabel_eq, if_pos (mem_of_lookup hs)] at hcur
      exact (hl hcur).elim
  · rw [currentLabel_dropStream he, hcur]

theorem label_kept_dropServer {order : IterationOrder ConnectionId} {srv : ServerHandle}
    {name : String} (hw : WellFormed reg) (hid : reg.servers.lookup id = some srv)
    (hcur : reg.currentLabel k = some name)
    (hl : ¬(srv.state.label = some name ∨ ∃ c ∈ srv.children, reg.streamLabel c = some name)) :
    (reg.dropServer order id).1.currentLabel k = some name := by
  rw [not_or] at hl
  have hchild : k ∉ srv.children := by
    intro hc
    have hs := ((hw.children_iff id srv hid k).mp hc).1
    rw [currentLabel_eq, if_pos hs] at hcur
    exact hl.2 ⟨k, hc, hcur⟩
  have hne : k ≠ id := by
    rintro rfl
    have hs : k ∉ reg.streams := fun hs ↦ hw.stream_not_server hs (mem_of_lookup hid)
    rw [currentLabel_eq, if_neg hs, serverLabel, hid] at hcur
    exact hl.1 hcur
  rw [currentLabel_dropServer hid hne hchild, hcur]

theorem label_kept_openServer {task : JoinHandle} {path : Option PathBuf} {name : String}
    (hid : id ∉ reg.servers) (hs : id ∉ reg.streams) (hcur : reg.currentLabel k = some name) :
    ({ reg with servers := reg.servers.insert id (.opened id task path) } :
      Registry).currentLabel k = some name := by
  have hne : k ≠ id := by
    rintro rfl
    rw [currentLabel_eq, if_neg hs, serverLabel, not_mem_iff_lookup.mp hid] at hcur
    cases hcur
  rw [← hcur]
  exact currentLabel_congr rfl (by rw [lookup_insert, if_neg hne])

theorem opensServer_not_live {cmd : Command} {endpoint : ServerEndpoint} {path : Option PathBuf}
    (hw : WellFormed reg) (h : opensServer cmd = some (id, endpoint, path)) :
    id ∉ reg.streams := by
  intro hs
  have hserver : id.isServer = true := by
    unfold opensServer at h
    split at h <;> cases h <;> rfl
  cases hserver.symm.trans (hw.not_isServer_of_mem hs)

/-- An allocation moves a label only with the connection it renames. -/
theorem Allocated.currentLabel {b : Base} {ev : Option NetEvent} (ht : Tracked reg)
    (h : reg.Allocated b reg' id ev) (hnone : k ≠ b.accepted none)
    (hone : ev ≠ none → k ≠ b.accepted (some 1)) : reg'.currentLabel k = reg.currentLabel k := by
  cases h with
  | first hsrv | next hsrv => exact currentLabel_setServer hsrv rfl
  | @second srv old _ hsrv hold hstreams hservers =>
    cases ht.lookup_base hsrv hold
    apply currentLabel_congr
    · simp only [hstreams, lookup_streams_rename, if_neg hnone, if_neg (hone (by simp))]
      cases reg.streams.lookup (b.accepted none) <;> rfl
    · rw [hservers, lookup_servers_rename, Option.map_map, Option.map_map]
      refine congrArg (fun f ↦ (reg.servers.lookup k).map f) (funext fun srv ↦ ?_)
      simp only [Function.comp_apply]
      split_ifs <;> rfl

end Registry

def LabelledOn (p : ConnectionId → Prop) (reg : Registry) : Prop :=
  ∀ name id, p id → reg.labels.lookup name = some id → reg.currentLabel id = some name

namespace LabelledOn

variable {p : ConnectionId → Prop} {reg reg' : Registry}

theorem all_iff : LabelledOn (fun _ ↦ True) reg ↔ Labelled reg :=
  ⟨fun h name id ↦ h name id trivial, fun h name id _ ↦ h name id⟩

theorem of_labels (h : LabelledOn p reg) (hl : reg'.labels = reg.labels)
    (hc : ∀ k name, p k → reg.currentLabel k = some name → reg'.currentLabel k = some name) :
    LabelledOn p reg' := by
  intro name k hp hk
  rw [hl] at hk
  exact hc k name hp (h name k hp hk)

theorem dropStream (h : LabelledOn p reg) (id : ConnectionId) :
    LabelledOn p (reg.dropStream id).1 := by
  intro name k hp hk
  rw [Registry.lookup_labels_dropStream] at hk
  split_ifs at hk with hl
  exact Registry.label_kept_dropStream (h name k hp hk) hl

theorem dropServer (h : LabelledOn p reg) (hw : WellFormed reg)
    (order : IterationOrder ConnectionId) (id : ConnectionId) :
    LabelledOn p (reg.dropServer order id).1 := by
  cases hid : reg.servers.lookup id with
  | none => rwa [show (reg.dropServer order id).1 = reg by simp only [Registry.dropServer, hid]]
  | some srv =>
    intro name k hp hk
    rw [Registry.lookup_labels_dropServer hid] at hk
    split_ifs at hk with hl
    exact Registry.label_kept_dropServer hw hid (h name k hp hk) hl

theorem replaceLabel (h : LabelledOn p reg) {id typed : ConnectionId} {name : String}
    (hok : (reg.applyLabel id typed name).2 = .ok ()) :
    LabelledOn p (reg.replaceLabel id typed name).1 := by
  obtain ⟨hfree, he⟩ := Registry.applyLabel_ok hok
  rw [he] at hok
  intro n k hp hk
  rw [Registry.lookup_labels_replaceLabel hok] at hk
  split_ifs at hk with hn hc
  · cases hk
    rw [hn, Registry.currentLabel_replaceLabel_self hok]
  · have hcur := h n k hp hk
    have hne : k ≠ id := fun he ↦ hc (he ▸ hcur)
    rw [Registry.currentLabel_replaceLabel hne, hcur]

theorem insertStream (h : LabelledOn p reg) {s : StreamHandle}
    (hs : reg.currentLabel s.state.id = none) : LabelledOn p (reg.insertStream s) := by
  refine h.of_labels rfl fun k name _ hcur ↦ ?_
  have hne : k ≠ s.state.id := by
    rintro rfl
    cases hs.symm.trans hcur
  rw [Registry.currentLabel_insertStream hne, hcur]

theorem openServer (h : LabelledOn p reg) {id : ConnectionId} (hid : id ∉ reg.servers)
    (hs : id ∉ reg.streams) (task : JoinHandle) (path : Option PathBuf) :
    LabelledOn p { reg with servers := reg.servers.insert id (.opened id task path) } :=
  h.of_labels rfl fun _ _ _ hcur ↦ Registry.label_kept_openServer hid hs hcur

end LabelledOn

/-- The connections a step re-keys or replaces carry no label. -/
def KeepsLabels (w : World) (a : Environment × RegistryInput) : Prop :=
  (∀ b ∈ Registry.acceptedBase? a.2, w.reg.currentLabel (b.accepted none) = none ∧
    ∀ n ∈ w.reg.counter b, w.reg.currentLabel (b.accepted (some n)) = none) ∧
  ∀ path ∈ Registry.ipcConnect? a.2, (a.1.connect (.ipc path)).isOk = true →
    w.reg.currentLabel (.ipcClient w.reg.nextIpcClientSeq) = none

instance (w : World) (a : Environment × RegistryInput) : Decidable (KeepsLabels w a) :=
  -- not through the finitely many suffixes there are
  have _ (b : Base) : Decidable (∀ n ∈ w.reg.counter b,
      w.reg.currentLabel (b.accepted (some n)) = none) := Option.decidableForallMem _
  inferInstanceAs (Decidable (_ ∧ _))

theorem LabelledOn.accepted {p : ConnectionId → Prop} {reg reg' : Registry} {b : Base}
    {id : ConnectionId} {ev : Option NetEvent} {s : StreamHandle} (h : LabelledOn p reg)
    (hw : WellFormed reg) (ht : Tracked reg) (ha : reg.Allocated b reg' id ev)
    (hs : s.state.id = id) (hnone : reg.currentLabel (b.accepted none) = none)
    (hnext : ∀ n, reg.counter b = some n → reg.currentLabel (b.accepted (some n)) = none) :
    LabelledOn p (reg'.insertStream s) := by
  have hlabels : reg'.labels = reg.labels := by cases ha <;> first | rfl | assumption
  have hdead : reg.counter b = none → ∀ m, reg.currentLabel (b.accepted (some m)) = none := by
    refine fun hc m ↦ Registry.currentLabel_of_not_live hw (b.isServer_accepted _) fun hl ↦ ?_
    obtain ⟨n, hn⟩ := ht.counter_of_live (hw.parent_registered _ _ hl (b.parent?_accepted _)) hl
    cases hc.symm.trans hn
  have hone : ev ≠ none → reg.currentLabel (b.accepted (some 1)) = none :=
    fun hev ↦ hdead (ha.counter_of_renamed ht hev) 1
  have hid : reg.currentLabel id = none := by
    rcases (ha.counters ht).2 with ⟨rfl, -, -⟩ | ⟨rfl, hc, -⟩ | ⟨n, rfl, hc, -⟩
    · exact hnone
    · exact hdead hc 2
    · exact hnext n hc
  refine h.of_labels hlabels fun k name _ hcur ↦ ?_
  have hne : ∀ {k'}, reg.currentLabel k' = none → k ≠ k' := by
    rintro k' hk' rfl
    cases hk'.symm.trans hcur
  rw [Registry.currentLabel_insertStream (hs ▸ hne hid),
    ha.currentLabel ht (hne hnone) fun hev ↦ hne (hone hev), hcur]

theorem labelled_of_reachable {w : World} (hw : ReachableBy registrySystem KeepsLabels w) :
    Labelled w.reg := by
  have hinv : LabelledOn (fun _ ↦ True) w.reg := by
    refine consistent_invariant (P := fun reg _ ↦ LabelledOn (fun _ ↦ True) reg)
      (fun _ _ _ h ↦ by cases h) ?_ (fun order _ _ id hwf _ h ↦ h.dropServer hwf order id)
      (fun _ _ id _ _ h ↦ h.dropStream id) hw
    intro w env input effects reg' _ hwf ht h hok hc
    cases hc with
    | silent => exact h
    | bindRefused => exact h
    | serverOpened ho hid =>
      exact h.openServer (Registry.not_server_of_keyOf hid)
        (Registry.opensServer_not_live hwf ho) _ _
    | connectRefused => exact h
    | @clientOpened cmd id endpoint peer seq stream text ho hfree hconn =>
      have hlabel : w.reg.currentLabel id = none := by
        cases cmd <;> cases ho
        · exact Registry.currentLabel_of_not_live hwf rfl (hfree.resolve_right nofun)
        · exact hok.2 _ rfl (by rw [hconn]; rfl)
      have hseq : LabelledOn (fun _ ↦ True) { w.reg with nextIpcClientSeq := seq } := h
      exact hseq.insertStream hlabel
    | labelled _ happly => exact h.replaceLabel happly
    | streamDropped => exact h.dropStream _
    | serverDropped => exact h.dropServer hwf _ _
    | accepted hb ha =>
      obtain ⟨hnone, hnext⟩ := hok.1 _ hb
      exact h.accepted hwf ht ha rfl hnone hnext
  exact LabelledOn.all_iff.mp hinv

/-- The label map agrees with the handles, a label resolves to the id of its holder or to one
that is the same, and a token finds live entries only. -/
structure LabelsAgree (reg : Registry) : Prop where
  points_to_holder : ∀ name id, reg.labels.lookup name = some id →
    (∃ s, reg.streams.lookup id = some s ∧ s.state.label = some name) ∨
      ∃ srv, reg.servers.lookup id = some srv ∧ srv.state.label = some name
  resolves_live : ∀ name id, reg.labels.lookup name = some id →
    (∃ typed, reg.resolveId name defaultTokenParser = .ok typed ∧ id.Same typed) ∧
      reg.target name = .ok id ∧ (id ∈ reg.streams ∨ id ∈ reg.servers)
  gone_unresolved : ∀ id, id ∉ reg.streams → id ∉ reg.servers →
    ∀ token, reg.target token ≠ .ok id

/-- In every run that re-keys and replaces unlabelled connections only, the
label map agrees with the registry in every state reached. -/
theorem labels_agree_of_reachable {w : World} (hw : ReachableBy registrySystem KeepsLabels w) :
    LabelsAgree w.reg := by
  have hlabels := labelled_of_reachable hw
  have hlive : ∀ name id, w.reg.labels.lookup name = some id → id ∈ w.reg.registered :=
    fun name id h ↦ Registry.mem_registered_of_currentLabel (hlabels name id h)
  have htarget : ∀ name id, w.reg.labels.lookup name = some id → w.reg.target name = .ok id := by
    intro name id h
    rw [Registry.target_of_label h, Registry.keyOf_of_mem (hlive name id h)]
  refine ⟨fun name id h ↦ Registry.mem_of_currentLabel (hlabels name id h), fun name id h ↦
    ⟨?_, htarget name id h, Registry.mem_registered.mp (hlive name id h)⟩,
    fun id hs hv token hr ↦ ?_⟩
  · obtain ⟨typed, ht, hsame⟩ := typedAlike_of_reachable hw name id h
    exact ⟨typed, by simp only [Registry.resolveId, h, ht, Option.getD_some], hsame⟩
  cases hl : w.reg.labels.lookup token with
  | some k =>
    cases hr.symm.trans (htarget token k hl)
    exact (Registry.mem_registered.mp (hlive token id hl)).elim hs hv
  | none => exact (Registry.mem_registered.mp (Registry.mem_of_target hl hr)).elim hs hv

theorem labels_agree_beside_rename :
    ∃ w, World.initial.play (fun w a ↦ decide (KeepsLabels w a)) [.command (.openTcpServer 3000),
        .command (.label "3000" "cam"), tcpHandoff 3000 10015 7, tcpHandoff 3000 10015 8] = some w ∧
      w.reg.labels.lookup "cam" = some (.tcpServer 3000) ∧ LabelsAgree w.reg := by
  have hrun : ∃ w ∈ World.initial.play (fun w a ↦ decide (KeepsLabels w a))
      [.command (.openTcpServer 3000), .command (.label "3000" "cam"), tcpHandoff 3000 10015 7,
        tcpHandoff 3000 10015 8],
      w.reg.labels.lookup "cam" = some (.tcpServer 3000) := by decide +kernel
  obtain ⟨w, hw, hc⟩ := hrun
  exact ⟨w, hw, hc, labels_agree_of_reachable
    (reachableBy_play (fun _ _ hg ↦ of_decide_eq_true hg) (.init rfl) hw)⟩

/-- A rename leaves the label of the renamed connection at the id it had. -/
theorem label_dangles_after_rename :
    ∃ w, World.initial.play (fun _ _ ↦ true) [.command (.openTcpServer 3000),
        tcpHandoff 3000 10015 7, .command (.label "3000.10015" "cam"),
        tcpHandoff 3000 10015 8] = some w ∧
      w.reg.resolveId "cam" defaultTokenParser = .ok (.acceptedTcp 3000 10015 none) ∧
      ¬LabelsAgree w.reg := by
  have hrun : ∃ w ∈ World.initial.play (fun _ _ ↦ true) [.command (.openTcpServer 3000),
      tcpHandoff 3000 10015 7, .command (.label "3000.10015" "cam"),
      tcpHandoff 3000 10015 8],
      w.reg.labels.lookup "cam" = some (.acceptedTcp 3000 10015 none) ∧
        w.reg.resolveId "cam" defaultTokenParser = .ok (.acceptedTcp 3000 10015 none) ∧
        .acceptedTcp 3000 10015 none ∉ w.reg.streams ∧
        .acceptedTcp 3000 10015 none ∉ w.reg.servers := by decide +kernel
  obtain ⟨w, hw, hl, hr, hs, hv⟩ := hrun
  exact ⟨w, hw, hr, fun h ↦ (h.resolves_live _ _ hl).2.2.elim hs hv⟩

end WireDock
