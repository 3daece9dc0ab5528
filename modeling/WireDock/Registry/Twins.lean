import WireDock.Registry.Spelling

namespace WireDock

open FiniteMap LabelledSystem

namespace Base

def parentText : Base → List Char
  | tcp parentPort _ => (toString parentPort).toList
  | ipc parentPath _ => parentPath.toList

def remoteText : Base → List Char
  | tcp _ remotePort => (toString remotePort).toList
  | ipc _ pid => (toString pid).toList

theorem toList_display_accepted (b : Base) (d : Option UInt32) :
    (b.accepted d).display.toList =
      b.parentText ++ '.' :: (b.remoteText ++ ConnectionId.suffix d) := by
  cases b with
  | tcp parentPort remotePort => exact ConnectionId.display_acceptedTcp parentPort remotePort d
  | ipc parentPath pid => exact ConnectionId.display_acceptedIpc parentPath pid d

theorem not_mem_remoteText (b : Base) {c : Char} (hminus : c ≠ '-') (hdigit : c.isDigit = false) :
    c ∉ b.remoteText := by
  cases b with
  | tcp _ remotePort => exact not_mem_u16 remotePort hdigit
  | ipc _ pid =>
    exact fun hc ↦ (char_of_mem_i32 hc).elim hminus fun hd ↦ by cases hdigit.symm.trans hd

end Base

namespace ConnectionId

theorem not_mem_suffix {c : Char} (d : Option UInt32) (hhash : c ≠ '#')
    (hdigit : c.isDigit = false) : c ∉ suffix d := by
  cases d with
  | none => exact List.not_mem_nil
  | some n =>
    intro hc
    rcases List.mem_cons.mp hc with hc | hc
    · exact hhash hc
    · cases hdigit.symm.trans (char_of_mem_u32 hc)

theorem append_suffix_inj {r r' : List Char} {d d' : Option UInt32} (hr : '#' ∉ r) (hr' : '#' ∉ r')
    (h : r ++ suffix d = r' ++ suffix d') : r = r' ∧ d = d' := by
  cases d with
  | none =>
    cases d' with
    | none => exact ⟨by simpa only [suffix, List.append_nil] using h, rfl⟩
    | some n' =>
      rw [suffix, suffix, List.append_nil] at h
      exact (hr (h ▸ List.mem_append_right _ List.mem_cons_self)).elim
  | some n =>
    cases d' with
    | none =>
      rw [suffix, suffix, List.append_nil] at h
      exact (hr' (h ▸ List.mem_append_right _ List.mem_cons_self)).elim
    | some n' =>
      obtain ⟨hrr, hn⟩ := Text.separator_append_inj hr hr' h
      exact ⟨hrr, by rw [toString_u32_inj (String.toList_inj.mp hn)]⟩

theorem accepted_display_eq_iff {b b' : Base} {d d' : Option UInt32} :
    (b.accepted d).display = (b'.accepted d').display ↔
      b.parentText = b'.parentText ∧ b.remoteText = b'.remoteText ∧ d = d' := by
  rw [← String.toList_inj, b.toList_display_accepted, b'.toList_display_accepted]
  constructor
  · intro h
    have hdot : ∀ (b : Base) d, '.' ∉ b.remoteText ++ suffix d := fun b d hc ↦
      (List.mem_append.mp hc).elim (b.not_mem_remoteText (by decide) (by decide))
        (not_mem_suffix d (by decide) (by decide))
    obtain ⟨hp, hr⟩ := Text.append_separator_inj (hdot b d) (hdot b' d') h
    exact ⟨hp, append_suffix_inj (b.not_mem_remoteText (by decide) (by decide))
      (b'.not_mem_remoteText (by decide) (by decide)) hr⟩
  · rintro ⟨hp, hr, rfl⟩
    rw [hp, hr]

/-- Two ids of different shapes with one spelling: a server and a client of one
port, a path that spells another id, and a numeric path beside a port. -/
def twin : ConnectionId → ConnectionId → Bool
  | tcpServer port, tcpClient localPort => port = localPort
  | ipcServer _, ipcServer _ => false
  | ipcServer path, id => path = id.display
  | acceptedIpc parentPath pid d, acceptedTcp parentPort remotePort d' =>
    parentPath = toString parentPort ∧ pid.toInt = remotePort.toNat ∧ d = d'
  | _, _ => false

theorem twin_ipcServer {path : PathBuf} {id : ConnectionId} (h : path = id.display) :
    ipcServer path = id ∨ twin (ipcServer path) id = true := by
  cases id with
  | ipcServer path' => exact .inl (congrArg ipcServer h)
  | _ => exact .inr (decide_eq_true h)

theorem dot_mem_display (b : Base) (d : Option UInt32) : '.' ∈ (b.accepted d).display.toList := by
  rw [b.toList_display_accepted]
  exact List.mem_append_right _ List.mem_cons_self

theorem accepted_twin {b b' : Base} {d d' : Option UInt32}
    (h : (b.accepted d).display = (b'.accepted d').display) :
    b.accepted d = b'.accepted d' ∨ twin (b.accepted d) (b'.accepted d') = true ∨
      twin (b'.accepted d') (b.accepted d) = true := by
  obtain ⟨hp, hr, rfl⟩ := accepted_display_eq_iff.mp h
  have hmixed : ∀ {path pid port remote}, (Base.ipc path pid).parentText =
      (Base.tcp port remote).parentText → (Base.ipc path pid).remoteText =
        (Base.tcp port remote).remoteText → ∀ d,
      twin ((Base.ipc path pid).accepted d) ((Base.tcp port remote).accepted d) = true :=
    fun {path pid port remote} hp hr _ ↦ by
      have hr' : toString pid.toInt = toString (remote.toNat : Int) := String.toList_inj.mp hr
      exact decide_eq_true ⟨String.toList_inj.mp hp, Text.toString_int_inj hr', rfl⟩
  cases b with
  | tcp port remote =>
    cases b' with
    | tcp port' remote' =>
      rw [toString_u16_inj (String.toList_inj.mp hp), toString_u16_inj (String.toList_inj.mp hr)]
      exact .inl rfl
    | ipc => exact .inr (.inr (hmixed hp.symm hr.symm d))
  | ipc path pid =>
    cases b' with
    | tcp => exact .inr (.inl (hmixed hp hr d))
    | ipc path' pid' =>
      rw [String.toList_inj.mp hp, toString_i32_inj (String.toList_inj.mp hr)]
      exact .inl rfl

def Flat (id : ConnectionId) : Prop :=
  (∃ port, id = tcpServer port ∨ id = tcpClient port) ∨ ∃ seq, id = ipcClient seq

theorem Flat.not_mem_dot {id : ConnectionId} (h : id.Flat) : '.' ∉ id.display.toList := by
  rcases h with ⟨port, rfl | rfl⟩ | ⟨seq, rfl⟩
  · exact not_mem_u16 port (by decide)
  · exact not_mem_u16 port (by decide)
  · rw [display_ipcClient, List.mem_append, not_or]
    exact ⟨by decide, fun hc ↦ by cases char_of_mem_u32 hc⟩

theorem Flat.twin {a b : ConnectionId} (ha : a.Flat) (hb : b.Flat) (h : a.display = b.display) :
    a = b ∨ twin a b = true ∨ twin b a = true := by
  have hcolon : ∀ {seq : UInt32} {port : UInt16}, (ipcClient seq).display ≠ toString port := by
    intro seq port he
    have hc : ':' ∈ (ipcClient seq).display.toList := by
      rw [display_ipcClient]
      exact List.mem_append_left _ (by decide)
    exact not_mem_u16 port (by decide) (he ▸ hc)
  rcases ha with ⟨port, rfl | rfl⟩ | ⟨seq, rfl⟩ <;> rcases hb with ⟨port', rfl | rfl⟩ | ⟨seq', rfl⟩
  · exact .inl (congrArg tcpServer (toString_u16_inj h))
  · exact .inr (.inl (decide_eq_true (toString_u16_inj h)))
  · exact (hcolon h.symm).elim
  · exact .inr (.inr (decide_eq_true (toString_u16_inj h).symm))
  · exact .inl (congrArg tcpClient (toString_u16_inj h))
  · exact (hcolon h.symm).elim
  · exact (hcolon h).elim
  · exact (hcolon h).elim
  · rw [← String.toList_inj, display_ipcClient, display_ipcClient, List.append_cancel_left_eq] at h
    exact .inl (congrArg ipcClient (toString_u32_inj (String.toList_inj.mp h)))

theorem flat_or_accepted (id : ConnectionId) :
    id.Flat ∨ (∃ path, id = ipcServer path) ∨ ∃ b d, id = Base.accepted b d := by
  cases id with
  | tcpServer port => exact .inl (.inl ⟨port, .inl rfl⟩)
  | tcpClient port => exact .inl (.inl ⟨port, .inr rfl⟩)
  | ipcClient seq => exact .inl (.inr ⟨seq, rfl⟩)
  | ipcServer path => exact .inr (.inl ⟨path, rfl⟩)
  | acceptedTcp port remote d => exact .inr (.inr ⟨.tcp port remote, d, rfl⟩)
  | acceptedIpc path pid d => exact .inr (.inr ⟨.ipc path pid, d, rfl⟩)

theorem twin_display {a b : ConnectionId} (h : twin a b = true) : a.display = b.display := by
  unfold twin at h
  split at h
  · rw [of_decide_eq_true h]
    rfl
  · cases h
  · exact of_decide_eq_true h
  · rename_i path pid d port remote d'
    obtain ⟨hpath, hpid, rfl⟩ := of_decide_eq_true h
    have hremote : toString pid.toInt = toString (remote.toNat : Int) := congrArg toString hpid
    change ((Base.ipc path pid).accepted d).display = ((Base.tcp port remote).accepted d).display
    exact accepted_display_eq_iff.mpr
      ⟨congrArg String.toList hpath, congrArg String.toList hremote, rfl⟩
  · cases h

/-- Ids are printed alike if and only if they are equal or twins. -/
theorem display_eq_iff {a b : ConnectionId} :
    a.display = b.display ↔ a = b ∨ twin a b = true ∨ twin b a = true := by
  constructor
  · intro h
    rcases a.flat_or_accepted with ha | ⟨path, rfl⟩ | ⟨base, d, rfl⟩
    · rcases b.flat_or_accepted with hb | ⟨path, rfl⟩ | ⟨base, d, rfl⟩
      · exact ha.twin hb h
      · exact (twin_ipcServer h.symm).imp Eq.symm .inr
      · exact (ha.not_mem_dot (h ▸ dot_mem_display base d)).elim
    · exact (twin_ipcServer h).imp id .inl
    · rcases b.flat_or_accepted with hb | ⟨path, rfl⟩ | ⟨base', d', rfl⟩
      · exact (hb.not_mem_dot (h ▸ dot_mem_display base d)).elim
      · exact (twin_ipcServer h.symm).imp Eq.symm .inr
      · exact accepted_twin h
  · rintro (rfl | h | h)
    · rfl
    · exact twin_display h
    · exact (twin_display h).symm

theorem eq_of_display {a b : ConnectionId} (h : a.display = b.display) (hab : twin a b = false)
    (hba : twin b a = false) : a = b := by
  rcases display_eq_iff.mp h with he | ht | ht
  · exact he
  · cases hab.symm.trans ht
  · cases hba.symm.trans ht

end ConnectionId

namespace Registry

variable {reg reg' : Registry} {k : ConnectionId}

def unsuffixed (reg : Registry) (b : Base) : Bool :=
  (reg.servers.lookup b.server).any fun srv ↦ b.key ∈ srv.baseNoSuffix

def acceptEnters (reg : Registry) (b : Base) : List ConnectionId :=
  match reg.counter b with
  | some n => [b.accepted (some n)]
  | none =>
    if reg.unsuffixed b then
      b.accepted (some 2) :: if b.accepted none ∈ reg.streams then [b.accepted (some 1)] else []
    else [b.accepted none]

def serverEnters (env : Environment) (cmd : Command) : List ConnectionId :=
  match opensServer cmd with
  | some (id, endpoint, _) => if (env.bind endpoint).isOk then [id] else []
  | none => []

def clientEnters (env : Environment) (reg : Registry) (cmd : Command) : List ConnectionId :=
  match reg.opensClient cmd with
  | some (id, endpoint, _) => if (env.connect endpoint).isOk then [id] else []
  | none => []

def enters (env : Environment) (reg : Registry) : RegistryInput → List ConnectionId
  | .command cmd => serverEnters env cmd ++ reg.clientEnters env cmd
  | .accepted parent tentative _ _ =>
    ((acceptedBase parent tentative).map reg.acceptEnters).getD []
  | _ => []

theorem registered_dropStream {id : ConnectionId} (h : k ∈ (reg.dropStream id).1.registered) :
    k ∈ reg.registered := by
  rw [mem_registered] at h ⊢
  refine h.imp (fun hs ↦ ?_) fun hv ↦ ?_
  · rw [dropStream_streams, Finmap.mem_erase] at hs
    exact hs.2
  · exact mem_servers_dropStream.mp hv

theorem registered_dropServer {order : IterationOrder ConnectionId} {id : ConnectionId}
    (h : k ∈ (reg.dropServer order id).1.registered) : k ∈ reg.registered := by
  rw [mem_registered] at h ⊢
  exact h.imp (fun hs ↦ reg.mem_streams_of_dropServer hs) fun hv ↦ (mem_servers_dropServer hv).1

theorem registered_insertStream {s : StreamHandle} (h : k ∈ (reg.insertStream s).registered) :
    k = s.state.id ∨ k ∈ reg.registered := by
  rw [mem_registered] at h
  rcases h with hs | hv
  · exact (Finmap.mem_insert.mp hs).imp id fun hs ↦ mem_registered.mpr (.inl hs)
  · exact .inr (mem_registered.mpr (.inr (mem_servers_insertStream.mp hv)))

theorem registered_replaceLabel {id typed : ConnectionId} {name : String}
    (h : k ∈ (reg.replaceLabel id typed name).1.registered) : k ∈ reg.registered := by
  rw [mem_registered] at h ⊢
  exact h.imp mem_streams_replaceLabel.mp mem_servers_replaceLabel.mp

theorem Allocated.entered {b : Base} {id : ConnectionId} {ev : Option NetEvent}
    (ht : Tracked reg) (h : reg.Allocated b reg' id ev) :
    id ∈ reg.acceptEnters b ∧ ∀ k ∈ reg'.streams, k ∈ reg.streams ∨ k ∈ reg.acceptEnters b := by
  have hmem := fun k (hk : k ∈ reg'.streams) ↦ h.mem_streams ht hk
  unfold acceptEnters
  cases h with
  | @first srv hsrv hbase hnext =>
    have hc : reg.counter b = none := (counter_of_lookup hsrv).trans (not_mem_iff_lookup.mp hnext)
    have hu : reg.unsuffixed b = false := by rw [unsuffixed, hsrv]; exact decide_eq_false hbase
    simp only [hc, hu]
    exact ⟨List.mem_cons_self, fun k hk ↦ .inl hk⟩
  | @second srv old _ hsrv hold =>
    have hnone := ht.exclusive _ _ _ _ (reg.bookkeeping_of_lookup hsrv) (mem_of_lookup hold)
    have hc : reg.counter b = none := (counter_of_lookup hsrv).trans (not_mem_iff_lookup.mp hnone)
    have hu : reg.unsuffixed b = true := by
      rw [unsuffixed, hsrv]
      exact decide_eq_true (mem_of_lookup hold)
    simp only [hc, hu, if_true]
    refine ⟨List.mem_cons_self, fun k hk ↦ (hmem k hk).imp id ?_⟩
    rintro ⟨rfl, -, hlive⟩
    rw [if_pos hlive]
    exact List.mem_cons_of_mem _ List.mem_cons_self
  | @next srv n hsrv _ hn =>
    simp only [(counter_of_lookup hsrv).trans hn]
    exact ⟨List.mem_cons_self, fun k hk ↦ .inl hk⟩

theorem Change.registered {env : Environment} {input : RegistryInput} {effects : List Effect}
    (ht : Tracked reg) (hc : Change env reg input effects reg') (hk : k ∈ reg'.registered) :
    k ∈ reg.registered ∨ k ∈ reg.enters env input := by
  cases hc with
  | silent => exact .inl hk
  | bindRefused => exact .inl hk
  | serverOpened ho _ hb =>
    rw [mem_registered] at hk
    rcases hk with hs | hv
    · exact .inl (mem_registered.mpr (.inl hs))
    · refine (Finmap.mem_insert.mp hv).symm.imp (fun hv ↦ mem_registered.mpr (.inr hv)) ?_
      rintro rfl
      refine List.mem_append_left _ ?_
      simp [serverEnters, ho, hb, Except.isOk, Except.toBool]
  | connectRefused => exact .inl hk
  | clientOpened ho _ hconn =>
    refine (registered_insertStream hk).symm.imp id fun he ↦ List.mem_append_right _ ?_
    rw [he]
    simp [clientEnters, ho, hconn, Except.isOk, Except.toBool, StreamHandle.spawned,
      ConnectionState.newConnected]
  | labelled => exact .inl (registered_replaceLabel hk)
  | streamDropped => exact .inl (registered_dropStream hk)
  | serverDropped => exact .inl (registered_dropServer hk)
  | @accepted parent tentative peerInfo stream b reg₁ id ev hb ha =>
    have henters : reg.enters env (.accepted parent tentative peerInfo stream) =
        reg.acceptEnters b := by
      rw [enters, hb, Option.map_some, Option.getD_some]
    obtain ⟨hid, hstreams⟩ := ha.entered ht
    rw [henters]
    rcases registered_insertStream hk with he | hk
    · exact .inr (he ▸ hid)
    · rcases mem_registered.mp hk with hs | hv
      · exact (hstreams k hs).imp (fun hs ↦ mem_registered.mpr (.inl hs)) fun hk ↦ hk
      · exact .inl (mem_registered.mpr (.inr (ha.mem_servers hv)))

theorem mem_acceptEnters {b : Base} (h : k ∈ reg.acceptEnters b) : ∃ d, k = b.accepted d := by
  unfold acceptEnters at h
  split at h
  · exact ⟨_, List.mem_singleton.mp h⟩
  · split_ifs at h
    · rcases List.mem_cons.mp h with rfl | h
      · exact ⟨_, rfl⟩
      · exact ⟨_, List.mem_singleton.mp h⟩
    · exact ⟨_, List.mem_singleton.mp h⟩
    · exact ⟨_, List.mem_singleton.mp h⟩

theorem command_enters (env : Environment) (reg : Registry) (cmd : Command) :
    ∃ id, ∀ k ∈ reg.enters env (.command cmd), k = id := by
  have hone : ∀ (c : Bool) (id : ConnectionId), ∀ k ∈ (if c then [id] else []), k = id := by
    intro c id k hk
    split_ifs at hk
    · exact List.mem_singleton.mp hk
    · cases hk
  cases cmd with
  | openTcpServer | openIpcServer =>
    exact ⟨_, fun k hk ↦ hone _ _ k ((List.mem_append.mp hk).resolve_right nofun)⟩
  | openTcpClient | openIpcClient =>
    exact ⟨_, fun k hk ↦ hone _ _ k ((List.mem_append.mp hk).resolve_left nofun)⟩
  | _ => exact ⟨.tcpServer 0, nofun⟩

theorem enters_display_inj {env : Environment} {input : RegistryInput} {a b : ConnectionId}
    (ha : a ∈ reg.enters env input) (hb : b ∈ reg.enters env input)
    (h : a.display = b.display) : a = b := by
  cases input with
  | command cmd =>
    obtain ⟨id, hid⟩ := command_enters env reg cmd
    rw [hid a ha, hid b hb]
  | accepted parent tentative peerInfo stream =>
    simp only [enters] at ha hb
    cases hbase : acceptedBase parent tentative with
    | none =>
      rw [hbase] at ha
      cases ha
    | some base =>
      rw [hbase] at ha hb
      obtain ⟨d, rfl⟩ := mem_acceptEnters ha
      obtain ⟨d', rfl⟩ := mem_acceptEnters hb
      rw [(ConnectionId.accepted_display_eq_iff.mp h).2.2]
  | event ev => cases ha
  | shutdown => cases ha

end Registry

/-- The ids a step enters share their spelling with no registered id. -/
def KeepsSpellings (w : World) (a : Environment × RegistryInput) : Prop :=
  ∀ id ∈ w.reg.enters a.1 a.2, ∀ k ∈ w.reg.registered,
    ConnectionId.twin id k = false ∧ ConnectionId.twin k id = false

instance (w : World) (a : Environment × RegistryInput) : Decidable (KeepsSpellings w a) :=
  inferInstanceAs (Decidable (∀ id ∈ w.reg.enters a.1 a.2, _))

structure UniqueSpelling (reg : Registry) : Prop where
  unique : ∀ a ∈ reg.registered, ∀ b ∈ reg.registered, a.display = b.display → a = b
  port_not_shared : ∀ port, ¬(.tcpServer port ∈ reg.servers ∧ .tcpClient port ∈ reg.streams)

/-- In every run that enters no twin of a registered id, every spelling
belongs to one registered id in every state reached. -/
theorem unique_spelling_of_reachable {w : World}
    (hw : ReachableBy registrySystem KeepsSpellings w) : UniqueSpelling w.reg := by
  have hunique : ∀ a ∈ w.reg.registered, ∀ b ∈ w.reg.registered,
      a.display = b.display → a = b := by
    refine registry_invariant (P := fun reg _ ↦ ∀ a ∈ reg.registered, ∀ b ∈ reg.registered,
      a.display = b.display → a = b) (fun a ha ↦ ?_) ?_
      (fun _ _ _ _ h a ha b hb ↦
        h a (Registry.registered_dropServer ha) b (Registry.registered_dropServer hb))
      (fun _ _ _ h a ha b hb ↦
        h a (Registry.registered_dropStream ha) b (Registry.registered_dropStream hb)) hw
    · exact (Finset.notMem_empty a ha).elim
    · intro w env input effects reg' hr h hok _ hc a ha b hb hab
      have ht := tracked_of_reachable hr
      have hmixed : ∀ a ∈ w.reg.enters env input, ∀ b ∈ w.reg.registered,
          a.display = b.display → a = b := by
        intro a ha b hb hab
        obtain ⟨h₁, h₂⟩ := hok a ha b hb
        exact ConnectionId.eq_of_display hab h₁ h₂
      rcases hc.registered ht ha with ha | ha <;> rcases hc.registered ht hb with hb | hb
      · exact h a ha b hb hab
      · exact (hmixed b hb a ha hab.symm).symm
      · exact hmixed a ha b hb hab
      · exact Registry.enters_display_inj ha hb hab
  refine ⟨hunique, fun port ⟨hs, hc⟩ ↦ ?_⟩
  cases hunique _ (Registry.mem_registered.mpr (.inr hs)) _
    (Registry.mem_registered.mpr (.inl hc)) rfl

theorem unique_spelling_on_two_ports :
    ∃ w, World.initial.play (fun w a ↦ decide (KeepsSpellings w a)) [.command (.openTcpServer 3000),
        .command (.openTcpClient 3001 "127.0.0.1" 80), tcpHandoff 3000 10015 7,
        tcpHandoff 3000 10015 8] = some w ∧
      w.reg.registered.card = 4 ∧ UniqueSpelling w.reg := by
  have hrun : ∃ w ∈ World.initial.play (fun w a ↦ decide (KeepsSpellings w a))
      [.command (.openTcpServer 3000), .command (.openTcpClient 3001 "127.0.0.1" 80),
        tcpHandoff 3000 10015 7, tcpHandoff 3000 10015 8],
      w.reg.registered.card = 4 := by decide +kernel
  obtain ⟨w, hw, hc⟩ := hrun
  exact ⟨w, hw, hc, unique_spelling_of_reachable
    (reachableBy_play (fun _ _ hg ↦ of_decide_eq_true hg) (.init rfl) hw)⟩

/-- Port 0 stands for any free port, so both binds succeed; no guard compares the two ids. -/
theorem port_shared_by_server_and_client :
    ∃ w, World.initial.play (fun _ _ ↦ true) [.command (.openTcpClient 0 "127.0.0.1" 80),
        .command (.openTcpServer 0)] = some w ∧ ¬UniqueSpelling w.reg := by
  have hrun : ∃ w ∈ World.initial.play (fun _ _ ↦ true)
      [.command (.openTcpClient 0 "127.0.0.1" 80), .command (.openTcpServer 0)],
      .tcpServer 0 ∈ w.reg.servers ∧ .tcpClient 0 ∈ w.reg.streams := by decide +kernel
  obtain ⟨w, hw, hc⟩ := hrun
  exact ⟨w, hw, fun h ↦ h.port_not_shared 0 hc⟩

end WireDock
