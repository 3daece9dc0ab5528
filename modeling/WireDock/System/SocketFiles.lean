import WireDock.System.Hangup

namespace WireDock

open FiniteMap LabelledSystem

def Effect.touches : Effect → Option PathBuf
  | bind (.ipc path) => some path
  | removeFile path => some path
  | _ => none

namespace FileSystem

variable {answer : BindAnswer} {fs : FileSystem}

theorem perform_of_not_touching {e : Effect} (h : e.touches = none) : perform answer fs e = fs := by
  cases e with
  | bind endpoint =>
    cases endpoint with
    | tcp port => exact TokioListener.bind_tcp port
    | ipc path => cases h
  | removeFile path => cases h
  | _ => rfl

theorem performAll_of_not_touching {effects : List Effect} (h : ∀ e ∈ effects, e.touches = none) :
    fs.performAll answer effects = fs := by
  induction effects with
  | nil => rfl
  | cons e effects ih =>
    obtain ⟨he, hes⟩ := List.forall_mem_cons.mp h
    rw [performAll, List.foldl_cons, perform_of_not_touching he]
    exact ih hes

theorem performAll_append (effects effects' : List Effect) :
    fs.performAll answer (effects ++ effects') =
      (fs.performAll answer effects).performAll answer effects' := List.foldl_append ..

theorem performAll_append_say (effects : List Effect) (text : String) :
    fs.performAll answer (effects ++ [say text]) = fs.performAll answer effects :=
  performAll_append _ _

theorem performAll_bind {endpoint : ServerEndpoint} {effects : List Effect}
    (h : ∀ e ∈ effects, e.touches = none) :
    fs.performAll answer (.bind endpoint :: effects) = (TokioListener.bind answer fs endpoint).2 :=
  performAll_of_not_touching h

end FileSystem

namespace Registry

variable {reg : Registry}

theorem touches_dropStream {id : ConnectionId} :
    ∀ e ∈ (reg.dropStream id).2, e.touches = none := by
  intro e he
  obtain ⟨task, rfl⟩ := abort_of_mem_dropStream he
  rfl

theorem touches_silent {e : Effect} (h : e.Silent) : e.touches = none := by
  cases e <;> first | rfl | exact h.elim

theorem owned_opened (id : ConnectionId) (task : JoinHandle) (path : Option PathBuf) :
    ({ reg with servers := reg.servers.insert id (.opened id task path) } : Registry).owned =
      Function.update reg.owned id (some (task, path)) := by
  funext sid
  rw [owned_openServer, Function.update_apply]

theorem owned_dropped {order : IterationOrder ConnectionId} (id : ConnectionId) :
    (reg.dropServer order id).1.owned = Function.update reg.owned id none := by
  funext sid
  rw [Function.update_apply]
  cases hid : reg.servers.lookup id with
  | some srv => rw [owned_dropServer hid]
  | none =>
    rw [show (reg.dropServer order id).1 = reg by simp only [dropServer, hid]]
    split_ifs with he
    · rw [he, owned, hid, Option.map_none]
    · rfl

theorem performAll_dropServer {answer : BindAnswer} {fs : FileSystem}
    {order : IterationOrder ConnectionId} {id : ConnectionId} {task : JoinHandle}
    {path : Option PathBuf} (h : reg.owned id = some (task, path)) :
    fs.performAll answer (reg.dropServer order id).2 = path.elim fs fs.removeFile := by
  obtain ⟨srv, hsrv, he⟩ := Option.map_eq_some_iff.mp h
  cases he
  have hquiet : ∀ e ∈ .abort srv.acceptTask ::
      ({ reg with servers := reg.servers.erase id }.dropStreams (order.visit srv.children)).2,
      e.touches = none := by
    intro e he
    rcases List.mem_cons.mp he with rfl | he
    · rfl
    · obtain ⟨k, -, s, -, rfl⟩ := (mem_effects_dropStreams _).mp he
      rfl
  unfold dropServer
  simp only [hsrv]
  rw [FileSystem.performAll_append, FileSystem.performAll_of_not_touching hquiet]
  cases srv.ipcPath <;> rfl

end Registry

theorem Effect.listening_of_spawned {e : Effect} (h : e.spawned = none) : e.listening = none := by
  cases e <;> first | rfl | cases h

theorem listening_register {env : Environment} {parent : ConnectionId} {peerInfo : PeerInfo}
    {stream : BoxedStream} {reg : Registry} {id : ConnectionId} {ev : Option NetEvent} :
    ∀ e ∈ (Registry.register env parent peerInfo stream (reg, id, ev)).2, e.listening = none := by
  intro e he
  cases hs : e.spawned with
  | none => exact e.listening_of_spawned hs
  | some task => rw [spawned_register he hs]; rfl

theorem touches_register {env : Environment} {parent : ConnectionId} {peerInfo : PeerInfo}
    {stream : BoxedStream} {reg : Registry} {id : ConnectionId} {ev : Option NetEvent} :
    ∀ e ∈ (Registry.register env parent peerInfo stream (reg, id, ev)).2, e.touches = none := by
  intro e he
  simp only [Registry.register, spawnStream, say, List.mem_append, List.mem_cons, List.not_mem_nil,
    or_false] at he
  rcases he with he | rfl | rfl
  · unfold Registry.renamedLine at he
    split at he
    · rw [List.mem_singleton.mp he]
      rfl
    · cases he
  · rfl
  · rfl

abbrev Owners := ConnectionId → Option (JoinHandle × Option PathBuf)

def RegistryInput.socketPath? : RegistryInput → Option PathBuf
  | .command (.openIpcServer path) => some path
  | _ => none

section Bind

variable {answer : BindAnswer} {fs : FileSystem} {cmd : Command} {id : ConnectionId}
variable {endpoint : ServerEndpoint} {path : Option PathBuf}

/-- A refused bind removes at most what stood at the path it was asked for. -/
theorem files_of_refused {e : DomainError}
    (ho : Registry.opensServer cmd = some (id, endpoint, path))
    (hb : (TokioListener.bind answer fs endpoint).1 = .error e) :
    (TokioListener.bind answer fs endpoint).2 = fs ∨
      ∃ p, (RegistryInput.command cmd).socketPath? = some p ∧ id = .ipcServer p ∧
        (TokioListener.bind answer fs endpoint).2 = fs.unlinkIfStale answer.mayUnlink p := by
  unfold Registry.opensServer at ho
  split at ho <;> cases ho
  · exact .inl (TokioListener.bind_tcp _)
  · rename_i p
    rcases @TokioListener.bind_ipc answer fs p with ⟨entry, -, -, -, hbind⟩ | ⟨⟨e', hbind⟩, -⟩
    · rw [hbind] at hb
      cases hb
    · rw [hbind]
      exact .inr ⟨p, rfl, rfl, rfl⟩

/-- A bind that succeeds leaves the files as they were, or puts its socket where
the path leads after the removal, and where nothing stands. -/
theorem files_of_bound {listener : AcceptLoop}
    (ho : Registry.opensServer cmd = some (id, endpoint, path))
    (hb : (TokioListener.bind answer fs endpoint).1 = .ok listener) :
    path = id.socketPath ∧
      ((TokioListener.bind answer fs endpoint).2 = fs ∧ id.socketPath = none ∨
        ∃ p entry, (RegistryInput.command cmd).socketPath? = some p ∧ id = .ipcServer p ∧
          (fs.unlinkIfStale answer.mayUnlink p).locate p = some entry ∧
          (fs.unlinkIfStale answer.mayUnlink p).nodes entry = none ∧
          (TokioListener.bind answer fs endpoint).2 =
            (fs.unlinkIfStale answer.mayUnlink p).create entry answer.listener) := by
  unfold Registry.opensServer at ho
  split at ho <;> cases ho
  · exact ⟨rfl, .inl ⟨TokioListener.bind_tcp _, rfl⟩⟩
  · rename_i p
    rcases @TokioListener.bind_ipc answer fs p with
      ⟨entry, hl, -, hn, hbind⟩ | ⟨⟨e', hbind⟩, -⟩
    · rw [hbind]
      exact ⟨rfl, .inr ⟨p, entry, rfl, rfl, hl, hn, rfl⟩⟩
    · rw [hbind] at hb
      cases hb

end Bind

/-- All that handling an input can do to the servers and their socket files,
each of these forms keeping the fact `Q` about them. -/
structure SocketRules (Q : Owners → List Effect → FileSystem → Prop) (m : Machine)
    (answer : BindAnswer) (input : RegistryInput) : Prop where
  quiet : ∀ owned log fs effects, Q owned log fs → (∀ e ∈ effects, e.listening = none) →
    Q owned (log ++ effects) fs
  refused : ∀ path, input.socketPath? = some path →
    m.world.reg.keyOf (.ipcServer path) ∉ m.world.reg.servers →
    Q m.world.reg.owned m.world.log (m.fs.unlinkIfStale answer.mayUnlink path)
  opened : ∀ sid task fs log, m.world.reg.keyOf sid ∉ m.world.reg.servers →
    (fs = m.fs ∧ sid.socketPath = none ∨
      ∃ path entry, input.socketPath? = some path ∧ sid = .ipcServer path ∧
        (m.fs.unlinkIfStale answer.mayUnlink path).locate path = some entry ∧
        (m.fs.unlinkIfStale answer.mayUnlink path).nodes entry = none ∧
        fs = (m.fs.unlinkIfStale answer.mayUnlink path).create entry answer.listener) →
    Q m.world.reg.owned log m.fs → (∀ e ∈ log, e.listening ≠ some answer.listener) →
    Q (Function.update m.world.reg.owned sid (some (task, sid.socketPath)))
      (log ++ [.spawnAccept task sid answer.listener]) fs
  dropped : ∀ owned log fs sid task path, Q owned log fs → owned sid = some (task, path) →
    Q (Function.update owned sid none) log (path.elim fs fs.removeFile)

namespace SocketRules

variable {Q : Owners → List Effect → FileSystem → Prop} {m : Machine} {answer answer' : BindAnswer}
variable {input : RegistryInput} {cmd : Command} {id : ConnectionId}
variable {endpoint : ServerEndpoint} {path : Option PathBuf}

theorem dropServer (rules : SocketRules Q m answer input) (order : IterationOrder ConnectionId)
    {reg : Registry} {log : List Effect} {fs : FileSystem} (h : Q reg.owned log fs) :
    Q (reg.dropServer order id).1.owned (log ++ (reg.dropServer order id).2)
      (fs.performAll answer' (reg.dropServer order id).2) := by
  cases hid : reg.owned id with
  | none =>
    have hnone := Option.map_eq_none_iff.mp hid
    have hd : reg.dropServer order id = (reg, []) := by simp only [Registry.dropServer, hnone]
    rw [hd, List.append_nil]
    exact h
  | some own =>
    rw [Registry.owned_dropped, Registry.performAll_dropServer hid]
    exact rules.quiet _ _ _ _ (rules.dropped _ _ _ _ _ _ h hid)
      fun e he ↦ e.listening_of_spawned (Registry.spawned_dropServer e he)

theorem dropStream (rules : SocketRules Q m answer input) {reg : Registry} {log : List Effect}
    {fs : FileSystem} (h : Q reg.owned log fs) :
    Q (reg.dropStream id).1.owned (log ++ (reg.dropStream id).2)
      (fs.performAll answer' (reg.dropStream id).2) := by
  rw [funext Registry.owned_dropStream,
    FileSystem.performAll_of_not_touching Registry.touches_dropStream]
  exact rules.quiet _ _ _ _ h fun e he ↦ e.listening_of_spawned (Registry.spawned_dropStream e he)

theorem kept (rules : SocketRules Q m answer input) {owned : Owners} {effects : List Effect}
    (h : Q m.world.reg.owned m.world.log m.fs) (howned : owned = m.world.reg.owned)
    (htouch : ∀ e ∈ effects, e.touches = none) (hlisten : ∀ e ∈ effects, e.listening = none) :
    Q owned (m.world.log ++ effects) (m.fs.performAll answer effects) := by
  rw [howned, FileSystem.performAll_of_not_touching htouch]
  exact rules.quiet _ _ _ _ h hlisten

theorem bindRefused {e : DomainError} (rules : SocketRules Q m answer (.command cmd))
    (h : Q m.world.reg.owned m.world.log m.fs)
    (ho : Registry.opensServer cmd = some (id, endpoint, path))
    (hid : m.world.reg.keyOf id ∉ m.world.reg.servers)
    (hb : (TokioListener.bind answer m.fs endpoint).1 = .error e) :
    Q m.world.reg.owned (m.world.log ++ [.bind endpoint])
      (m.fs.performAll answer [.bind endpoint]) := by
  have hfs : Q m.world.reg.owned m.world.log (TokioListener.bind answer m.fs endpoint).2 := by
    rcases files_of_refused ho hb with he | ⟨p, hp, rfl, he⟩
    · rwa [he]
    · rw [he]
      exact rules.refused p hp hid
  rw [FileSystem.performAll_bind (by simp)]
  exact rules.quiet _ _ _ _ hfs (by simp [Effect.listening])

theorem serverOpened {listener : AcceptLoop} {task : JoinHandle} {text : String}
    (rules : SocketRules Q m answer (.command cmd)) (h : Q m.world.reg.owned m.world.log m.fs)
    (hlistener : ∀ e ∈ m.world.log, e.listening ≠ some answer.listener)
    (ho : Registry.opensServer cmd = some (id, endpoint, path))
    (hid : m.world.reg.keyOf id ∉ m.world.reg.servers)
    (hb : (TokioListener.bind answer m.fs endpoint).1 = .ok listener) :
    Q (Function.update m.world.reg.owned id (some (task, path)))
      (m.world.log ++ [.bind endpoint, .spawnAccept task id listener, say text])
      (m.fs.performAll answer [.bind endpoint, .spawnAccept task id listener, say text]) := by
  cases TokioListener.eq_listener_of_bind hb
  have hbound := rules.quiet _ _ _ [.bind endpoint] h (by simp [Effect.listening])
  have hfree : ∀ e ∈ m.world.log ++ [.bind endpoint], e.listening ≠ some answer.listener := by
    intro e he
    rcases List.mem_append.mp he with he | he
    · exact hlistener e he
    · rw [List.mem_singleton.mp he]
      exact fun hl ↦ (by cases hl)
  obtain ⟨rfl, hfs⟩ := files_of_bound ho hb
  have hq := rules.opened id task _ _ hid hfs hbound hfree
  have hshown := rules.quiet _ _ _ [say text] hq (by simp [say, Effect.listening])
  rw [List.append_assoc, List.append_assoc] at hshown
  rw [FileSystem.performAll_bind (by simp [say, Effect.touches])]
  exact hshown

end SocketRules

theorem sockets_step {Q : Owners → List Effect → FileSystem → Prop} {m : Machine}
    {answers : Answers} {input : RegistryInput} {rest : List Message}
    (h : Q m.world.reg.owned m.world.log m.fs) (rules : SocketRules Q m answers.bind input)
    (hlistener : ∀ e ∈ m.world.log, e.listening ≠ some answers.bind.listener) :
    Q (m.handle answers input rest).world.reg.owned (m.handle answers input rest).world.log
      (m.handle answers input rest).fs := by
  refine files_step (Q := fun reg ↦ Q reg.owned) h (fun effects reg' hc ↦ ?_)
    (fun _ order _ _ _ _ ↦ rules.dropServer order) (fun _ _ _ _ _ ↦ rules.dropStream)
  cases hc with
  | silent hs =>
    exact rules.kept h rfl (fun e he ↦ Registry.touches_silent (hs e he))
      fun e he ↦ e.listening_of_spawned (Registry.spawned_silent (hs e he))
  | bindRefused ho hid hb => exact rules.bindRefused h ho hid hb
  | serverOpened ho hid hb =>
    rw [Registry.owned_opened]
    exact rules.serverOpened h hlistener ho hid hb
  | connectRefused => exact rules.kept h rfl (by simp [Effect.touches]) (by simp [Effect.listening])
  | clientOpened =>
    exact rules.kept h (funext fun sid ↦ Registry.owned_insertStream _ sid)
      (by simp [say, Effect.touches]) (by simp [say, Effect.listening])
  | labelled => exact rules.kept h (funext Registry.owned_replaceLabel) (by simp) (by simp)
  | streamDropped =>
    rw [FileSystem.performAll_append_say, ← List.append_assoc]
    exact rules.quiet _ _ _ _ (rules.dropStream h) (by simp [say, Effect.listening])
  | serverDropped =>
    rw [FileSystem.performAll_append_say, ← List.append_assoc]
    exact rules.quiet _ _ _ _ (rules.dropServer _ h) (by simp [say, Effect.listening])
  | accepted hb ha =>
    exact rules.kept h (funext fun sid ↦ (Registry.owned_insertStream _ sid).trans (ha.owned sid))
      touches_register listening_register

/-- Where a server once put its socket file there is nothing, or the socket of a
registered server, and the path of every registered server leads to such a place. -/
structure FilesAccounted (owned : Owners) (fs : FileSystem) : Prop where
  created : ∀ entry ∈ fs.created, fs.nodes entry = none ∨
    (∃ l, fs.nodes entry = some (.socket l)) ∧
      ∃ sid task path, owned sid = some (task, some path) ∧ fs.locate path = some entry
  led : ∀ sid task path, owned sid = some (task, some path) →
    ∃ entry ∈ fs.created, fs.locate path = some entry

namespace FilesAccounted

variable {owned : Owners} {fs : FileSystem} {sid : ConnectionId}

/-- No link stands where the path of a registered server leads. -/
theorem not_symlink (h : FilesAccounted owned fs) {task : JoinHandle} {path : PathBuf}
    (ho : owned sid = some (task, some path)) (e : Entry) (hl : fs.locate path = some e)
    (target : PathBuf) : fs.nodes e ≠ some (.symlink target) := by
  obtain ⟨entry, hmem, hl'⟩ := h.led sid task path ho
  cases hl.symm.trans hl'
  rcases h.created e hmem with hnone | ⟨⟨l, hsocket⟩, -⟩
  · rw [hnone]
    nofun
  · rw [hsocket]
    nofun

theorem unlinked (h : FilesAccounted owned fs) {allowed : Bool} {path : PathBuf}
    (hkept : ∀ sid task p, owned sid = some (task, some p) →
      (fs.unlinkIfStale allowed path).locate p = fs.locate p) :
    FilesAccounted owned (fs.unlinkIfStale allowed path) where
  created entry hmem := by
    rw [FileSystem.created_unlinkIfStale] at hmem
    rcases @FileSystem.nodes_unlinkIfStale_cases fs path allowed entry with hnone | hsame
    · exact .inl hnone
    · rw [hsame]
      refine (h.created entry hmem).imp_right fun ⟨hsocket, sid, task, p, ho, hl⟩ ↦ ?_
      exact ⟨hsocket, sid, task, p, ho, (hkept sid task p ho).trans hl⟩
  led sid task p ho := by
    obtain ⟨entry, hmem, hl⟩ := h.led sid task p ho
    exact ⟨entry, by rwa [FileSystem.created_unlinkIfStale], (hkept sid task p ho).trans hl⟩

theorem dropped (h : FilesAccounted owned fs) {task : JoinHandle} {path : Option PathBuf}
    (ho : owned sid = some (task, path)) :
    FilesAccounted (Function.update owned sid none) (path.elim fs fs.removeFile) := by
  have hstays : ∀ {sid' own}, Function.update owned sid none sid' = some own →
      owned sid' = some own := by
    intro sid' own ho'
    rw [Function.update_apply] at ho'
    split_ifs at ho'
    exact ho'
  cases path with
  | none =>
    refine ⟨fun entry hmem ↦ ?_, fun sid' t p ho' ↦ h.led sid' t p (hstays ho')⟩
    refine (h.created entry hmem).imp_right fun ⟨hsocket, sid', t, p, ho', hl⟩ ↦ ?_
    have hne : sid' ≠ sid := by
      rintro rfl
      cases ho.symm.trans ho'
    exact ⟨hsocket, sid', t, p, by rwa [Function.update_of_ne hne], hl⟩
  | some path =>
    have hlocate : (fs.removeFile path).locate = fs.locate :=
      FileSystem.locate_removeFile (h.not_symlink ho)
    refine ⟨fun entry hmem ↦ ?_, fun sid' t p ho' ↦ ?_⟩
    · rw [Option.elim_some, FileSystem.created_removeFile] at hmem
      rw [Option.elim_some, FileSystem.nodes_removeFile, hlocate]
      rcases h.created entry hmem with hnone | ⟨⟨l, hsocket⟩, sid', t, p, ho', hl⟩
      · rw [hnone, ite_self]
        exact .inl rfl
      · by_cases hgone : fs.locate path = some entry
        · rw [if_pos ⟨hgone, by rw [hsocket]; nofun⟩]
          exact .inl rfl
        · rw [if_neg fun hc ↦ hgone hc.1]
          have hne : sid' ≠ sid := by
            rintro rfl
            cases ho.symm.trans ho'
            exact hgone hl
          exact .inr ⟨⟨l, hsocket⟩, sid', t, p, by rwa [Function.update_of_ne hne], hl⟩
    · obtain ⟨entry, hmem, hl⟩ := h.led sid' t p (hstays ho')
      rw [Option.elim_some, hlocate, FileSystem.created_removeFile]
      exact ⟨entry, hmem, hl⟩

theorem openedTcp (h : FilesAccounted owned fs) (hfree : owned sid = none) (task : JoinHandle) :
    FilesAccounted (Function.update owned sid (some (task, none))) fs where
  created entry hmem := by
    refine (h.created entry hmem).imp_right fun ⟨hsocket, sid', t, p, ho, hl⟩ ↦ ?_
    have hne : sid' ≠ sid := by
      rintro rfl
      cases hfree.symm.trans ho
    exact ⟨hsocket, sid', t, p, by rwa [Function.update_of_ne hne], hl⟩
  led sid' t p ho := by
    rw [Function.update_apply] at ho
    split_ifs at ho
    · cases ho
    · exact h.led sid' t p ho

theorem openedIpc (h : FilesAccounted owned fs) {path : PathBuf} (hfree : owned sid = none)
    {entry : Entry} (hl : fs.locate path = some entry) (hnone : fs.nodes entry = none)
    (task : JoinHandle) (listener : AcceptLoop) :
    FilesAccounted (Function.update owned sid (some (task, some path)))
      (fs.create entry listener) where
  created e hmem := by
    rw [FileSystem.nodes_create, FileSystem.locate_create hnone]
    by_cases he : e = entry
    · rw [if_pos he]
      exact .inr ⟨⟨listener, rfl⟩, sid, task, path, Function.update_self .., he ▸ hl⟩
    · rw [if_neg he]
      have hbefore : e ∈ fs.created :=
        (List.mem_append.mp hmem).resolve_right fun hm ↦ he (List.mem_singleton.mp hm)
      refine (h.created e hbefore).imp_right fun ⟨hsocket, sid', t, p, ho, hp⟩ ↦ ?_
      have hne : sid' ≠ sid := by
        rintro rfl
        cases hfree.symm.trans ho
      exact ⟨hsocket, sid', t, p, by rwa [Function.update_of_ne hne], hp⟩
  led sid' t p ho := by
    rw [FileSystem.locate_create hnone]
    rw [Function.update_apply] at ho
    split_ifs at ho
    · cases ho
      exact ⟨entry, List.mem_append_right _ (List.mem_singleton_self _), hl⟩
    · obtain ⟨e, hmem, hp⟩ := h.led sid' t p ho
      exact ⟨e, List.mem_append_left _ hmem, hp⟩

end FilesAccounted

theorem owned_eq_none {reg : Registry} {sid : ConnectionId} (h : sid ∉ reg.servers) :
    reg.owned sid = none := by
  rw [Registry.owned, not_mem_iff_lookup.mp h, Option.map_none]

theorem socketPath_of_owned {capacity : ℕ} {ok : Machine → Action → Prop} {m : Machine}
    (hm : ReachableBy (machineSystem capacity) ok m) {sid : ConnectionId} {task : JoinHandle}
    {path : PathBuf} (ho : m.world.reg.owned sid = some (task, some path)) :
    sid ∈ m.world.reg.servers.keys ∧ path ∈ sid.socketPath := by
  obtain ⟨hs, -⟩ := (serversOwned_of_reachable (world_reachable_any hm)).spawned sid task _ ho
  obtain ⟨srv, hsrv, -⟩ := Option.map_eq_some_iff.mp ho
  exact ⟨Finmap.mem_keys.mpr (mem_of_lookup hsrv), hs.symm⟩

/-- No unlink before a bind removes a link that the path of a registered server goes through. -/
def KeepsPaths (m : Machine) (a : Action) : Prop :=
  ∀ p ∈ m.pending a, ∀ path ∈ p.2.input.socketPath?,
    m.world.reg.keyOf (.ipcServer path) ∉ m.world.reg.servers →
    ∀ sid ∈ m.world.reg.servers.keys, ∀ q ∈ sid.socketPath,
      (m.fs.unlinkIfStale p.1.bind.mayUnlink path).locate q = m.fs.locate q

instance (m : Machine) (a : Action) : Decidable (KeepsPaths m a) :=
  inferInstanceAs (Decidable (∀ p ∈ m.pending a, ∀ path ∈ p.2.input.socketPath?, _ → _))

theorem filesAccounted_of_reachable {capacity : ℕ} {m : Machine}
    (hm : ReachableBy (machineSystem capacity) KeepsPaths m) :
    FilesAccounted m.world.reg.owned m.fs := by
  refine machine_invariant (P := fun m ↦ FilesAccounted m.world.reg.owned m.fs) ?_ ?_ hm
  · intro m hi
    refine ⟨fun entry hmem ↦ ?_, fun sid task path ho ↦ ?_⟩
    · rw [hi.created] at hmem
      cases hmem
    · rw [hi.world] at ho
      cases ho
  intro m a m' hr h hok hstep
  cases hstep with
  | @handle answers msg rest hqueue _ _ hlistener =>
    have hunlinked : ∀ path, msg.input.socketPath? = some path →
        m.world.reg.keyOf (.ipcServer path) ∉ m.world.reg.servers →
        FilesAccounted m.world.reg.owned (m.fs.unlinkIfStale answers.bind.mayUnlink path) := by
      intro path hp hpath
      refine h.unlinked fun sid task q ho ↦ ?_
      obtain ⟨hsid, hq⟩ := socketPath_of_owned hr ho
      exact hok _ (Machine.pending_handle hqueue) path hp hpath sid hsid q hq
    refine sockets_step (Q := fun owned _ fs ↦ FilesAccounted owned fs) h
      ⟨fun _ _ _ _ hq _ ↦ hq, hunlinked, fun sid task fs log hsid hfs hq _ ↦ ?_,
        fun _ _ _ _ _ _ hq ho ↦ hq.dropped ho⟩ hlistener
    have hfree := owned_eq_none (Registry.not_server_of_keyOf hsid)
    rcases hfs with ⟨rfl, hnone⟩ | ⟨path, entry, hp, rfl, hl, hn, rfl⟩
    · rw [hnone]
      exact hq.openedTcp hfree _
    · exact (hunlinked path hp hsid).openedIpc hfree hl hn _ _
  | _ => exact h

structure OwnSockets (owned : Owners) (log : List Effect) (fs : FileSystem) : Prop where
  listeners : DistinctKeys Effect.listening log
  bound : ∀ sid task path, owned sid = some (task, some path) → ∃ entry listener,
    fs.locate path = some entry ∧ fs.nodes entry = some (.socket listener) ∧
      .spawnAccept task sid listener ∈ log
  apart : ∀ sid sid' task task' path path', owned sid = some (task, some path) →
    owned sid' = some (task', some path') → fs.locate path = fs.locate path' → sid = sid'

namespace OwnSockets

variable {owned : Owners} {log effects : List Effect} {fs : FileSystem} {sid : ConnectionId}

theorem quiet (h : OwnSockets owned log fs) (he : ∀ e ∈ effects, e.listening = none) :
    OwnSockets owned (log ++ effects) fs where
  listeners := h.listeners.append_keyless he
  bound sid task path ho := by
    obtain ⟨entry, l, hl, hn, hs⟩ := h.bound sid task path ho
    exact ⟨entry, l, hl, hn, List.mem_append_left _ hs⟩
  apart := h.apart

theorem unlinked (h : OwnSockets owned log fs) {allowed : Bool} {path : PathBuf}
    (hkept : ∀ sid task p, owned sid = some (task, some p) → fs.locate p ≠ fs.locate path ∧
      (fs.unlinkIfStale allowed path).locate p = fs.locate p) :
    OwnSockets owned log (fs.unlinkIfStale allowed path) where
  listeners := h.listeners
  bound sid task p ho := by
    obtain ⟨entry, l, hl, hn, hs⟩ := h.bound sid task p ho
    obtain ⟨hother, hsame⟩ := hkept sid task p ho
    refine ⟨entry, l, hsame.trans hl, ?_, hs⟩
    rw [FileSystem.nodes_unlinkIfStale, if_neg, hn]
    exact fun hc ↦ hother (hl.trans hc.2.1.symm)
  apart sid sid' task task' p p' ho ho' := by
    rw [(hkept sid task p ho).2, (hkept sid' task' p' ho').2]
    exact h.apart sid sid' task task' p p' ho ho'

theorem unregistered (h : OwnSockets owned log fs) :
    OwnSockets (Function.update owned sid none) log fs where
  listeners := h.listeners
  bound sid' task path ho := by
    rw [Function.update_apply] at ho
    split_ifs at ho
    exact h.bound sid' task path ho
  apart sid' sid'' task task' path path' ho ho' := by
    rw [Function.update_apply] at ho ho'
    split_ifs at ho ho'
    exact h.apart sid' sid'' task task' path path' ho ho'

theorem dropped (h : OwnSockets owned log fs) {task : JoinHandle} {path : Option PathBuf}
    (ho : owned sid = some (task, path)) :
    OwnSockets (Function.update owned sid none) log (path.elim fs fs.removeFile) := by
  cases path with
  | none => exact h.unregistered
  | some path =>
    obtain ⟨entry, l, hl, hn, -⟩ := h.bound sid task path ho
    have hlocate : (fs.removeFile path).locate = fs.locate := by
      refine FileSystem.locate_removeFile fun e he target ↦ ?_
      cases hl.symm.trans he
      rw [hn]
      nofun
    have hkept : OwnSockets (Function.update owned sid none) log (fs.unlinkIfStale true path) := by
      refine h.unregistered.unlinked fun sid' t p hp ↦ ⟨fun he ↦ ?_, congrFun hlocate p⟩
      rw [Function.update_apply] at hp
      split_ifs at hp with hne
      exact hne (h.apart sid' sid t task p path hp ho he)
    exact hkept

theorem listeners_append (h : OwnSockets owned log fs) {listener : AcceptLoop}
    (hfresh : ∀ e ∈ log, e.listening ≠ some listener) (task : JoinHandle) (sid : ConnectionId) :
    DistinctKeys Effect.listening (log ++ [.spawnAccept task sid listener]) := by
  have hnew : Effect.listening (.spawnAccept task sid listener) = some listener := rfl
  exact h.listeners.append_fresh hnew hfresh fun e he ↦ .inl (List.mem_singleton.mp he)

theorem openedTcp (h : OwnSockets owned log fs) {task : JoinHandle} {listener : AcceptLoop}
    (hfresh : ∀ e ∈ log, e.listening ≠ some listener) :
    OwnSockets (Function.update owned sid (some (task, none)))
      (log ++ [.spawnAccept task sid listener]) fs where
  listeners := h.listeners_append hfresh task sid
  bound sid' t path ho := by
    rw [Function.update_apply] at ho
    split_ifs at ho
    · cases ho
    · obtain ⟨entry, l, hl, hn, hs⟩ := h.bound sid' t path ho
      exact ⟨entry, l, hl, hn, List.mem_append_left _ hs⟩
  apart sid' sid'' t t' path path' ho ho' := by
    rw [Function.update_apply] at ho ho'
    split_ifs at ho ho'
    all_goals first | cases ho | cases ho' | exact h.apart sid' sid'' t t' path path' ho ho'

theorem openedIpc (h : OwnSockets owned log fs) {task : JoinHandle} {listener : AcceptLoop}
    (hfresh : ∀ e ∈ log, e.listening ≠ some listener) {path : PathBuf} {entry : Entry}
    (hl : fs.locate path = some entry) (hnone : fs.nodes entry = none) :
    OwnSockets (Function.update owned sid (some (task, some path)))
      (log ++ [.spawnAccept task sid listener]) (fs.create entry listener) := by
  have hother : ∀ sid' t p, owned sid' = some (t, some p) → fs.locate p ≠ some entry := by
    intro sid' t p ho hp
    obtain ⟨e, l, he, hn, -⟩ := h.bound sid' t p ho
    cases hp.symm.trans he
    cases hnone.symm.trans hn
  refine ⟨h.listeners_append hfresh task sid, fun sid' t p ho ↦ ?_,
    fun sid' sid'' t t' p p' ho ho' hp ↦ ?_⟩
  · rw [Function.update_apply] at ho
    rw [FileSystem.locate_create hnone]
    split_ifs at ho with he
    · cases ho
      refine ⟨entry, listener, hl, ?_, List.mem_append_right _ (he ▸ List.mem_singleton_self _)⟩
      rw [FileSystem.nodes_create, if_pos rfl]
    · obtain ⟨e, l, hp, hn, hs⟩ := h.bound sid' t p ho
      refine ⟨e, l, hp, ?_, List.mem_append_left _ hs⟩
      rw [FileSystem.nodes_create, if_neg, hn]
      rintro rfl
      exact hother sid' t p ho hp
  · rw [FileSystem.locate_create hnone] at hp
    rw [Function.update_apply] at ho ho'
    split_ifs at ho ho' with he he' he'
    · rw [he, he']
    · cases ho
      exact (hother sid'' t' p' ho' (hp.symm.trans hl)).elim
    · cases ho'
      exact (hother sid' t p ho (hp.trans hl)).elim
    · exact h.apart sid' sid'' t t' p p' ho ho' hp

end OwnSockets

/-- No server is opened on a path that leads to the socket file of another one, nor
on one that is a link which the path of another one goes through. -/
def AliasesNone (m : Machine) (a : Action) : Prop :=
  ∀ p ∈ m.pending a, ∀ path ∈ p.2.input.socketPath?,
    m.world.reg.keyOf (.ipcServer path) ∉ m.world.reg.servers →
    ∀ sid ∈ m.world.reg.servers.keys, ∀ q ∈ sid.socketPath, m.fs.locate q ≠ m.fs.locate path ∧
      (m.fs.unlinkIfStale p.1.bind.mayUnlink path).locate q = m.fs.locate q

instance (m : Machine) (a : Action) : Decidable (AliasesNone m a) :=
  inferInstanceAs (Decidable (∀ p ∈ m.pending a, ∀ path ∈ p.2.input.socketPath?, _ → _))

theorem ownSockets_of_reachable {capacity : ℕ} {m : Machine}
    (hm : ReachableBy (machineSystem capacity) AliasesNone m) :
    OwnSockets m.world.reg.owned m.world.log m.fs := by
  refine machine_invariant (P := fun m ↦ OwnSockets m.world.reg.owned m.world.log m.fs) ?_ ?_ hm
  · intro m hi
    rw [hi.world]
    exact ⟨.nil, fun sid _ _ ho ↦ (by cases ho), fun sid _ _ _ _ _ ho ↦ (by cases ho)⟩
  intro m a m' hr h hok hstep
  cases hstep with
  | @handle answers msg rest hqueue _ _ hlistener =>
    have hunlinked : ∀ path, msg.input.socketPath? = some path →
        m.world.reg.keyOf (.ipcServer path) ∉ m.world.reg.servers →
        ∀ log, OwnSockets m.world.reg.owned log m.fs →
        OwnSockets m.world.reg.owned log (m.fs.unlinkIfStale answers.bind.mayUnlink path) := by
      intro path hp hpath log hlog
      refine hlog.unlinked fun sid task q ho ↦ ?_
      obtain ⟨hsid, hq⟩ := socketPath_of_owned hr ho
      exact hok _ (Machine.pending_handle hqueue) path hp hpath sid hsid q hq
    refine sockets_step h ⟨fun _ _ _ _ hq he ↦ hq.quiet he,
      fun path hp hpath ↦ hunlinked path hp hpath _ h,
      fun sid task fs log hsid hfs hq hfresh ↦ ?_,
      fun _ _ _ _ _ _ hq ho ↦ hq.dropped ho⟩ hlistener
    rcases hfs with ⟨rfl, hnone⟩ | ⟨path, entry, hp, rfl, hl, hn, rfl⟩
    · rw [hnone]
      exact hq.openedTcp hfresh
    · exact (hunlinked path hp hsid log hq).openedIpc hfresh hl hn
  | _ => exact h

/-- The path of every registered IPC server names the socket that the bind of
this server created, and no other. -/
def SocketsNamed (m : Machine) : Prop :=
  ∀ sid srv path, m.world.reg.servers.lookup sid = some srv → srv.ipcPath = some path →
    ∃ entry listener, m.fs.locate path = some entry ∧
      m.fs.nodes entry = some (.socket listener) ∧
      .spawnAccept srv.acceptTask sid listener ∈ m.world.log ∧
      ∀ e ∈ m.world.log, e.listening = some listener → e = .spawnAccept srv.acceptTask sid listener

/-- In every run in which no server is opened over the socket file of a registered
one, or over a link on the way to it, each keeps its own. -/
theorem socketsNamed_of_reachable {capacity : ℕ} {m : Machine}
    (hm : ReachableBy (machineSystem capacity) AliasesNone m) : SocketsNamed m := by
  have h := ownSockets_of_reachable hm
  intro sid srv path hsrv hpath
  have ho : m.world.reg.owned sid = some (srv.acceptTask, some path) := by
    rw [Registry.owned, hsrv, Option.map_some, hpath]
  obtain ⟨entry, listener, hl, hn, hs⟩ := h.bound sid _ path ho
  exact ⟨entry, listener, hl, hn, hs, fun e he hk ↦ h.listeners e he _ hs listener hk rfl⟩

def tmpFiles : FileSystem where
  resolve _ path := some (if path.toList.head? = some '/' then path else "/tmp/" ++ path)
  nodes _ := none
  created := []

def linkedFiles : FileSystem where
  resolve waypoints path :=
    match Text.dropPrefix "/tmp/d/".toList path.toList with
    | some name =>
      match waypoints "/tmp/d" with
      | some (.symlink target) => some (target ++ "/" ++ String.ofList name)
      | _ => none
    | none => some path
  nodes entry := if entry = "/tmp/d" then some (.symlink "/tmp/real") else
    if entry = "/tmp/real" then some .directory else none
  created := []

theorem sockets_named_on_two_paths :
    ∃ m, run (Machine.next 1024) (fun m a ↦ decide (AliasesNone m a)) (.idle tmpFiles)
        [.command (.openIpcServer "/tmp/a.sock"), .handle (.granting 0 []),
          .command (.openIpcServer "b.sock"), .handle (.granting 1 []),
          .command (.close "/tmp/a.sock"), .handle (.granting 2 [])] = some m ∧
      m.world.reg.servers.keys = {.ipcServer "b.sock"} ∧ SocketsNamed m := by
  have hrun : ∃ m ∈ run (Machine.next 1024) (fun m a ↦ decide (AliasesNone m a)) (.idle tmpFiles)
      [.command (.openIpcServer "/tmp/a.sock"), .handle (.granting 0 []),
        .command (.openIpcServer "b.sock"), .handle (.granting 1 []),
        .command (.close "/tmp/a.sock"), .handle (.granting 2 [])],
      m.world.reg.servers.keys = {.ipcServer "b.sock"} := by decide +kernel
  obtain ⟨m, hm, hk⟩ := hrun
  exact ⟨m, hm, hk, socketsNamed_of_reachable
    (reachableBy_of_run (fun _ _ hg ↦ of_decide_eq_true hg) hm)⟩

/-- Opening `a.sock` in `/tmp` takes the socket file of `/tmp/a.sock`. -/
theorem socket_taken_by_alias :
    ∃ m, run (Machine.next 1024) (fun _ _ ↦ true) (.idle tmpFiles)
        [.command (.openIpcServer "/tmp/a.sock"), .handle (.granting 0 []),
          .command (.openIpcServer "a.sock"), .handle (.granting 1 [])] = some m ∧
      ¬SocketsNamed m := by
  have hrun : ∃ m ∈ run (Machine.next 1024) (fun _ _ ↦ true) (.idle tmpFiles)
      [.command (.openIpcServer "/tmp/a.sock"), .handle (.granting 0 []),
        .command (.openIpcServer "a.sock"), .handle (.granting 1 [])],
      m.fs.locate "/tmp/a.sock" = some "/tmp/a.sock" ∧
        m.fs.nodes "/tmp/a.sock" = some (.socket 1) ∧
        (m.world.reg.servers.lookup (.ipcServer "/tmp/a.sock")).map
          (fun srv ↦ (srv.ipcPath, srv.acceptTask)) = some (some "/tmp/a.sock", 0) ∧
        .spawnAccept 0 (.ipcServer "/tmp/a.sock") 1 ∉ m.world.log := by decide +kernel
  obtain ⟨m, hm, hl, hn, hsrv, hlog⟩ := hrun
  obtain ⟨srv, hsrv, he⟩ := Option.map_eq_some_iff.mp hsrv
  obtain ⟨hpath, htask⟩ := Prod.mk.inj he
  refine ⟨m, hm, fun h ↦ ?_⟩
  obtain ⟨entry, listener, hl', hn', hs, -⟩ := h _ srv _ hsrv hpath
  cases hl.symm.trans hl'
  cases hn.symm.trans hn'
  rw [htask] at hs
  exact hlog hs

/-- Opening the link `/tmp/d` takes the way to the socket file of `/tmp/d/a.sock`. -/
example : ∃ m ∈ run (Machine.next 1024) (fun _ _ ↦ true) (.idle linkedFiles)
    [.command (.openIpcServer "/tmp/d/a.sock"), .handle (.granting 0 []),
      .command (.openIpcServer "/tmp/d"), .handle (.granting 1 [])],
    m.world.reg.servers.keys = {.ipcServer "/tmp/d/a.sock", .ipcServer "/tmp/d"} ∧
      m.fs.locate "/tmp/d/a.sock" = none ∧
      m.fs.nodes "/tmp/real/a.sock" = some (.socket 0) := by decide +kernel

end WireDock
