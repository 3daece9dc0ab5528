import WireDock.Registry.Labels

namespace WireDock

open FiniteMap LabelledSystem

def ConnectionId.socketPath : ConnectionId → Option PathBuf
  | ipcServer path => some path
  | _ => none

namespace Registry

variable {reg reg' : Registry} {id : ConnectionId}

/-- What a registered server owns outside of the registry: its accept task and
its socket file. -/
def owned (reg : Registry) (sid : ConnectionId) : Option (JoinHandle × Option PathBuf) :=
  (reg.servers.lookup sid).map fun srv ↦ (srv.acceptTask, srv.ipcPath)

theorem owned_insertStream (s : StreamHandle) (sid : ConnectionId) :
    (reg.insertStream s).owned sid = reg.owned sid := by
  rw [owned, owned, lookup_servers_insertStream, Option.map_map]
  refine congrArg (fun f ↦ (reg.servers.lookup sid).map f) (funext fun srv ↦ ?_)
  rw [Function.comp_apply]
  split_ifs <;> rfl

theorem owned_dropStream (sid : ConnectionId) :
    (reg.dropStream id).1.owned sid = reg.owned sid := by
  rw [owned, owned, lookup_servers_dropStream, Option.map_map]
  refine congrArg (fun f ↦ (reg.servers.lookup sid).map f) (funext fun srv ↦ ?_)
  rw [Function.comp_apply]
  split_ifs <;> rfl

theorem owned_replaceLabel {typed : ConnectionId} {name : String} (sid : ConnectionId) :
    (reg.replaceLabel id typed name).1.owned sid = reg.owned sid := by
  rw [owned, owned, lookup_servers_replaceLabel, Option.map_map]
  refine congrArg (fun f ↦ (reg.servers.lookup sid).map f) (funext fun srv ↦ ?_)
  rw [Function.comp_apply]
  split_ifs <;> rfl

theorem owned_dropServer {order : IterationOrder ConnectionId} {srv : ServerHandle}
    (hid : reg.servers.lookup id = some srv) (sid : ConnectionId) :
    (reg.dropServer order id).1.owned sid = if sid = id then none else reg.owned sid := by
  rw [owned, owned, lookup_servers_dropServer hid]
  split_ifs
  · rfl
  · rw [Option.map_map]
    rfl

theorem owned_setServer {srv srv' : ServerHandle} (hid : reg.servers.lookup id = some srv)
    (ht : srv'.acceptTask = srv.acceptTask) (hp : srv'.ipcPath = srv.ipcPath)
    (sid : ConnectionId) :
    ({ reg with servers := reg.servers.insert id srv' } : Registry).owned sid = reg.owned sid := by
  rw [owned, owned, lookup_insert]
  split_ifs with he
  · rw [he, hid, Option.map_some, Option.map_some, ht, hp]
  · rfl

theorem owned_openServer {task : JoinHandle} {path : Option PathBuf} (sid : ConnectionId) :
    ({ reg with servers := reg.servers.insert id (.opened id task path) } : Registry).owned sid =
      if sid = id then some (task, path) else reg.owned sid := by
  rw [owned, owned, lookup_insert]
  split_ifs <;> rfl

theorem Allocated.owned {b : Base} {ev : Option NetEvent} (h : reg.Allocated b reg' id ev)
    (sid : ConnectionId) : reg'.owned sid = reg.owned sid := by
  cases h with
  | first hsrv | next hsrv => refine owned_setServer hsrv ?_ ?_ sid <;> rfl
  | second hsrv hold hstreams hservers =>
    rw [Registry.owned, Registry.owned, hservers, lookup_servers_rename, Option.map_map,
      Option.map_map]
    refine congrArg (fun f ↦ (reg.servers.lookup sid).map f) (funext fun srv ↦ ?_)
    simp only [Function.comp_apply]
    split_ifs <;> rfl

end Registry

/-- The accept tasks and the registered servers account for each other, and
the socket path of a server is the one in its id. -/
structure ServersOwned (reg : Registry) (log : List Effect) : Prop where
  accounted : ∀ task sid listener, .spawnAccept task sid listener ∈ log →
    .abort task ∈ log ∨ ∃ path, reg.owned sid = some (task, path)
  spawned : ∀ sid task path, reg.owned sid = some (task, path) →
    path = sid.socketPath ∧ ∃ listener, .spawnAccept task sid listener ∈ log

namespace ServersOwned

variable {reg reg' : Registry} {log effects : List Effect}

theorem new : ServersOwned .new [] where
  accounted _ _ _ h := by cases h
  spawned _ _ _ h := by cases h

theorem of_owned (h : ServersOwned reg log) (ho : ∀ sid, reg'.owned sid = reg.owned sid)
    (he : ∀ task sid listener, .spawnAccept task sid listener ∉ effects) :
    ServersOwned reg' (log ++ effects) where
  accounted task sid listener hs := by
    rw [ho]
    exact (h.accounted task sid listener ((List.mem_append.mp hs).resolve_right (he _ _ _))).imp
      (List.mem_append_left _) fun hp ↦ hp
  spawned sid task path hs := by
    obtain ⟨hp, listener, hl⟩ := h.spawned sid task path (ho sid ▸ hs)
    exact ⟨hp, listener, List.mem_append_left _ hl⟩

theorem openServer (h : ServersOwned reg log) {id : ConnectionId} {endpoint : ServerEndpoint}
    {task : JoinHandle} {listener : AcceptLoop} {text : String} (hid : id ∉ reg.servers) :
    ServersOwned { reg with servers := reg.servers.insert id (.opened id task id.socketPath) }
      (log ++ [.bind endpoint, .spawnAccept task id listener, say text]) where
  accounted t sid l hs := by
    rw [Registry.owned_openServer]
    rcases List.mem_append.mp hs with hs | hs
    · refine (h.accounted t sid l hs).imp (List.mem_append_left _) fun ⟨path, hp⟩ ↦ ?_
      have hne : sid ≠ id := by
        rintro rfl
        rw [Registry.owned, not_mem_iff_lookup.mp hid] at hp
        cases hp
      exact ⟨path, by rw [if_neg hne, hp]⟩
    · simp only [say, List.mem_cons, List.not_mem_nil, or_false, reduceCtorEq, false_or,
        Effect.spawnAccept.injEq] at hs
      obtain ⟨rfl, rfl, -⟩ := hs
      exact .inr ⟨_, if_pos rfl⟩
  spawned sid t path hs := by
    rw [Registry.owned_openServer] at hs
    split_ifs at hs with he
    · cases hs
      exact ⟨by rw [he], listener, List.mem_append_right _ (by rw [he]; simp)⟩
    · obtain ⟨hp, l, hl⟩ := h.spawned sid t path hs
      exact ⟨hp, l, List.mem_append_left _ hl⟩

theorem dropServer (h : ServersOwned reg log) (order : IterationOrder ConnectionId)
    (id : ConnectionId) (hsub : ∀ e ∈ (reg.dropServer order id).2, e ∈ effects)
    (he : ∀ task sid listener, .spawnAccept task sid listener ∉ effects) :
    ServersOwned (reg.dropServer order id).1 (log ++ effects) := by
  cases hid : reg.servers.lookup id with
  | none =>
    rw [show (reg.dropServer order id).1 = reg by simp only [Registry.dropServer, hid]]
    exact h.of_owned (fun _ ↦ rfl) he
  | some srv =>
    refine ⟨fun task sid listener hs ↦ ?_, fun sid task path hs ↦ ?_⟩
    · rw [Registry.owned_dropServer hid]
      rcases h.accounted task sid listener ((List.mem_append.mp hs).resolve_right (he _ _ _)) with
        ha | ⟨path, hp⟩
      · exact .inl (List.mem_append_left _ ha)
      · split_ifs with heq
        · rw [heq, Registry.owned, hid, Option.map_some, Option.some.injEq] at hp
          cases hp
          exact .inl (List.mem_append_right _
            (hsub _ ((Registry.mem_effects_dropServer hid).mpr (.inl rfl))))
        · exact .inr ⟨path, hp⟩
    · rw [Registry.owned_dropServer hid] at hs
      split_ifs at hs
      obtain ⟨hp, listener, hl⟩ := h.spawned sid task path hs
      exact ⟨hp, listener, List.mem_append_left _ hl⟩

end ServersOwned

theorem not_spawnAccept {effects : List Effect} (h : ∀ e ∈ effects, e.spawned = none)
    (task : JoinHandle) (sid : ConnectionId) (listener : AcceptLoop) :
    .spawnAccept task sid listener ∉ effects := fun hm ↦ by cases h _ hm

theorem spawned_say {effects : List Effect} {text : String} (h : ∀ e ∈ effects, e.spawned = none) :
    ∀ e ∈ effects ++ [say text], e.spawned = none := by
  intro e hm
  rcases List.mem_append.mp hm with hm | hm
  · exact h e hm
  · rw [List.mem_singleton.mp hm]
    rfl

theorem spawned_register {env : Environment} {parent : ConnectionId} {peerInfo : PeerInfo}
    {stream : BoxedStream} {reg : Registry} {id : ConnectionId} {ev : Option NetEvent}
    {e : Effect} {task : JoinHandle}
    (h : e ∈ (Registry.register env parent peerInfo stream (reg, id, ev)).2)
    (hs : e.spawned = some task) : e = .spawnRead env.spawn id stream := by
  simp only [Registry.register, spawnStream, say, List.mem_append, List.mem_cons, List.not_mem_nil,
    or_false] at h
  rcases h with h | rfl | rfl
  · unfold Registry.renamedLine at h
    split at h
    · cases List.mem_singleton.mp h
      cases hs
    · cases h
  · rfl
  · cases hs

theorem Registry.Change.spawns {env : Environment} {reg reg' : Registry} {input : RegistryInput}
    {effects : List Effect} (hc : Registry.Change env reg input effects reg') :
    (∀ e ∈ effects, e.spawned = none) ∨
      ∃ e₀, e₀.spawned = some env.spawn ∧ ∀ e ∈ effects, e = e₀ ∨ e.spawned = none := by
  cases hc with
  | silent hs => exact .inl fun e he ↦ Registry.spawned_silent (hs e he)
  | bindRefused => exact .inl (by simp [Effect.spawned])
  | @serverOpened cmd id endpoint path listener =>
    exact .inr ⟨.spawnAccept env.spawn id listener, rfl, by simp [say, Effect.spawned]⟩
  | connectRefused => exact .inl (by simp [Effect.spawned])
  | @clientOpened cmd id endpoint peer seq stream =>
    exact .inr ⟨.spawnRead env.spawn id stream, rfl, by simp [say, Effect.spawned]⟩
  | labelled => exact .inl fun _ he ↦ (by cases he)
  | streamDropped => exact .inl (spawned_say Registry.spawned_dropStream)
  | serverDropped => exact .inl (spawned_say Registry.spawned_dropServer)
  | @accepted _ _ _ stream b reg₁ id ev hb ha =>
    refine .inr ⟨.spawnRead env.spawn id stream, rfl, fun e he ↦ ?_⟩
    cases hs : e.spawned with
    | none => exact .inr rfl
    | some task => exact .inl (spawned_register he hs)

theorem serversOwned_of_reachable {ok : World → Environment × RegistryInput → Prop} {w : World}
    (hw : ReachableBy registrySystem ok w) : ServersOwned w.reg w.log := by
  refine registry_invariant (P := ServersOwned) .new ?_
    (fun order _ _ id h ↦ h.dropServer order id (fun _ he ↦ he)
      (not_spawnAccept Registry.spawned_dropServer))
    (fun _ _ id h ↦ h.of_owned Registry.owned_dropStream
      (not_spawnAccept Registry.spawned_dropStream)) hw
  intro w env input effects reg' _ h _ _ hc
  cases hc with
  | silent hs =>
    exact h.of_owned (fun _ ↦ rfl) (not_spawnAccept fun e he ↦ Registry.spawned_silent (hs e he))
  | bindRefused => exact h.of_owned (fun _ ↦ rfl) (by simp)
  | serverOpened ho hid =>
    have hpath := ho
    unfold Registry.opensServer at hpath
    split at hpath <;> cases hpath <;>
      exact h.openServer (Registry.not_server_of_keyOf hid)
  | connectRefused => exact h.of_owned (fun _ ↦ rfl) (by simp)
  | clientOpened =>
    exact h.of_owned (fun sid ↦ Registry.owned_insertStream _ sid) (by simp [say])
  | labelled => exact h.of_owned Registry.owned_replaceLabel (by simp)
  | streamDropped =>
    exact h.of_owned Registry.owned_dropStream
      (not_spawnAccept (spawned_say Registry.spawned_dropStream))
  | serverDropped =>
    exact h.dropServer _ _ (fun _ he ↦ List.mem_append_left _ he)
      (not_spawnAccept (spawned_say Registry.spawned_dropServer))
  | accepted hb ha =>
    refine h.of_owned (fun sid ↦ (Registry.owned_insertStream _ sid).trans (ha.owned sid)) ?_
    intro task sid listener hm
    cases spawned_register hm rfl

namespace Registry

variable {reg reg' : Registry} {id k : ConnectionId}

def readTask (reg : Registry) (id : ConnectionId) : Option JoinHandle :=
  (reg.streams.lookup id).map (·.readTask)

theorem readTask_insertStream (s : StreamHandle) :
    (reg.insertStream s).readTask k = if k = s.state.id then some s.readTask else reg.readTask k := by
  rw [readTask, readTask,
    show (reg.insertStream s).streams = reg.streams.insert s.state.id s from rfl, lookup_insert]
  split_ifs <;> rfl

theorem readTask_dropStream :
    (reg.dropStream id).1.readTask k = if k = id then none else reg.readTask k := by
  rw [readTask, readTask, dropStream_streams, lookup_erase]
  split_ifs <;> rfl

theorem readTask_dropServer {order : IterationOrder ConnectionId} {srv : ServerHandle}
    (hid : reg.servers.lookup id = some srv) :
    (reg.dropServer order id).1.readTask k = if k ∈ srv.children then none else reg.readTask k := by
  rw [readTask, readTask, lookup_streams_dropServer hid]
  split_ifs <;> rfl

theorem readTask_replaceLabel {typed : ConnectionId} {name : String} :
    (reg.replaceLabel id typed name).1.readTask k = reg.readTask k := by
  rw [readTask, readTask, lookup_streams_replaceLabel, Option.map_map]
  refine congrArg (fun f ↦ (reg.streams.lookup k).map f) (funext fun s ↦ ?_)
  rw [Function.comp_apply]
  split_ifs <;> rfl

theorem readTask_eq_none : reg.readTask k = none ↔ k ∉ reg.streams := by
  rw [readTask, Option.map_eq_none_iff, not_mem_iff_lookup]

/-- An allocation re-keys the streams: no read task is lost or gained. -/
theorem Allocated.readTask {b : Base} {ev : Option NetEvent} (ht : Tracked reg)
    (h : reg.Allocated b reg' id ev) :
    ∃ σ : Equiv.Perm ConnectionId, ∀ k, reg'.readTask k = reg.readTask (σ k) := by
  cases h with
  | first | next => exact ⟨Equiv.refl _, fun _ ↦ rfl⟩
  | @second srv old _ hsrv hold hstreams =>
    cases ht.lookup_base hsrv hold
    have hone : reg.readTask (b.accepted (some 1)) = none :=
      readTask_eq_none.mpr (not_live_of_unsuffixed ht hsrv hold)
    refine ⟨Equiv.swap (b.accepted none) (b.accepted (some 1)), fun k ↦ ?_⟩
    rw [Registry.readTask, hstreams, lookup_streams_rename, Equiv.swap_apply_def]
    cases hl : reg.streams.lookup (b.accepted none) with
    | none =>
      have hnone : reg.readTask (b.accepted none) = none := by rw [Registry.readTask, hl]; rfl
      simp only
      split_ifs with h₀ h₁
      · rw [hone, h₀, hl, Option.map_none]
      · rw [hnone, h₁, ← hone, Registry.readTask]
      · rfl
    | some s =>
      simp only
      split_ifs with h₁ h₀ h₀
      · exact (Base.accepted_ne (by simp) (h₀.symm.trans h₁)).elim
      · rw [Registry.readTask, hl]
        rfl
      · rw [hone, Option.map_none]
      · rfl

end Registry

structure StreamsOwned (reg : Registry) (log : List Effect) : Prop where
  spawned : ∀ id task, reg.readTask id = some task → ∃ id₀ stream, .spawnRead task id₀ stream ∈ log
  injective : ∀ id id' task, reg.readTask id = some task → reg.readTask id' = some task → id = id'

def ReadsAccounted (reg : Registry) (log : List Effect) : Prop :=
  ∀ task id stream, .spawnRead task id stream ∈ log →
    .abort task ∈ log ∨ ∃ k, reg.readTask k = some task

section Streams

variable {reg reg' : Registry} {log effects : List Effect}

theorem StreamsOwned.of_readTask (h : StreamsOwned reg log) {f : ConnectionId → ConnectionId}
    (hf : Function.Injective f)
    (hr : ∀ k task, reg'.readTask k = some task → reg.readTask (f k) = some task) :
    StreamsOwned reg' (log ++ effects) where
  spawned id task hid := by
    obtain ⟨id₀, stream, hs⟩ := h.spawned _ task (hr id task hid)
    exact ⟨id₀, stream, List.mem_append_left _ hs⟩
  injective id id' task hid hid' := hf (h.injective _ _ task (hr id task hid) (hr id' task hid'))

theorem StreamsOwned.insertStream (h : StreamsOwned reg log) {s : StreamHandle}
    (hfresh : ∀ e ∈ log, e.spawned ≠ some s.readTask)
    (hs : .spawnRead s.readTask s.state.id s.stream ∈ effects) :
    StreamsOwned (reg.insertStream s) (log ++ effects) := by
  have hother : ∀ k task, reg.readTask k = some task → task ≠ s.readTask := by
    rintro k task hk rfl
    obtain ⟨id₀, stream, hl⟩ := h.spawned k _ hk
    exact hfresh _ hl rfl
  constructor
  · intro id task hid
    rw [Registry.readTask_insertStream] at hid
    split_ifs at hid
    · cases hid
      exact ⟨_, _, List.mem_append_right _ hs⟩
    · obtain ⟨id₀, stream, hl⟩ := h.spawned id task hid
      exact ⟨id₀, stream, List.mem_append_left _ hl⟩
  · intro id id' task hid hid'
    rw [Registry.readTask_insertStream] at hid hid'
    split_ifs at hid hid' with h₁ h₂ h₂
    · rw [h₁, h₂]
    · cases hid
      exact (hother id' _ hid' rfl).elim
    · cases hid'
      exact (hother id _ hid rfl).elim
    · exact h.injective id id' task hid hid'

theorem ReadsAccounted.of_readTask (h : ReadsAccounted reg log)
    (hr : ∀ k task, reg.readTask k = some task →
      .abort task ∈ effects ∨ ∃ k', reg'.readTask k' = some task)
    (he : ∀ task id stream, .spawnRead task id stream ∉ effects) :
    ReadsAccounted reg' (log ++ effects) := by
  intro task id stream hs
  rcases h task id stream ((List.mem_append.mp hs).resolve_right (he _ _ _)) with ha | ⟨k, hk⟩
  · exact .inl (List.mem_append_left _ ha)
  · exact (hr k task hk).imp (List.mem_append_right _) fun hk ↦ hk

theorem ReadsAccounted.insertStream (h : ReadsAccounted reg log) {s : StreamHandle}
    (hid : s.state.id ∉ reg.streams)
    (he : ∀ task id stream, .spawnRead task id stream ∈ effects → task = s.readTask) :
    ReadsAccounted (reg.insertStream s) (log ++ effects) := by
  intro task id stream hs
  rcases List.mem_append.mp hs with hs | hs
  · refine (h task id stream hs).imp (List.mem_append_left _) fun ⟨k, hk⟩ ↦ ⟨k, ?_⟩
    rw [Registry.readTask_insertStream, if_neg, hk]
    rintro rfl
    cases (Registry.readTask_eq_none.mpr hid).symm.trans hk
  · exact .inr ⟨s.state.id, by rw [Registry.readTask_insertStream, if_pos rfl, he _ _ _ hs]⟩

end Streams

namespace Registry

variable {reg : Registry} {id k : ConnectionId} {task : JoinHandle}

theorem readTask_of_dropStream (h : (reg.dropStream id).1.readTask k = some task) :
    reg.readTask k = some task := by
  rw [readTask_dropStream] at h
  split_ifs at h
  exact h

theorem readTask_of_dropServer {order : IterationOrder ConnectionId}
    (h : (reg.dropServer order id).1.readTask k = some task) : reg.readTask k = some task := by
  cases hid : reg.servers.lookup id with
  | none => rwa [show (reg.dropServer order id).1 = reg by simp only [dropServer, hid]] at h
  | some srv =>
    rw [readTask_dropServer hid] at h
    split_ifs at h
    exact h

theorem abort_or_kept_dropStream (h : reg.readTask k = some task) :
    .abort task ∈ (reg.dropStream id).2 ∨ (reg.dropStream id).1.readTask k = some task := by
  by_cases hk : k = id
  · obtain ⟨s, hs, rfl⟩ := Option.map_eq_some_iff.mp h
    rw [dropStream_effects, ← hk, hs]
    exact .inl List.mem_cons_self
  · exact .inr (by rw [readTask_dropStream, if_neg hk, h])

theorem abort_or_kept_dropServer {order : IterationOrder ConnectionId}
    (h : reg.readTask k = some task) : .abort task ∈ (reg.dropServer order id).2 ∨
      (reg.dropServer order id).1.readTask k = some task := by
  cases hid : reg.servers.lookup id with
  | none =>
    exact .inr (by rwa [show (reg.dropServer order id).1 = reg by simp only [dropServer, hid]])
  | some srv =>
    by_cases hk : k ∈ srv.children
    · obtain ⟨s, hs, rfl⟩ := Option.map_eq_some_iff.mp h
      exact .inl ((mem_effects_dropServer hid).mpr (.inr (.inl ⟨k, hk, s, hs, rfl⟩)))
    · exact .inr (by rw [readTask_dropServer hid, if_neg hk, h])

end Registry

theorem not_spawnRead {effects : List Effect} (h : ∀ e ∈ effects, e.spawned = none)
    (task : JoinHandle) (id : ConnectionId) (stream : BoxedStream) :
    .spawnRead task id stream ∉ effects := fun hm ↦ by cases h _ hm

theorem streamsOwned_of_reachable {ok : World → Environment × RegistryInput → Prop} {w : World}
    (hw : ReachableBy registrySystem ok w) : StreamsOwned w.reg w.log := by
  have hid : Function.Injective (fun k : ConnectionId ↦ k) := fun _ _ h ↦ h
  refine registry_invariant (P := StreamsOwned)
    ⟨fun _ _ h ↦ (by cases h), fun _ _ _ h ↦ (by cases h)⟩ ?_
    (fun _ _ _ _ h ↦ h.of_readTask hid fun _ _ ↦ Registry.readTask_of_dropServer)
    (fun _ _ _ h ↦ h.of_readTask hid fun _ _ ↦ Registry.readTask_of_dropStream) hw
  intro w env input effects reg' hr h _ hfresh hc
  cases hc with
  | silent => exact h.of_readTask hid fun _ _ hk ↦ hk
  | bindRefused => exact h.of_readTask hid fun _ _ hk ↦ hk
  | serverOpened => exact h.of_readTask hid fun _ _ hk ↦ hk
  | connectRefused => exact h.of_readTask hid fun _ _ hk ↦ hk
  | @clientOpened cmd id endpoint peer seq stream text ho =>
    have hseq : StreamsOwned { w.reg with nextIpcClientSeq := seq } w.log := ⟨h.1, h.2⟩
    exact hseq.insertStream hfresh (List.mem_cons_of_mem _ List.mem_cons_self)
  | labelled =>
    exact h.of_readTask hid fun _ _ hk ↦ Registry.readTask_replaceLabel ▸ hk
  | streamDropped => exact h.of_readTask hid fun _ _ ↦ Registry.readTask_of_dropStream
  | serverDropped => exact h.of_readTask hid fun _ _ ↦ Registry.readTask_of_dropServer
  | accepted hb ha =>
    obtain ⟨σ, hσ⟩ := ha.readTask (tracked_of_reachable hr)
    have hkeyed : StreamsOwned _ (w.log ++ []) :=
      h.of_readTask σ.injective fun k task hk ↦ hσ k ▸ hk
    rw [List.append_nil] at hkeyed
    exact hkeyed.insertStream hfresh
      (List.mem_append_right _ List.mem_cons_self)

/-- No step replaces a registered stream by another one. -/
def DisplacesNone (w : World) (a : Environment × RegistryInput) : Prop :=
  (∀ b ∈ Registry.acceptedBase? a.2, ∀ n ∈ w.reg.counter b,
    b.accepted (some n) ∉ w.reg.streams) ∧
  ∀ path ∈ Registry.ipcConnect? a.2, (a.1.connect (.ipc path)).isOk = true →
    .ipcClient w.reg.nextIpcClientSeq ∉ w.reg.streams

instance (w : World) (a : Environment × RegistryInput) : Decidable (DisplacesNone w a) :=
  -- not through the finitely many suffixes there are
  have _ (b : Base) : Decidable (∀ n ∈ w.reg.counter b, b.accepted (some n) ∉ w.reg.streams) :=
    Option.decidableForallMem _
  inferInstanceAs (Decidable (_ ∧ _))

theorem readsAccounted_of_reachable {w : World}
    (hw : ReachableBy registrySystem DisplacesNone w) : ReadsAccounted w.reg w.log := by
  refine registry_invariant (P := ReadsAccounted) (fun _ _ _ h ↦ by cases h) ?_
    (fun _ _ _ _ h ↦ h.of_readTask
      (fun k _ hk ↦ (Registry.abort_or_kept_dropServer hk).imp_right fun hk ↦ ⟨k, hk⟩)
      (not_spawnRead Registry.spawned_dropServer))
    (fun _ _ _ h ↦ h.of_readTask
      (fun k _ hk ↦ (Registry.abort_or_kept_dropStream hk).imp_right fun hk ↦ ⟨k, hk⟩)
      (not_spawnRead Registry.spawned_dropStream)) hw
  intro w env input effects reg' hr h hok _ hc
  cases hc with
  | silent hs =>
    exact h.of_readTask (fun k _ hk ↦ .inr ⟨k, hk⟩)
      (not_spawnRead fun e he ↦ Registry.spawned_silent (hs e he))
  | bindRefused => exact h.of_readTask (fun k _ hk ↦ .inr ⟨k, hk⟩) (by simp)
  | serverOpened => exact h.of_readTask (fun k _ hk ↦ .inr ⟨k, hk⟩) (by simp [say])
  | connectRefused => exact h.of_readTask (fun k _ hk ↦ .inr ⟨k, hk⟩) (by simp)
  | @clientOpened cmd id endpoint peer seq stream text ho hfree hconn =>
    have hid : id ∉ w.reg.streams := by
      cases cmd <;> cases ho
      · exact hfree.resolve_right fun he ↦ (by cases he)
      · exact hok.2 _ rfl (by rw [hconn]; rfl)
    have hseq : ReadsAccounted { w.reg with nextIpcClientSeq := seq } w.log := h
    refine hseq.insertStream hid fun task id' stream' hm ↦ ?_
    simp only [say, List.mem_cons, reduceCtorEq, List.not_mem_nil, or_false, false_or,
      Effect.spawnRead.injEq] at hm
    exact hm.1
  | labelled =>
    exact h.of_readTask (fun k _ hk ↦ .inr ⟨k, Registry.readTask_replaceLabel.trans hk⟩) (by simp)
  | streamDropped =>
    exact h.of_readTask (fun k _ hk ↦ (Registry.abort_or_kept_dropStream hk).imp
      (List.mem_append_left _) fun hk ↦ ⟨k, hk⟩)
      (not_spawnRead (spawned_say Registry.spawned_dropStream))
  | serverDropped =>
    exact h.of_readTask (fun k _ hk ↦ (Registry.abort_or_kept_dropServer hk).imp
      (List.mem_append_left _) fun hk ↦ ⟨k, hk⟩)
      (not_spawnRead (spawned_say Registry.spawned_dropServer))
  | accepted hb ha =>
    have ht := tracked_of_reachable hr
    obtain ⟨σ, hσ⟩ := ha.readTask ht
    have hkeyed : ReadsAccounted _ (w.log ++ []) := h.of_readTask
      (fun k task hk ↦ .inr ⟨σ.symm k, by rw [hσ, Equiv.apply_symm_apply, hk]⟩) (by simp)
    rw [List.append_nil] at hkeyed
    refine hkeyed.insertStream (ha.id_free ht (hok.1 _ hb)) fun task id' stream' hm ↦ ?_
    cases spawned_register hm rfl
    rfl

end WireDock
