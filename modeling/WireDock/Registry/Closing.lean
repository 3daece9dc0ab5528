import WireDock.Registry.Twins
import WireDock.Registry.Teardown

namespace WireDock

open FiniteMap LabelledSystem

def Registry.closes (reg : Registry) : RegistryInput → Option ConnectionId
  | .command (.close idToken) => (reg.target idToken).toOption
  | .event (.closed id) => some id
  | _ => none

def World.lines (w : World) (a : Environment × RegistryInput) : List DisplayLine :=
  (w.reg.handleInput a.1 a.2).effects.filterMap Effect.displayed

def ShowsClosed (w : World) (a : Environment × RegistryInput) (id : ConnectionId) : Prop :=
  w.reg.closes a.2 = some id ∧ w.lines a ≠ []

/-- What an input that ends an entry calls it: the id as the command has it, or the name
that `display_name` gives it. -/
def Registry.Calls (reg : Registry) (id : ConnectionId) (name : String) : RegistryInput → Prop
  | .command (.close idToken) =>
    ∃ typed, reg.resolveId idToken defaultTokenParser = .ok typed ∧ name = typed.display
  | _ => name = reg.displayName id

/-- The step removes the entry of an id and says so in one line. -/
structure Removes (w : World) (a : Environment × RegistryInput) (id : ConnectionId) : Prop where
  before : id ∈ w.reg.registered
  after : id ∉ (w.handle a.1 a.2).reg.registered
  line : ∃ name, w.reg.Calls id name a.2 ∧ w.lines a = [⟨s!"[{name}] CLOSED"⟩]

namespace Registry

variable {reg : Registry} {env : Environment} {id : ConnectionId}

theorem displayed_dropStream : (reg.dropStream id).2.filterMap Effect.displayed = [] := by
  rw [List.filterMap_eq_nil_iff]
  intro e he
  obtain ⟨task, rfl⟩ := abort_of_mem_dropStream he
  rfl

theorem displayed_dropServer {order : IterationOrder ConnectionId} :
    (reg.dropServer order id).2.filterMap Effect.displayed = [] := by
  rw [List.filterMap_eq_nil_iff]
  intro e he
  rcases abort_or_remove_of_mem_dropServer he with ⟨task, rfl⟩ | ⟨path, rfl⟩ <;> rfl

theorem not_registered_dropStream (hw : WellFormed reg) (hid : id ∈ reg.streams) :
    id ∉ (reg.dropStream id).1.registered := by
  intro h
  rcases mem_registered.mp h with hs | hv
  · rw [dropStream_streams, Finmap.mem_erase] at hs
    exact hs.1 rfl
  · obtain ⟨srv, hsrv⟩ := mem_iff_lookup.mp hv
    rw [lookup_servers_dropStream] at hsrv
    obtain ⟨srv', hsrv', -⟩ := Option.map_eq_some_iff.mp hsrv
    exact hw.stream_not_server hid (mem_of_lookup hsrv')

theorem not_registered_dropServer (hw : WellFormed reg) {order : IterationOrder ConnectionId}
    (hid : id ∈ reg.servers) : id ∉ (reg.dropServer order id).1.registered := by
  intro h
  rcases mem_registered.mp h with hs | hv
  · exact hw.stream_not_server (reg.mem_streams_of_dropServer hs) hid
  · exact (mem_servers_dropServer hv).2 rfl

def Owns (reg : Registry) (id : ConnectionId) (task : JoinHandle) : Prop :=
  reg.readTask id = some task ∨ ∃ srv ∈ reg.servers.lookup id,
    srv.acceptTask = task ∨ ∃ k ∈ srv.children, reg.readTask k = some task

instance (reg : Registry) (id : ConnectionId) (task : JoinHandle) : Decidable (reg.Owns id task) :=
  inferInstanceAs (Decidable (_ ∨ ∃ srv, srv ∈ reg.servers.lookup id ∧ _))

theorem abort_not_mem_register {parent : ConnectionId} {peerInfo : PeerInfo}
    {stream : BoxedStream} {ev : Option NetEvent} {task : JoinHandle} :
    .abort task ∉ (register env parent peerInfo stream (reg, id, ev)).2 := by
  intro h
  simp only [register, spawnStream, say, List.mem_append, List.mem_cons, reduceCtorEq,
    List.not_mem_nil, or_false] at h
  unfold renamedLine at h
  split at h
  · cases List.mem_singleton.mp h
  · cases h

theorem Change.aborts {reg' : Registry} {input : RegistryInput} {effects : List Effect}
    {task : JoinHandle} (hw : WellFormed reg) (hc : Change env reg input effects reg')
    (h : .abort task ∈ effects) :
    ∃ id, reg.closes input = some id ∧ reg.Owns id task ∧ id ∉ reg'.registered := by
  cases hc with
  | silent hs => exact (hs _ h).elim
  | bindRefused | serverOpened | connectRefused | clientOpened | labelled => simp [say] at h
  | @streamDropped _ id text hi hid =>
    refine ⟨id, ?_, ?_, not_registered_dropStream hw hid⟩
    · rcases hi with ⟨token, rfl, hr, -⟩ | rfl
      · rw [closes, hr]
        rfl
      · rfl
    · have h := (List.mem_append.mp h).resolve_right (by simp [say])
      rw [dropStream_effects, Option.mem_toList, Option.map_eq_some_iff] at h
      obtain ⟨s, hs, he⟩ := h
      cases he
      exact .inl (by rw [readTask, hs, Option.map_some])
  | @serverDropped token id srv text hr hsrv =>
    refine ⟨id, ?_, ?_, not_registered_dropServer hw (mem_of_lookup hsrv)⟩
    · rw [closes, hr]
      rfl
    · have h := (List.mem_append.mp h).resolve_right (by simp [say])
      refine .inr ⟨srv, hsrv, ?_⟩
      rcases (mem_effects_dropServer hsrv).mp h with he | ⟨k, hk, s, hs, he⟩ | ⟨path, -, he⟩
      · cases he
        exact .inl rfl
      · cases he
        exact .inr ⟨k, hk, by rw [readTask, hs, Option.map_some]⟩
      · cases he
  | accepted => exact (abort_not_mem_register h).elim

inductive Ends (env : Environment) (reg : Registry) (id : ConnectionId) :
    Registry × List Effect → Prop
  | server (hv : id ∈ reg.servers) : Ends env reg id (reg.dropServer env.order id)
  | stream (hs : id ∈ reg.streams) : Ends env reg id (reg.dropStream id)

theorem handleInput_of_closes {input : RegistryInput} (h : reg.closes input = some id) :
    (∃ dropped name reply, Ends env reg id dropped ∧ reg.Calls id name input ∧
      reg.handleInput env input =
        .running dropped.1 (dropped.2 ++ [say s!"[{name}] CLOSED"]) reply) ∨
    ∃ reply, reg.handleInput env input = .running reg [] reply := by
  unfold closes at h
  split at h
  · rename_i token
    cases hr : reg.resolveId token defaultTokenParser with
    | error e =>
      rw [target, hr] at h
      cases h
    | ok typed =>
      rw [target_of_resolved hr] at h
      have he : reg.entryOf token typed = id := Option.some.inj h
      by_cases hv : id ∈ reg.servers
      · refine .inl ⟨_, typed.display, some (.ok s!"closed server {typed} and all its children"),
          .server hv, ⟨typed, hr, rfl⟩, ?_⟩
        simp only [handleInput, handleCommand, hr, he, if_pos hv]
        rfl
      · by_cases hs : id ∈ reg.streams
        · refine .inl ⟨_, typed.display, some (.ok s!"closed {typed}"), .stream hs,
            ⟨typed, hr, rfl⟩, ?_⟩
          simp only [handleInput, handleCommand, hr, he, if_neg hv, if_pos hs]
          rfl
        · refine .inr ⟨some (.err (DomainError.unknownId token).message), ?_⟩
          simp only [handleInput, handleCommand, hr, he, if_neg hv, if_neg hs]
  · cases h
    by_cases hs : id ∈ reg.streams
    · refine .inl ⟨_, _, none, .stream hs, rfl, ?_⟩
      simp only [handleInput, handleEvent, onClosedEvent, if_pos hs]
    · refine .inr ⟨none, ?_⟩
      simp only [handleInput, handleEvent, onClosedEvent, if_neg hs]
  · cases h

end Registry

section Steps

variable {w : World} {a : Environment × RegistryInput} {id : ConnectionId}

/-- Every line of the two handlers goes with the removal of an entry. -/
theorem removes_of_showsClosed (hw : WellFormed w.reg) (h : ShowsClosed w a id) :
    Removes w a id := by
  obtain ⟨hcloses, hlines⟩ := h
  rcases @Registry.handleInput_of_closes _ a.1 _ _ hcloses with
    ⟨dropped, name, reply, hends, hcalls, hh⟩ | ⟨reply, hh⟩
  · have hsilent : dropped.2.filterMap Effect.displayed = [] := by
      cases hends <;>
        first | exact Registry.displayed_dropServer | exact Registry.displayed_dropStream
    refine ⟨?_, ?_, name, hcalls, ?_⟩
    · rw [Registry.mem_registered]
      cases hends <;> first | exact .inl ‹_› | exact .inr ‹_›
    · rw [handle_running hh]
      cases hends with
      | server hv => exact Registry.not_registered_dropServer hw hv
      | stream hs => exact Registry.not_registered_dropStream hw hs
    · simp only [World.lines, hh, Handling.effects, List.filterMap_append, hsilent]
      rfl
  · refine (hlines ?_).elim
    simp only [World.lines, hh, Handling.effects, List.filterMap_nil]

theorem registered_of_handle (ht : Tracked w.reg) (h : id ∈ (w.handle a.1 a.2).reg.registered) :
    id ∈ w.reg.registered ∨ id ∈ w.reg.enters a.1 a.2 := by
  cases hh : w.reg.handleInput a.1 a.2 with
  | running reg' effects reply =>
    rw [handle_running hh] at h
    exact (Registry.handleInput_change hh).registered ht h
  | stopped reg' effects =>
    have hphase : (w.handle a.1 a.2).phase = .stopped := by simp only [World.handle, hh]
    obtain ⟨hv, hs⟩ := Registry.shutdown_empty a.1.order w.reg
    rw [Registry.mem_registered, phase_handle hphase, hv, hs] at h
    exact h.elim (fun h ↦ (Finmap.notMem_empty h).elim) fun h ↦ (Finmap.notMem_empty h).elim
  | panicked =>
    rw [show w.handle a.1 a.2 = { w with phase := .panicked } by simp only [World.handle, hh]] at h
    exact .inl h

/-- While the registry task runs on, a step aborts the tasks of the entry it closes. -/
theorem abort_of_handle (hw : WellFormed w.reg) {task : JoinHandle}
    (hrunning : (w.handle a.1 a.2).phase = .running) (h : .abort task ∈ (w.handle a.1 a.2).log) :
    .abort task ∈ w.log ∨ ∃ id, w.reg.closes a.2 = some id ∧ w.reg.Owns id task ∧
      id ∉ (w.handle a.1 a.2).reg.registered := by
  cases hh : w.reg.handleInput a.1 a.2 with
  | running reg' effects reply =>
    rw [handle_running hh] at h ⊢
    exact (List.mem_append.mp h).imp_right ((Registry.handleInput_change hh).aborts hw)
  | stopped reg' effects =>
    rw [World.handle, hh] at hrunning
    cases hrunning
  | panicked =>
    rw [World.handle, hh] at hrunning
    cases hrunning

end Steps

theorem run_play {inputs : List RegistryInput} {w w' : World}
    {hist : List (World × Environment × RegistryInput)} (hr : Run registrySystem hist w)
    (hp : w.play (fun _ _ ↦ true) inputs = some w') : ∃ hist', Run registrySystem hist' w' ∧
      hist'.map (·.2.2) = hist.map (·.2.2) ++ inputs := by
  induction inputs generalizing w hist with
  | nil =>
    cases hp
    exact ⟨hist, hr, (List.append_nil _).symm⟩
  | cons input inputs ih =>
    simp only [World.play] at hp
    split_ifs at hp with hs
    have hstep : registrySystem.step w (.granting w.log.length, input)
      (w.handle (.granting w.log.length) input) := ⟨hs.2.1, hs.2.2, rfl⟩
    obtain ⟨hist', hr', he⟩ := ih (hr.step hstep) hp
    exact ⟨hist', hr', by rw [he]; simp⟩

/-- In every run each line of the close command or of `on_closed_event` is a
removal of its own: between two of them for one id the id is entered anew. -/
theorem closed_lines_of_run {hist : List (World × Environment × RegistryInput)} {w : World}
    (hr : Run registrySystem hist w) :
    (∀ p ∈ hist, ∀ id, ShowsClosed p.1 p.2 id → Removes p.1 p.2 id) ∧
    ∀ before p between q after id, hist = before ++ p :: (between ++ q :: after) →
      ShowsClosed p.1 p.2 id → ShowsClosed q.1 q.2 id →
      ∃ r ∈ between, id ∉ r.1.reg.registered ∧
        id ∈ (r.1.handle r.2.1 r.2.2).reg.registered ∧ id ∈ r.1.reg.enters r.2.1 r.2.2 := by
  have hremoves : ∀ p ∈ hist, ∀ id, ShowsClosed p.1 p.2 id → Removes p.1 p.2 id := by
    intro p hp id
    obtain ⟨before, after, rfl⟩ := List.append_of_mem hp
    exact removes_of_showsClosed (wellFormed_of_reachable hr.of_append_cons.1.reachable)
  refine ⟨hremoves, ?_⟩
  rintro before p between q after id rfl hp hq
  have hp := hremoves p (by simp) id hp
  have hq := hremoves q (by simp) id hq
  have hrun : Run registrySystem (before ++ p :: between) q.1 := by
    have he : before ++ p :: (between ++ q :: after) = (before ++ p :: between) ++ q :: after := by
      simp
    exact (he ▸ hr : Run registrySystem _ w).of_append_cons.1
  obtain ⟨l, u, b, l', u', rfl, hstep, hu, hu'⟩ := hrun.exists_turn
    (p := fun u ↦ id ∈ u.reg.registered) (by rintro s' ⟨-, -, rfl⟩; exact hp.after) hq.before
  have hreach : Reachable registrySystem u := by
    have he : before ++ p :: (l ++ (u, b) :: l') = (before ++ p :: l) ++ (u, b) :: l' := by simp
    exact (he ▸ hrun : Run registrySystem _ q.1).of_append_cons.1.reachable
  obtain ⟨-, -, rfl⟩ := hstep
  exact ⟨(u, b), by simp, hu, hu',
    (registered_of_handle (tracked_of_reachable hreach) hu').resolve_left hu⟩

theorem closed_lines_of_reopened_client :
    ∃ hist w, Run registrySystem hist w ∧
      hist.map (·.2.2) = [.command (.openTcpClient 4000 "host" 80),
        .event (.closed (.tcpClient 4000)), .event (.closed (.tcpClient 4000)),
        .command (.openTcpClient 4000 "host" 80), .command (.close "4000")] ∧
      ∀ before p between q after, hist = before ++ p :: (between ++ q :: after) →
        ShowsClosed p.1 p.2 (.tcpClient 4000) → ShowsClosed q.1 q.2 (.tcpClient 4000) →
        ∃ r ∈ between, .tcpClient 4000 ∈ r.1.reg.enters r.2.1 r.2.2 := by
  have hrun : (World.initial.play (fun _ _ ↦ true) [.command (.openTcpClient 4000 "host" 80),
      .event (.closed (.tcpClient 4000)), .event (.closed (.tcpClient 4000)),
      .command (.openTcpClient 4000 "host" 80), .command (.close "4000")]).isSome = true := by
    decide +kernel
  obtain ⟨w, hw⟩ := Option.isSome_iff_exists.mp hrun
  obtain ⟨hist, hr, hi⟩ := run_play (.init rfl) hw
  refine ⟨hist, w, hr, hi, fun before p between q after he hp hq ↦ ?_⟩
  obtain ⟨r, hr, -, -, henters⟩ := (closed_lines_of_run hr).2 before p between q after _ he hp hq
  exact ⟨r, hr, henters⟩

end WireDock
