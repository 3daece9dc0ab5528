import WireDock.Registry.Change

namespace WireDock

open LabelledSystem

inductive Phase
  | running
  | stopped
  | panicked
deriving DecidableEq, Repr

structure World where
  reg : Registry
  log : List Effect
  phase : Phase

namespace World

def initial : World := ⟨.new, [], .running⟩

def handle (w : World) (env : Environment) (input : RegistryInput) : World :=
  match w.reg.handleInput env input with
  | .running reg effects _ => ⟨reg, w.log ++ effects, .running⟩
  | .stopped reg effects => ⟨reg, w.log ++ effects, .stopped⟩
  | .panicked => { w with phase := .panicked }

def Fresh (w : World) (task : JoinHandle) : Prop := ∀ e ∈ w.log, e.spawned ≠ some task

instance (w : World) (task : JoinHandle) : Decidable (w.Fresh task) :=
  inferInstanceAs (Decidable (∀ e ∈ w.log, e.spawned ≠ some task))

end World

/-- The registry task under any sequence of commands, events and accepted
connections, for any answers of the connector, the listener and the runtime. -/
def registrySystem : System World (Environment × RegistryInput) where
  init w := w = .initial
  step w a w' := w.phase = .running ∧ w.Fresh a.1.spawn ∧ w' = w.handle a.1 a.2

theorem handle_running {w : World} {env : Environment} {input : RegistryInput} {reg : Registry}
    {effects : List Effect} {reply : Option CommandOutcome}
    (h : w.reg.handleInput env input = .running reg effects reply) :
    w.handle env input = ⟨reg, w.log ++ effects, .running⟩ := by
  simp only [World.handle, h]

theorem log_handle (w : World) (env : Environment) (input : RegistryInput) :
    (w.handle env input).log = w.log ++ (w.reg.handleInput env input).effects := by
  unfold World.handle
  cases w.reg.handleInput env input with
  | running | stopped => rfl
  | panicked => exact (List.append_nil _).symm

section Invariants

variable {P : Registry → List Effect → Prop}

theorem dropStreams_invariant
    (hstream : ∀ reg log id, P reg log → P (reg.dropStream id).1 (log ++ (reg.dropStream id).2))
    (ids : List ConnectionId) {reg : Registry} {log : List Effect} (h : P reg log) :
    P (reg.dropStreams ids).1 (log ++ (reg.dropStreams ids).2) := by
  induction ids generalizing reg log with
  | nil => simpa [Registry.dropStreams] using h
  | cons c ids ih =>
    have hc := ih (hstream reg log c h)
    simpa only [Registry.dropStreams, List.append_assoc] using hc

theorem dropServers_invariant {order : IterationOrder ConnectionId}
    (hserver : ∀ reg log id, P reg log →
      P (reg.dropServer order id).1 (log ++ (reg.dropServer order id).2))
    (ids : List ConnectionId) {reg : Registry} {log : List Effect} (h : P reg log) :
    P (reg.dropServers order ids).1 (log ++ (reg.dropServers order ids).2) := by
  induction ids generalizing reg log with
  | nil => simpa [Registry.dropServers] using h
  | cons sid ids ih =>
    have hc := ih (hserver reg log sid h)
    simpa only [Registry.dropServers, List.append_assoc] using hc

theorem shutdown_invariant {order : IterationOrder ConnectionId}
    (hserver : ∀ reg log id, P reg log →
      P (reg.dropServer order id).1 (log ++ (reg.dropServer order id).2))
    (hstream : ∀ reg log id, P reg log → P (reg.dropStream id).1 (log ++ (reg.dropStream id).2))
    {reg : Registry} {log : List Effect} (h : P reg log) :
    P (reg.shutdown order).1 (log ++ (reg.shutdown order).2) := by
  have hs := dropServers_invariant hserver (order.visit reg.servers.keys) h
  have hd := dropStreams_invariant hstream
    (order.visit (reg.dropServers order (order.visit reg.servers.keys)).1.streams.keys) hs
  simpa only [Registry.shutdown, List.append_assoc] using hd

/-- What every change and both drops preserve is preserved by one input. -/
theorem handle_invariant {w : World} {env : Environment} {input : RegistryInput}
    (h : P w.reg w.log)
    (hchange : ∀ effects reg', Registry.Change env w.reg input effects reg' →
      P reg' (w.log ++ effects))
    (hserver : ∀ order reg log id, P reg log →
      P (reg.dropServer order id).1 (log ++ (reg.dropServer order id).2))
    (hstream : ∀ reg log id, P reg log → P (reg.dropStream id).1 (log ++ (reg.dropStream id).2)) :
    P (w.handle env input).reg (w.handle env input).log := by
  cases hh : w.reg.handleInput env input with
  | running reg' effects reply =>
    rw [handle_running hh]
    exact hchange effects reg' (Registry.handleInput_change hh)
  | stopped reg' effects =>
    cases input with
    | shutdown => exact shutdown_invariant (hserver _) hstream h
    | command cmd => cases hh
    | event ev => cases hh
    | accepted parent child peerInfo stream =>
      unfold Registry.handleInput at hh
      cases ha : w.reg.handleAccepted env parent child peerInfo stream <;> simp [ha] at hh
  | panicked => simpa only [World.handle, hh] using h

variable {ok : World → Environment × RegistryInput → Prop}

/-- What holds of the empty registry and survives every change and both drops
holds in every state reached, the panicked and the stopped ones included. -/
theorem registry_invariant (hnew : P .new [])
    (hchange : ∀ w env input effects reg', ReachableBy registrySystem ok w → P w.reg w.log →
      ok w (env, input) → w.Fresh env.spawn → Registry.Change env w.reg input effects reg' →
      P reg' (w.log ++ effects))
    (hserver : ∀ order reg log id, P reg log →
      P (reg.dropServer order id).1 (log ++ (reg.dropServer order id).2))
    (hstream : ∀ reg log id, P reg log → P (reg.dropStream id).1 (log ++ (reg.dropStream id).2))
    {w : World} (hw : ReachableBy registrySystem ok w) : P w.reg w.log := by
  refine ReachableBy.invariant (P := fun w ↦ P w.reg w.log) ?_ ?_ hw
  · rintro s rfl
    exact hnew
  · rintro s ⟨env, input⟩ t hr hp hok ⟨-, hfresh, rfl⟩
    exact handle_invariant hp (fun effects reg' ↦ hchange s env input effects reg' hr hp hok hfresh)
      hserver hstream

end Invariants

section Play

/-- Every call succeeds; `n` names the new stream, the new listener and the new task. -/
noncomputable def Environment.granting (n : Nat) : Environment where
  connect _ := .ok n
  bind _ := .ok n
  write _ _ := .ok ()
  spawn := n
  order := .first []

noncomputable def World.play (guard : World → Environment × RegistryInput → Bool) (w : World) :
    List RegistryInput → Option World
  | [] => some w
  | input :: inputs =>
    let env := Environment.granting w.log.length
    if guard w (env, input) ∧ w.phase = .running ∧ w.Fresh env.spawn then
      (w.handle env input).play guard inputs
    else none

theorem reachableBy_play {ok : World → Environment × RegistryInput → Prop}
    {guard : World → Environment × RegistryInput → Bool} (hg : ∀ w a, guard w a = true → ok w a)
    {inputs : List RegistryInput} {w w' : World} (hw : ReachableBy registrySystem ok w)
    (hp : w.play guard inputs = some w') : ReachableBy registrySystem ok w' := by
  induction inputs generalizing w with
  | nil =>
    cases hp
    exact hw
  | cons input inputs ih =>
    simp only [World.play] at hp
    split_ifs at hp with hs
    exact ih (.step hw (hg _ _ hs.1) ⟨hs.2.1, hs.2.2, rfl⟩) hp

theorem reachable_play {inputs : List RegistryInput} {w : World}
    (hp : World.initial.play (fun _ _ ↦ true) inputs = some w) : Reachable registrySystem w :=
  reachableBy_play (fun _ _ _ ↦ trivial) (.init rfl) hp

def tcpHandoff (port remotePort : UInt16) (stream : BoxedStream) : RegistryInput :=
  .accepted (.tcpServer port) (.acceptedTcp port remotePort none)
    (.tcpSocket s!"127.0.0.1:{remotePort}") stream

end Play

end WireDock
