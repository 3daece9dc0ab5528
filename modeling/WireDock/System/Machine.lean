import WireDock.Registry.Representation
import WireDock.Infra.Listener

namespace WireDock

open LabelledSystem

/-- An entry of the input channel with the task that sent it; what the REPL
and the signal handler send has none. -/
structure Message where
  input : RegistryInput
  sender : Option JoinHandle
deriving DecidableEq

inductive Reader
  | reading
  | sending (events : List NetEvent)
  | ended
deriving DecidableEq

/-- A read task after it sent an event: `Closed` is the last one. -/
def Reader.sent : NetEvent → List NetEvent → Reader
  | _, ev :: events => .sending (ev :: events)
  | .closed _, [] => .ended
  | _, [] => .reading

structure Answers where
  connect : Endpoint → Except DomainError BoxedStream
  bind : BindAnswer
  write : BoxedStream → List UInt8 → Except String Unit
  spawn : JoinHandle
  order : IterationOrder ConnectionId

def Answers.environment (answers : Answers) (fs : FileSystem) : Environment where
  connect := answers.connect
  bind endpoint := (TokioListener.bind answers.bind fs endpoint).1
  write := answers.write
  spawn := answers.spawn
  order := answers.order

namespace Effect

def acceptor (task : JoinHandle) : Effect → Option ConnectionId
  | spawnAccept t server _ => if t = task then some server else none
  | _ => none

def reader (task : JoinHandle) : Effect → Option ConnectionId
  | spawnRead t id _ => if t = task then some id else none
  | _ => none

def listening : Effect → Option AcceptLoop
  | spawnAccept _ _ listener => some listener
  | _ => none

end Effect

namespace FileSystem

def perform (answer : BindAnswer) (fs : FileSystem) : Effect → FileSystem
  | .bind endpoint => (TokioListener.bind answer fs endpoint).2
  | .removeFile path => fs.removeFile path
  | _ => fs

def performAll (answer : BindAnswer) (fs : FileSystem) (effects : List Effect) : FileSystem :=
  effects.foldl (perform answer) fs

end FileSystem

/-- The registry task, its input channel, the read tasks, what each accept task has
met and not sent on yet, and the file system. -/
structure Machine where
  world : World
  queue : List Message
  readers : JoinHandle → Reader
  acceptors : JoinHandle → Option (Except DomainError AcceptedStream)
  fs : FileSystem

inductive Action
  | command (cmd : Command)
  | interrupt
  | accept (task : JoinHandle) (answer : Except DomainError AcceptedStream)
  | handOver (task : JoinHandle)
  | read (task : JoinHandle) (answer : Except String (List UInt8))
  | forward (task : JoinHandle)
  | handle (answers : Answers)

namespace Machine

variable (capacity : ℕ) (m : Machine)

structure Initial : Prop where
  world : m.world = .initial
  queue : m.queue = []
  readers : m.readers = fun _ ↦ .reading
  acceptors : m.acceptors = fun _ ↦ none
  created : m.fs.created = []

def enqueue (msg : Message) : Machine := { m with queue := m.queue ++ [msg] }

def setReader (task : JoinHandle) (reader : Reader) : Machine :=
  { m with readers := Function.update m.readers task reader }

def setAcceptor (task : JoinHandle) (met : Option (Except DomainError AcceptedStream)) : Machine :=
  { m with acceptors := Function.update m.acceptors task met }

/-- `send` waits for a free place of the input channel. -/
def send (msg : Message) : Option Machine :=
  if m.queue.length < capacity then some (m.enqueue msg) else none

def handle (answers : Answers) (input : RegistryInput) (rest : List Message) : Machine :=
  let world := m.world.handle (answers.environment m.fs) input
  { m with
    world, queue := rest
    fs := m.fs.performAll answers.bind (world.log.drop m.world.log.length) }

/-- One step of one task. An aborted task takes none: what it waits to send is lost.
An accept task ignores a peer it has no message for. -/
def next : Action → Option Machine
  | .command cmd => m.send capacity ⟨.command cmd, none⟩
  | .interrupt => m.send capacity ⟨.shutdown, none⟩
  | .accept task answer =>
    if .abort task ∈ m.world.log ∨ m.acceptors task ≠ none then none
    else do
      let server ← m.world.log.findSome? (Effect.acceptor task)
      return m.setAcceptor task ((acceptMessage server answer).map fun _ ↦ answer)
  | .handOver task =>
    if .abort task ∈ m.world.log then none
    else do
      let answer ← m.acceptors task
      let server ← m.world.log.findSome? (Effect.acceptor task)
      let input ← acceptMessage server answer
      (m.setAcceptor task none).send capacity ⟨input, some task⟩
  | .read task answer =>
    if .abort task ∈ m.world.log ∨ m.readers task ≠ .reading then none
    else do
      let id ← m.world.log.findSome? (Effect.reader task)
      return m.setReader task (.sending (readEvents id answer))
  | .forward task =>
    match m.readers task with
    | .sending (ev :: events) =>
      if .abort task ∈ m.world.log then none
      else (m.setReader task (.sent ev events)).send capacity ⟨.event ev, some task⟩
    | _ => none
  | .handle answers =>
    match m.queue with
    | msg :: rest =>
      if m.world.phase = .running ∧ m.world.Fresh answers.spawn ∧
          ∀ e ∈ m.world.log, e.listening ≠ some answers.bind.listener then
        some (m.handle answers msg.input rest)
      else none
    | [] => none

inductive Step : Action → Machine → Prop
  | command (cmd : Command) : Step (.command cmd) (m.enqueue ⟨.command cmd, none⟩)
  | interrupt : Step .interrupt (m.enqueue ⟨.shutdown, none⟩)
  | accept {task : JoinHandle} {answer : Except DomainError AcceptedStream}
      {server : ConnectionId} (hserver : m.world.log.findSome? (Effect.acceptor task) = some server)
      (hlive : .abort task ∉ m.world.log) (hidle : m.acceptors task = none) :
      Step (.accept task answer)
        (m.setAcceptor task ((acceptMessage server answer).map fun _ ↦ answer))
  | handOver {task : JoinHandle} {answer : Except DomainError AcceptedStream}
      {server : ConnectionId} {listener : AcceptLoop} {input : RegistryInput}
      (hspawn : .spawnAccept task server listener ∈ m.world.log)
      (hlive : .abort task ∉ m.world.log) (hmet : m.acceptors task = some answer)
      (hinput : acceptMessage server answer = some input) :
      Step (.handOver task) ((m.setAcceptor task none).enqueue ⟨input, some task⟩)
  | read {task : JoinHandle} {answer : Except String (List UInt8)} {id : ConnectionId}
      {stream : BoxedStream} (hspawn : .spawnRead task id stream ∈ m.world.log)
      (hlive : .abort task ∉ m.world.log) (hreading : m.readers task = .reading) :
      Step (.read task answer) (m.setReader task (.sending (readEvents id answer)))
  | forward {task : JoinHandle} {ev : NetEvent} {events : List NetEvent}
      (hlive : .abort task ∉ m.world.log) (hsending : m.readers task = .sending (ev :: events)) :
      Step (.forward task)
        ((m.setReader task (.sent ev events)).enqueue ⟨.event ev, some task⟩)
  | handle {answers : Answers} {msg : Message} {rest : List Message}
      (hqueue : m.queue = msg :: rest) (hrunning : m.world.phase = .running)
      (hfresh : m.world.Fresh answers.spawn)
      (hlistener : ∀ e ∈ m.world.log, e.listening ≠ some answers.bind.listener) :
      Step (.handle answers) (m.handle answers msg.input rest)

variable {capacity m} {m' : Machine} {a : Action}

theorem acceptor_eq_some {task : JoinHandle} {log : List Effect} {server : ConnectionId}
    (h : log.findSome? (Effect.acceptor task) = some server) :
    ∃ listener, .spawnAccept task server listener ∈ log := by
  obtain ⟨e, he, hs⟩ := List.exists_of_findSome?_eq_some h
  unfold Effect.acceptor at hs
  split at hs
  · split_ifs at hs with ht
    cases hs
    exact ⟨_, ht ▸ he⟩
  · cases hs

theorem reader_eq_some {task : JoinHandle} {log : List Effect} {id : ConnectionId}
    (h : log.findSome? (Effect.reader task) = some id) :
    ∃ stream, .spawnRead task id stream ∈ log := by
  obtain ⟨e, he, hs⟩ := List.exists_of_findSome?_eq_some h
  unfold Effect.reader at hs
  split at hs
  · split_ifs at hs with ht
    cases hs
    exact ⟨_, ht ▸ he⟩
  · cases hs

theorem eq_enqueue {msg : Message} (h : m.send capacity msg = some m') : m' = m.enqueue msg := by
  unfold send at h
  split_ifs at h
  exact (Option.some.inj h).symm

theorem step_of_next (h : m.next capacity a = some m') : m.Step a m' := by
  cases a with
  | command cmd =>
    cases eq_enqueue h
    exact .command cmd
  | interrupt =>
    cases eq_enqueue h
    exact .interrupt
  | accept task answer =>
    simp only [next] at h
    split_ifs at h with hlive
    rw [not_or, not_not] at hlive
    obtain ⟨server, hs, h⟩ := Option.bind_eq_some_iff.mp h
    cases h
    exact .accept hs hlive.1 hlive.2
  | handOver task =>
    simp only [next] at h
    split_ifs at h with hlive
    obtain ⟨answer, hmet, h⟩ := Option.bind_eq_some_iff.mp h
    obtain ⟨server, hs, h⟩ := Option.bind_eq_some_iff.mp h
    obtain ⟨input, hi, h⟩ := Option.bind_eq_some_iff.mp h
    obtain ⟨listener, hspawn⟩ := acceptor_eq_some hs
    cases eq_enqueue h
    exact .handOver hspawn hlive hmet hi
  | read task answer =>
    simp only [next] at h
    split_ifs at h with hlive
    rw [not_or, not_not] at hlive
    obtain ⟨id, hid, h⟩ := Option.bind_eq_some_iff.mp h
    obtain ⟨stream, hspawn⟩ := reader_eq_some hid
    cases h
    exact .read hspawn hlive.1 hlive.2
  | forward task =>
    simp only [next] at h
    split at h
    · rename_i ev events hsending
      split_ifs at h with hlive
      cases eq_enqueue h
      exact .forward hlive hsending
    · cases h
  | handle answers =>
    simp only [next] at h
    split at h
    · rename_i msg rest hqueue
      split_ifs at h with hc
      cases h
      exact .handle hqueue hc.1 hc.2.1 hc.2.2
    · cases h

end Machine

/-- The whole program but for its display, under any traffic and any answers. -/
def machineSystem (capacity : ℕ) : System Machine Action :=
  .ofNext Machine.Initial (Machine.next capacity)

namespace Machine

def pending (m : Machine) : Action → Option (Answers × Message)
  | .handle answers => m.queue.head?.map fun msg ↦ (answers, msg)
  | _ => none

theorem pending_handle {m : Machine} {answers : Answers} {msg : Message} {rest : List Message}
    (h : m.queue = msg :: rest) : (answers, msg) ∈ m.pending (.handle answers) := by
  rw [pending, h]
  exact Option.mem_some_self _

end Machine

theorem exists_log_handle (w : World) (env : Environment) (input : RegistryInput) :
    ∃ effects, (w.handle env input).log = w.log ++ effects := by
  cases hh : w.reg.handleInput env input with
  | running reg effects reply => exact ⟨effects, by simp only [World.handle, hh]⟩
  | stopped reg effects => exact ⟨effects, by simp only [World.handle, hh]⟩
  | panicked => exact ⟨[], by simp only [World.handle, hh, List.append_nil]⟩

theorem prefix_log_step {m m' : Machine} {a : Action} (hstep : m.Step a m') :
    m.world.log <+: m'.world.log := by
  cases hstep with
  | handle =>
    obtain ⟨effects, he⟩ := exists_log_handle _ _ _
    exact ⟨effects, he.symm⟩
  | _ => exact List.prefix_refl _

section Runs

variable {capacity : ℕ} {ok : Machine → Action → Prop}

/-- The invariant rule of the machine, over the forms a step can take. -/
theorem machine_invariant {P : Machine → Prop} (hinit : ∀ m : Machine, m.Initial → P m)
    (hstep : ∀ m a m', ReachableBy (machineSystem capacity) ok m → P m → ok m a →
      Machine.Step m a m' → P m')
    {m : Machine} (hm : ReachableBy (machineSystem capacity) ok m) : P m :=
  ReachableBy.invariant hinit
    (fun m a m' hr hp hok hn ↦ hstep m a m' hr hp hok (Machine.step_of_next hn)) hm

theorem world_reachable {okW : World → Environment × RegistryInput → Prop}
    (hok : ∀ m a, ok m a → ∀ p ∈ m.pending a,
      okW m.world (p.1.environment m.fs, p.2.input))
    {m : Machine} (hm : ReachableBy (machineSystem capacity) ok m) :
    ReachableBy registrySystem okW m.world := by
  refine Projection.reachableBy (S := machineSystem capacity) (f := Machine.world)
    (fun m hi ↦ hi.1) (fun m a m' ha hn ↦ ?_) hm
  cases Machine.step_of_next hn with
  | handle hqueue hrunning hfresh hlistener =>
    exact .inl ⟨_, hok m _ ha _ (Machine.pending_handle hqueue), hrunning, hfresh, rfl⟩
  | _ => exact .inr rfl

theorem world_reachable_any {m : Machine} (hm : ReachableBy (machineSystem capacity) ok m) :
    Reachable registrySystem m.world := world_reachable (fun _ _ _ _ _ ↦ trivial) hm

/-- What every change and both drops preserve, the file system following the
calls they make, is preserved by one step of the registry task. -/
theorem files_step {Q : Registry → List Effect → FileSystem → Prop} {m : Machine}
    {answers : Answers} {input : RegistryInput} {rest : List Message}
    (h : Q m.world.reg m.world.log m.fs)
    (hchange : ∀ effects reg',
      Registry.Change (answers.environment m.fs) m.world.reg input effects reg' →
      Q reg' (m.world.log ++ effects) (m.fs.performAll answers.bind effects))
    (hserver : ∀ answer order reg log fs id, Q reg log fs →
      Q (reg.dropServer order id).1 (log ++ (reg.dropServer order id).2)
        (fs.performAll answer (reg.dropServer order id).2))
    (hstream : ∀ answer reg log fs id, Q reg log fs →
      Q (reg.dropStream id).1 (log ++ (reg.dropStream id).2)
        (fs.performAll answer (reg.dropStream id).2)) :
    Q (m.handle answers input rest).world.reg (m.handle answers input rest).world.log
      (m.handle answers input rest).fs := by
  have hstep : ∃ effects, (m.world.handle (answers.environment m.fs) input).log =
      m.world.log ++ effects ∧ Q (m.world.handle (answers.environment m.fs) input).reg
        (m.world.handle (answers.environment m.fs) input).log
        (m.fs.performAll answers.bind effects) := by
    refine handle_invariant (P := fun reg log ↦ ∃ effects, log = m.world.log ++ effects ∧
      Q reg log (m.fs.performAll answers.bind effects)) ⟨[], by simp, h⟩
      (fun effects reg' hc ↦ ⟨effects, rfl, hchange effects reg' hc⟩) ?_ ?_
    · rintro order reg log id ⟨effects, rfl, hq⟩
      refine ⟨effects ++ (reg.dropServer order id).2, List.append_assoc .., ?_⟩
      have hd := hserver answers.bind order reg _ _ id hq
      rwa [FileSystem.performAll, FileSystem.performAll, ← List.foldl_append] at hd
    · rintro reg log id ⟨effects, rfl, hq⟩
      refine ⟨effects ++ (reg.dropStream id).2, List.append_assoc .., ?_⟩
      have hd := hstream answers.bind reg _ _ id hq
      rwa [FileSystem.performAll, FileSystem.performAll, ← List.foldl_append] at hd
  obtain ⟨effects, hlog, hq⟩ := hstep
  have hdrop : (m.world.handle (answers.environment m.fs) input).log.drop m.world.log.length =
      effects := by rw [hlog, List.drop_left]
  simpa only [Machine.handle, hdrop] using hq

end Runs

section Play

/-- Every call succeeds; `n` names what it creates, the sets are visited in the
order of `hint`. -/
noncomputable def Answers.granting (n : ℕ) (hint : List ConnectionId) : Answers where
  connect _ := .ok n
  bind := ⟨true, fun _ ↦ none, n⟩
  write _ _ := .ok ()
  spawn := n
  order := .first hint

def Machine.idle (fs : FileSystem) : Machine :=
  ⟨.initial, [], fun _ ↦ .reading, fun _ ↦ none, { fs with created := [] }⟩

def FileSystem.empty : FileSystem := ⟨fun _ ↦ some, fun _ ↦ none, []⟩

def tcpPeer (remotePort : UInt16) (stream : BoxedStream) : Except DomainError AcceptedStream :=
  .ok ⟨stream, .tcpSocket s!"127.0.0.1:{remotePort}"⟩

theorem reachableBy_of_run {capacity : ℕ} {ok : Machine → Action → Prop}
    {guard : Machine → Action → Bool} (hg : ∀ m a, guard m a = true → ok m a) {fs : FileSystem}
    {actions : List Action} {m : Machine}
    (hr : run (Machine.next capacity) guard (.idle fs) actions = some m) :
    ReachableBy (machineSystem capacity) ok m :=
  reachableBy_run hg (.init ⟨rfl, rfl, rfl, rfl, rfl⟩) hr

end Play

end WireDock
