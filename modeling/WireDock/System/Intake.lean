import WireDock.Registry.Ledger
import WireDock.System.Machine

namespace WireDock

open LabelledSystem

def RegistryInput.handoff : RegistryInput → Option (Base × BoxedStream)
  | accepted parent tentative _ stream => (Registry.acceptedBase parent tentative).map (·, stream)
  | _ => none

def Effect.entered : Effect → Option (Base × BoxedStream)
  | spawnRead _ id stream => id.base?.map (·, stream)
  | _ => none

def enteredOf (log : List Effect) : List (Base × BoxedStream) := log.filterMap Effect.entered

def Machine.waiting (m : Machine) : List (Base × BoxedStream) :=
  m.queue.filterMap fun msg ↦ msg.input.handoff

def Machine.holds (m : Machine) (task : JoinHandle) : Option (Base × BoxedStream) := do
  let answer ← m.acceptors task
  let server ← m.world.log.findSome? (Effect.acceptor task)
  let input ← acceptMessage server answer
  input.handoff

def Machine.meets (m : Machine) (task : JoinHandle) : Action → Option (Base × BoxedStream)
  | .accept t answer =>
    if t = task then do
      let server ← m.world.log.findSome? (Effect.acceptor task)
      let input ← acceptMessage server answer
      input.handoff
    else none
  | _ => none

def Machine.hands (m : Machine) : Action → Option (JoinHandle × Base × BoxedStream)
  | .handOver task => (m.holds task).map (task, ·)
  | _ => none

def metBy (task : JoinHandle) (hist : List (Machine × Action)) : List (Base × BoxedStream) :=
  hist.filterMap fun p ↦ p.1.meets task p.2

def intakeOf (hist : List (Machine × Action)) : List (JoinHandle × Base × BoxedStream) :=
  hist.filterMap fun p ↦ p.1.hands p.2

def intakeBy (task : JoinHandle) (hist : List (Machine × Action)) : List (Base × BoxedStream) :=
  (intakeOf hist).filterMap fun h ↦ if h.1 = task then some h.2 else none

section Turn

variable {env : Environment} {reg : Registry} {input : RegistryInput} {e : Effect}

theorem enteredOf_append (log log' : List Effect) :
    enteredOf (log ++ log') = enteredOf log ++ enteredOf log' := List.filterMap_append

theorem entered_of_spawned (h : e.spawned = none) : e.entered = none := by
  cases e with
  | spawnRead => cases h
  | _ => rfl

theorem enteredOf_eq_nil {effects : List Effect} (h : ∀ e ∈ effects, e.spawned = none) :
    enteredOf effects = [] :=
  List.filterMap_eq_nil_iff.mpr fun e he ↦ entered_of_spawned (h e he)

theorem enteredOf_register {b : Base} {d : Option UInt32} {parent : ConnectionId}
    {peerInfo : PeerInfo} {stream : BoxedStream} {ev : Option NetEvent} :
    enteredOf (Registry.register env parent peerInfo stream (reg, b.accepted d, ev)).2 =
      [(b, stream)] := by
  have hrenamed : enteredOf (Registry.renamedLine ev) = [] := by
    unfold Registry.renamedLine
    split <;> rfl
  rw [Registry.register, enteredOf_append, hrenamed]
  simp [enteredOf, Effect.entered, spawnStream, say]

theorem enteredOf_clientOpened {cmd : Command} {id : ConnectionId} {endpoint : Endpoint}
    {peer : PeerInfo} {seq : UInt32} (ho : reg.opensClient cmd = some (id, endpoint, peer, seq))
    (stream : BoxedStream) (text : String) :
    enteredOf [.connect endpoint, .spawnRead env.spawn id stream, say text] = [] := by
  cases cmd <;> cases ho <;> rfl

theorem enteredOf_shutdown {order : IterationOrder ConnectionId} :
    enteredOf (reg.shutdown order).2 = [] := by
  refine enteredOf_eq_nil ?_
  have hlog : ∀ e ∈ [] ++ (reg.shutdown order).2, e.spawned = none :=
    shutdown_invariant (P := fun _ log ↦ ∀ e ∈ log, e.spawned = none)
      (fun _ _ _ h ↦ List.forall_mem_append.mpr ⟨h, Registry.spawned_dropServer⟩)
      (fun _ _ _ h ↦ List.forall_mem_append.mpr ⟨h, Registry.spawned_dropStream⟩)
      fun _ h ↦ by cases h
  exact hlog

/-- A turn that does not panic enters the connection it is handed, and no other. -/
theorem enteredOf_handleInput (h : reg.handleInput env input ≠ .panicked) :
    enteredOf (reg.handleInput env input).effects = input.handoff.toList := by
  cases hh : reg.handleInput env input with
  | panicked => exact (h hh).elim
  | stopped reg' effects =>
    cases input with
    | shutdown =>
      cases hh
      exact enteredOf_shutdown
    | command | event => cases hh
    | accepted parent child peerInfo stream =>
      unfold Registry.handleInput at hh
      cases ha : reg.handleAccepted env parent child peerInfo stream <;> simp [ha] at hh
  | running reg' effects reply =>
    cases hi : input.handoff with
    | some handoff =>
      cases input with
      | accepted parent child peerInfo stream =>
        obtain ⟨b, hb, rfl⟩ := Option.map_eq_some_iff.mp hi
        simp only [Registry.handleInput, Registry.handleAccepted_of_base hb] at hh
        cases ha : reg.allocate b with
        | none => simp [ha] at hh
        | some allocated =>
          obtain ⟨reg₁, id, ev⟩ := allocated
          obtain ⟨d, rfl⟩ := (Registry.allocate_cases ha).id_eq
          simp only [ha, Option.map_some, Handling.running.injEq] at hh
          obtain ⟨-, rfl, -⟩ := hh
          exact enteredOf_register
      | command | event | shutdown => cases hi
    | none =>
      have hsay : ∀ text, (say text).spawned = none := fun _ ↦ rfl
      rw [Handling.effects, Option.toList_none]
      cases Registry.handleInput_change hh with
      | silent hs => exact enteredOf_eq_nil fun e he ↦ Registry.spawned_silent (hs e he)
      | bindRefused | serverOpened | connectRefused | labelled => rfl
      | clientOpened ho => exact enteredOf_clientOpened ho _ _
      | streamDropped =>
        exact enteredOf_eq_nil (spawned_say Registry.spawned_dropStream)
      | serverDropped =>
        exact enteredOf_eq_nil (spawned_say Registry.spawned_dropServer)
      | accepted hb => simp [RegistryInput.handoff, hb] at hi

end Turn

section Runs

variable {capacity : ℕ} {m m' : Machine} {a : Action} {hist : List (Machine × Action)}
  {task : JoinHandle}

theorem metBy_append (p : Machine × Action) :
    metBy task (hist ++ [p]) = metBy task hist ++ (p.1.meets task p.2).toList := by
  rw [metBy, List.filterMap_append, ← metBy]
  cases h : p.1.meets task p.2 <;> simp [h]

theorem intakeOf_append (p : Machine × Action) :
    intakeOf (hist ++ [p]) = intakeOf hist ++ (p.1.hands p.2).toList := by
  rw [intakeOf, List.filterMap_append, ← intakeOf]
  cases h : p.1.hands p.2 <;> simp [h]

theorem intakeBy_append (p : Machine × Action) :
    intakeBy task (hist ++ [p]) = intakeBy task hist ++ intakeBy task [p] := by
  rw [intakeBy, intakeOf, List.filterMap_append, List.filterMap_append]
  rfl

theorem waiting_enqueue (m : Machine) (msg : Message) :
    (m.enqueue msg).waiting = m.waiting ++ msg.input.handoff.toList := by
  rw [Machine.waiting, Machine.waiting, Machine.enqueue, List.filterMap_append]
  cases h : msg.input.handoff <;> simp [h]

theorem eq_of_handOver (hn : m.next capacity (.handOver task) = some m') :
    ∃ answer server input, m.acceptors task = some answer ∧
      m.world.log.findSome? (Effect.acceptor task) = some server ∧
      acceptMessage server answer = some input ∧
      m' = (m.setAcceptor task none).enqueue ⟨input, some task⟩ := by
  simp only [Machine.next] at hn
  split_ifs at hn with hlive
  obtain ⟨answer, hmet, hn⟩ := Option.bind_eq_some_iff.mp hn
  obtain ⟨server, hserver, hn⟩ := Option.bind_eq_some_iff.mp hn
  obtain ⟨input, hinput, hn⟩ := Option.bind_eq_some_iff.mp hn
  exact ⟨answer, server, input, hmet, hserver, hinput, Machine.eq_enqueue hn⟩

theorem handOver_eq (hn : m.next capacity (.handOver task) = some m') :
    ∃ input, m.holds task = input.handoff ∧
      m' = (m.setAcceptor task none).enqueue ⟨input, some task⟩ := by
  obtain ⟨answer, server, input, hmet, hserver, hinput, rfl⟩ := eq_of_handOver hn
  refine ⟨input, ?_, rfl⟩
  simp only [Machine.holds, hmet, hserver, hinput, Option.bind_eq_bind, Option.bind_some]

/-- A step of any task but the registry's: what is handed over comes last in the channel. -/
theorem waiting_step (hn : m.next capacity a = some m')
    (hother : ∀ answers, a ≠ .handle answers) :
    m'.world = m.world ∧ m'.waiting = m.waiting ++ ((m.hands a).map Prod.snd).toList := by
  cases a with
  | handOver task =>
    obtain ⟨input, hholds, rfl⟩ := handOver_eq hn
    refine ⟨rfl, (waiting_enqueue _ _).trans ?_⟩
    simp only [Machine.hands, hholds, Option.map_map, Function.comp_def, Option.map_id']
    rfl
  | command cmd | interrupt =>
    cases Machine.eq_enqueue hn
    exact ⟨rfl, waiting_enqueue _ _⟩
  | accept task answer =>
    cases Machine.step_of_next hn with
    | accept => exact ⟨rfl, (List.append_nil _).symm⟩
  | read task answer =>
    cases Machine.step_of_next hn with
    | read => exact ⟨rfl, (List.append_nil _).symm⟩
  | forward task =>
    cases Machine.step_of_next hn with
    | forward => exact ⟨rfl, waiting_enqueue _ _⟩
  | handle answers => exact (hother answers rfl).elim

/-- The registry enters the connections in the order in which they came into the channel. -/
theorem entered_of_run (hr : Run (machineSystem capacity) hist m)
    (hp : m.world.phase ≠ .panicked) :
    (intakeOf hist).map Prod.snd = enteredOf m.world.log ++ m.waiting := by
  induction hr with
  | init hi =>
    obtain ⟨hworld, hqueue, -⟩ := hi
    rw [hworld, Machine.waiting, hqueue]
    rfl
  | @step hist m m' a hr hn ih =>
    rw [intakeOf_append, List.map_append, ← Option.toList_map]
    by_cases hhandle : ∃ answers, a = .handle answers
    · obtain ⟨answers, rfl⟩ := hhandle
      cases Machine.step_of_next hn with
      | @handle _ msg rest hqueue hrunning =>
        have hcalm : m.world.reg.handleInput (answers.environment m.fs) msg.input ≠ .panicked := by
          intro hpanic
          exact hp (by simp only [Machine.handle, World.handle, hpanic])
        have hlog : (m.handle answers msg.input rest).world.log = m.world.log ++
            (m.world.reg.handleInput (answers.environment m.fs) msg.input).effects :=
          log_handle _ _ _
        have hwaiting : m.waiting = msg.input.handoff.toList ++
            (m.handle answers msg.input rest).waiting := by
          rw [Machine.waiting, Machine.waiting, hqueue]
          cases h : msg.input.handoff <;> simp [h, Machine.handle]
        rw [ih (by rw [hrunning]; exact Phase.noConfusion), hlog, enteredOf_append,
          enteredOf_handleInput hcalm, hwaiting]
        simp only [Machine.hands, Option.map_none, Option.toList_none, List.append_nil,
          List.append_assoc]
    · obtain ⟨hworld, hwaiting⟩ := waiting_step hn fun answers he ↦ hhandle ⟨answers, he⟩
      rw [hworld] at hp ⊢
      rw [ih hp, hwaiting, List.append_assoc]

/-- What an accept task has met it has handed over or holds, and it holds something
only for a server it was started for. -/
structure Custodial (task : JoinHandle) (hist : List (Machine × Action)) (m : Machine) : Prop where
  met : metBy task hist = intakeBy task hist ++ (m.holds task).toList
  started : m.acceptors task ≠ none → (m.world.log.findSome? (Effect.acceptor task)).isSome

namespace Custodial

theorem other (h : Custodial task hist m) (hmeets : m.meets task a = none)
    (hhands : intakeBy task [(m, a)] = []) (hacceptor : m'.acceptors task = m.acceptors task)
    (hlog : m.world.log <+: m'.world.log) : Custodial task (hist ++ [(m, a)]) m' := by
  obtain ⟨effects, hlog⟩ := hlog
  have hserver : m.acceptors task ≠ none → m'.world.log.findSome? (Effect.acceptor task) =
      m.world.log.findSome? (Effect.acceptor task) := by
    intro hne
    obtain ⟨server, hs⟩ := Option.isSome_iff_exists.mp (h.started hne)
    rw [← hlog, List.findSome?_append, hs, Option.some_or]
  refine ⟨?_, fun hne ↦ ?_⟩
  · rw [metBy_append, intakeBy_append, hmeets, hhands, Option.toList_none, List.append_nil,
      List.append_nil, h.met, Machine.holds, Machine.holds, hacceptor]
    by_cases hne : m.acceptors task = none
    · rw [hne]
      rfl
    · rw [hserver hne]
  · rw [hacceptor] at hne
    rw [hserver hne]
    exact h.started hne

theorem accept (h : Custodial task hist m) {t : JoinHandle}
    {answer : Except DomainError AcceptedStream} {server : ConnectionId}
    (hserver : m.world.log.findSome? (Effect.acceptor t) = some server)
    (hidle : m.acceptors t = none) : Custodial task (hist ++ [(m, .accept t answer)])
      (m.setAcceptor t ((acceptMessage server answer).map fun _ ↦ answer)) := by
  by_cases ht : t = task
  · subst ht
    have hholds : m.holds t = none := by rw [Machine.holds, hidle]; rfl
    have hnow : (m.setAcceptor t ((acceptMessage server answer).map fun _ ↦ answer)).holds t =
        m.meets t (.accept t answer) := by
      simp only [Machine.holds, Machine.setAcceptor, Function.update_self, Machine.meets, if_true,
        hserver]
      cases hi : acceptMessage server answer <;> simp [hi]
    refine ⟨?_, fun _ ↦ Option.isSome_iff_exists.mpr ⟨server, hserver⟩⟩
    rw [metBy_append, intakeBy_append, h.met, hholds, hnow]
    rfl
  · refine h.other (if_neg ht) rfl (Function.update_of_ne (Ne.symm ht) ..) (List.prefix_refl _)

theorem handOver (h : Custodial task hist m) {t : JoinHandle}
    (hn : m.next capacity (.handOver t) = some m') :
    Custodial task (hist ++ [(m, .handOver t)]) m' := by
  obtain ⟨input, -, rfl⟩ := handOver_eq hn
  by_cases ht : t = task
  · subst ht
    have hreleased : ((m.setAcceptor t none).enqueue ⟨input, some t⟩).acceptors t = none :=
      Function.update_self ..
    refine ⟨?_, fun hne ↦ (hne hreleased).elim⟩
    have hholds : ((m.setAcceptor t none).enqueue ⟨input, some t⟩).holds t = none := by
      rw [Machine.holds, hreleased]
      rfl
    have hnow : intakeBy t [(m, .handOver t)] = (m.holds t).toList := by
      simp only [intakeBy, intakeOf, List.filterMap_cons, Machine.hands]
      cases m.holds t <;> simp
    rw [metBy_append, intakeBy_append, h.met, hnow, hholds]
    rfl
  · have hnone : intakeBy task [(m, .handOver t)] = [] := by
      simp only [intakeBy, intakeOf, List.filterMap_cons, Machine.hands]
      cases m.holds t <;> simp [ht]
    exact h.other rfl hnone (Function.update_of_ne (Ne.symm ht) ..) (List.prefix_refl _)

end Custodial

theorem custodial_of_run (hr : Run (machineSystem capacity) hist m) (task : JoinHandle) :
    Custodial task hist m := by
  induction hr with
  | init hi =>
    have hnone : ∀ t, _ = none := congrFun hi.acceptors
    exact ⟨by rw [Machine.holds, hnone]; rfl, fun hne ↦ (hne (hnone task)).elim⟩
  | @step hist m m' a hr hn ih =>
    cases a with
    | handOver t => exact ih.handOver hn
    | accept t answer =>
      cases Machine.step_of_next hn with
      | accept hserver _ hidle => exact ih.accept hserver hidle
    | _ =>
      refine ih.other rfl rfl ?_ (prefix_log_step (Machine.step_of_next hn))
      cases Machine.step_of_next hn with
      | _ => rfl

/-- Once aborted, an accept task hands over nothing more. -/
theorem intakeBy_of_aborted {before after : List (Machine × Action)} {m₀ : Machine}
    (hr : Run (machineSystem capacity) (before ++ (m₀, a) :: after) m)
    (habort : .abort task ∈ m₀.world.log) : intakeBy task ((m₀, a) :: after) = [] := by
  have hstep : ∀ n b n', .abort task ∈ n.world.log → n.next capacity b = some n' →
      intakeBy task [(n, b)] = [] ∧ .abort task ∈ n'.world.log := by
    intro n b n' ha hn
    refine ⟨?_, (prefix_log_step (Machine.step_of_next hn)).mem ha⟩
    cases b with
    | handOver t =>
      have ht : t ≠ task := by
        rintro rfl
        cases Machine.step_of_next hn with
        | handOver _ hlive => exact hlive ha
      simp only [intakeBy, intakeOf, List.filterMap_cons, Machine.hands]
      cases n.holds t <;> simp [ht]
    | _ => rfl
  obtain ⟨-, n, hn⟩ := hr.of_append_cons
  obtain ⟨-, hafter⟩ := hr.forall_after (p := fun n ↦ .abort task ∈ n.world.log)
    (fun n' hn' ↦ (hstep _ _ _ habort hn').2) fun _ _ _ ha hn' ↦ (hstep _ _ _ ha hn').2
  have hall : ∀ q ∈ (m₀, a) :: after, intakeBy task [q] = [] := by
    intro q hq
    rcases List.mem_cons.mp hq with rfl | hq
    · exact (hstep _ _ _ habort hn).1
    · obtain ⟨ha, n', hn'⟩ := hafter q hq
      exact (hstep _ _ _ ha hn').1
  generalize (m₀, a) :: after = later at hall
  induction later using List.reverseRecOn with
  | nil => rfl
  | append_singleton later q ih =>
    rw [intakeBy_append, ih fun p hp ↦ hall p (List.mem_append_left _ hp),
      hall q (List.mem_append_right _ (List.mem_singleton_self q))]
    rfl

end Runs

end WireDock
