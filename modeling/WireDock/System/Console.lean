import WireDock.Repl.Parser
import WireDock.System.Machine

namespace WireDock

open LabelledSystem

/-- The places of the input channel, the display channel and the external printer. -/
structure Capacities where
  input : ℕ
  display : ℕ
  printer : ℕ

def Capacities.lines (caps : Capacities) : ℕ := caps.display + 1 + caps.printer

/-- Where the loop of the REPL task stands. -/
inductive Repl
  | reading
  | sending (cmd : Command)
  | awaiting
  | showing (line : DisplayLine)
  | leaving
  | exited
deriving DecidableEq

/-- Outside of `read_line`, before the next turn of the loop. -/
def Repl.waiting : Repl → Bool
  | reading | exited => false
  | _ => true

def Repl.lines : Repl → List DisplayLine
  | showing line => [line]
  | _ => []

inductive RegistryTask
  | receiving
  | displaying (lines : List DisplayLine) (reply : Option CommandOutcome)
deriving DecidableEq

def RegistryTask.lines : RegistryTask → List DisplayLine
  | receiving => []
  | displaying lines _ => lines

structure Console where
  machine : Machine
  registry : RegistryTask
  reply : Option CommandOutcome
  display : List DisplayLine
  held : Option DisplayLine
  printer : List DisplayLine
  repl : Repl

inductive ConsoleAction
  /-- What the user types, and the lines `read_line` prints. -/
  | submit (line : String)
  | leave
  | drain
  /-- The steps of the REPL task outside of `read_line`. -/
  | send
  | reply
  | display
  | halt
  /-- The steps of the registry task. -/
  | take (answers : Answers)
  | emit
  | answer
  /-- The steps of the display task. -/
  | receive
  | print
  /-- The steps of the accept and read tasks and of the signal handler. -/
  | traffic (action : Action)

/-- The steps that are not of the REPL, the registry task or the display task. -/
def ConsoleAction.isTraffic : ConsoleAction → Bool
  | traffic _ => true
  | _ => false

def CommandOutcome.line (outcome : CommandOutcome) : DisplayLine :=
  let tag := if outcome.success then "OK" else "ERR"
  ⟨s!"{tag} {outcome.message}"⟩

namespace Console

variable (caps : Capacities) (c : Console)

def Initial : Prop :=
  c.machine.Initial ∧ c.registry = .receiving ∧ c.reply = none ∧ c.display = [] ∧
    c.held = none ∧ c.printer = [] ∧ c.repl = .reading

def handling (answers : Answers) (input : RegistryInput) : Handling :=
  c.machine.world.reg.handleInput (answers.environment c.machine.fs) input

def submit (line : String) : Console :=
  match parseLine line with
  | .ok none => c
  | .ok (some cmd) => { c with repl := .sending cmd }
  | .error e => { c with repl := .showing ⟨s!"ERR {e}"⟩ }

/-- `send` waits for a free place, and fails once the registry task has ended. -/
def send (input : RegistryInput) (repl : Repl) : Option Console :=
  if c.machine.world.phase = .running then
    (c.machine.send caps.input ⟨input, none⟩).map fun machine ↦
      { c with machine, repl, reply := none }
  else some { c with repl := .exited }

/-- One step of one task. `main` ends the REPL after the registry task. -/
def next : ConsoleAction → Option Console
  | .submit line => if c.repl = .reading then some (c.submit line) else none
  | .leave => if c.repl = .reading then some { c with repl := .leaving } else none
  | .drain =>
    match c.repl, c.printer with
    | .reading, _ :: printer => some { c with printer }
    | _, _ => none
  | .send =>
    match c.repl with
    | .sending cmd => c.send caps (.command cmd) .awaiting
    | .leaving => c.send caps .shutdown .exited
    | _ => none
  | .reply =>
    match c.repl, c.reply with
    | .awaiting, some outcome => some { c with reply := none, repl := .showing outcome.line }
    | .awaiting, none =>
      if c.machine.world.phase = .running then none else some { c with repl := .reading }
    | _, _ => none
  | .display =>
    match c.repl with
    | .showing line =>
      if c.display.length < caps.display then
        some { c with display := c.display ++ [line], repl := .reading }
      else none
    | _ => none
  | .halt => if c.machine.world.phase = .running then none else some { c with repl := .exited }
  | .take answers =>
    match c.registry, c.machine.queue with
    | .receiving, msg :: _ =>
      (c.machine.next caps.input (.handle answers)).map fun machine ↦
        let handling := c.handling answers msg.input
        { c with
          machine
          registry := .displaying (handling.effects.filterMap Effect.displayed) handling.reply }
    | _, _ => none
  | .emit =>
    match c.registry with
    | .displaying (line :: lines) reply =>
      if c.display.length < caps.display then
        some { c with display := c.display ++ [line], registry := .displaying lines reply }
      else none
    | _ => none
  | .answer =>
    match c.registry with
    | .displaying [] reply => some { c with registry := .receiving, reply := reply <|> c.reply }
    | _ => none
  | .receive =>
    match c.held, c.display with
    | none, line :: display => some { c with held := some line, display }
    | _, _ => none
  | .print =>
    match c.held with
    | some line =>
      if c.printer.length < caps.printer then
        some { c with held := none, printer := c.printer ++ [line] }
      else none
    | none => none
  | .traffic action =>
    match action with
    | .command _ | .handle _ => none
    | _ => (c.machine.next caps.input action).map fun machine ↦ { c with machine }

def load : ℕ :=
  c.registry.lines.length + c.repl.lines.length + c.display.length + c.held.toList.length +
    c.printer.length

/-- The lines a step adds to them, for the steps that may add some while the
REPL waits or that make it wait. -/
def added : ConsoleAction → Option ℕ
  | .submit line =>
    match parseLine line with
    | .ok none => none
    | .ok (some _) => some 0
    | .error _ => some 1
  | .leave => some 0
  | .reply => c.reply.map fun _ ↦ 1
  | .take answers =>
    if c.repl.waiting then
      c.machine.queue.head?.map fun msg ↦
        ((c.handling answers msg.input).effects.filterMap Effect.displayed).length
    else none
  | _ => none

inductive Step : ConsoleAction → Console → Prop
  | submitted (line : String) (hrepl : c.repl = .reading) : Step (.submit line) (c.submit line)
  | left (hrepl : c.repl = .reading) : Step .leave { c with repl := .leaving }
  | drained {line : DisplayLine} {printer : List DisplayLine} (hrepl : c.repl = .reading)
      (hprinter : c.printer = line :: printer) : Step .drain { c with printer }
  | sentCommand {cmd : Command} (hrepl : c.repl = .sending cmd)
      (hmachine : c.machine.next caps.input (.command cmd) =
        some (c.machine.enqueue ⟨.command cmd, none⟩)) :
      Step .send
        { c with
          machine := c.machine.enqueue ⟨.command cmd, none⟩
          repl := .awaiting
          reply := none }
  | sentShutdown (hrepl : c.repl = .leaving)
      (hmachine : c.machine.next caps.input .interrupt =
        some (c.machine.enqueue ⟨.shutdown, none⟩)) :
      Step .send
        { c with machine := c.machine.enqueue ⟨.shutdown, none⟩, repl := .exited, reply := none }
  | stopped {a : ConsoleAction} {repl : Repl} (hphase : c.machine.world.phase ≠ .running) :
      Step a { c with repl }
  | replied {outcome : CommandOutcome} (hrepl : c.repl = .awaiting)
      (hreply : c.reply = some outcome) :
      Step .reply { c with reply := none, repl := .showing outcome.line }
  | shown {line : DisplayLine} (hrepl : c.repl = .showing line) :
      Step .display { c with display := c.display ++ [line], repl := .reading }
  | took {answers : Answers} {msg : Message} {rest : List Message}
      (hregistry : c.registry = .receiving) (hqueue : c.machine.queue = msg :: rest)
      (hrunning : c.machine.world.phase = .running)
      (hmachine : c.machine.next caps.input (.handle answers) =
        some (c.machine.handle answers msg.input rest)) :
      Step (.take answers)
        { c with
          machine := c.machine.handle answers msg.input rest
          registry := .displaying
            ((c.handling answers msg.input).effects.filterMap Effect.displayed)
            (c.handling answers msg.input).reply }
  | emitted {line : DisplayLine} {lines : List DisplayLine} {reply : Option CommandOutcome}
      (hregistry : c.registry = .displaying (line :: lines) reply) :
      Step .emit { c with display := c.display ++ [line], registry := .displaying lines reply }
  | answered {reply : Option CommandOutcome} (hregistry : c.registry = .displaying [] reply) :
      Step .answer { c with registry := .receiving, reply := reply <|> c.reply }
  | received {line : DisplayLine} {display : List DisplayLine} (hheld : c.held = none)
      (hdisplay : c.display = line :: display) :
      Step .receive { c with held := some line, display }
  | printed {line : DisplayLine} (hheld : c.held = some line) :
      Step .print { c with held := none, printer := c.printer ++ [line] }
  | traffic {action : Action} {machine : Machine}
      (hmachine : c.machine.next caps.input action = some machine)
      (hworld : machine.world = c.machine.world)
      (hqueue : ∀ msg ∈ c.machine.queue, msg ∈ machine.queue) :
      Step (.traffic action) { c with machine }

variable {caps c} {c' : Console} {a : ConsoleAction}

theorem submit_eq (c : Console) (line : String) : ∃ repl, c.submit line = { c with repl } := by
  unfold submit
  split <;> exact ⟨_, rfl⟩

theorem send_eq_some {input : RegistryInput} {repl : Repl}
    (h : c.send caps input repl = some c') :
    c.machine.send caps.input ⟨input, none⟩ = some (c.machine.enqueue ⟨input, none⟩) ∧
        c' = { c with machine := c.machine.enqueue ⟨input, none⟩, repl, reply := none } ∨
      c.machine.world.phase ≠ .running ∧ c' = { c with repl := .exited } := by
  unfold Console.send at h
  split_ifs at h with hrunning
  · obtain ⟨machine, hm, rfl⟩ := Option.map_eq_some_iff.mp h
    cases Machine.eq_enqueue hm
    exact .inl ⟨hm, rfl⟩
  · cases h
    exact .inr ⟨hrunning, rfl⟩

theorem traffic_step {m m' : Machine} {action : Action} (h : m.Step action m')
    (hother : ∀ answers, action ≠ .handle answers) :
    m'.world = m.world ∧ ∀ msg ∈ m.queue, msg ∈ m'.queue := by
  cases h with
  | handle => exact (hother _ rfl).elim
  | accept | read => exact ⟨rfl, fun _ hm ↦ hm⟩
  | _ => exact ⟨rfl, fun _ hm ↦ List.mem_append_left _ hm⟩

theorem step_of_next (h : c.next caps a = some c') : c.Step caps a c' := by
  cases a with
  | submit line =>
    simp only [next] at h
    split_ifs at h with hrepl
    cases h
    exact .submitted line hrepl
  | leave =>
    simp only [next] at h
    split_ifs at h with hrepl
    cases h
    exact .left hrepl
  | drain =>
    simp only [next] at h
    split at h <;> cases h
    exact .drained ‹_› ‹_›
  | send =>
    simp only [next] at h
    split at h
    · rename_i cmd hrepl
      rcases send_eq_some h with ⟨hm, rfl⟩ | ⟨hphase, rfl⟩
      · exact .sentCommand hrepl hm
      · exact .stopped hphase
    · rename_i hrepl
      rcases send_eq_some h with ⟨hm, rfl⟩ | ⟨hphase, rfl⟩
      · exact .sentShutdown hrepl hm
      · exact .stopped hphase
    · cases h
  | reply =>
    simp only [next] at h
    split at h
    · cases h
      exact .replied ‹_› ‹_›
    · split_ifs at h with hrunning
      cases h
      exact .stopped hrunning
    · cases h
  | display =>
    simp only [next] at h
    split at h
    · split_ifs at h
      cases h
      exact .shown ‹_›
    · cases h
  | halt =>
    simp only [next] at h
    split_ifs at h with hrunning
    cases h
    exact .stopped hrunning
  | take answers =>
    simp only [next] at h
    split at h
    · rename_i msg rest hregistry hqueue
      obtain ⟨machine, hm, rfl⟩ := Option.map_eq_some_iff.mp h
      cases Machine.step_of_next hm with
      | handle hq hrunning =>
        cases hqueue.symm.trans hq
        exact .took hregistry hqueue hrunning hm
    · cases h
  | emit =>
    simp only [next] at h
    split at h
    · split_ifs at h
      cases h
      exact .emitted ‹_›
    · cases h
  | answer =>
    simp only [next] at h
    split at h <;> cases h
    exact .answered ‹_›
  | receive =>
    simp only [next] at h
    split at h <;> cases h
    exact .received ‹_› ‹_›
  | print =>
    simp only [next] at h
    split at h
    · split_ifs at h
      cases h
      exact .printed ‹_›
    · cases h
  | traffic action =>
    simp only [next] at h
    split at h
    · cases h
    · cases h
    · rename_i _ hhandle
      obtain ⟨machine, hm, rfl⟩ := Option.map_eq_some_iff.mp h
      obtain ⟨hworld, hqueue⟩ :=
        traffic_step (Machine.step_of_next hm) fun answers he ↦ hhandle answers he
      exact .traffic hm hworld hqueue

end Console

def consoleSystem (caps : Capacities) : System Console ConsoleAction :=
  .ofNext Console.Initial (Console.next caps)

theorem machine_reachable {caps : Capacities} {ok : Console → ConsoleAction → Prop} {c : Console}
    (hc : ReachableBy (consoleSystem caps) ok c) :
    Reachable (machineSystem caps.input) c.machine := by
  refine Projection.reachableBy (S := consoleSystem caps) (f := Console.machine)
    (fun c hi ↦ hi.1) (fun c a c' _ hn ↦ ?_) hc
  cases Console.step_of_next hn with
  | submitted line =>
    obtain ⟨repl, he⟩ := c.submit_eq line
    exact .inr (by rw [he])
  | sentCommand _ hm | sentShutdown _ hm | took _ _ _ hm | traffic hm => exact .inl ⟨_, trivial, hm⟩
  | _ => exact .inr rfl

/-- The REPL waits outside of `read_line`, and no step of its own, of the
registry task or of the display task is possible. -/
def Deadlocked (caps : Capacities) (c : Console) : Prop :=
  c.repl.waiting = true ∧
    ∀ a : ConsoleAction, a.isTraffic = false → c.next caps a = none

end WireDock
