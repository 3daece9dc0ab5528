import WireDock.System.Delivery

namespace WireDock

open LabelledSystem

/-- A line of the registry: it begins with a bracketed name, which no line of
the REPL does. -/
def DisplayLine.isEvent (line : DisplayLine) : Bool := line.text.toList.head? = some '['

def transcript (hist : History) (c : Console) : List DisplayLine :=
  (Screen.of hist).printed ++ c.printer ++ c.held.toList ++ c.display

def Effect.Bracketed (e : Effect) : Prop := ∀ line ∈ e.displayed, line.isEvent = true

section Bracketed

variable {env : Environment} {reg : Registry} {id : ConnectionId} {bytes : List UInt8} {e : Effect}

@[simp] theorem head_bracket : (toString "[").toList.head? = some '[' := rfl

@[simp] theorem bracketed_say {text : String} :
    (say text).Bracketed ↔ text.toList.head? = some '[' := by
  simp [Effect.Bracketed, say, Effect.displayed, DisplayLine.isEvent]

theorem bracketed_of_displayed (h : e.displayed = none) : e.Bracketed := by
  intro line hl
  rw [h] at hl
  cases hl

@[simp] theorem bracketed_connect {endpoint : Endpoint} : (Effect.connect endpoint).Bracketed :=
  bracketed_of_displayed rfl

@[simp] theorem bracketed_bind {endpoint : ServerEndpoint} : (Effect.bind endpoint).Bracketed :=
  bracketed_of_displayed rfl

@[simp] theorem bracketed_spawnAccept {task : JoinHandle} {listener : AcceptLoop} :
    (Effect.spawnAccept task id listener).Bracketed := bracketed_of_displayed rfl

@[simp] theorem bracketed_spawnRead {task : JoinHandle} {stream : BoxedStream} :
    (Effect.spawnRead task id stream).Bracketed := bracketed_of_displayed rfl

theorem displayed_dropStream : ∀ e ∈ (reg.dropStream id).2, e.Bracketed := by
  intro e he
  obtain ⟨task, rfl⟩ := Registry.abort_of_mem_dropStream he
  exact bracketed_of_displayed rfl

theorem displayed_dropServer {order : IterationOrder ConnectionId} :
    ∀ e ∈ (reg.dropServer order id).2, e.Bracketed := by
  intro e he
  rcases Registry.abort_or_remove_of_mem_dropServer he with ⟨task, rfl⟩ | ⟨path, rfl⟩ <;>
    exact bracketed_of_displayed rfl

theorem bracketed_write : ∀ e ∈ (reg.writeToStream env id bytes).2, e.Bracketed := by
  intro e he
  unfold Registry.writeToStream at he
  cases hs : reg.streams.lookup id with
  | none =>
    rw [hs] at he
    cases he
  | some s =>
    simp only [hs] at he
    split_ifs at he
    · cases he
    · cases hw : env.write s.stream bytes <;>
      · simp only [hw, List.mem_singleton] at he
        rw [he]
        exact bracketed_of_displayed rfl

theorem bracketed_broadcast {children : List ConnectionId} :
    ∀ e ∈ reg.broadcast env bytes children, e.Bracketed := by
  induction children with
  | nil => exact fun e he ↦ by cases he
  | cons c children ih =>
    intro e he
    rw [Registry.broadcast, List.mem_append, List.mem_append] at he
    rcases he with (he | he) | he
    · exact bracketed_write e he
    · cases hw : (reg.writeToStream env c bytes).1 with
      | ok u =>
        rw [hw] at he
        cases he
      | error err =>
        rw [hw] at he
        rw [List.mem_singleton.mp he, bracketed_say]
        simp [String.toList_append]
    · exact ih e he

theorem bracketed_send : ∀ e ∈ (reg.sendBytes env id bytes).2, e.Bracketed := by
  intro e he
  unfold Registry.sendBytes at he
  split_ifs at he
  · cases he
  · cases hs : reg.servers.lookup id with
    | none =>
      rw [hs] at he
      cases he
    | some srv =>
      simp only [hs] at he
      split_ifs at he
      · cases he
      · exact bracketed_broadcast e he
  · exact bracketed_write e he

theorem bracketed_command (cmd : Command) :
    ∀ e ∈ (reg.handleCommand env cmd).effects, e.Bracketed := by
  have hopen : ∀ id endpoint path,
      ∀ e ∈ (reg.openServer env id endpoint path).effects, e.Bracketed := by
    intro id endpoint path
    unfold Registry.openServer
    cases env.bind endpoint <;>
      simp [String.toList_append]
  cases cmd with
  | openTcpServer | openIpcServer =>
    simp only [Registry.handleCommand]
    split_ifs
    · simp
    · exact hopen _ _ _
  | openTcpClient localPort remoteHost remotePort =>
    simp only [Registry.handleCommand]
    split_ifs
    · simp
    · cases env.connect (.tcp localPort remoteHost remotePort) <;>
        simp [spawnStream, String.toList_append]
  | openIpcClient remotePath =>
    simp only [Registry.handleCommand]
    cases env.connect (.ipc remotePath) <;>
      simp [spawnStream, String.toList_append]
  | close token =>
    simp only [Registry.handleCommand]
    cases reg.resolveId token defaultTokenParser with
    | error e => simp
    | ok id =>
      have hclosed : (say s!"[{id}] CLOSED").Bracketed := by
        rw [bracketed_say]
        simp [String.toList_append]
      simp only
      split_ifs
      · exact List.forall_mem_append.mpr ⟨displayed_dropServer, by simp [hclosed]⟩
      · exact List.forall_mem_append.mpr ⟨displayed_dropStream, by simp [hclosed]⟩
      · simp
  | send token bytes =>
    simp only [Registry.handleCommand]
    cases reg.resolveId token defaultTokenParser with
    | error e => simp
    | ok id =>
      simp only
      cases (reg.sendBytes env (reg.entryOf token id) bytes).1 <;> exact bracketed_send
  | label token name =>
    simp only [Registry.handleCommand]
    cases reg.resolveId token defaultTokenParser <;> simp
  | status => simp [Registry.handleCommand]

theorem bracketed_event (ev : NetEvent) : ∀ e ∈ (reg.handleEvent ev).2, e.Bracketed := by
  cases ev with
  | received | error =>
    simp [Registry.handleEvent, Registry.onReceived, Registry.onErrorEvent, String.toList_append]
  | closed id =>
    simp only [Registry.handleEvent, Registry.onClosedEvent]
    split_ifs
    · refine List.forall_mem_append.mpr ⟨displayed_dropStream, ?_⟩
      simp [String.toList_append]
    · simp
  | renamed => simp [Registry.handleEvent]

theorem bracketed_register {parent : ConnectionId} {peerInfo : PeerInfo} {stream : BoxedStream}
    {allocated : Registry × ConnectionId × Option NetEvent} :
    ∀ e ∈ (Registry.register env parent peerInfo stream allocated).2, e.Bracketed := by
  have hrenamed : ∀ e ∈ Registry.renamedLine allocated.2.2, e.Bracketed := by
    unfold Registry.renamedLine
    split <;> simp [String.toList_append]
  refine List.forall_mem_append.mpr ⟨hrenamed, ?_⟩
  simp [spawnStream, String.toList_append]

theorem bracketed_shutdown {order : IterationOrder ConnectionId} :
    ∀ e ∈ (reg.shutdown order).2, e.Bracketed := by
  have hlog : ∀ e ∈ [] ++ (reg.shutdown order).2, e.Bracketed :=
    shutdown_invariant (P := fun _ log ↦ ∀ e ∈ log, e.Bracketed)
      (fun _ _ _ h ↦ List.forall_mem_append.mpr ⟨h, displayed_dropServer⟩)
      (fun _ _ _ h ↦ List.forall_mem_append.mpr ⟨h, displayed_dropStream⟩) (by simp)
  exact hlog

theorem bracketed_handleInput (env : Environment) (reg : Registry) (input : RegistryInput) :
    ∀ e ∈ (reg.handleInput env input).effects, e.Bracketed := by
  cases input with
  | command cmd => exact bracketed_command cmd
  | event ev => exact bracketed_event ev
  | shutdown => exact bracketed_shutdown
  | accepted parent child peerInfo stream =>
    cases hb : Registry.acceptedBase parent child with
    | none =>
      simp only [Registry.handleInput, Registry.handleAccepted_of_no_base hb]
      simp [Handling.effects, String.toList_append]
    | some b =>
      simp only [Registry.handleInput, Registry.handleAccepted_of_base hb]
      cases reg.allocate b with
      | none => simp [Handling.effects]
      | some allocated => exact bracketed_register

theorem bracketed_of_reachable {ok : World → Environment × RegistryInput → Prop} {w : World}
    (hw : ReachableBy registrySystem ok w) : ∀ e ∈ w.log, e.Bracketed := by
  refine ReachableBy.invariant (P := fun w ↦ ∀ e ∈ w.log, e.Bracketed) ?_ ?_ hw
  · intro w hi
    cases hi
    exact fun e he ↦ by cases he
  · intro w a w' _ h _ hs
    obtain ⟨-, -, rfl⟩ := hs
    rw [log_handle]
    exact List.forall_mem_append.mpr ⟨h, bracketed_handleInput _ _ _⟩

end Bracketed

section Runs

variable {caps : Capacities} {c c' : Console} {a : ConsoleAction}

/-- The lines that entered the display channel from the registry, and those it is
about to put there, are the lines it asked to display. -/
def EventsInOrder (hist : History) (c : Console) : Prop :=
  ((Screen.of hist).entered.map Prod.snd).filter DisplayLine.isEvent ++ c.registry.lines =
    c.machine.world.log.filterMap Effect.displayed

def RepliesTagged (c : Console) : Prop := ∀ line ∈ c.repl.lines, line.isEvent = false

theorem isEvent_err (e : ReplError) : DisplayLine.isEvent ⟨s!"ERR {e}"⟩ = false := by
  simp [DisplayLine.isEvent, String.toList_append, toString]

theorem isEvent_outcome (outcome : CommandOutcome) : outcome.line.isEvent = false := by
  unfold CommandOutcome.line
  cases outcome.success <;> simp [DisplayLine.isEvent, String.toList_append, toString]

theorem lines_of_send {input : RegistryInput} {repl : Repl} (hr : repl.lines = [])
    (h : c.send caps input repl = some c') : c'.repl.lines = [] := by
  rcases Console.send_eq_some h with ⟨-, rfl⟩ | ⟨-, rfl⟩
  · exact hr
  · rfl

theorem repliesTagged_step (h : RepliesTagged c) (hn : c.next caps a = some c') :
    RepliesTagged c' := by
  have hnone : c'.repl.lines = [] → RepliesTagged c' := fun he line hl ↦ by
    rw [he] at hl
    cases hl
  cases a with
  | submit line =>
    simp only [Console.next, Console.submit] at hn
    split_ifs at hn
    cases hn
    split
    · exact h
    · exact fun l hl ↦ by cases hl
    · intro l hl
      rw [List.mem_singleton.mp hl]
      exact isEvent_err _
  | leave =>
    simp only [Console.next] at hn
    split_ifs at hn
    cases hn
    exact hnone rfl
  | send =>
    simp only [Console.next] at hn
    split at hn
    · exact hnone (lines_of_send rfl hn)
    · exact hnone (lines_of_send rfl hn)
    · cases hn
  | reply =>
    simp only [Console.next] at hn
    split at hn
    · cases hn
      intro l hl
      rw [List.mem_singleton.mp hl]
      exact isEvent_outcome _
    · split_ifs at hn
      cases hn
      exact hnone rfl
    · cases hn
  | display =>
    simp only [Console.next] at hn
    split at hn
    · split_ifs at hn
      cases hn
      exact hnone rfl
    · cases hn
  | halt =>
    simp only [Console.next] at hn
    split_ifs at hn
    cases hn
    exact hnone rfl
  | drain | answer | receive =>
    simp only [Console.next] at hn
    split at hn <;> cases hn
    exact h
  | emit | print =>
    simp only [Console.next] at hn
    split at hn
    · split_ifs at hn
      cases hn
      exact h
    · cases hn
  | take =>
    simp only [Console.next] at hn
    split at hn
    · obtain ⟨machine, -, rfl⟩ := Option.map_eq_some_iff.mp hn
      exact h
    · cases hn
  | traffic =>
    simp only [Console.next] at hn
    split at hn
    · cases hn
    · cases hn
    · obtain ⟨machine, -, rfl⟩ := Option.map_eq_some_iff.mp hn
      exact h

theorem repliesTagged_of_reachable (hc : Reachable (consoleSystem caps) c) : RepliesTagged c := by
  refine Reachable.invariant (P := RepliesTagged) ?_ (fun _ _ _ _ h hn ↦ repliesTagged_step h hn) hc
  intro c hi line hl
  obtain ⟨-, -, -, -, -, -, hrepl⟩ := hi
  rw [hrepl] at hl
  cases hl

theorem EventsInOrder.isEvent {hist : History} (h : EventsInOrder hist c)
    (hc : Reachable (consoleSystem caps) c) {line : DisplayLine} (hl : line ∈ c.registry.lines) :
    line.isEvent = true := by
  rw [EventsInOrder] at h
  have hlog : line ∈ c.machine.world.log.filterMap Effect.displayed := by
    rw [← h]
    exact List.mem_append_right _ hl
  obtain ⟨e, he, hline⟩ := List.mem_filterMap.mp hlog
  exact bracketed_of_reachable (world_reachable_any (machine_reachable hc)) e he line hline

theorem eventsInOrder_of_run {hist : History} (hr : Run (consoleSystem caps) hist c) :
    EventsInOrder hist c := by
  induction hr with
  | init hi =>
    obtain ⟨⟨hworld, -⟩, hregistry, -⟩ := hi
    rw [EventsInOrder, hregistry, hworld]
    rfl
  | @step hist c c' a hr hn ih =>
    rw [EventsInOrder, screen_append]
    rw [EventsInOrder] at ih
    cases Console.step_of_next hn with
    | submitted line hrepl =>
      obtain ⟨repl, he⟩ := c.submit_eq line
      rw [he]
      exact ih
    | left | sentCommand | sentShutdown | replied | received | printed | drained => exact ih
    | stopped hphase =>
      rw [(stopped_unseen hn).2.1]
      exact ih
    | answered hregistry =>
      rw [hregistry] at ih
      exact ih
    | traffic _ hworld =>
      rw [← hworld] at ih
      exact ih
    | @shown line hrepl =>
      have htag := repliesTagged_of_reachable hr.reachable line
        (by rw [hrepl]; exact List.mem_singleton_self _)
      simp only [Screen.observe, hrepl, Repl.lines, List.map_append, List.filter_append] at ih ⊢
      simpa [htag] using ih
    | @took answers msg rest hregistry hqueue =>
      rw [hregistry, RegistryTask.lines, List.append_nil] at ih
      simp only [Screen.observe, Machine.handle, log_handle, List.filterMap_append, ← ih]
      rfl
    | @emitted line lines reply hregistry =>
      have htag : line.isEvent = true :=
        EventsInOrder.isEvent ih hr.reachable (by rw [hregistry]; exact List.mem_cons_self)
      simp only [Screen.observe, hregistry, RegistryTask.lines, List.map_append,
        List.filter_append] at ih ⊢
      simpa [htag] using ih

end Runs

/-- In every run the lines printed and those on their way hold, for every line the
registry asked to display, that line once and in the order they were asked for, up
to those it has still to put into the channel: the bracket a line begins with tells
them from the lines of the REPL, whatever the two tasks do in between. -/
theorem events_shown_in_order {caps : Capacities} {hist : History} {c : Console}
    (hr : Run (consoleSystem caps) hist c) :
    (transcript hist c).filter DisplayLine.isEvent ++ c.registry.lines =
        c.machine.world.log.filterMap Effect.displayed ∧
      (Screen.of hist).printed.filter DisplayLine.isEvent <+:
        c.machine.world.log.filterMap Effect.displayed := by
  have horder : transcript hist c = (Screen.of hist).entered.map Prod.snd := inOrder_of_run hr
  have hevents := eventsInOrder_of_run hr
  rw [EventsInOrder, ← horder] at hevents
  refine ⟨hevents, ?_⟩
  rw [← hevents, transcript]
  simp only [List.filter_append, List.append_assoc]
  exact List.prefix_append _ _

theorem events_shown_around_reply :
    ∃ hist c, Run (consoleSystem ⟨1024, 1024, 20⟩) hist c ∧
      hist.map Prod.snd = [.submit "open client 4000 host:80", .send, .take (.granting 0 []), .emit,
        .answer, .reply, .display, .traffic (.read 0 (.ok [65])), .traffic (.forward 0),
        .take (.granting 1 []), .receive, .print, .drain] ∧
      c.registry.lines.length = 1 ∧
      (transcript hist c).filter DisplayLine.isEvent ++ c.registry.lines =
        c.machine.world.log.filterMap Effect.displayed := by
  have hrun : ∃ c ∈ run (Console.next ⟨1024, 1024, 20⟩) (fun _ _ ↦ true) .start
      [.submit "open client 4000 host:80", .send, .take (.granting 0 []), .emit,
        .answer, .reply, .display, .traffic (.read 0 (.ok [65])), .traffic (.forward 0),
        .take (.granting 1 []), .receive, .print, .drain], c.registry.lines.length = 1 := by
    decide +kernel
  obtain ⟨c, hc, hlines⟩ := hrun
  have hstart : Run (consoleSystem ⟨1024, 1024, 20⟩) [] .start := .init Console.start_initial
  obtain ⟨hist, hr, ha⟩ := hstart.of_run hc
  exact ⟨hist, c, hr, ha, hlines, (events_shown_in_order hr).1⟩

end WireDock
