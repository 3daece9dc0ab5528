import WireDock.Registry.Clients
import WireDock.Registry.Closing
import WireDock.System.Mailbox
import WireDock.System.Console

namespace WireDock

open FiniteMap LabelledSystem

def Message.isCommand (msg : Message) : Bool :=
  match msg.input with
  | .command _ => true
  | _ => false

/-- The next command is sent after the reply to the one before. -/
def RepliedFirst (m : Machine) : Action → Prop
  | .command _ => m.world.phase = .running → m.queue.countP Message.isCommand = 0
  | _ => True

instance (m : Machine) (a : Action) : Decidable (RepliedFirst m a) := by
  cases a <;> unfold RepliedFirst <;> infer_instance

def OneCommand (m : Machine) : Prop :=
  m.world.phase = .running → m.queue.countP Message.isCommand ≤ 1

/-- What a client that was closed has left in the channel: no stream has its
id, and no command comes before. -/
def LeftoversFirst (m : Machine) : Prop :=
  m.world.phase = .running → ipcOpens m.world.log < 2 ^ 32 - 1 →
    ∀ before msg after task ev id stream, m.queue = before ++ msg :: after →
      msg.eventOf task = some ev → id.isClient = true → .spawnRead task id stream ∈ m.world.log →
      .abort task ∈ m.world.log → id ∉ m.world.reg.streams ∧ before.countP Message.isCommand = 0

theorem Machine.Sends.isCommand {m : Machine} {a : Action} {msg : Message} (h : m.Sends a msg)
    (ha : ∀ cmd, a ≠ .command cmd) : msg.isCommand = false := by
  cases h with
  | command hcmd => exact (ha _ hcmd).elim
  | shutdown => rfl
  | @task t input _ hinput => cases input <;> first | rfl | exact (hinput _ rfl).elim

theorem mem_registered_client {reg : Registry} (hw : WellFormed reg) {id : ConnectionId}
    (hid : id.isClient = true) : id ∈ reg.registered ↔ id ∈ reg.streams := by
  rw [Registry.mem_registered, or_iff_left]
  intro hv
  have hs := hw.isServer_of_mem hv
  cases id with
  | tcpClient | ipcClient => cases hs
  | _ => cases hid

theorem not_mem_enters_client {reg : Registry} {env : Environment} {input : RegistryInput}
    {id : ConnectionId} (hid : id.isClient = true) (hi : ∀ cmd, input ≠ .command cmd) :
    id ∉ reg.enters env input := by
  intro h
  unfold Registry.enters at h
  split at h
  · exact hi _ rfl
  · rename_i parent tentative _ _
    cases hb : Registry.acceptedBase parent tentative with
    | none =>
      rw [hb] at h
      cases h
    | some b =>
      rw [hb] at h
      obtain ⟨d, rfl⟩ := Registry.mem_acceptEnters h
      exact ConnectionId.ne_accepted hid b d rfl
  · cases h

section Runs

variable {capacity : ℕ} {ok : Machine → Action → Prop} {m : Machine}

theorem oneCommand_of_reachable (hm : ReachableBy (machineSystem capacity) RepliedFirst m) :
    OneCommand m := by
  refine machine_invariant ?_ ?_ hm
  · rintro m ⟨-, hq, -⟩ -
    rw [hq]
    exact Nat.zero_le _
  intro m a m' _ h hok hstep hrunning'
  rcases queue_step hstep with ⟨hworld, new, hq, hlen, hnew⟩ | ⟨answers, head, -, hq, hrunning, -⟩
  · rw [hworld] at hrunning'
    rw [hq, List.countP_append]
    by_cases ha : ∃ cmd, a = .command cmd
    · obtain ⟨cmd, ha⟩ := ha
      subst ha
      rw [hok hrunning', Nat.zero_add]
      exact List.countP_le_length.trans hlen
    · have hnone : new.countP Message.isCommand = 0 := by
        rw [List.countP_eq_zero]
        intro msg hmem
        rw [(hnew msg hmem).isCommand fun cmd hcmd ↦ ha ⟨cmd, hcmd⟩]
        exact Bool.false_ne_true
      rw [hnone]
      exact h hrunning'
  · have hle := h hrunning
    rw [hq, List.countP_cons] at hle
    omega

theorem client_accounted (hm : ReachableBy (machineSystem capacity) ok m)
    (hlt : ipcOpens m.world.log < 2 ^ 32 - 1) {task : JoinHandle} {id : ConnectionId}
    {stream : BoxedStream} (hid : id.isClient = true)
    (hs : .spawnRead task id stream ∈ m.world.log) :
    .abort task ∈ m.world.log ∨ m.world.reg.readTask id = some task :=
  (clientsAccounted_of_reachable (world_reachable_any hm) hlt).reads task id stream hid hs

theorem eq_of_owns_client (hm : ReachableBy (machineSystem capacity) ok m) {task : JoinHandle}
    {id k : ConnectionId} {stream : BoxedStream} (hid : id.isClient = true)
    (hs : .spawnRead task id stream ∈ m.world.log) (hread : m.world.reg.readTask id = some task)
    (howns : m.world.reg.Owns k task) : k = id := by
  have hw := world_reachable_any hm
  have hstreams := streamsOwned_of_reachable hw
  rcases howns with hk | ⟨srv, hsrv, rfl | ⟨c, hc, hk⟩⟩
  · exact hstreams.injective k id task hk hread
  · have howned : m.world.reg.owned k = some (srv.acceptTask, srv.ipcPath) := by
      rw [Registry.owned, show m.world.reg.servers.lookup k = some srv from hsrv, Option.map_some]
    obtain ⟨-, listener, hl⟩ := (serversOwned_of_reachable hw).spawned k _ _ howned
    cases spawnsUnique_of_reachable hw _ hs _ hl _ rfl rfl
  · have hparent := (((wellFormed_of_reachable hw).children_iff k srv hsrv c).mp hc).2
    rw [hstreams.injective c id task hk hread, ConnectionId.parent?,
      ConnectionId.base?_of_isClient hid] at hparent
    cases hparent

/-- With something of a client behind it in the channel, only a command takes
the client out of the registry. -/
theorem isCommand_of_closes_client (hm : ReachableBy (machineSystem capacity) ok m)
    (h : LeftoversFirst m) (hrunning : m.world.phase = .running)
    (hlt : ipcOpens m.world.log < 2 ^ 32 - 1) {head : Message} {rest : List Message}
    (hq : m.queue = head :: rest) {task : JoinHandle} {id : ConnectionId}
    (hid : id.isClient = true) (hread : m.world.reg.readTask id = some task)
    (hcloses : m.world.reg.closes head.input = some id) {msg : Message} (hmem : msg ∈ rest)
    {ev : NetEvent} (hev : msg.eventOf task = some ev) : head.isCommand = true := by
  obtain ⟨input, sender⟩ := head
  cases input with
  | command => rfl
  | accepted | shutdown => cases hcloses
  | event ev' =>
    cases ev' with
    | received | error | renamed => cases hcloses
    | closed k =>
      cases hcloses
      have hhead : ⟨.event (.closed id), sender⟩ ∈ m.queue := hq ▸ List.mem_cons_self
      obtain ⟨t, hsender⟩ := (posted_of_reachable hm).signed _ hhead _ rfl
      have hclosed : Message.eventOf t ⟨.event (.closed id), sender⟩ = some (.closed id) :=
        eventOf_eq_some.mpr ⟨rfl, hsender⟩
      by_cases ht : t = task
      · -- the client is taken out by its own `Closed`, after which it sends nothing
        subst ht
        have hupcoming : m.upcoming t =
            .closed id :: (rest.filterMap (Message.eventOf t) ++ (m.readers t).events) := by
          rw [Machine.upcoming, hq, List.filterMap_cons, hclosed]
          rfl
        have hlast := (closedLast_of_reachable hm).eq_nil hupcoming
        have hnil := (List.append_eq_nil_iff.mp hlast).1
        cases (List.filterMap_eq_nil_iff.mp hnil msg hmem).symm.trans hev
      · -- the `Closed` of an earlier client finds nobody under its id
        obtain ⟨stream, hs⟩ := ((posted_of_reachable hm).origin t _
          (mem_upcoming_of_queue hhead hclosed)).closed
        rcases client_accounted hm hlt hid hs with ha | hk
        · have hgone := (h hrunning hlt [] _ rest t _ id stream hq hclosed hid hs ha).1
          cases (Registry.readTask_eq_none.mpr hgone).symm.trans hread
        · cases hk.symm.trans hread
          exact (ht rfl).elim

theorem LeftoversFirst.grown {m' : Machine} {a : Action} {new : List Message}
    (h : LeftoversFirst m) (hworld : m'.world = m.world) (hq : m'.queue = m.queue ++ new)
    (hnew : ∀ msg ∈ new, m.Sends a msg) : LeftoversFirst m' := by
  intro hrunning hlt before msg after task ev id stream he hev hid hs habort
  rw [hworld] at hrunning hlt hs habort ⊢
  have hold : msg ∉ new := by
    intro hmem
    have hsender := (eventOf_eq_some.mp hev).2
    cases hnew msg hmem with
    | command | shutdown => cases hsender
    | task hlive =>
      cases hsender
      exact hlive habort
  rw [hq] at he
  rcases List.append_eq_append_iff.mp he with ⟨before', -, hmem⟩ | ⟨after', hqueue, hmem⟩
  · exact (hold (hmem ▸ by simp)).elim
  · cases after' with
    | nil =>
      rw [List.nil_append] at hmem
      exact (hold (hmem ▸ List.mem_cons_self)).elim
    | cons msg' after' =>
      cases (List.cons.inj hmem).1
      exact h hrunning hlt before msg after' task ev id stream hqueue hev hid hs habort

/-- What waits behind the head still finds no client once the head is handled: a client
gone before comes back by a command only, and one that goes now went by a command. -/
theorem LeftoversFirst.handled {m' : Machine} {answers : Answers} {head : Message}
    (hm : ReachableBy (machineSystem capacity) RepliedFirst m) (h : LeftoversFirst m)
    (hstep : m.Step (.handle answers) m') (hq : m.queue = head :: m'.queue)
    (hrunning : m.world.phase = .running)
    (hworld : m'.world = m.world.handle (answers.environment m.fs) head.input) :
    LeftoversFirst m' := by
  intro hrunning' hlt' before msg after task ev id stream he hev hid hs habort
  have hw := world_reachable_any hm
  rw [he] at hq
  have hmem : msg ∈ m.queue := by
    rw [hq]
    simp
  have hs : .spawnRead task id stream ∈ m.world.log := by
    obtain ⟨e, he, hsp⟩ := ((posted_of_reachable hm).origin task ev
      (mem_upcoming_of_queue hmem hev)).started
    exact spawn_mem_of_step hm hstep he hsp hs rfl
  have hlt : ipcOpens m.world.log < 2 ^ 32 - 1 := by
    obtain ⟨effects, hlog⟩ := exists_log_handle m.world (answers.environment m.fs) head.input
    rw [hworld, hlog] at hlt'
    exact ipcOpens_lt_of_append hlt'
  rw [hworld] at hrunning' habort ⊢
  by_cases ha : .abort task ∈ m.world.log
  · obtain ⟨hgone, hnone⟩ :=
      h hrunning hlt (head :: before) msg after task ev id stream hq hev hid hs ha
    rw [List.countP_cons, Nat.add_eq_zero_iff] at hnone
    refine ⟨fun hmem' ↦ ?_, hnone.1⟩
    have hinput : ∀ cmd, head.input ≠ .command cmd := by
      intro cmd hcmd
      rw [Message.isCommand, hcmd] at hnone
      exact absurd hnone.2 (by simp)
    rcases registered_of_handle (a := (answers.environment m.fs, head.input))
      (tracked_of_reachable hw) (Registry.mem_registered.mpr (.inl hmem')) with hold | hnew
    · exact hgone ((mem_registered_client (wellFormed_of_reachable hw) hid).mp hold)
    · exact not_mem_enters_client hid hinput hnew
  · obtain ⟨k, hcloses, howns, hgone⟩ := (abort_of_handle
      (a := (answers.environment m.fs, head.input)) (wellFormed_of_reachable hw) hrunning'
      habort).resolve_left ha
    have hread := (client_accounted hm hlt hid hs).resolve_left ha
    cases eq_of_owns_client hm hid hs hread howns
    refine ⟨fun hmem' ↦ hgone (Registry.mem_registered.mpr (.inl hmem')), ?_⟩
    have hcmd := isCommand_of_closes_client hm h hrunning hlt hq hid hread hcloses
      (by simp) hev
    have hone := oneCommand_of_reachable hm hrunning
    rw [hq, List.countP_cons, hcmd, if_pos rfl, List.countP_append] at hone
    omega

theorem leftoversFirst_of_reachable
    (hm : ReachableBy (machineSystem capacity) RepliedFirst m) : LeftoversFirst m := by
  refine machine_invariant ?_ ?_ hm
  · rintro m ⟨-, hq, -⟩ - - before msg after task ev id stream he
    rw [hq] at he
    simp at he
  · intro m a m' hr h _ hstep
    rcases queue_step hstep with
      ⟨hworld, new, hq, -, hnew⟩ | ⟨answers, head, rfl, hq, hrunning, hworld⟩
    · exact h.grown hworld hq hnew
    · exact h.handled hr hstep hq hrunning hworld

end Runs

/-- An event of a client that is gone finds no other connection under its id
and leaves the registry as it is. -/
def StaleHarmless (m : Machine) : Prop :=
  ∀ (answers : Answers) msg rest task ev id stream, m.world.phase = .running →
    m.queue = msg :: rest → msg.eventOf task = some ev → id.isClient = true →
    .spawnRead task id stream ∈ m.world.log → (∀ k, m.world.reg.readTask k ≠ some task) →
    ev.id = id ∧ id ∉ m.world.reg.registered ∧
      (m.handle answers msg.input rest).world.reg = m.world.reg

theorem reg_handle_event {w : World} {env : Environment} {ev : NetEvent}
    (h : ev.id ∉ w.reg.streams) : (w.handle env (.event ev)).reg = w.reg := by
  cases ev with
  | closed id =>
    simp only [handle_closed, Registry.onClosedEvent, if_neg (show id ∉ w.reg.streams from h)]
  | _ => rfl

theorem staleHarmless_of_replied {capacity : ℕ} {m : Machine}
    (hm : ReachableBy (machineSystem capacity) RepliedFirst m)
    (hlt : ipcOpens m.world.log < 2 ^ 32 - 1) : StaleHarmless m := by
  intro answers msg rest task ev id stream hrunning hq hev hid hs hgone
  have hw := world_reachable_any hm
  have habort := (client_accounted hm hlt hid hs).resolve_right (hgone id)
  have hfree := (leftoversFirst_of_reachable hm hrunning hlt [] msg rest task ev id stream hq hev
    hid hs habort).1
  have hev' := ((posted_of_reachable hm).origin task ev
    (mem_upcoming_of_queue (hq ▸ List.mem_cons_self) hev)).id_eq (spawnsUnique_of_reachable hw) hs
  refine ⟨hev', fun hmem ↦ hfree ?_, ?_⟩
  · exact (mem_registered_client (wellFormed_of_reachable hw) hid).mp hmem
  · rw [(eventOf_eq_some.mp hev).1]
    exact @reg_handle_event _ (answers.environment m.fs) _ (hev' ▸ hfree)

section Console

def RegistryTask.replies : RegistryTask → ℕ
  | displaying _ (some _) => 1
  | _ => 0

def Console.outstanding (c : Console) : ℕ :=
  c.machine.queue.countP Message.isCommand + c.registry.replies + c.reply.toList.length

def Awaited (c : Console) : Prop :=
  c.machine.world.phase = .running → c.outstanding ≤ if c.repl = .awaiting then 1 else 0

variable {caps : Capacities} {c c' : Console}

theorem countP_traffic {action : Action} (hn : c.next caps (.traffic action) = some c') :
    c'.machine.queue.countP Message.isCommand ≤ c.machine.queue.countP Message.isCommand := by
  simp only [Console.next] at hn
  split at hn
  · cases hn
  · cases hn
  · rename_i hcmd hhandle
    obtain ⟨machine, hm, rfl⟩ := Option.map_eq_some_iff.mp hn
    rcases queue_step (Machine.step_of_next hm) with ⟨-, new, hq, -, hnew⟩ | ⟨answers, _, rfl, -⟩
    · have hnone : new.countP Message.isCommand = 0 := by
        rw [List.countP_eq_zero]
        intro msg hmem
        rw [(hnew msg hmem).isCommand hcmd]
        exact Bool.false_ne_true
      rw [hq, List.countP_append, hnone, Nat.add_zero]
    · exact (hhandle answers rfl).elim

theorem replies_took {answers : Answers} {msg : Message} {lines : List DisplayLine} :
    (RegistryTask.displaying lines (c.handling answers msg.input).reply).replies ≤
      if msg.isCommand then 1 else 0 := by
  obtain ⟨input, sender⟩ := msg
  cases input with
  | command => exact le_rfl
  | event | shutdown => exact le_rfl
  | accepted parent child peerInfo stream =>
    simp only [Console.handling, Registry.handleInput]
    cases c.machine.world.reg.handleAccepted _ parent child peerInfo stream <;> exact le_rfl

theorem Awaited.none_outstanding (h : Awaited c) (hrunning : c.machine.world.phase = .running)
    (hrepl : c.repl ≠ .awaiting) : c.outstanding = 0 := by
  have hle := h hrunning
  rw [if_neg hrepl] at hle
  exact Nat.le_zero.mp hle

theorem awaited_of_reachable (hc : Reachable (consoleSystem caps) c) : Awaited c := by
  refine Reachable.invariant (P := Awaited) ?_ ?_ hc
  · rintro c ⟨⟨-, hq, -⟩, hregistry, hreply, -⟩ -
    simp only [Console.outstanding, hq, hregistry, hreply]
    exact Nat.zero_le _
  · intro c a c' hr h hn hrunning
    cases Console.step_of_next hn with
    | submitted line hrepl =>
      obtain ⟨repl, he⟩ := c.submit_eq line
      rw [he] at hrunning ⊢
      exact (h.none_outstanding hrunning (by simp [hrepl])).le.trans (Nat.zero_le _)
    | left hrepl | drained hrepl | shown hrepl =>
      exact (h.none_outstanding hrunning (by simp [hrepl])).le.trans (Nat.zero_le _)
    | sentCommand hrepl =>
      have hle := h.none_outstanding hrunning (by simp [hrepl])
      simp only [Console.outstanding, Machine.enqueue, List.countP_append, List.countP_singleton,
        Message.isCommand, Option.toList_none, List.length_nil, if_true] at hle ⊢
      omega
    | sentShutdown hrepl =>
      have hle := h.none_outstanding hrunning (by simp [hrepl])
      simp only [Console.outstanding, Machine.enqueue, List.countP_append, List.countP_singleton,
        Message.isCommand, Option.toList_none, List.length_nil, Bool.false_eq_true,
        if_false] at hle ⊢
      omega
    | stopped hphase => exact (hphase hrunning).elim
    | replied hrepl hreply =>
      have hle := h hrunning
      rw [if_pos hrepl] at hle
      simp only [Console.outstanding, hreply, Option.toList_some, Option.toList_none,
        List.length_singleton, List.length_nil] at hle ⊢
      omega
    | @took answers msg rest hregistry hqueue hrun =>
      refine le_trans ?_ (h hrun)
      have hreplies := @replies_took c answers msg
        ((c.handling answers msg.input).effects.filterMap Effect.displayed)
      simp only [Console.outstanding, Machine.handle, hregistry, hqueue, List.countP_cons]
      omega
    | @emitted line lines reply hregistry =>
      have hle := h hrunning
      rw [Console.outstanding, hregistry] at hle
      cases reply <;> exact hle
    | @answered reply hregistry =>
      refine le_trans ?_ (h hrunning)
      rw [Console.outstanding, Console.outstanding, hregistry]
      cases reply <;> cases c.reply <;> simp [RegistryTask.replies]
    | received => exact h hrunning
    | printed => exact h hrunning
    | traffic _ hworld =>
      rw [hworld] at hrunning
      refine le_trans ?_ (h hrunning)
      have hcount := countP_traffic hn
      simp only [Console.outstanding] at hcount ⊢
      omega

/-- The REPL sends a command when it awaits no reply. -/
theorem replied_of_console (hc : Reachable (consoleSystem caps) c) :
    ReachableBy (machineSystem caps.input) RepliedFirst c.machine := by
  have hr : ReachableBy (consoleSystem caps) (fun c _ ↦ Awaited c) c :=
    hc.reachableBy fun c _ _ hr _ ↦ awaited_of_reachable hr
  refine Projection.reachableBy (S := consoleSystem caps) (f := Console.machine)
    (fun c hi ↦ hi.1) (fun c a c' h hn ↦ ?_) hr
  cases Console.step_of_next hn with
  | submitted line =>
    obtain ⟨repl, he⟩ := c.submit_eq line
    exact .inr (by rw [he])
  | @sentCommand cmd hrepl hm =>
    refine .inl ⟨.command cmd, fun hrunning ↦ ?_, hm⟩
    have hle := h.none_outstanding hrunning (by simp [hrepl])
    rw [Console.outstanding] at hle
    omega
  | sentShutdown _ hm => exact .inl ⟨.interrupt, trivial, hm⟩
  | @took answers _ _ _ _ _ hm => exact .inl ⟨.handle answers, trivial, hm⟩
  | @traffic action machine hm =>
    refine .inl ⟨action, ?_, hm⟩
    cases action with
    | command cmd => simp [consoleSystem, System.ofNext, Console.next] at hn
    | _ => trivial
  | _ => exact .inr rfl

end Console

/-- In every run in which commands are sent one after the reply to the other,
and so in every run of the program, an event of a client that is no longer
registered meets no other connection under its id. -/
theorem stale_events_harmless :
    (∀ capacity m, ReachableBy (machineSystem capacity) RepliedFirst m →
      ipcOpens m.world.log < 2 ^ 32 - 1 → StaleHarmless m) ∧
    ∀ caps c, Reachable (consoleSystem caps) c →
      ipcOpens c.machine.world.log < 2 ^ 32 - 1 → StaleHarmless c.machine :=
  ⟨fun _ _ hm hlt ↦ staleHarmless_of_replied hm hlt,
    fun _ _ hc hlt ↦ staleHarmless_of_replied (replied_of_console hc) hlt⟩

theorem stale_closed_before_reopen :
    ∃ m, run (Machine.next 1024) (fun m a ↦ decide (RepliedFirst m a)) (.idle .empty)
        [.command (.openTcpClient 4000 "host" 80), .handle (.granting 0 []),
          .command (.close "4000"), .read 0 (.ok []), .forward 0, .handle (.granting 1 []),
          .command (.openTcpClient 4000 "host" 80)] = some m ∧
      m.queue.map Message.input = [.event (.closed (.tcpClient 4000)),
        .command (.openTcpClient 4000 "host" 80)] ∧ StaleHarmless m := by
  have hrun : ∃ m ∈ run (Machine.next 1024) (fun m a ↦ decide (RepliedFirst m a)) (.idle .empty)
      [.command (.openTcpClient 4000 "host" 80), .handle (.granting 0 []),
        .command (.close "4000"), .read 0 (.ok []), .forward 0, .handle (.granting 1 []),
        .command (.openTcpClient 4000 "host" 80)],
      m.queue.map Message.input = [.event (.closed (.tcpClient 4000)),
        .command (.openTcpClient 4000 "host" 80)] ∧ ipcOpens m.world.log < 2 ^ 32 - 1 := by
    decide +kernel
  obtain ⟨m, hm, hq, hlt⟩ := hrun
  exact ⟨m, hm, hq, stale_events_harmless.1 1024 m
    (reachableBy_of_run (fun _ _ hg ↦ of_decide_eq_true hg) hm) hlt⟩

end WireDock
