import WireDock.System.Hangup

namespace WireDock

open LabelledSystem

def Message.eventOf (task : JoinHandle) (msg : Message) : Option NetEvent :=
  match msg.input with
  | .event ev => if msg.sender = some task then some ev else none
  | _ => none

def Reader.events : Reader → List NetEvent
  | sending events => events
  | _ => []

/-- What a task has sent or holds to send and is not handled yet. An aborted task
keeps what it held: it stays in this list and is never sent. -/
def Machine.upcoming (m : Machine) (task : JoinHandle) : List NetEvent :=
  m.queue.filterMap (Message.eventOf task) ++ (m.readers task).events

section Queue

variable {m : Machine} {msg : Message} {task t : JoinHandle} {ev : NetEvent}
  {events : List NetEvent}

theorem eventOf_eq_some :
    msg.eventOf task = some ev ↔ msg.input = .event ev ∧ msg.sender = some task := by
  unfold Message.eventOf
  cases msg.input with
  | event e =>
    simp only [RegistryInput.event.injEq]
    split_ifs with hs <;> simp [hs]
  | _ => simp

@[simp] theorem upcoming_setAcceptor (met : Option (Except DomainError AcceptedStream)) :
    (m.setAcceptor t met).upcoming task = m.upcoming task := rfl

theorem upcoming_enqueue_of_none (h : msg.eventOf task = none) :
    (m.enqueue msg).upcoming task = m.upcoming task := by
  simp only [Machine.upcoming, Machine.enqueue, List.filterMap_append, List.filterMap_cons, h,
    List.filterMap_nil, List.append_nil]

theorem upcoming_enqueue_of_some (h : msg.eventOf task = some ev) :
    (m.enqueue msg).upcoming task =
      m.queue.filterMap (Message.eventOf task) ++ ev :: (m.readers task).events := by
  simp only [Machine.upcoming, Machine.enqueue, List.filterMap_append, List.filterMap_cons, h,
    List.filterMap_nil, List.append_assoc, List.singleton_append]

theorem upcoming_read (hreading : m.readers t = .reading) :
    (m.setReader t (.sending events)).upcoming task =
      m.upcoming task ++ if task = t then events else [] := by
  simp only [Machine.upcoming, Machine.setReader, Function.update_apply]
  by_cases ht : task = t
  · subst ht
    simp [hreading, Reader.events]
  · simp [ht]

theorem events_sent : (Reader.sent ev events).events = events := by
  unfold Reader.sent
  split <;> rfl

theorem sent_eq_reading (h : Reader.sent ev events = .reading) :
    (∀ id, ev ≠ .closed id) ∧ events = [] := by
  unfold Reader.sent at h
  split at h
  · cases h
  · cases h
  · exact ⟨fun id he ↦ by simp_all, rfl⟩

theorem upcoming_forward (hsending : m.readers t = .sending (ev :: events)) :
    ((m.setReader t (.sent ev events)).enqueue ⟨.event ev, some t⟩).upcoming task =
      m.upcoming task := by
  by_cases ht : task = t
  · subst ht
    rw [upcoming_enqueue_of_some (eventOf_eq_some.mpr ⟨rfl, rfl⟩)]
    simp only [Machine.upcoming, Machine.setReader, Function.update_self, events_sent]
    rw [hsending, Reader.events]
  · have hnone : Message.eventOf task ⟨.event ev, some t⟩ = none := by
      simp [Message.eventOf, Ne.symm ht]
    rw [upcoming_enqueue_of_none hnone]
    simp only [Machine.upcoming, Machine.setReader, Function.update_of_ne ht]

theorem upcoming_handle {rest : List Message} (hqueue : m.queue = msg :: rest)
    (answers : Answers) : m.upcoming task =
      (msg.eventOf task).toList ++ (m.handle answers msg.input rest).upcoming task := by
  simp only [Machine.upcoming, Machine.handle, hqueue, List.filterMap_cons]
  cases msg.eventOf task <;> rfl

theorem mem_upcoming_of_queue (hmem : msg ∈ m.queue) (h : msg.eventOf task = some ev) :
    ev ∈ m.upcoming task :=
  List.mem_append_left _ (List.mem_filterMap.mpr ⟨msg, hmem, h⟩)

end Queue

theorem id_of_mem_readEvents {id : ConnectionId} {answer : Except String (List UInt8)}
    {ev : NetEvent} (h : ev ∈ readEvents id answer) : ev.id = id := by
  unfold readEvents at h
  split at h <;> simp only [List.mem_cons, List.not_mem_nil, or_false] at h
  · rw [h, NetEvent.id]
  · rw [h, NetEvent.id]
  · rcases h with rfl | rfl <;> rfl

/-- Where an event of a task comes from: an accept task of the server it names,
or a read task of the connection it names. -/
def NetEvent.From (log : List Effect) (task : JoinHandle) (ev : NetEvent) : Prop :=
  (∃ server listener, .spawnAccept task server listener ∈ log ∧
    ∃ message, ev = .error server message) ∨
  ∃ stream, .spawnRead task ev.id stream ∈ log

namespace NetEvent.From

variable {log log' : List Effect} {task : JoinHandle} {ev : NetEvent} {id : ConnectionId}
  {stream : BoxedStream}

theorem mono (h : ev.From log task) (hsub : ∀ e ∈ log, e ∈ log') : ev.From log' task :=
  h.imp (fun ⟨server, listener, hs, hev⟩ ↦ ⟨server, listener, hsub _ hs, hev⟩)
    fun ⟨stream, hs⟩ ↦ ⟨stream, hsub _ hs⟩

theorem started (h : ev.From log task) : ∃ e ∈ log, e.spawned = some task := by
  rcases h with ⟨server, listener, hs, -⟩ | ⟨stream, hs⟩
  · exact ⟨_, hs, rfl⟩
  · exact ⟨_, hs, rfl⟩

theorem closed (h : (NetEvent.closed id).From log task) :
    ∃ stream, .spawnRead task id stream ∈ log := by
  rcases h with ⟨server, listener, -, message, hev⟩ | hs
  · cases hev
  · exact hs

theorem id_eq (h : ev.From log task) (hunique : DistinctKeys Effect.spawned log)
    (hs : .spawnRead task id stream ∈ log) : ev.id = id := by
  rcases h with ⟨server, listener, hs', -⟩ | ⟨stream', hs'⟩
  · cases hunique _ hs _ hs' task rfl rfl
  · cases hunique _ hs _ hs' task rfl rfl
    rfl

end NetEvent.From

section Steps

variable {capacity : ℕ} {ok : Machine → Action → Prop} {m m' : Machine} {a : Action}

theorem eventOf_accept {task t : JoinHandle} {server : ConnectionId} {input : RegistryInput}
    {ev : NetEvent} {answer : Except DomainError AcceptedStream}
    (hinput : acceptMessage server answer = some input)
    (h : Message.eventOf task ⟨input, some t⟩ = some ev) :
    t = task ∧ ∃ message, ev = .error server message := by
  obtain ⟨rfl, ht⟩ := eventOf_eq_some.mp h
  rcases acceptMessage_eq_some hinput with ⟨child, peerInfo, stream, hi⟩ | ⟨message, hi⟩
  · cases hi
  · cases hi
    exact ⟨Option.some.inj ht, message, rfl⟩

theorem mem_upcoming_step (hstep : m.Step a m') {task : JoinHandle} {ev : NetEvent}
    (h : ev ∈ m'.upcoming task) : ev ∈ m.upcoming task ∨ ev.From m.world.log task := by
  cases hstep with
  | command | interrupt =>
    rw [upcoming_enqueue_of_none rfl] at h
    exact .inl h
  | accept => exact .inl h
  | @handOver t answer server listener input hspawn _ _ hinput =>
    cases he : Message.eventOf task ⟨input, some t⟩ with
    | none =>
      rw [upcoming_enqueue_of_none he] at h
      exact .inl h
    | some ev' =>
      obtain ⟨rfl, message, rfl⟩ := eventOf_accept hinput he
      rw [upcoming_enqueue_of_some he, List.mem_append, List.mem_cons, or_left_comm,
        ← List.mem_append] at h
      refine h.symm.imp_right ?_
      rintro rfl
      exact .inl ⟨server, listener, hspawn, message, rfl⟩
  | @read t answer id stream hspawn _ hreading =>
    rw [upcoming_read hreading, List.mem_append] at h
    refine h.imp_right fun hnew ↦ ?_
    split_ifs at hnew with ht
    · subst ht
      exact .inr ⟨stream, by rwa [id_of_mem_readEvents hnew]⟩
    · cases hnew
  | forward _ hsending =>
    rw [upcoming_forward hsending] at h
    exact .inl h
  | handle hqueue =>
    rw [upcoming_handle hqueue]
    exact .inl (List.mem_append_right _ h)

theorem mem_log_step (hstep : m.Step a m') {e : Effect} (h : e ∈ m.world.log) :
    e ∈ m'.world.log := by
  cases hstep with
  | handle => exact mem_log_handle h
  | _ => exact h

theorem spawn_mem_of_step (hm : ReachableBy (machineSystem capacity) ok m) (hstep : m.Step a m')
    {task : JoinHandle} {e e' : Effect} (he' : e' ∈ m.world.log) (hs' : e'.spawned = some task)
    (he : e ∈ m'.world.log) (hs : e.spawned = some task) : e ∈ m.world.log := by
  have hreach : Reachable registrySystem m'.world := by
    cases hstep with
    | @handle answers msg rest _ hrunning hfresh =>
      exact Reachable.step (world_reachable_any hm) (a := (answers.environment m.fs, msg.input))
        ⟨hrunning, hfresh, rfl⟩
    | _ => exact (world_reachable_any hm : Reachable registrySystem m.world)
  rwa [spawnsUnique_of_reachable hreach e he e' (mem_log_step hstep he') task hs hs']

inductive Machine.Sends (m : Machine) (a : Action) : Message → Prop
  | command {cmd : Command} (ha : a = .command cmd) : Sends m a ⟨.command cmd, none⟩
  | shutdown : Sends m a ⟨.shutdown, none⟩
  | task {t : JoinHandle} {input : RegistryInput} (hlive : .abort t ∉ m.world.log)
      (hinput : ∀ cmd, input ≠ .command cmd) : Sends m a ⟨input, some t⟩

/-- The queue grows at its end, the registry staying as it is, or its head is handled. -/
theorem queue_step (hstep : m.Step a m') :
    (m'.world = m.world ∧ ∃ new, m'.queue = m.queue ++ new ∧ new.length ≤ 1 ∧
      ∀ msg ∈ new, m.Sends a msg) ∨
    ∃ answers msg, a = .handle answers ∧ m.queue = msg :: m'.queue ∧ m.world.phase = .running ∧
      m'.world = m.world.handle (answers.environment m.fs) msg.input := by
  have hone : ∀ {msg new}, m.Sends a msg → new ∈ [msg] → m.Sends a new := fun hs hmem ↦
    List.mem_singleton.mp hmem ▸ hs
  cases hstep with
  | command cmd => exact .inl ⟨rfl, [_], rfl, le_rfl, fun _ ↦ hone (.command rfl)⟩
  | interrupt => exact .inl ⟨rfl, [_], rfl, le_rfl, fun _ ↦ hone .shutdown⟩
  | handOver _ hlive _ hinput =>
    refine .inl ⟨rfl, [_], rfl, le_rfl, fun _ ↦ hone (.task hlive fun cmd hcmd ↦ ?_)⟩
    rcases acceptMessage_eq_some hinput with ⟨child, peerInfo, stream, hi⟩ | ⟨message, hi⟩ <;>
      cases hi.symm.trans hcmd
  | accept | read =>
    exact .inl ⟨rfl, [], (List.append_nil _).symm, Nat.zero_le _, fun _ hmem ↦ (by cases hmem)⟩
  | forward hlive =>
    exact .inl ⟨rfl, [_], rfl, le_rfl, fun _ ↦ hone (.task hlive fun cmd hcmd ↦ (by cases hcmd))⟩
  | handle hqueue hrunning => exact .inr ⟨_, _, rfl, hqueue, hrunning, rfl⟩

end Steps

theorem upcoming_initial {m : Machine} (h : m.Initial) (task : JoinHandle) :
    m.upcoming task = [] := by
  simp only [Machine.upcoming, h.queue, h.readers, List.filterMap_nil, Reader.events,
    List.append_nil]

section Runs

variable {capacity : ℕ} {ok : Machine → Action → Prop} {m : Machine}

structure Machine.Posted (m : Machine) : Prop where
  signed : ∀ msg ∈ m.queue, ∀ ev, msg.input = .event ev → ∃ task, msg.sender = some task
  origin : ∀ task, ∀ ev ∈ m.upcoming task, ev.From m.world.log task

theorem posted_of_reachable (hm : ReachableBy (machineSystem capacity) ok m) : m.Posted := by
  refine machine_invariant ?_ ?_ hm
  · intro m hi
    refine ⟨fun msg hmem ↦ ?_, fun task ev hev ↦ ?_⟩
    · rw [hi.queue] at hmem
      cases hmem
    · rw [upcoming_initial hi] at hev
      cases hev
  intro m a m' _ h _ hstep
  refine ⟨fun msg hmem ev hi ↦ ?_, fun task ev hev ↦ ?_⟩
  · rcases queue_step hstep with ⟨-, new, hq, -, hnew⟩ | ⟨_, head, -, hq, -⟩
    · rw [hq, List.mem_append] at hmem
      refine hmem.elim (fun hmem ↦ h.signed msg hmem ev hi) fun hmem ↦ ?_
      cases hnew msg hmem with
      | command | shutdown => cases hi
      | task => exact ⟨_, rfl⟩
    · exact h.signed msg (hq ▸ List.mem_cons_of_mem _ hmem) ev hi
  · exact ((mem_upcoming_step hstep hev).elim (h.origin task ev) fun hev ↦ hev).mono
      fun _ ↦ mem_log_step hstep

structure Machine.ClosedLast (m : Machine) : Prop where
  last : ∀ task id, .closed id ∉ (m.upcoming task).dropLast
  ended : ∀ task id, .closed id ∈ m.upcoming task → m.readers task ≠ .reading

namespace Machine.ClosedLast

variable {m' : Machine} {task : JoinHandle} {id : ConnectionId} {events : List NetEvent}

theorem of_upcoming (h : m.ClosedLast) (hu : ∀ task, m'.upcoming task = m.upcoming task)
    (hr : ∀ task, m'.readers task = .reading → m.readers task = .reading) : m'.ClosedLast where
  last task := by
    rw [hu]
    exact h.last task
  ended task id hc hreading := h.ended task id (hu task ▸ hc) (hr task hreading)

theorem eq_nil (h : m.ClosedLast) (he : m.upcoming task = .closed id :: events) : events = [] := by
  by_contra hne
  refine h.last task id ?_
  rw [he, List.dropLast_cons_of_ne_nil hne]
  exact List.mem_cons_self

end Machine.ClosedLast

theorem readEvents_ne_nil (id : ConnectionId) (answer : Except String (List UInt8)) :
    readEvents id answer ≠ [] := by
  unfold readEvents
  split <;> simp

theorem closed_not_mem_dropLast_readEvents (id k : ConnectionId)
    (answer : Except String (List UInt8)) : .closed k ∉ (readEvents id answer).dropLast := by
  unfold readEvents
  split <;> simp

namespace Machine.ClosedLast

variable {answer : Except String (List UInt8)} {k : ConnectionId} {t : JoinHandle} {ev : NetEvent}
  {events : List NetEvent}

theorem read (h : m.ClosedLast) (hreading : m.readers t = .reading) :
    (m.setReader t (.sending (readEvents k answer))).ClosedLast := by
  refine ⟨fun task id hc ↦ ?_, fun task id hc ↦ ?_⟩ <;> rw [upcoming_read hreading] at hc
  · split_ifs at hc with ht
    · rw [List.dropLast_append_of_ne_nil (readEvents_ne_nil k answer), List.mem_append] at hc
      exact hc.elim (fun hc ↦ h.ended task id hc (ht ▸ hreading))
        (closed_not_mem_dropLast_readEvents k id answer)
    · rw [List.append_nil] at hc
      exact h.last task id hc
  · simp only [Machine.setReader, Function.update_apply]
    split_ifs at hc ⊢ with ht
    · exact fun hs ↦ (by cases hs)
    · rw [List.append_nil] at hc
      exact h.ended task id hc

theorem forward (h : m.ClosedLast) (hsending : m.readers t = .sending (ev :: events)) :
    ((m.setReader t (.sent ev events)).enqueue ⟨.event ev, some t⟩).ClosedLast := by
  refine ⟨fun task id hc ↦ ?_, fun task id hc ↦ ?_⟩ <;> rw [upcoming_forward hsending] at hc
  · exact h.last task id hc
  · simp only [Machine.enqueue, Machine.setReader, Function.update_apply]
    split_ifs with ht
    · subst ht
      -- the task reads on after anything but the `Closed` that is on its way
      intro hreading
      obtain ⟨hev, rfl⟩ := sent_eq_reading hreading
      refine h.last task id ?_
      rw [Machine.upcoming, hsending, Reader.events, List.mem_append, List.mem_singleton] at hc
      rw [Machine.upcoming, hsending, Reader.events, List.dropLast_concat]
      exact hc.resolve_right fun he ↦ hev id he.symm
    · exact h.ended task id hc

theorem handle (h : m.ClosedLast) {msg : Message} {rest : List Message}
    (hqueue : m.queue = msg :: rest) (answers : Answers) :
    (m.handle answers msg.input rest).ClosedLast := by
  refine ⟨fun task id hc ↦ h.last task id ?_, fun task id hc ↦ h.ended task id ?_⟩ <;>
    rw [upcoming_handle hqueue answers]
  · rw [List.dropLast_append_of_ne_nil ?_, List.mem_append]
    · exact .inr hc
    · intro he
      rw [he] at hc
      cases hc
  · exact List.mem_append_right _ hc

end Machine.ClosedLast

theorem closedLast_of_reachable (hm : ReachableBy (machineSystem capacity) ok m) :
    m.ClosedLast := by
  refine machine_invariant ?_ ?_ hm
  · intro m hi
    refine ⟨fun task id hc ↦ ?_, fun task id hc ↦ ?_⟩ <;> rw [upcoming_initial hi] at hc <;> cases hc
  intro m a m' hr h _ hstep
  cases hstep with
  | command | interrupt => exact h.of_upcoming (fun _ ↦ upcoming_enqueue_of_none rfl) fun _ hr ↦ hr
  | accept => exact h.of_upcoming (fun _ ↦ rfl) fun _ hr ↦ hr
  | @handOver t answer server listener input hspawn hlive hmet hinput =>
    -- an accept task sends no `Closed`, and no other task sends anything
    have hnone : ∀ id, .closed id ∉
        ((m.setAcceptor t none).enqueue ⟨input, some t⟩).upcoming t := by
      intro id hc
      obtain ⟨stream, hs⟩ := ((mem_upcoming_step (.handOver hspawn hlive hmet hinput) hc).elim
        ((posted_of_reachable hr).origin t _) fun hev ↦ hev).closed
      cases spawnsUnique_of_reachable (world_reachable_any hr) _ hspawn _ hs t rfl rfl
    have hother : ∀ task, task ≠ t → Message.eventOf task ⟨input, some t⟩ = none := by
      intro task ht
      refine Option.eq_none_iff_forall_ne_some.mpr fun ev hev ↦ ?_
      exact ht (eventOf_accept hinput hev).1.symm
    refine ⟨fun task id hc ↦ ?_, fun task id hc ↦ ?_⟩ <;> by_cases ht : task = t
    · subst ht
      exact hnone id (List.mem_of_mem_dropLast hc)
    · rw [upcoming_enqueue_of_none (hother task ht)] at hc
      exact h.last task id hc
    · subst ht
      exact (hnone id hc).elim
    · rw [upcoming_enqueue_of_none (hother task ht)] at hc
      exact h.ended task id hc
  | read _ _ hreading => exact h.read hreading
  | forward _ hsending => exact h.forward hsending
  | handle hqueue => exact h.handle hqueue _

end Runs

end WireDock
