import WireDock.System.Mailbox

namespace WireDock

open LabelledSystem

/-- What a read task may report of its connection: chunks of data, and at the end of
the stream or after an error that it is closed. -/
inductive Report (id : ConnectionId) : List NetEvent → Prop
  | idle : Report id []
  | data {bytes : List UInt8} {events : List NetEvent} (hne : bytes ≠ [])
      (h : Report id events) : Report id (.received id bytes :: events)
  | closed : Report id [.closed id]
  | failed (message : String) : Report id [.error id message, .closed id]

def Action.answer (task : JoinHandle) : Action → Option (Except String (List UInt8))
  | read t answer => if t = task then some answer else none
  | _ => none

def Machine.takes (m : Machine) (task : JoinHandle) (a : Action) : Option NetEvent :=
  (m.pending a).bind fun p ↦ p.2.eventOf task

def answersOf (task : JoinHandle) (hist : List (Machine × Action)) :
    List (Except String (List UInt8)) := hist.filterMap fun p ↦ p.2.answer task

def eventsHandled (task : JoinHandle) (hist : List (Machine × Action)) : List NetEvent :=
  hist.filterMap fun p ↦ p.1.takes task p.2

def IsData (answer : Except String (List UInt8)) : Prop := ∃ bytes, bytes ≠ [] ∧ answer = .ok bytes

inductive Stage (id : ConnectionId) (answers : List (Except String (List UInt8))) : Reader → Prop
  | reading (h : ∀ a ∈ answers, IsData a) : Stage id answers .reading
  | data {bytes : List UInt8} (h : ∀ a ∈ answers, IsData a) :
      Stage id answers (.sending [.received id bytes])
  | failing {message : String} (h : Report id (answers.flatMap (readEvents id))) :
      Stage id answers (.sending [.error id message, .closed id])
  | closing (h : Report id (answers.flatMap (readEvents id))) :
      Stage id answers (.sending [.closed id])
  | ended (h : Report id (answers.flatMap (readEvents id))) : Stage id answers .ended

section Stages

variable {id : ConnectionId} {answers : List (Except String (List UInt8))} {reader : Reader}
  {ev : NetEvent} {events : List NetEvent}

theorem readEvents_data {bytes : List UInt8} (h : bytes ≠ []) :
    readEvents id (.ok bytes) = [.received id bytes] := by
  cases bytes with
  | nil => exact (h rfl).elim
  | cons b bytes => rfl

theorem report_append (h : ∀ a ∈ answers, IsData a) (hr : Report id events) :
    Report id (answers.flatMap (readEvents id) ++ events) := by
  induction answers with
  | nil => exact hr
  | cons a answers ih =>
    obtain ⟨⟨bytes, hne, rfl⟩, hrest⟩ := List.forall_mem_cons.mp h
    rw [List.flatMap_cons, readEvents_data hne]
    exact .data hne (ih hrest)

theorem report_readEvents (id : ConnectionId) (answer : Except String (List UInt8)) :
    Report id (readEvents id answer) := by
  cases answer with
  | error message => exact .failed message
  | ok bytes =>
    cases bytes with
    | nil => exact .closed
    | cons b bytes => exact .data (List.cons_ne_nil b bytes) .idle

theorem Stage.report (h : Stage id answers reader) :
    Report id (answers.flatMap (readEvents id)) := by
  cases h with
  | reading h | data h =>
    rw [← List.append_nil (answers.flatMap (readEvents id))]
    exact report_append h .idle
  | failing h | closing h | ended h => exact h

theorem Stage.read (h : Stage id answers .reading) (answer : Except String (List UInt8)) :
    Stage id (answers ++ [answer]) (.sending (readEvents id answer)) := by
  cases h with
  | reading h =>
    have hreport : Report id ((answers ++ [answer]).flatMap (readEvents id)) := by
      rw [List.flatMap_append, List.flatMap_singleton]
      exact report_append h (report_readEvents id answer)
    cases answer with
    | error message => exact .failing hreport
    | ok bytes =>
      by_cases hne : bytes = []
      · subst hne
        exact .closing hreport
      · rw [readEvents_data hne]
        refine .data fun a ha ↦ ?_
        rcases List.mem_append.mp ha with ha | ha
        · exact h a ha
        · exact ⟨bytes, hne, List.mem_singleton.mp ha⟩

theorem Stage.sent (h : Stage id answers (.sending (ev :: events))) :
    Stage id answers (.sent ev events) := by
  cases h with
  | data h => exact .reading h
  | failing h => exact .closing h
  | closing h => exact .ended h

theorem not_closed_of_data (h : ∀ a ∈ answers, IsData a) (k : ConnectionId) :
    .closed k ∉ answers.flatMap (readEvents id) := by
  intro hm
  obtain ⟨a, ha, hk⟩ := List.mem_flatMap.mp hm
  obtain ⟨bytes, hne, rfl⟩ := h a ha
  rw [readEvents_data hne] at hk
  cases List.mem_singleton.mp hk

end Stages

def ReadsFrom (log : List Effect) (task : JoinHandle) (id : ConnectionId) : Prop :=
  ∀ e ∈ log, e.spawned = some task → ∃ stream, e = .spawnRead task id stream

/-- What the answers of its socket make a task report was handled or is on its way,
and the task stands where they have brought it. -/
structure Reports (task : JoinHandle) (id : ConnectionId) (hist : List (Machine × Action))
    (m : Machine) : Prop where
  delivered : (answersOf task hist).flatMap (readEvents id) =
    eventsHandled task hist ++ m.upcoming task
  stage : Stage id (answersOf task hist) (m.readers task)

section Runs

variable {capacity : ℕ} {m m' : Machine} {a : Action} {task : JoinHandle} {id : ConnectionId}
  {hist : List (Machine × Action)}

theorem answersOf_append (p : Machine × Action) :
    answersOf task (hist ++ [p]) = answersOf task hist ++ (p.2.answer task).toList := by
  rw [answersOf, List.filterMap_append, ← answersOf]
  cases h : p.2.answer task <;> simp [h]

theorem eventsHandled_append (p : Machine × Action) :
    eventsHandled task (hist ++ [p]) = eventsHandled task hist ++ (p.1.takes task p.2).toList := by
  rw [eventsHandled, List.filterMap_append, ← eventsHandled]
  cases h : p.1.takes task p.2 <;> simp [h]

theorem Reports.other (h : Reports task id hist m) (hanswer : a.answer task = none)
    (htakes : m.takes task a = none) (hup : m'.upcoming task = m.upcoming task)
    (hreader : Stage id (answersOf task hist) (m'.readers task)) :
    Reports task id (hist ++ [(m, a)]) m' := by
  constructor
  · rw [answersOf_append, eventsHandled_append, hanswer, htakes, hup]
    simpa only [Option.toList_none, List.append_nil] using h.delivered
  · rw [answersOf_append, hanswer, Option.toList_none, List.append_nil]
    exact hreader

theorem Reports.step (h : Reports task id hist m) (hreads : ReadsFrom m.world.log task id)
    (hstep : m.Step a m') : Reports task id (hist ++ [(m, a)]) m' := by
  cases hstep with
  | command | interrupt => exact h.other rfl rfl (upcoming_enqueue_of_none rfl) h.stage
  | accept => exact h.other rfl rfl rfl h.stage
  | @handOver t answer server listener input hspawn _ _ hinput =>
    refine h.other rfl rfl (upcoming_enqueue_of_none ?_) h.stage
    by_contra hne
    obtain ⟨ev, he⟩ := Option.ne_none_iff_exists'.mp hne
    obtain ⟨rfl, -⟩ := eventOf_accept hinput he
    -- an accept task is no read task
    obtain ⟨stream, hs⟩ := hreads _ hspawn rfl
    cases hs
  | @read t answer k stream hspawn _ hreading =>
    by_cases ht : t = task
    · subst ht
      obtain ⟨stream', hs⟩ := hreads _ hspawn rfl
      cases hs
      have hanswer : Action.answer t (.read t answer) = some answer := if_pos rfl
      constructor
      · rw [answersOf_append, eventsHandled_append, hanswer, upcoming_read hreading, if_pos rfl,
          List.flatMap_append, h.delivered]
        simp [Machine.takes, Machine.pending]
      · have hreader : (m.setReader t (.sending (readEvents id answer))).readers t =
            .sending (readEvents id answer) := Function.update_self ..
        rw [answersOf_append, hanswer, hreader]
        exact (hreading ▸ h.stage).read answer
    · refine h.other (if_neg ht) rfl ?_ ?_
      · rw [upcoming_read hreading, if_neg (Ne.symm ht), List.append_nil]
      · have hreader : (m.setReader t (.sending (readEvents k answer))).readers task =
            m.readers task := Function.update_of_ne (Ne.symm ht) ..
        rw [hreader]
        exact h.stage
  | @forward t ev events _ hsending =>
    refine h.other rfl rfl (upcoming_forward hsending) ?_
    simp only [Machine.enqueue, Machine.setReader, Function.update_apply]
    split_ifs with ht
    · subst ht
      exact (hsending ▸ h.stage).sent
    · exact h.stage
  | @handle answers msg rest hqueue =>
    have htakes : m.takes task (.handle answers) = msg.eventOf task := by
      rw [Machine.takes, Machine.pending, hqueue]
      rfl
    constructor
    · rw [answersOf_append, eventsHandled_append, htakes, List.append_assoc,
        ← upcoming_handle hqueue answers, ← h.delivered]
      exact congrArg _ (List.append_nil _)
    · rw [answersOf_append]
      exact (List.append_nil (answersOf task hist)).symm ▸ h.stage

theorem reports_of_run (hr : Run (machineSystem capacity) hist m)
    (hreads : ReadsFrom m.world.log task id) : Reports task id hist m := by
  induction hr with
  | init hi =>
    constructor
    · rw [upcoming_initial hi]
      rfl
    · rw [hi.readers]
      exact .reading fun a ha ↦ (by cases ha)
  | @step hist m m' a hr hn ih =>
    have hstep := Machine.step_of_next hn
    have hbefore : ReadsFrom m.world.log task id := fun e he ↦ hreads e (mem_log_step hstep he)
    exact (ih hbefore).step hbefore hstep

/-- In every run and for every read task: what the registry has handled of it, what is
queued and what the task holds (an aborted one to no end) is, in order and without loss,
what the answers of its socket made it report; that is data up to one `Closed`, which may
follow an error, and a task that still reads has not reported it. -/
theorem read_task_protocol (hr : Run (machineSystem capacity) hist m) {stream : BoxedStream}
    (hs : .spawnRead task id stream ∈ m.world.log) :
    (answersOf task hist).flatMap (readEvents id) = eventsHandled task hist ++ m.upcoming task ∧
      Report id (eventsHandled task hist ++ m.upcoming task) ∧
      (m.readers task = .reading →
        ∀ k, .closed k ∉ eventsHandled task hist ++ m.upcoming task) := by
  have hreads : ReadsFrom m.world.log task id := fun e he hsp ↦
    ⟨stream, spawnsUnique_of_reachable (world_reachable_any hr.reachable) e he _ hs task hsp rfl⟩
  have hreports := reports_of_run hr hreads
  refine ⟨hreports.delivered, hreports.delivered ▸ hreports.stage.report, fun hreading k ↦ ?_⟩
  rw [← hreports.delivered]
  have hstage := hreports.stage
  rw [hreading] at hstage
  cases hstage with
  | reading h => exact not_closed_of_data h k

end Runs

theorem read_task_protocol_after_error :
    ∃ hist m, Run (machineSystem 1024) hist m ∧
      hist.map Prod.snd = [.command (.openIpcClient "/a"), .handle (.granting 0 []),
        .read 0 (.ok [65]), .forward 0, .read 0 (.error "reset"), .forward 0,
        .handle (.granting 1 [])] ∧
      m.upcoming 0 = [.error (.ipcClient 1) "reset", .closed (.ipcClient 1)] ∧
      Report (.ipcClient 1) (eventsHandled 0 hist ++ m.upcoming 0) := by
  have hrun : ∃ m ∈ run (Machine.next 1024) (fun _ _ ↦ true) (.idle .empty)
      [.command (.openIpcClient "/a"), .handle (.granting 0 []),
        .read 0 (.ok [65]), .forward 0, .read 0 (.error "reset"), .forward 0,
        .handle (.granting 1 [])],
      m.upcoming 0 = [.error (.ipcClient 1) "reset", .closed (.ipcClient 1)] ∧
        .spawnRead 0 (.ipcClient 1) 0 ∈ m.world.log := by decide +kernel
  obtain ⟨m, hm, hup, hs⟩ := hrun
  have hstart : Run (machineSystem 1024) [] (.idle .empty) := .init ⟨rfl, rfl, rfl, rfl, rfl⟩
  obtain ⟨hist, hr, ha⟩ := hstart.of_run hm
  exact ⟨hist, m, hr, ha, hup, (read_task_protocol hr hs).2.1⟩

end WireDock
