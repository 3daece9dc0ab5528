import WireDock.Domain.HexPairs
import WireDock.System.Mailbox
import WireDock.System.Deadlock

namespace WireDock

open LabelledSystem

def NetEvent.chunk : NetEvent → Option (List UInt8)
  | received _ bytes => some bytes
  | _ => none

def Message.chunk (task : JoinHandle) (msg : Message) : Option (List UInt8) :=
  (msg.eventOf task).bind NetEvent.chunk

/-- What a `RECV` line shows: the hex digits after its last `V`. -/
def DisplayLine.received (line : DisplayLine) : Option (List UInt8) :=
  (Text.splitLast 'V' line.text.toList).bind fun p ↦ Hex.decode (p.2.filter (· ≠ ' '))

def ConsoleAction.reads (task : JoinHandle) : ConsoleAction → Option (List UInt8)
  | traffic (.read t (.ok bytes)) => if t = task ∧ bytes ≠ [] then some bytes else none
  | _ => none

def Console.takes (c : Console) : ConsoleAction → Option Message
  | .take _ => c.machine.queue.head?
  | _ => none

abbrev History := List (Console × ConsoleAction)

def chunksRead (task : JoinHandle) (hist : History) : List (List UInt8) :=
  hist.filterMap fun p ↦ p.2.reads task

def chunksHandled (task : JoinHandle) (hist : History) : List (List UInt8) :=
  hist.filterMap fun p ↦ (p.1.takes p.2).bind (Message.chunk task)

/-- What an observer sees of a run: the message the registry handles, the lines
put into the display channel with the message each is for, and the lines printed. -/
structure Screen where
  cause : Option Message
  entered : List (Option Message × DisplayLine)
  printed : List DisplayLine

namespace Screen

def blank : Screen := ⟨none, [], []⟩

def observe (s : Screen) (p : Console × ConsoleAction) : Screen :=
  match p.2 with
  | .take _ => { s with cause := p.1.machine.queue.head? }
  | .emit => { s with entered := s.entered ++ p.1.registry.lines.head?.toList.map (s.cause, ·) }
  | .display => { s with entered := s.entered ++ p.1.repl.lines.map (none, ·) }
  | .drain => { s with printed := s.printed ++ p.1.printer.head?.toList }
  | _ => s

def of (hist : History) : Screen := hist.foldl observe blank

def shown (s : Screen) : List (Option Message × DisplayLine) := s.entered.take s.printed.length

end Screen

def receivedBy (task : JoinHandle) (line : Option Message × DisplayLine) :
    Option (Option (List UInt8)) :=
  (line.1.bind (Message.chunk task)).map fun _ ↦ line.2.received

theorem received_recv (name : String) (bytes : List UInt8) :
    (DisplayLine.mk s!"[{name}] RECV {Hex.formatHexSpaced bytes}").received = some bytes := by
  have htext : s!"[{name}] RECV {Hex.formatHexSpaced bytes}".toList =
      s!"[{name}] REC".toList ++ 'V' :: ' ' :: (Hex.formatHexSpaced bytes).toList := by
    simp [toString, String.toList_append]
  have hlast : 'V' ∉ ' ' :: (Hex.formatHexSpaced bytes).toList := by
    intro h
    have h := (List.mem_cons.mp h).resolve_left (by decide)
    have hdigit : 'V' ∈ (Hex.formatHexSpaced bytes).toList.filter (· ≠ ' ') :=
      List.mem_filter.mpr ⟨h, by decide⟩
    rw [Hex.filter_formatHexSpaced, List.mem_flatMap] at hdigit
    obtain ⟨b, -, hb⟩ := hdigit
    cases Hex.digit_of_mem_byteDigits hb
  rw [DisplayLine.received, htext, Text.splitLast_append hlast, Option.bind_some,
    List.filter_cons_of_neg (by decide), Hex.filter_formatHexSpaced, Hex.decode_byteDigits]

section Steps

variable {caps : Capacities} {c c' : Console} {a : ConsoleAction}

theorem screen_append (hist : History) (p : Console × ConsoleAction) :
    Screen.of (hist ++ [p]) = (Screen.of hist).observe p := by
  rw [Screen.of, List.foldl_append]
  rfl

theorem chunksRead_append (task : JoinHandle) (hist : History) (p : Console × ConsoleAction) :
    chunksRead task (hist ++ [p]) = chunksRead task hist ++ (p.2.reads task).toList := by
  rw [chunksRead, List.filterMap_append, ← chunksRead]
  cases h : p.2.reads task <;> simp [h]

theorem chunksHandled_append (task : JoinHandle) (hist : History) (p : Console × ConsoleAction) :
    chunksHandled task (hist ++ [p]) =
      chunksHandled task hist ++ ((p.1.takes p.2).bind (Message.chunk task)).toList := by
  rw [chunksHandled, List.filterMap_append, ← chunksHandled]
  cases h : (p.1.takes p.2).bind (Message.chunk task) <;> simp [h]

theorem stopped_unseen {repl : Repl} (h : c.next caps a = some { c with repl }) :
    c.takes a = none ∧ (∀ s : Screen, s.observe (c, a) = s) ∧ ∀ task, a.reads task = none := by
  cases a with
  | traffic action =>
    cases action with
    | read t answer =>
      simp only [Console.next] at h
      obtain ⟨machine, hm, he⟩ := Option.map_eq_some_iff.mp h
      cases Machine.step_of_next hm with
      | read _ _ hreading =>
        have hreader := congrFun (congrArg (fun c ↦ c.machine.readers) he) t
        simp [Machine.setReader, hreading] at hreader
    | _ => exact ⟨rfl, fun _ ↦ rfl, fun _ ↦ rfl⟩
  | take answers =>
    simp only [Console.next] at h
    split at h
    · obtain ⟨machine, -, he⟩ := Option.map_eq_some_iff.mp h
      have hregistry := congrArg Console.registry he
      cases ‹c.registry = .receiving›.symm.trans hregistry.symm
    · cases h
  | emit =>
    simp only [Console.next] at h
    split at h
    · split_ifs at h
      have hdisplay := congrArg Console.display (Option.some.inj h)
      simp at hdisplay
    · cases h
  | display =>
    simp only [Console.next] at h
    split at h
    · split_ifs at h
      have hdisplay := congrArg Console.display (Option.some.inj h)
      simp at hdisplay
    · cases h
  | drain =>
    simp only [Console.next] at h
    split at h
    · have hprinter := congrArg Console.printer (Option.some.inj h)
      simp_all
    · cases h
  | _ => exact ⟨rfl, fun _ ↦ rfl, fun _ ↦ rfl⟩

def InOrder (hist : History) (c : Console) : Prop :=
  (Screen.of hist).printed ++ c.printer ++ c.held.toList ++ c.display =
    (Screen.of hist).entered.map Prod.snd

def Shows (task : JoinHandle) (hist : History) (c : Console) : Prop :=
  (Screen.of hist).entered.filterMap (receivedBy task) ++
      c.registry.lines.filterMap (fun line ↦ receivedBy task ((Screen.of hist).cause, line)) =
    (chunksHandled task hist).map some

def Carries (task : JoinHandle) (hist : History) (c : Console) : Prop :=
  chunksRead task hist =
    chunksHandled task hist ++ (c.machine.upcoming task).filterMap NetEvent.chunk

theorem inOrder_of_run {hist : History} (hr : Run (consoleSystem caps) hist c) : InOrder hist c := by
  induction hr with
  | init hi =>
    obtain ⟨-, -, -, hdisplay, hheld, hprinter, -⟩ := hi
    rw [InOrder, hdisplay, hheld, hprinter]
    rfl
  | @step hist c c' a hr hn ih =>
    rw [InOrder, screen_append]
    cases Console.step_of_next hn with
    | submitted line hrepl =>
      obtain ⟨repl, he⟩ := c.submit_eq line
      rw [he]
      exact ih
    | left | sentCommand | sentShutdown | replied | took | answered | traffic => exact ih
    | @drained line printer _ hprinter =>
      rw [InOrder, hprinter] at ih
      simpa only [Screen.observe, hprinter, List.head?_cons, Option.toList_some, List.append_assoc,
        List.singleton_append, List.cons_append, List.nil_append] using ih
    | stopped hphase =>
      rw [(stopped_unseen hn).2.1]
      exact ih
    | @shown line hrepl =>
      rw [InOrder] at ih
      simp only [Screen.observe, hrepl, Repl.lines, List.map_append, ← ih, List.append_assoc]
      rfl
    | @emitted line lines reply hregistry =>
      rw [InOrder] at ih
      simp only [Screen.observe, hregistry, RegistryTask.lines, List.map_append, ← ih,
        List.append_assoc]
      rfl
    | @received line display hheld hdisplay =>
      rw [InOrder, hheld, hdisplay] at ih
      simpa only [Screen.observe, Option.toList_some, Option.toList_none, List.append_assoc,
        List.nil_append, List.singleton_append] using ih
    | @printed line hheld =>
      rw [InOrder, hheld] at ih
      simpa only [Screen.observe, Option.toList_some, Option.toList_none, List.append_assoc,
        List.nil_append] using ih

theorem received_lines (task : JoinHandle) (answers : Answers) (msg : Message) :
    ((c.handling answers msg.input).effects.filterMap Effect.displayed).filterMap
        (fun line ↦ receivedBy task (some msg, line)) = (msg.chunk task).toList.map some := by
  cases hchunk : msg.chunk task with
  | none =>
    rw [List.filterMap_eq_nil_iff.mpr fun line _ ↦ by
      rw [receivedBy, Option.bind_some, hchunk, Option.map_none]]
    rfl
  | some bytes =>
    obtain ⟨ev, hev, hbytes⟩ := Option.bind_eq_some_iff.mp hchunk
    cases ev with
    | received id _ =>
      cases hbytes
      have heffects : (c.handling answers msg.input).effects =
          c.machine.world.reg.onReceived id bytes := by
        rw [(eventOf_eq_some.mp hev).1]
        rfl
      simp only [heffects, Registry.onReceived, say, List.filterMap_cons, Effect.displayed,
        List.filterMap_nil, receivedBy, Option.bind_some, hchunk, Option.map_some, received_recv,
        Option.toList_some, List.map_cons, List.map_nil]
    | closed | error | renamed => cases hbytes

theorem shows_of_run {hist : History} (hr : Run (consoleSystem caps) hist c) (task : JoinHandle) :
    Shows task hist c := by
  induction hr with
  | init hi =>
    obtain ⟨-, hregistry, -⟩ := hi
    rw [Shows, hregistry]
    rfl
  | @step hist c c' a hr hn ih =>
    rw [Shows, screen_append, chunksHandled_append]
    rw [Shows] at ih
    cases Console.step_of_next hn with
    | submitted line hrepl =>
      obtain ⟨repl, he⟩ := c.submit_eq line
      simpa only [Screen.observe, Console.takes, Option.bind_none, Option.toList_none,
        List.append_nil, he] using ih
    | left | sentCommand | sentShutdown | replied | traffic | received | printed | drained =>
      simpa only [Screen.observe, Console.takes, Option.bind_none, Option.toList_none,
        List.append_nil] using ih
    | stopped hphase =>
      simpa only [(stopped_unseen hn).2.1, (stopped_unseen hn).1, Option.bind_none,
        Option.toList_none, List.append_nil] using ih
    | @shown line hrepl =>
      simpa only [Screen.observe, Console.takes, Option.bind_none, Option.toList_none,
        List.append_nil, List.filterMap_append, hrepl, Repl.lines, List.map_cons, List.map_nil,
        List.filterMap_cons, receivedBy, Option.map_none, List.filterMap_nil] using ih
    | @took answers msg rest hregistry hqueue =>
      rw [hregistry, RegistryTask.lines, List.filterMap_nil, List.append_nil] at ih
      simp only [Screen.observe, Console.takes, hqueue, List.head?_cons, Option.bind_some,
        RegistryTask.lines, received_lines, ih, List.map_append]
    | @emitted line lines reply hregistry =>
      simp only [Screen.observe, Console.takes, hregistry, RegistryTask.lines, List.head?_cons,
        Option.toList_some, List.map_cons, List.map_nil, List.filterMap_append, List.filterMap_cons,
        List.filterMap_nil, Option.bind_none, Option.toList_none, List.append_nil] at ih ⊢
      cases hline : receivedBy task ((Screen.of hist).cause, line) with
      | none => simpa only [hline, List.append_nil] using ih
      | some bytes => simpa only [hline, List.append_assoc, List.singleton_append] using ih
    | answered hregistry =>
      rw [hregistry, RegistryTask.lines] at ih
      simpa only [Screen.observe, Console.takes, Option.bind_none, Option.toList_none,
        List.append_nil, RegistryTask.lines] using ih

theorem chunks_readEvents (id : ConnectionId) (answer : Except String (List UInt8)) :
    (readEvents id answer).filterMap NetEvent.chunk =
      match answer with
      | .ok bytes => if bytes = [] then [] else [bytes]
      | .error _ => [] := by
  unfold readEvents
  split
  · rfl
  · rename_i bytes hne
    exact (if_neg fun he ↦ hne he).symm
  · rfl

/-- The chunks of a task on their way, after a step of the machine that is no
handling: what the step reads comes last. -/
theorem chunks_upcoming_step {m m' : Machine} {action : Action} (hstep : m.Step action m')
    (hother : ∀ answers, action ≠ .handle answers) (task : JoinHandle) :
    (m'.upcoming task).filterMap NetEvent.chunk = (m.upcoming task).filterMap NetEvent.chunk ++
      ((ConsoleAction.traffic action).reads task).toList := by
  cases hstep with
  | command | interrupt =>
    rw [upcoming_enqueue_of_none rfl]
    exact (List.append_nil _).symm
  | accept => exact (List.append_nil _).symm
  | @handOver t answer server listener input _ _ _ hinput =>
    rw [show (ConsoleAction.traffic (.handOver t)).reads task = none from rfl,
      Option.toList_none, List.append_nil]
    cases he : Message.eventOf task ⟨input, some t⟩ with
    | none => rw [upcoming_enqueue_of_none he, upcoming_setAcceptor]
    | some ev =>
      obtain ⟨-, message, rfl⟩ := eventOf_accept hinput he
      rw [upcoming_enqueue_of_some he, Machine.upcoming, List.filterMap_append,
        List.filterMap_append, List.filterMap_cons_none rfl]
      rfl
  | @read t answer id stream hspawn _ hreading =>
    rw [upcoming_read hreading, List.filterMap_append]
    refine congrArg _ ?_
    by_cases ht : task = t
    · subst ht
      rw [if_pos rfl, chunks_readEvents]
      cases answer with
      | error e => rfl
      | ok bytes =>
        by_cases hb : bytes = [] <;> simp [ConsoleAction.reads, hb]
    · rw [if_neg ht]
      cases answer with
      | error e => rfl
      | ok bytes => simp [ConsoleAction.reads, Ne.symm ht]
  | forward _ hsending =>
    rw [upcoming_forward hsending]
    exact (List.append_nil _).symm
  | handle => exact (hother _ rfl).elim

theorem carries_of_run {hist : History} (hr : Run (consoleSystem caps) hist c) (task : JoinHandle) :
    Carries task hist c := by
  induction hr with
  | init hi =>
    rw [Carries, upcoming_initial hi.1]
    rfl
  | @step hist c c' a hr hn ih =>
    rw [Carries, chunksRead_append, chunksHandled_append]
    rw [Carries] at ih
    cases Console.step_of_next hn with
    | submitted line hrepl =>
      obtain ⟨repl, he⟩ := c.submit_eq line
      simpa only [ConsoleAction.reads, Console.takes, Option.bind_none, Option.toList_none,
        List.append_nil, he] using ih
    | left | replied | received | printed | drained | shown | emitted | answered =>
      simpa only [ConsoleAction.reads, Console.takes, Option.bind_none, Option.toList_none,
        List.append_nil] using ih
    | @sentCommand cmd =>
      have hsame := @upcoming_enqueue_of_none c.machine ⟨.command cmd, none⟩ task rfl
      simpa only [ConsoleAction.reads, Console.takes, Option.bind_none, Option.toList_none,
        List.append_nil, hsame] using ih
    | sentShutdown =>
      have hsame := @upcoming_enqueue_of_none c.machine ⟨.shutdown, none⟩ task rfl
      simpa only [ConsoleAction.reads, Console.takes, Option.bind_none, Option.toList_none,
        List.append_nil, hsame] using ih
    | stopped hphase =>
      simpa only [(stopped_unseen hn).1, (stopped_unseen hn).2.2, Option.bind_none,
        Option.toList_none, List.append_nil] using ih
    | @took answers msg rest hregistry hqueue =>
      simp only [ConsoleAction.reads, Console.takes, hqueue, List.head?_cons, Option.bind_some,
        Option.toList_none, List.append_nil, ih, upcoming_handle hqueue answers,
        List.filterMap_append, Message.chunk, List.append_assoc]
      cases msg.eventOf task with
      | none => rfl
      | some ev => cases ev <;> rfl
    | @traffic action machine hm =>
      have hother : ∀ answers, action ≠ .handle answers := by
        rintro answers rfl
        cases hn
      simp only [Console.takes, Option.bind_none, Option.toList_none, List.append_nil, ih,
        chunks_upcoming_step (Machine.step_of_next hm) hother task, List.append_assoc]

end Steps

def Spent (task : JoinHandle) (c : Console) : Prop :=
  c.machine.readers task ≠ .reading ∧ (c.machine.readers task).events = []

section Closed

variable {caps : Capacities} {c c' : Console} {a : ConsoleAction} {task : JoinHandle}

theorem readers_step {m m' : Machine} {action : Action} (hstep : m.Step action m')
    (hreading : m.readers task ≠ .reading) (hevents : (m.readers task).events = []) :
    m'.readers task = m.readers task ∧ (ConsoleAction.traffic action).reads task = none := by
  cases hstep with
  | command | interrupt | accept | handOver | handle => exact ⟨rfl, rfl⟩
  | @read t answer id stream _ _ hr =>
    have ht : t ≠ task := fun he ↦ hreading (he ▸ hr)
    refine ⟨Function.update_of_ne ht.symm _ _, ?_⟩
    cases answer <;> simp [ConsoleAction.reads, ht]
  | @forward t ev events _ hsending =>
    have ht : t ≠ task := by
      rintro rfl
      rw [hsending] at hevents
      cases hevents
    exact ⟨Function.update_of_ne ht.symm _ _, rfl⟩

theorem spent_step (h : Spent task c) (hn : c.next caps a = some c') :
    a.reads task = none ∧ Spent task c' := by
  cases Console.step_of_next hn with
  | submitted line hrepl =>
    obtain ⟨repl, he⟩ := c.submit_eq line
    rw [he]
    exact ⟨rfl, h⟩
  | stopped => exact ⟨(stopped_unseen hn).2.2 task, h⟩
  | traffic hm =>
    obtain ⟨hsame, hnone⟩ := readers_step (Machine.step_of_next hm) h.1 h.2
    exact ⟨hnone, by rwa [Spent, hsame]⟩
  | _ => exact ⟨rfl, h⟩

/-- At the `Closed` of a task nothing else of it is on its way, and it reads no more. -/
theorem spent_of_closed (hc : Reachable (consoleSystem caps) c) {msg : Message} {id : ConnectionId}
    (htakes : c.takes a = some msg) (hev : msg.eventOf task = some (.closed id)) :
    c.machine.upcoming task = [.closed id] ∧ Spent task c := by
  have hlast := closedLast_of_reachable (machine_reachable hc)
  unfold Console.takes at htakes
  split at htakes
  · obtain ⟨rest, hq⟩ := List.head?_eq_some_iff.mp htakes
    have hup : c.machine.upcoming task = .closed id ::
        (rest.filterMap (Message.eventOf task) ++ (c.machine.readers task).events) := by
      rw [Machine.upcoming, hq, List.filterMap_cons_some hev]
      rfl
    have hnil := hlast.eq_nil hup
    rw [hnil] at hup
    refine ⟨hup, hlast.ended task id (hup ▸ List.mem_cons_self), ?_⟩
    exact (List.append_eq_nil_iff.mp hnil).2
  · cases htakes

end Closed

/-- In every run the lines for the chunks of a task show, in the order they are
printed, what the task has read from the front, and the `Closed` of the task
is handled after all of it. -/
theorem received_shown_faithfully {caps : Capacities} {hist : History} {c : Console}
    (hr : Run (consoleSystem caps) hist c) (task : JoinHandle) :
    (Screen.of hist).shown.map Prod.snd = (Screen.of hist).printed ∧
    (Screen.of hist).shown.filterMap (receivedBy task) <+: (chunksRead task hist).map some ∧
    ∀ before c₀ a after msg id, hist = before ++ (c₀, a) :: after → c₀.takes a = some msg →
      msg.eventOf task = some (.closed id) → chunksHandled task before = chunksRead task hist := by
  have hshows := shows_of_run hr task
  have hcarries := carries_of_run hr task
  have horder := inOrder_of_run hr
  refine ⟨?_, ?_, ?_⟩
  · rw [InOrder] at horder
    rw [Screen.shown, List.map_take, ← horder, List.append_assoc, List.append_assoc,
      List.take_left]
  · rw [Shows] at hshows
    rw [hcarries, List.map_append, ← hshows, List.append_assoc]
    exact ((List.take_prefix _ _).filterMap _).trans (List.prefix_append _ _)
  · rintro before c₀ a after msg id rfl htakes hev
    obtain ⟨hr₀, c₁, hstep⟩ := hr.of_append_cons
    obtain ⟨hup, hspent⟩ := spent_of_closed hr₀.reachable htakes hev
    have hbefore := carries_of_run hr₀ task
    rw [Carries, hup, List.filterMap_cons_none rfl, List.filterMap_nil, List.append_nil] at hbefore
    -- after its `Closed` the task reads nothing
    obtain ⟨-, hafter⟩ := hr.forall_after (fun c' hn ↦ (spent_step hspent hn).2)
      fun _ _ _ hs hn ↦ (spent_step hs hn).2
    have hnone : chunksRead task ((c₀, a) :: after) = [] := by
      refine List.filterMap_eq_nil_iff.mpr fun q hq ↦ ?_
      rcases List.mem_cons.mp hq with rfl | hq
      · exact (spent_step hspent hstep).1
      · obtain ⟨hs, c', hn⟩ := hafter q hq
        exact (spent_step hs hn).1
    have hsplit : chunksRead task (before ++ (c₀, a) :: after) =
        chunksRead task before ++ chunksRead task ((c₀, a) :: after) := List.filterMap_append
    rw [hsplit, hnone, List.append_nil, hbefore]

theorem first_chunk_shown :
    ∃ hist c, Run (consoleSystem ⟨1024, 1024, 20⟩) hist c ∧
      hist.map Prod.snd = [.submit "open client 4000 host:80", .send, .take (.granting 0 []), .emit,
        .answer, .reply, .display, .traffic (.read 0 (.ok [65])), .traffic (.forward 0),
        .traffic (.read 0 (.ok [66, 67])), .take (.granting 1 []), .emit, .receive, .print,
        .receive, .print, .receive, .print, .drain, .drain, .drain] ∧
      (Screen.of hist).shown.filterMap (receivedBy 0) = [some [65]] ∧
      .mk "[4000] RECV 41" ∈ (Screen.of hist).printed ∧
      (Screen.of hist).shown.filterMap (receivedBy 0) <+: [some [65], some [66, 67]] := by
  have hrun : ∃ c ∈ run (Console.next ⟨1024, 1024, 20⟩) (fun _ _ ↦ true) .start
      [.submit "open client 4000 host:80", .send, .take (.granting 0 []), .emit,
        .answer, .reply, .display, .traffic (.read 0 (.ok [65])), .traffic (.forward 0),
        .traffic (.read 0 (.ok [66, 67])), .take (.granting 1 []), .emit, .receive, .print,
        .receive, .print, .receive, .print, .drain, .drain, .drain],
      c.repl = .reading := by decide +kernel
  obtain ⟨c, hc, -⟩ := hrun
  have hstart : Run (consoleSystem ⟨1024, 1024, 20⟩) [] .start := .init Console.start_initial
  have hr := hstart.append_trail hc
  refine ⟨_, c, hr, map_snd_trail hc, by decide +kernel, by decide +kernel, ?_⟩
  exact (received_shown_faithfully hr 0).2.1

end WireDock
