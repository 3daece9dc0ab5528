import Mathlib.Data.Prod.Lex
import WireDock.Library.Inevitable
import WireDock.System.Deadlock

namespace WireDock

open LabelledSystem

/-- The steps the tasks take by themselves, with nothing typed in and nothing from
the network. `halt` is left out: it only ends the REPL after the registry task. -/
def ConsoleAction.isInternal : ConsoleAction → Bool
  | drain | send | reply | display | take _ | emit | answer | receive | print => true
  | _ => false

def Repl.work : Repl → ℕ
  | showing _ => 4
  | awaiting => 1
  | _ => 0

def RegistryTask.work : RegistryTask → ℕ
  | receiving => 0
  | displaying lines reply => 1 + 4 * lines.length + 5 * reply.toList.length

namespace Console

def messages (c : Console) : ℕ :=
  c.machine.queue.length + match c.repl with
    | .sending _ | .leaving => 2
    | _ => 0

def work (c : Console) : ℕ :=
  c.registry.work + c.repl.work + 5 * c.reply.toList.length + 3 * c.display.length +
    2 * c.held.toList.length + c.printer.length

/-- Messages come first: handling one may ask for any number of lines. -/
def rank (c : Console) : ℕ ×ₗ ℕ := toLex (c.messages, c.work)

variable {caps : Capacities} {c c' : Console} {a : ConsoleAction}

theorem rank_of_messages (h : c'.messages < c.messages) : c'.rank < c.rank :=
  Prod.Lex.toLex_lt_toLex.mpr (.inl h)

theorem rank_of_work (hm : c'.messages = c.messages) (h : c'.work < c.work) : c'.rank < c.rank :=
  Prod.Lex.toLex_lt_toLex.mpr (.inr ⟨hm, h⟩)

theorem messages_send {input : RegistryInput} {repl : Repl}
    (hrepl : repl = .awaiting ∨ repl = .exited)
    (h : c.send caps input repl = some c') : c'.messages ≤ c.machine.queue.length + 1 := by
  rcases send_eq_some h with ⟨-, rfl⟩ | ⟨-, rfl⟩
  · rcases hrepl with rfl | rfl <;> simp [messages, Machine.enqueue]
  · simp [messages]

theorem rank_send (h : c.next caps .send = some c') : c'.rank < c.rank := by
  simp only [next] at h
  split at h
  · rename_i cmd hrepl
    have hle := messages_send (.inl rfl) h
    refine rank_of_messages ?_
    simp only [messages, hrepl] at hle ⊢
    omega
  · rename_i hrepl
    have hle := messages_send (.inr rfl) h
    refine rank_of_messages ?_
    simp only [messages, hrepl] at hle ⊢
    omega
  · cases h

theorem rank_reply (h : c.next caps .reply = some c') : c'.rank < c.rank := by
  simp only [next] at h
  split at h
  · rename_i outcome hrepl hreply
    cases h
    refine rank_of_work ?_ ?_
    · simp [messages, hrepl]
    · simp only [work, hrepl, hreply, Repl.work, Option.toList_none, Option.toList_some,
        List.length_nil, List.length_singleton]
      omega
  · rename_i hrepl _
    split_ifs at h
    cases h
    refine rank_of_work ?_ ?_
    · simp [messages, hrepl]
    · simp only [work, hrepl, Repl.work]
      omega
  · cases h

theorem rank_display (h : c.next caps .display = some c') : c'.rank < c.rank := by
  simp only [next] at h
  split at h
  · rename_i line hrepl
    split_ifs at h
    cases h
    refine rank_of_work ?_ ?_
    · simp [messages, hrepl]
    · simp only [work, hrepl, Repl.work, List.length_append, List.length_singleton]
      omega
  · cases h

theorem rank_take {answers : Answers} (h : c.next caps (.take answers) = some c') :
    c'.rank < c.rank := by
  cases step_of_next h with
  | took _ hqueue =>
    refine rank_of_messages ?_
    simp only [messages, hqueue, Machine.handle, List.length_cons]
    omega
  | stopped hphase =>
    simp only [next] at h
    split at h
    · obtain ⟨machine, hm, -⟩ := Option.map_eq_some_iff.mp h
      cases Machine.step_of_next hm with
      | handle _ hrunning => exact (hphase hrunning).elim
    · cases h

theorem rank_emit (h : c.next caps .emit = some c') : c'.rank < c.rank := by
  simp only [next] at h
  split at h
  · rename_i line lines reply hregistry
    split_ifs at h
    cases h
    refine rank_of_work rfl ?_
    simp only [work, hregistry, RegistryTask.work, List.length_append, List.length_cons,
      List.length_nil]
    omega
  · cases h

theorem rank_answer (h : c.next caps .answer = some c') : c'.rank < c.rank := by
  simp only [next] at h
  split at h
  · rename_i reply hregistry
    cases h
    refine rank_of_work rfl ?_
    have hle : (reply <|> c.reply).toList.length ≤ reply.toList.length + c.reply.toList.length := by
      cases reply <;> simp
    simp only [work, hregistry, RegistryTask.work, List.length_nil]
    omega
  · cases h

theorem rank_receive (h : c.next caps .receive = some c') : c'.rank < c.rank := by
  simp only [next] at h
  split at h
  · rename_i line display hheld hdisplay
    cases h
    refine rank_of_work rfl ?_
    simp only [work, hheld, hdisplay, List.length_cons, Option.toList_none, Option.toList_some,
      List.length_nil]
    omega
  · cases h

theorem rank_print (h : c.next caps .print = some c') : c'.rank < c.rank := by
  simp only [next] at h
  split at h
  · rename_i line hheld
    split_ifs at h
    cases h
    refine rank_of_work rfl ?_
    simp only [work, hheld, List.length_append, Option.toList_none, Option.toList_some,
      List.length_nil, List.length_singleton]
    omega
  · cases h

/-- Every step of their own brings the tasks closer to rest. -/
theorem rank_lt (h : c.next caps a = some c') (ha : a.isInternal = true) : c'.rank < c.rank := by
  cases a with
  | submit | leave | halt | traffic => cases ha
  | drain =>
    simp only [next] at h
    split at h
    · rename_i line printer hrepl hprinter
      cases h
      refine rank_of_work (by simp [messages]) ?_
      simp only [work, hprinter, List.length_cons]
      omega
    · cases h
  | send => exact rank_send h
  | reply => exact rank_reply h
  | display => exact rank_display h
  | take answers => exact rank_take h
  | emit => exact rank_emit h
  | answer => exact rank_answer h
  | receive => exact rank_receive h
  | print => exact rank_print h

end Console

def Resting (caps : Capacities) (c : Console) : Prop :=
  ∀ a : ConsoleAction, a.isInternal = true → c.next caps a = none

/-- Some task can take a step whose lines do not fit any more. -/
def Overflows (caps : Capacities) (c : Console) : Prop :=
  ∃ a c', a.isInternal = true ∧ c.next caps a = some c' ∧ ¬Fits caps c a

structure Settled (c : Console) : Prop where
  queue : c.machine.queue = []
  registry : c.registry = .receiving
  display : c.display = []
  held : c.held = none
  printer : c.printer = []

def Ending (c : Console) : Prop :=
  (∃ msg ∈ c.machine.queue, msg.input = .shutdown) ∨ c.repl = .leaving

section Rest

variable {caps : Capacities} {c c' : Console} {a : ConsoleAction} {P I : Console → Prop}

/-- The rule of ranks for the program: it is enough that it does not rest before `P`. -/
theorem inevitable_of_not_resting (hrest : ∀ c, I c → ¬P c → ¬Resting caps c)
    (hstep : ∀ c a c', I c → ¬P c → a.isInternal = true → c.next caps a = some c' → I c')
    (hc : I c) : Inevitable (consoleSystem caps) (fun a ↦ a.isInternal = true) P c := by
  refine Inevitable.of_rank wellFounded_lt Console.rank ?_ ?_ hc
  · intro c hi hp
    by_contra hmove
    refine hrest c hi hp fun a ha ↦ Option.eq_none_iff_forall_ne_some.mpr fun c' hn ↦ ?_
    exact hmove ⟨a, c', ha, hn⟩
  · intro c a c' hi hp ha hn
    exact ⟨hstep c a c' hi hp ha hn, Console.rank_lt hn ha⟩

/-- Outside of `read_line` nothing is typed in, and a running registry task is not halted. -/
theorem Resting.deadlocked (h : Resting caps c) (hrunning : c.machine.world.phase = .running)
    (hwait : c.repl.waiting = true) : Deadlocked caps c := by
  refine ⟨hwait, fun a ha ↦ ?_⟩
  have hreading : c.repl ≠ .reading := by
    intro he
    rw [he] at hwait
    cases hwait
  cases a with
  | submit | leave => exact if_neg hreading
  | halt => exact if_pos hrunning
  | traffic => cases ha
  | _ => exact h _ rfl

theorem Resting.receiving (h : Resting caps c)
    (hfree : caps.display ≤ c.display.length → ∀ lines reply, c.registry ≠ .displaying lines reply) :
    c.registry = .receiving := by
  cases hregistry : c.registry with
  | receiving => rfl
  | displaying lines reply =>
    cases lines with
    | nil =>
      have hanswer := h .answer rfl
      simp only [Console.next, hregistry, reduceCtorEq] at hanswer
    | cons line lines =>
      have hemit := h .emit rfl
      simp only [Console.next, hregistry] at hemit
      split_ifs at hemit with hplace
      exact (hfree (not_lt.mp hplace) _ _ hregistry).elim

/-- While the REPL reads, the lines are printed and taken off the printer one after another. -/
theorem Resting.nothing_shown (h : Resting caps c) (hprinter : 0 < caps.printer)
    (hreading : c.repl = .reading) : c.display = [] ∧ c.held = none ∧ c.printer = [] := by
  have hp : c.printer = [] := by
    have hdrain := h .drain rfl
    cases hp : c.printer with
    | nil => rfl
    | cons line printer => simp only [Console.next, hreading, hp, reduceCtorEq] at hdrain
  have hheld : c.held = none := by
    have hprint := h .print rfl
    cases hheld : c.held with
    | none => rfl
    | some line =>
      simp only [Console.next, hheld, hp, List.length_nil, if_pos hprinter, reduceCtorEq] at hprint
  have hd : c.display = [] := by
    have hreceive := h .receive rfl
    cases hd : c.display with
    | nil => rfl
    | cons line display => simp only [Console.next, hheld, hd, reduceCtorEq] at hreceive
  exact ⟨hd, hheld, hp⟩

theorem Resting.settled (h : Resting caps c) (hdisplay : 0 < caps.display)
    (hprinter : 0 < caps.printer) (hreading : c.repl = .reading)
    (hrunning : c.machine.world.phase = .running) : Settled c := by
  obtain ⟨hd, hheld, hp⟩ := h.nothing_shown hprinter hreading
  have hregistry : c.registry = .receiving := by
    refine h.receiving fun hfull ↦ ?_
    rw [hd, List.length_nil] at hfull
    omega
  exact ⟨queue_eq_nil_of_blocked hrunning hregistry fun answers ↦ h (.take answers) rfl,
    hregistry, hd, hheld, hp⟩

theorem Resting.not_ending (h : Resting caps c) (hinput : 0 < caps.input)
    (hdisplay : 0 < caps.display) (hprinter : 0 < caps.printer)
    (hrunning : c.machine.world.phase = .running)
    (hload : c.repl = .reading ∨ c.load ≤ caps.lines) : ¬Ending c := by
  have hregistry : c.registry = .receiving := by
    refine h.receiving fun hfull lines reply hregistry ↦ ?_
    rcases hload with hreading | hload
    · rw [(h.nothing_shown hprinter hreading).1, List.length_nil] at hfull
      omega
    · have hle := lines_le_of_blocked hdisplay (h .receive rfl) (h .print rfl) hfull
      cases lines with
      | nil =>
        have hanswer := h .answer rfl
        simp only [Console.next, hregistry, reduceCtorEq] at hanswer
      | cons line lines =>
        simp only [Console.load, hregistry, RegistryTask.lines, List.length_cons] at hload
        omega
  have hqueue := queue_eq_nil_of_blocked hrunning hregistry fun answers ↦ h (.take answers) rfl
  rintro (⟨msg, hmem, -⟩ | hleaving)
  · rw [hqueue] at hmem
    cases hmem
  · have hsend := h .send rfl
    simp only [Console.next, hleaving, Console.send, if_pos hrunning, Machine.send, hqueue,
      List.length_nil, if_pos hinput, Option.map_some, reduceCtorEq] at hsend

theorem reading_of_internal (hreading : c.repl = .reading) (ha : a.isInternal = true)
    (hn : c.next caps a = some c') : c'.repl = .reading := by
  cases a with
  | submit | leave | halt | traffic => cases ha
  | send | reply | display => simp only [Console.next, hreading, reduceCtorEq] at hn
  | drain | answer | receive =>
    simp only [Console.next] at hn
    split at hn <;> cases hn
    exact hreading
  | take answers =>
    simp only [Console.next] at hn
    split at hn
    · obtain ⟨machine, -, rfl⟩ := Option.map_eq_some_iff.mp hn
      exact hreading
    · cases hn
  | emit | print =>
    simp only [Console.next] at hn
    split at hn
    · split_ifs at hn
      cases hn
      exact hreading
    · cases hn

theorem Ending.queued (h : Ending c) (hrepl : c.repl ≠ .leaving) :
    ∃ msg ∈ c.machine.queue, msg.input = .shutdown := h.resolve_right hrepl

theorem Ending.step (h : Ending c) (hstep : c.Step caps a c')
    (hrunning : c'.machine.world.phase = .running) : Ending c' := by
  cases hstep with
  | submitted line hrepl =>
    obtain ⟨repl, he⟩ := c.submit_eq line
    rw [he]
    exact .inl (h.queued (by simp [hrepl]))
  | left => exact .inr rfl
  | sentCommand hrepl =>
    obtain ⟨msg, hmem, hs⟩ := h.queued (by simp [hrepl])
    exact .inl ⟨msg, List.mem_append_left _ hmem, hs⟩
  | sentShutdown => exact .inl ⟨_, List.mem_append_right _ (List.mem_singleton_self _), rfl⟩
  | stopped hphase => exact (hphase hrunning).elim
  | replied hrepl => exact .inl (h.queued (by simp [hrepl]))
  | shown hrepl => exact .inl (h.queued (by simp [hrepl]))
  | took _ hqueue =>
    refine h.imp_left ?_
    rintro ⟨msg, hmem, hs⟩
    rw [hqueue] at hmem
    rcases List.mem_cons.mp hmem with rfl | hmem
    · -- the shutdown itself is handled
      rw [Machine.handle, hs] at hrunning
      cases hrunning
    · exact ⟨msg, hmem, hs⟩
  | traffic _ _ hqueue =>
    refine h.imp_left ?_
    rintro ⟨msg, hmem, hs⟩
    exact ⟨msg, hqueue msg hmem, hs⟩
  | _ => exact h

end Rest

section Outcomes

variable {caps : Capacities} {c : Console}

/-- While the REPL reads, everything received is handled and everything displayed
is printed, in whatever order the tasks take their turns. -/
theorem settles_at_prompt (hdisplay : 0 < caps.display) (hprinter : 0 < caps.printer)
    (hreading : c.repl = .reading) :
    Inevitable (consoleSystem caps) (fun a ↦ a.isInternal = true)
      (fun c ↦ c.repl = .reading ∧ (Settled c ∨ c.machine.world.phase ≠ .running)) c := by
  refine inevitable_of_not_resting (I := fun c ↦ c.repl = .reading)
    (fun c hc hp hrest ↦ ?_) (fun c a c' hc hp ha hn ↦ ?_) hreading
  · by_cases hrunning : c.machine.world.phase = .running
    · exact hp ⟨hc, .inl (hrest.settled hdisplay hprinter hc hrunning)⟩
    · exact hp ⟨hc, .inr hrunning⟩
  · exact reading_of_internal hc ha hn

theorem settles_after_reply :
    ∃ c, run (Console.next ⟨1024, 1024, 20⟩) (fun _ _ ↦ true) .start
        [.submit "open server 3000", .send, .take (.granting 0 []), .emit, .answer, .reply,
          .display] = some c ∧
      ¬Settled c ∧ Inevitable (consoleSystem ⟨1024, 1024, 20⟩) (fun a ↦ a.isInternal = true)
        (fun c ↦ c.repl = .reading ∧ (Settled c ∨ c.machine.world.phase ≠ .running)) c := by
  have hrun : ∃ c ∈ run (Console.next ⟨1024, 1024, 20⟩) (fun _ _ ↦ true) .start
      [.submit "open server 3000", .send, .take (.granting 0 []), .emit, .answer, .reply,
        .display], c.repl = .reading ∧ c.display ≠ [] := by decide +kernel
  obtain ⟨c, hc, hr, hd⟩ := hrun
  exact ⟨c, hc, fun hs ↦ hd hs.display, settles_at_prompt (by decide) (by decide) hr⟩

end Outcomes

end WireDock
