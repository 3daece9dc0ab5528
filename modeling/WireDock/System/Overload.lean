import WireDock.System.Deadlock

namespace WireDock

open LabelledSystem

section Monotone

theorem Machine.send_mono {capacity capacity' : ℕ} (hle : capacity ≤ capacity') {m m' : Machine}
    {msg : Message} (h : m.send capacity msg = some m') : m.send capacity' msg = some m' := by
  unfold send at h ⊢
  split_ifs at h with hfree
  rw [if_pos (hfree.trans_le hle), h]

theorem Machine.next_mono {capacity capacity' : ℕ} (hle : capacity ≤ capacity') {m m' : Machine}
    {a : Action} (h : m.next capacity a = some m') : m.next capacity' a = some m' := by
  cases a with
  | command cmd => exact send_mono hle h
  | interrupt => exact send_mono hle h
  | accept task answer => exact h
  | handOver task =>
    simp only [next] at h ⊢
    split_ifs at h ⊢
    obtain ⟨answer, hmet, h⟩ := Option.bind_eq_some_iff.mp h
    obtain ⟨server, hs, h⟩ := Option.bind_eq_some_iff.mp h
    obtain ⟨input, hi, h⟩ := Option.bind_eq_some_iff.mp h
    exact Option.bind_eq_some_iff.mpr ⟨answer, hmet, Option.bind_eq_some_iff.mpr ⟨server, hs,
      Option.bind_eq_some_iff.mpr ⟨input, hi, send_mono hle h⟩⟩⟩
  | read task answer => exact h
  | forward task =>
    simp only [next] at h ⊢
    split at h
    · split_ifs at h with hlive
      rw [if_neg hlive]
      exact send_mono hle h
    · cases h
  | handle answers => exact h

variable {caps caps' : Capacities} {c c' : Console} {a : ConsoleAction}

/-- More places only allow more steps. -/
theorem Console.next_mono (hinput : caps.input ≤ caps'.input)
    (hdisplay : caps.display ≤ caps'.display) (hprinter : caps.printer ≤ caps'.printer)
    (h : c.next caps a = some c') : c.next caps' a = some c' := by
  have hsend : ∀ input repl, c.send caps input repl = some c' →
      c.send caps' input repl = some c' := by
    intro input repl hs
    unfold Console.send at hs ⊢
    split_ifs at hs ⊢
    · obtain ⟨machine, hm, rfl⟩ := Option.map_eq_some_iff.mp hs
      exact Option.map_eq_some_iff.mpr ⟨machine, Machine.send_mono hinput hm, rfl⟩
    · exact hs
  cases a with
  | submit | leave | drain | reply | halt | answer | receive => exact h
  | send =>
    simp only [next] at h ⊢
    split at h
    · exact hsend _ _ h
    · exact hsend _ _ h
    · cases h
  | display =>
    simp only [next] at h ⊢
    split at h
    · split_ifs at h with hfree
      rw [if_pos (hfree.trans_le hdisplay), h]
    · cases h
  | take answers =>
    simp only [next] at h ⊢
    split at h
    · obtain ⟨machine, hm, rfl⟩ := Option.map_eq_some_iff.mp h
      exact Option.map_eq_some_iff.mpr ⟨machine, Machine.next_mono hinput hm, rfl⟩
    · cases h
  | emit =>
    simp only [next] at h ⊢
    split at h
    · split_ifs at h with hfree
      rw [if_pos (hfree.trans_le hdisplay), h]
    · cases h
  | print =>
    simp only [next] at h ⊢
    split at h
    · split_ifs at h with hfree
      rw [if_pos (hfree.trans_le hprinter), h]
    · cases h
  | traffic action =>
    simp only [next] at h ⊢
    split at h
    · cases h
    · cases h
    · obtain ⟨machine, hm, rfl⟩ := Option.map_eq_some_iff.mp h
      exact Option.map_eq_some_iff.mpr ⟨machine, Machine.next_mono hinput hm, rfl⟩

theorem reachable_of_le (hc : Reachable (consoleSystem caps) c) (hinput : caps.input ≤ caps'.input)
    (hdisplay : caps.display ≤ caps'.display) (hprinter : caps.printer ≤ caps'.printer) :
    Reachable (consoleSystem caps') c := by
  induction hc with
  | init hi => exact .init hi
  | step _ _ hn ih => exact ih.step (Console.next_mono hinput hdisplay hprinter hn)

end Monotone

structure Machine.Quiet (m : Machine) (task : JoinHandle) : Prop where
  running : m.world.phase = .running
  queue : m.queue = []
  reader : ∃ id, m.world.log.findSome? (Effect.reader task) = some id
  live : .abort task ∉ m.world.log
  reading : m.readers task = .reading

/-- The registry task waits for an input and the REPL for the user. -/
structure Idle (task : JoinHandle) (c : Console) : Prop where
  quiet : c.machine.Quiet task
  registry : c.registry = .receiving
  repl : c.repl = .reading

section Overload

variable {caps : Capacities} {c : Console} {task : JoinHandle}

theorem Idle.line_arrives (hinput : 0 < caps.input) (hc : Reachable (consoleSystem caps) c)
    (h : Idle task c) : ∃ machine line, machine.Quiet task ∧ Reachable (consoleSystem caps)
      { c with machine, registry := .displaying [line] none } := by
  obtain ⟨⟨hrunning, hqueue, ⟨id, hid⟩, hlive, hreading⟩, hregistry, hrepl⟩ := h
  obtain ⟨fresh, hfresh⟩ := DistinctKeys.exists_unused Effect.spawned c.machine.world.log
  obtain ⟨listener, hlistener⟩ := DistinctKeys.exists_unused Effect.listening c.machine.world.log
  let answers : Answers := ⟨fun _ ↦ .error .emptyPayload, ⟨true, fun _ ↦ none, listener⟩,
    fun _ _ ↦ .ok (), fresh, .first []⟩
  let ev := NetEvent.received id [0]
  let read := c.machine.setReader task (.sending [ev])
  let forwarded := (read.setReader task .reading).enqueue ⟨.event ev, some task⟩
  let handled := forwarded.handle answers (.event ev) []
  have hlog : handled.world.log = c.machine.world.log ++ (c.machine.world.reg.handleEvent ev).2 := rfl
  obtain ⟨line, hline⟩ : ∃ line, (c.machine.world.reg.handleEvent ev).2 = [.display line] := ⟨_, rfl⟩
  have hread : c.next caps (.traffic (.read task (.ok [0]))) = some { c with machine := read } := by
    simp only [Console.next, Machine.next, hlive, hreading, hid, ne_eq, not_true_eq_false, or_self,
      if_false]
    rfl
  have hforward : ({ c with machine := read } : Console).next caps (.traffic (.forward task)) =
      some { c with machine := forwarded } := by
    have hsending : read.readers task = .sending [ev] := Function.update_self ..
    have hfree : (read.setReader task .reading).queue.length < caps.input := by
      rw [show (read.setReader task .reading).queue = [] from hqueue]
      exact hinput
    have hworld : .abort task ∉ read.world.log := hlive
    have hsent : Reader.sent ev [] = .reading := rfl
    simp only [Console.next, Machine.next, hsending, hworld, if_false, hsent, Machine.send, hfree,
      if_true, Option.map_some]
    rfl
  have htake : ({ c with machine := forwarded } : Console).next caps (.take answers) =
      some { c with machine := handled, registry := .displaying [line] none } := by
    have hq : forwarded.queue = [⟨.event ev, some task⟩] := by
      change c.machine.queue ++ [_] = _
      rw [hqueue, List.nil_append]
    simp only [Console.next, Machine.next, hregistry, hq]
    rw [if_pos ⟨hrunning, hfresh, hlistener⟩]
    change some { c with
      machine := handled
      registry := .displaying ((c.machine.world.reg.handleEvent ev).2.filterMap Effect.displayed)
        none } = _
    rw [hline]
    rfl
  refine ⟨handled, line, ⟨rfl, rfl, ⟨id, ?_⟩, ?_, ?_⟩,
    ((hc.step hread).step hforward).step htake⟩
  · rw [hlog, List.findSome?_append, hid, Option.some_or]
  · rw [hlog, hline, List.mem_append]
    exact not_or.mpr ⟨hlive, by simp⟩
  · exact Function.update_self ..

theorem Idle.line_queued (hinput : 0 < caps.input) (hc : Reachable (consoleSystem caps) c)
    (h : Idle task c) (hfree : c.display.length < caps.display) :
    ∃ c', Reachable (consoleSystem caps) c' ∧ Idle task c' ∧
      (∃ line, c'.display = c.display ++ [line]) ∧ c'.held = c.held ∧ c'.printer = c.printer := by
  obtain ⟨machine, line, hquiet, hr⟩ := h.line_arrives hinput hc
  have hemit : ({ c with machine, registry := .displaying [line] none } : Console).next caps .emit =
      some { c with machine, display := c.display ++ [line], registry := .displaying [] none } :=
    if_pos hfree
  exact ⟨_, (hr.step hemit).step (a := .answer) rfl, ⟨hquiet, rfl, h.repl⟩, ⟨line, rfl⟩, rfl, rfl⟩

theorem exists_printer (hinput : 0 < caps.input) (hdisplay : 0 < caps.display)
    (hc : Reachable (consoleSystem caps) c) (h : Idle task c) (hd : c.display = [])
    (hh : c.held = none) (hp : c.printer = []) (n : ℕ) (hn : n ≤ caps.printer) :
    ∃ c', Reachable (consoleSystem caps) c' ∧ Idle task c' ∧ c'.display = [] ∧ c'.held = none ∧
      c'.printer.length = n := by
  induction n with
  | zero => exact ⟨c, hc, h, hd, hh, by rw [hp, List.length_nil]⟩
  | succ n ih =>
    obtain ⟨c₁, hr, hidle, hd₁, hh₁, hp₁⟩ := ih (Nat.le_of_succ_le hn)
    obtain ⟨c₂, hr, hidle, ⟨line, hd₂⟩, hh₂, hp₂⟩ :=
      hidle.line_queued hinput hr (by rwa [hd₁, List.length_nil])
    rw [hd₁, List.nil_append] at hd₂
    rw [hh₁] at hh₂
    have hreceive : c₂.next caps .receive = some { c₂ with held := some line, display := [] } := by
      simp only [Console.next, hh₂, hd₂]
    have hprint : ({ c₂ with held := some line, display := [] } : Console).next caps .print =
        some { c₂ with held := none, display := [], printer := c₂.printer ++ [line] } :=
      if_pos (by rw [hp₂, hp₁]; exact hn)
    refine ⟨_, (hr.step hreceive).step hprint, ⟨hidle.quiet, hidle.registry, hidle.repl⟩,
      rfl, rfl, ?_⟩
    rw [List.length_append, hp₂, hp₁, List.length_singleton]

theorem exists_display (hinput : 0 < caps.input) (hdisplay : 0 < caps.display)
    (hc : Reachable (consoleSystem caps) c) (h : Idle task c) (hd : c.display = [])
    (hh : c.held = none) (hp : caps.printer ≤ c.printer.length) (n : ℕ) (hn : n ≤ caps.display) :
    ∃ c', Reachable (consoleSystem caps) c' ∧ Idle task c' ∧ c'.display.length = n ∧
      c'.held.isSome ∧ caps.printer ≤ c'.printer.length := by
  induction n with
  | zero =>
    obtain ⟨c', hr, hidle, ⟨line, hd'⟩, hh', hp'⟩ :=
      h.line_queued hinput hc (by rwa [hd, List.length_nil])
    rw [hd, List.nil_append] at hd'
    rw [hh] at hh'
    have hreceive : c'.next caps .receive = some { c' with held := some line, display := [] } := by
      simp only [Console.next, hh', hd']
    exact ⟨_, hr.step hreceive, ⟨hidle.quiet, hidle.registry, hidle.repl⟩, rfl, rfl,
      hp.trans_eq (congrArg List.length hp').symm⟩
  | succ n ih =>
    obtain ⟨c₁, hr, hidle, hd₁, hh₁, hp₁⟩ := ih (Nat.le_of_succ_le hn)
    obtain ⟨c₂, hr, hidle, ⟨line, hd₂⟩, hh₂, hp₂⟩ :=
      hidle.line_queued hinput hr (by rwa [hd₁])
    refine ⟨c₂, hr, hidle, ?_, by rwa [hh₂], by rwa [hp₂]⟩
    rw [hd₂, List.length_append, hd₁, List.length_singleton]

/-- A command sent while the registry task cannot display its line. -/
theorem Idle.deadlock (hinput : 0 < caps.input) (hc : Reachable (consoleSystem caps) c)
    (h : Idle task c) (hd : caps.display ≤ c.display.length) (hh : c.held.isSome)
    (hp : caps.printer ≤ c.printer.length) :
    ∃ c', Reachable (consoleSystem caps) c' ∧ Deadlocked caps c' := by
  obtain ⟨machine, line, hquiet, hr⟩ := h.line_arrives hinput hc
  obtain ⟨held, hheld⟩ := Option.isSome_iff_exists.mp hh
  have hparse : parseLine "status" = .ok (some .status) := by decide
  let typed : Console :=
    { c with machine, registry := .displaying [line] none, repl := .sending .status }
  let sent : Console :=
    { typed with
      machine := machine.enqueue ⟨.command .status, none⟩, repl := .awaiting, reply := none }
  have hsubmit : ({ c with machine, registry := .displaying [line] none } : Console).next caps
      (.submit "status") = some typed := by
    simp only [Console.next, h.repl, if_true, Console.submit, hparse]
    rfl
  have hsend : typed.next caps .send = some sent := by
    have hfree : typed.machine.queue.length < caps.input := by
      rw [show typed.machine.queue = [] from hquiet.queue]
      exact hinput
    have hrunning : typed.machine.world.phase = .running := hquiet.running
    change typed.send caps (.command .status) .awaiting = _
    rw [Console.send, if_pos hrunning, Machine.send, if_pos hfree]
    rfl
  refine ⟨sent, (hr.step hsubmit).step hsend, rfl, fun a ha ↦ ?_⟩
  have hrunning : sent.machine.world.phase = .running := hquiet.running
  cases a with
  | submit | leave | drain | send | display | take | answer => rfl
  | reply | halt => exact if_pos hrunning
  | emit => exact if_neg (not_lt.mpr hd)
  | receive => simp only [Console.next, sent, typed, hheld]
  | print =>
    simp only [Console.next, sent, typed, hheld]
    exact if_neg (not_lt.mpr hp)
  | traffic action => cases ha

theorem exists_idle : ∃ c, Reachable (consoleSystem ⟨1, 1, 1⟩) c ∧ Idle 0 c ∧ c.display = [] ∧
    c.held = none ∧ c.printer = [] := by
  have hrun : ∃ c ∈ run (Console.next ⟨1, 1, 1⟩) (fun _ _ ↦ true) .start
      [.submit "open client 4000 127.0.0.1:80", .send, .take (.granting 0 []), .emit, .answer,
        .receive, .print, .reply, .display, .drain, .receive, .print, .drain],
      c.machine.world.phase = .running ∧ c.machine.queue = [] ∧
        c.machine.world.log.findSome? (Effect.reader 0) = some (.tcpClient 4000) ∧
        .abort 0 ∉ c.machine.world.log ∧ c.machine.readers 0 = .reading ∧
        c.registry = .receiving ∧ c.repl = .reading ∧ c.display = [] ∧ c.held = none ∧
        c.printer = [] := by decide +kernel
  obtain ⟨c, hc, hrunning, hqueue, hreader, hlive, hreading, hregistry, hrepl, hempty⟩ := hrun
  exact ⟨c, reachableBy_run (fun _ _ _ ↦ trivial) (.init Console.start_initial) hc,
    ⟨⟨hrunning, hqueue, ⟨_, hreader⟩, hlive, hreading⟩, hregistry, hrepl⟩, hempty⟩

/-- Whatever the capacities, data that arrives while a command is typed blocks
the REPL, the registry task and the display task. -/
theorem deadlock_reachable (hinput : 0 < caps.input) (hdisplay : 0 < caps.display)
    (hprinter : 0 < caps.printer) : ∃ c, Reachable (consoleSystem caps) c ∧ Deadlocked caps c := by
  obtain ⟨c, hc, hidle, hd, hh, hp⟩ := exists_idle
  have hc' : Reachable (consoleSystem caps) c := reachable_of_le hc hinput hdisplay hprinter
  obtain ⟨c₁, hr₁, hidle₁, hd₁, hh₁, hp₁⟩ :=
    exists_printer hinput hdisplay hc' hidle hd hh hp _ le_rfl
  obtain ⟨c₂, hr₂, hidle₂, hd₂, hh₂, hp₂⟩ :=
    exists_display hinput hdisplay hr₁ hidle₁ hd₁ hh₁ hp₁.ge _ le_rfl
  exact hidle₂.deadlock hinput hr₂ hd₂.ge hh₂ hp₂

end Overload

theorem console_deadlocks :
    ∃ c, Reachable (consoleSystem ⟨1024, 1024, 20⟩) c ∧ Deadlocked ⟨1024, 1024, 20⟩ c :=
  deadlock_reachable (by decide) (by decide) (by decide)

end WireDock
