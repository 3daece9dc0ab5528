import WireDock.System.Console
import WireDock.Library.DistinctKeys

namespace WireDock

open LabelledSystem

/-- The unprinted lines fit into the display channel, the display task and the
printer when the REPL leaves `read_line` and as long as it stays outside. -/
def Fits (caps : Capacities) (c : Console) (a : ConsoleAction) : Prop :=
  ∀ n ∈ c.added a, c.load + n ≤ caps.lines

instance (caps : Capacities) (c : Console) (a : ConsoleAction) : Decidable (Fits caps c a) :=
  inferInstanceAs (Decidable (∀ n ∈ c.added a, _))

def CommandPending (c : Console) : Prop :=
  (∃ msg ∈ c.machine.queue, ∃ cmd, msg.input = .command cmd) ∨
    (∃ lines outcome, c.registry = .displaying lines (some outcome)) ∨ c.reply.isSome

/-- While the registry task runs and the REPL waits, the unprinted lines fit
and an awaited command is on its way. -/
structure Served (caps : Capacities) (c : Console) : Prop where
  fits : c.machine.world.phase = .running → c.repl.waiting = true → c.load ≤ caps.lines
  pending : c.machine.world.phase = .running → c.repl = .awaiting → CommandPending c

theorem reply_command (c : Console) (answers : Answers) (cmd : Command) :
    ∃ outcome, (c.handling answers (.command cmd)).reply = some outcome := ⟨_, rfl⟩

section Steps

variable {caps : Capacities} {c c' : Console} {a : ConsoleAction}

theorem load_step (h : c.machine.world.phase = .running → c.repl.waiting = true →
      c.load ≤ caps.lines) (hfits : Fits caps c a) (hstep : c.Step caps a c')
    (hrunning : c'.machine.world.phase = .running) (hwait : c'.repl.waiting = true) :
    c'.load ≤ caps.lines := by
  cases hstep with
  | submitted line hrepl =>
    simp only [Fits, Console.added] at hfits
    simp only [Console.submit] at hwait ⊢
    cases hparse : parseLine line with
    | error e =>
      rw [hparse] at hfits
      have hle := hfits 1 rfl
      simp only [Console.load, hrepl, Repl.lines, List.length_nil, List.length_singleton] at hle ⊢
      omega
    | ok cmd =>
      rw [hparse] at hfits hwait
      cases cmd with
      | none => rw [hrepl] at hwait; cases hwait
      | some cmd =>
        have hle := hfits 0 rfl
        simp only [Console.load, hrepl, Repl.lines] at hle ⊢
        exact hle
  | left hrepl =>
    have hle := hfits 0 rfl
    simp only [Console.load, hrepl, Repl.lines] at hle ⊢
    exact hle
  | drained hrepl => rw [hrepl] at hwait; cases hwait
  | sentCommand hrepl =>
    have hle := h hrunning (by rw [hrepl]; rfl)
    simp only [Console.load, hrepl, Repl.lines] at hle ⊢
    exact hle
  | sentShutdown => cases hwait
  | stopped hphase => exact (hphase hrunning).elim
  | @replied outcome hrepl hreply =>
    have hle := hfits 1 (by simp only [Console.added, hreply]; rfl)
    simp only [Console.load, hrepl, Repl.lines, List.length_nil, List.length_singleton] at hle ⊢
    omega
  | shown => cases hwait
  | @took answers msg rest hregistry hqueue =>
    have hw : c.repl.waiting = true := hwait
    have hle := hfits _ (by
      simp only [Console.added, hw, if_true, hqueue, List.head?_cons, Option.map_some]
      rfl)
    simp only [Console.load, hregistry, RegistryTask.lines, List.length_nil] at hle ⊢
    omega
  | emitted hregistry =>
    have hle := h hrunning hwait
    simp only [Console.load, hregistry, RegistryTask.lines, List.length_cons,
      List.length_append, List.length_nil] at hle ⊢
    omega
  | answered hregistry =>
    have hle := h hrunning hwait
    simp only [Console.load, hregistry, RegistryTask.lines] at hle ⊢
    exact hle
  | received hheld hdisplay =>
    have hle := h hrunning hwait
    simp only [Console.load, hheld, hdisplay, List.length_cons, Option.toList_none,
      Option.toList_some, List.length_nil] at hle ⊢
    omega
  | printed hheld =>
    have hle := h hrunning hwait
    simp only [Console.load, hheld, List.length_append, List.length_cons, Option.toList_none,
      Option.toList_some, List.length_nil] at hle ⊢
    omega
  | traffic _ hworld => exact h (hworld ▸ hrunning) hwait

theorem pending_step (h : c.machine.world.phase = .running → c.repl = .awaiting → CommandPending c)
    (hstep : c.Step caps a c') (hrunning : c'.machine.world.phase = .running)
    (hawait : c'.repl = .awaiting) : CommandPending c' := by
  cases hstep with
  | submitted line hrepl =>
    unfold Console.submit at hawait
    split at hawait
    · cases hrepl.symm.trans hawait
    · cases hawait
    · cases hawait
  | left => cases hawait
  | drained hrepl => cases hrepl.symm.trans hawait
  | sentCommand => exact .inl ⟨_, List.mem_append_right _ (List.mem_singleton_self _), _, rfl⟩
  | sentShutdown => cases hawait
  | stopped hphase => exact (hphase hrunning).elim
  | replied => cases hawait
  | shown => cases hawait
  | @took answers msg rest hregistry hqueue hrun =>
    rcases h hrun hawait with ⟨msg', hmem, cmd, hcmd⟩ | ⟨lines, outcome, hr⟩ | hreply
    · rw [hqueue] at hmem
      rcases List.mem_cons.mp hmem with rfl | hmem
      · obtain ⟨outcome, ho⟩ := reply_command c answers cmd
        exact .inr (.inl ⟨_, outcome, by rw [hcmd, ho]⟩)
      · exact .inl ⟨msg', hmem, cmd, hcmd⟩
    · cases hregistry.symm.trans hr
    · exact .inr (.inr hreply)
  | emitted hregistry =>
    rcases h hrunning hawait with hq | ⟨lines, outcome, hr⟩ | hreply
    · exact .inl hq
    · cases hregistry.symm.trans hr
      exact .inr (.inl ⟨_, outcome, rfl⟩)
    · exact .inr (.inr hreply)
  | @answered reply hregistry =>
    rcases h hrunning hawait with hq | ⟨lines, outcome, hr⟩ | hreply
    · exact .inl hq
    · cases hregistry.symm.trans hr
      exact .inr (.inr rfl)
    · refine .inr (.inr ?_)
      cases reply with
      | none => exact hreply
      | some outcome => rfl
  | received => exact h hrunning hawait
  | printed => exact h hrunning hawait
  | traffic _ hworld hqueue =>
    refine (h (hworld ▸ hrunning) hawait).imp_left ?_
    rintro ⟨msg, hmem, hcmd⟩
    exact ⟨msg, hqueue msg hmem, hcmd⟩

theorem served_of_reachable (hc : ReachableBy (consoleSystem caps) (Fits caps) c) :
    Served caps c := by
  refine ReachableBy.invariant (P := Served caps) ?_ ?_ hc
  · rintro c ⟨-, -, -, -, -, -, hrepl⟩
    exact ⟨fun _ hw ↦ (by rw [hrepl] at hw; cases hw), fun _ ha ↦ (by cases hrepl.symm.trans ha)⟩
  · intro c a c' _ h hfits hn
    have hstep := Console.step_of_next hn
    exact ⟨load_step h.fits hfits hstep, pending_step h.pending hstep⟩

theorem lines_le_of_blocked (hdisplay : 0 < caps.display) (hr : c.next caps .receive = none)
    (hp : c.next caps .print = none) (hfull : caps.display ≤ c.display.length) :
    caps.lines ≤ c.display.length + c.held.toList.length + c.printer.length := by
  simp only [Console.next] at hr hp
  cases hheld : c.held with
  | none =>
    cases hd : c.display with
    | nil =>
      rw [hd, List.length_nil] at hfull
      omega
    | cons line display => simp only [hheld, hd, reduceCtorEq] at hr
  | some line =>
    simp only [hheld] at hp
    split_ifs at hp with hprinter
    simp only [Capacities.lines, Option.toList_some, List.length_singleton]
    omega

theorem queue_eq_nil_of_blocked (hrunning : c.machine.world.phase = .running)
    (hregistry : c.registry = .receiving) (ht : ∀ answers, c.next caps (.take answers) = none) :
    c.machine.queue = [] := by
  cases hqueue : c.machine.queue with
  | nil => rfl
  | cons msg rest =>
    obtain ⟨task, htask⟩ := DistinctKeys.exists_unused Effect.spawned c.machine.world.log
    obtain ⟨listener, hlistener⟩ :=
      DistinctKeys.exists_unused Effect.listening c.machine.world.log
    have hnone := ht ⟨fun _ ↦ .error .emptyPayload, ⟨true, fun _ ↦ none, listener⟩,
      fun _ _ ↦ .ok (), task, .first []⟩
    simp only [Console.next, Machine.next, hregistry, hqueue] at hnone
    rw [if_pos ⟨hrunning, htask, hlistener⟩] at hnone
    cases hnone

theorem not_deadlocked (h : Served caps c) (hinput : 0 < caps.input)
    (hdisplay : 0 < caps.display) : ¬Deadlocked caps c := by
  rintro ⟨hwait, hnone⟩
  have hrunning : c.machine.world.phase = .running := by
    by_contra hr
    have hhalt := hnone .halt rfl
    simp only [Console.next, if_neg hr] at hhalt
    cases hhalt
  have hload := h.fits hrunning hwait
  have hlines := lines_le_of_blocked hdisplay (hnone .receive rfl) (hnone .print rfl)
  cases hregistry : c.registry with
  | displaying lines reply =>
    cases lines with
    | nil =>
      have hanswer := hnone .answer rfl
      simp only [Console.next, hregistry, reduceCtorEq] at hanswer
    | cons line lines =>
      -- the registry task waits for a place of the display channel
      have hemit := hnone .emit rfl
      simp only [Console.next, hregistry] at hemit
      split_ifs at hemit with hfree
      have hle := hlines (not_lt.mp hfree)
      simp only [Console.load, hregistry, RegistryTask.lines, List.length_cons] at hload
      omega
  | receiving =>
    have hqueue := queue_eq_nil_of_blocked hrunning hregistry fun answers ↦
      hnone (.take answers) rfl
    have hsend : ∀ input repl, c.send caps input repl ≠ none := by
      intro input repl
      simp only [Console.send, if_pos hrunning, Machine.send, hqueue, List.length_nil,
        if_pos hinput, Option.map_some]
      exact fun hs ↦ (by cases hs)
    cases hrepl : c.repl with
    | reading => rw [hrepl] at hwait; cases hwait
    | exited => rw [hrepl] at hwait; cases hwait
    | sending cmd =>
      have hs := hnone .send rfl
      simp only [Console.next, hrepl] at hs
      exact hsend _ _ hs
    | leaving =>
      have hs := hnone .send rfl
      simp only [Console.next, hrepl] at hs
      exact hsend _ _ hs
    | awaiting =>
      rcases h.pending hrunning hrepl with ⟨msg, hmem, -⟩ | ⟨lines, outcome, hr⟩ | hreply
      · rw [hqueue] at hmem
        cases hmem
      · cases hregistry.symm.trans hr
      · obtain ⟨outcome, ho⟩ := Option.isSome_iff_exists.mp hreply
        have hr := hnone .reply rfl
        simp only [Console.next, hrepl, ho, reduceCtorEq] at hr
    | showing line =>
      -- the REPL waits for a place of the display channel
      have hd := hnone .display rfl
      simp only [Console.next, hrepl] at hd
      split_ifs at hd with hfree
      have hle := hlines (not_lt.mp hfree)
      simp only [Console.load, hrepl, Repl.lines, List.length_singleton] at hload
      omega

/-- In every run in which the unprinted lines fit whenever the REPL is outside
of `read_line`, it is never blocked together with the registry and the display task. -/
theorem deadlock_free (hinput : 0 < caps.input) (hdisplay : 0 < caps.display)
    (hc : ReachableBy (consoleSystem caps) (Fits caps) c) : ¬Deadlocked caps c :=
  not_deadlocked (served_of_reachable hc) hinput hdisplay

end Steps

def Console.start : Console := ⟨.idle .empty, .receiving, none, [], none, [], .reading⟩

theorem Console.start_initial : Console.start.Initial :=
  ⟨⟨rfl, rfl, rfl, rfl, rfl⟩, rfl, rfl, rfl, rfl, rfl, rfl⟩

theorem deadlock_free_at_reply :
    ∃ c, run (Console.next ⟨1024, 1024, 20⟩) (fun c a ↦ decide (Fits ⟨1024, 1024, 20⟩ c a)) .start
        [.submit "open server 3000", .send, .take (.granting 0 []), .emit, .answer, .reply] =
          some c ∧
      c.repl.waiting = true ∧ ¬Deadlocked ⟨1024, 1024, 20⟩ c := by
  have hrun : ∃ c ∈ run (Console.next ⟨1024, 1024, 20⟩)
      (fun c a ↦ decide (Fits ⟨1024, 1024, 20⟩ c a)) .start
      [.submit "open server 3000", .send, .take (.granting 0 []), .emit, .answer, .reply],
      c.repl.waiting = true := by decide +kernel
  obtain ⟨c, hc, hw⟩ := hrun
  exact ⟨c, hc, hw, deadlock_free (by decide) (by decide)
    (reachableBy_run (fun _ _ hg ↦ of_decide_eq_true hg) (.init Console.start_initial) hc)⟩

end WireDock
